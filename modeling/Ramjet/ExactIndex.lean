import Ramjet.Lib.Slab
import Ramjet.Lib.PrefixSearch
import Ramjet.KvWire

/-!
# Exact index

The block tree of `exact_index.rs`: token blocks label the edges, engine hashes are
reverse-lookup keys.
-/

namespace Ramjet
open List

def rootNode : Nat := 0

/-- `slice::chunks`; the last chunk may be short. -/
def chunks {α : Type} (size : Nat) (items : List α) : List (List α) :=
  go items.length items
where
  go : Nat → List α → List (List α)
    | 0, _ => []
    | fuel + 1, items => if items.isEmpty then [] else items.take size :: go fuel (items.drop size)

/-- The slice `tokens[start..stop]`. -/
def slice (tokens : List UInt32) (start stop : Nat) : List UInt32 :=
  (tokens.drop start).take (stop - start)

/-- Record a child length once, in descending order. -/
def addLength (lengths : List Nat) (length : Nat) : List Nat :=
  if length ∈ lengths then lengths
  else (lengths ++ [length]).insertionSort (fun left right => right ≤ left)

@[simp] theorem mem_addLength {lengths : List Nat} {length a : Nat} :
    a ∈ addLength lengths length ↔ a ∈ lengths ∨ a = length := by
  unfold addLength
  split
  next h =>
    constructor
    · exact .inl
    · rintro (ha | rfl)
      exacts [ha, h]
  · simp

theorem nodup_addLength {lengths : List Nat} (h : lengths.Nodup) (length : Nat) :
    (addLength lengths length).Nodup := by
  unfold addLength
  split
  · exact h
  rename_i hw
  rw [(perm_insertionSort _ _).nodup_iff, ← concat_eq_append]
  exact h.concat hw

/-- A hash already in use may only name the node at its own position. -/
def hashesAgree (byExternalHash : HashMap ExternalBlockHash Nat) :
    List ExternalBlockHash → List Nat → Bool
  | [], _ => true
  | hash :: rest, path =>
    ((byExternalHash.lookup hash).all fun existing => path.head? = some existing) &&
      hashesAgree byExternalHash rest path.tail

structure ExactIndexLimits where
  maxNodes : Nat
  maxTokenIds : Nat
  maxLookupSteps : Nat

structure ExactMatch where
  blocks : Nat
  tokenIds : Nat
  deriving DecidableEq

inductive ExactIndexError where
  | inconsistentBlockShape | parentNotFound | duplicateHash | conflictingPath | conflictingGroupKind
  | capacityExceeded | lookupBudgetExceeded
  deriving DecidableEq

structure ExactNode where
  parent : Option Nat
  block : List UInt32
  children : HashMap (List UInt32) Nat
  childLengths : List Nat
  externalHash : Option ExternalBlockHash
  present : Bool

def ExactNode.root : ExactNode where
  parent := none
  block := []
  children := ∅
  childLengths := []
  externalHash := none
  present := true

/-- The arena holds the source's `nodes` and `free_nodes`. -/
structure ExactKvIndex where
  limits : ExactIndexLimits
  arena : Slab ExactNode
  byExternalHash : HashMap ExternalBlockHash Nat
  liveNodes : Nat
  residentTokenIds : Nat

namespace ExactKvIndex

def new (limits : ExactIndexLimits) : ExactKvIndex where
  limits
  arena := .singleton .root
  byExternalHash := ∅
  liveNodes := 0
  residentTokenIds := 0

def clear (index : ExactKvIndex) : ExactKvIndex :=
  { index with
    arena := .singleton .root
    byExternalHash := ∅
    liveNodes := 0
    residentTokenIds := 0 }

def node (index : ExactKvIndex) (id : Nat) : ExactNode := (index.arena.get? id).getD .root

def insertChild (index : ExactKvIndex) (parentId : Nat) (chunk : List UInt32)
    (externalHash : ExternalBlockHash) : Nat × ExactKvIndex :=
  let (id, arena) := index.arena.alloc
    { parent := some parentId
      block := chunk
      children := ∅
      childLengths := []
      externalHash := some externalHash
      present := true }
  let arena := arena.modify parentId fun parent =>
    { parent with
      children := parent.children.insert chunk id
      childLengths := addLength parent.childLengths chunk.length }
  (id,
    { index with
      arena
      liveNodes := index.liveNodes + 1
      residentTokenIds := index.residentTokenIds + chunk.length })

/-- The nodes of the stored path that exist already. -/
def existingPath (index : ExactKvIndex) (cursor : Nat) :
    List (List UInt32 × ExternalBlockHash) → Except ExactIndexError (List Nat)
  | [] => .ok []
  | (chunk, externalHash) :: rest =>
    match (index.node cursor).children.lookup chunk with
    | none => .ok []
    | some childId =>
      if (index.node childId).externalHash ≠ some externalHash then .error .conflictingPath
      else if (index.byExternalHash.lookup externalHash).any (· ≠ childId) then
        .error .conflictingPath
      else (index.existingPath childId rest).map (childId :: ·)

def insertPath (index : ExactKvIndex) (cursor : Nat) :
    List (List UInt32 × ExternalBlockHash) → ExactKvIndex
  | [] => index
  | (chunk, externalHash) :: rest =>
    let (childId, index) := match (index.node cursor).children.lookup chunk with
      | some existing => (existing, index)
      | none => index.insertChild cursor chunk externalHash
    let index := { index with
      arena := index.arena.modify childId fun child =>
        { child with present := true, externalHash := some externalHash }
      byExternalHash := index.byExternalHash.insert externalHash childId }
    index.insertPath childId rest

def checkStore (index : ExactKvIndex) (event : BlockStored) : Except ExactIndexError Nat :=
  if event.blockSize = 0 ∨ event.tokenIds = [] ∨ event.blockHashes = [] ∨
      divCeil event.tokenIds.length event.blockSize ≠ event.blockHashes.length then
    .error .inconsistentBlockShape
  else
    match event.parentBlockHash.elim (some rootNode) index.byExternalHash.lookup with
    | none => .error .parentNotFound
    | some parentId =>
      if ¬ (event.parentBlockHash.toList ++ event.blockHashes).Nodup then .error .duplicateHash
      else
        let blocks := chunks event.blockSize event.tokenIds
        match index.existingPath parentId (blocks.zip event.blockHashes) with
        | .error error => .error error
        | .ok path =>
          if !hashesAgree index.byExternalHash event.blockHashes path then .error .conflictingPath
          else
            let newNodes := blocks.length - path.length
            let newTokenIds := ((blocks.drop path.length).map List.length).sum
            if index.liveNodes + newNodes > index.limits.maxNodes ∨
                index.residentTokenIds + newTokenIds > index.limits.maxTokenIds then
              .error .capacityExceeded
            else .ok parentId

def store (index : ExactKvIndex) (event : BlockStored) :
    Except ExactIndexError Nat × ExactKvIndex :=
  match index.checkStore event with
  | .error error => (.error error, index)
  | .ok parentId =>
    (.ok event.blockHashes.length,
      index.insertPath parentId
        ((chunks event.blockSize event.tokenIds).zip event.blockHashes))

def pruneFrom (index : ExactKvIndex) : Nat → Nat → ExactKvIndex
  | 0, _ => index
  | fuel + 1, id =>
    if id = rootNode then index
    else
      let node := index.node id
      if node.present || !node.children.entries.isEmpty then index
      else
        match node.parent with
        | none => index
        | some parentId =>
          let index := { index with
            arena := (index.arena.release id).modify parentId fun parent =>
              { parent with children := parent.children.erase node.block }
            liveNodes := index.liveNodes - 1
            residentTokenIds := index.residentTokenIds - node.block.length }
          index.pruneFrom fuel parentId

/-- One hash of a removal, and whether a block went with it. -/
def removeHash (index : ExactKvIndex) (externalHash : ExternalBlockHash) : Bool × ExactKvIndex :=
  match index.byExternalHash.lookup externalHash with
  | none => (false, index)
  | some id =>
    let index := { index with byExternalHash := index.byExternalHash.erase externalHash }
    let node := index.node id
    if !node.present || node.externalHash ≠ some externalHash then (false, index)
    else
      let index := { index with
        arena := index.arena.modify id fun node => { node with present := false } }
      (true, index.pruneFrom index.arena.slots.length id)

def removeHashes (index : ExactKvIndex) : List ExternalBlockHash → Nat × ExactKvIndex
  | [] => (0, index)
  | externalHash :: rest =>
    let (removed, index) := index.removeHash externalHash
    let (count, index) := index.removeHashes rest
    ((if removed then 1 else 0) + count, index)

def remove (index : ExactKvIndex) (event : BlockRemoved) : Nat × ExactKvIndex :=
  index.removeHashes event.blockHashes

/-- The edges a lookup of `tokenIds` follows. -/
def lookupGraph (index : ExactKvIndex) (tokenIds : List UInt32) :
    PrefixSearch.Graph Nat ExactIndexError where
  lengths id := (index.node id).childLengths
  edge id start stop := .ok <|
    match (index.node id).children.lookup (slice tokenIds start stop) with
    | none => none
    | some childId => if (index.node childId).present then some childId else none

def findLongest (index : ExactKvIndex) (tokenIds : List UInt32) :
    Except ExactIndexError ExactMatch :=
  (PrefixSearch.longest (index.lookupGraph tokenIds) index.limits.maxLookupSteps tokenIds.length
    .lookupBudgetExceeded rootNode).map fun best => ⟨best.edges, best.consumed⟩

theorem clear_eq_new (index : ExactKvIndex) : index.clear = new index.limits := rfl

@[simp] theorem limits_insertPath (index : ExactKvIndex) (cursor : Nat)
    (path : List (List UInt32 × ExternalBlockHash)) :
    (index.insertPath cursor path).limits = index.limits := by
  induction path generalizing index cursor with
  | nil => rfl
  | cons entry rest ih =>
    obtain ⟨chunk, hash⟩ := entry
    simp only [insertPath]
    rw [ih]
    split <;> rfl

variable {index : ExactKvIndex} {hash : ExternalBlockHash}

theorem mem_insertPath {cursor : Nat} {path : List (List UInt32 × ExternalBlockHash)}
    (h : hash ∈ (index.insertPath cursor path).byExternalHash) :
    hash ∈ index.byExternalHash ∨ hash ∈ path.map Prod.snd := by
  induction path generalizing index cursor with
  | nil => exact .inl h
  | cons entry rest ih =>
    obtain ⟨chunk, entryHash⟩ := entry
    simp only [insertPath] at h
    simp only [map_cons, mem_cons]
    rcases ih h with h | h
    · rw [AList.mem_insert] at h
      rcases h with h | h
      · exact .inr (.inl h)
      · refine .inl ?_
        split at h <;> exact h
    · exact .inr (.inr h)

@[simp] theorem limits_store (index : ExactKvIndex) (event : BlockStored) :
    (index.store event).2.limits = index.limits := by
  unfold store
  split
  · rfl
  · exact limits_insertPath _ _ _

theorem mem_store {event : BlockStored} (h : hash ∈ (index.store event).2.byExternalHash) :
    hash ∈ index.byExternalHash ∨ hash ∈ event.blockHashes := by
  unfold store at h
  split at h
  · exact .inl h
  rcases mem_insertPath h with h | h
  · exact .inl h
  · obtain ⟨⟨chunk, entryHash⟩, he, rfl⟩ := mem_map.1 h
    exact .inr (of_mem_zip he).2

@[simp] theorem limits_pruneFrom (index : ExactKvIndex) (fuel id : Nat) :
    (index.pruneFrom fuel id).limits = index.limits := by
  induction fuel generalizing index id with
  | zero => rfl
  | succ fuel ih =>
    simp only [pruneFrom]
    repeat' (first | rfl | rw [ih] | split)

@[simp] theorem byExternalHash_pruneFrom (index : ExactKvIndex) (fuel id : Nat) :
    (index.pruneFrom fuel id).byExternalHash = index.byExternalHash := by
  induction fuel generalizing index id with
  | zero => rfl
  | succ fuel ih =>
    simp only [pruneFrom]
    repeat' (first | rfl | rw [ih] | split)

@[simp] theorem limits_removeHash (index : ExactKvIndex) (hash : ExternalBlockHash) :
    (index.removeHash hash).2.limits = index.limits := by
  simp only [removeHash]
  split
  · rfl
  split
  · rfl
  · exact limits_pruneFrom _ _ _

theorem mem_removeHash {removed : ExternalBlockHash}
    (h : hash ∈ (index.removeHash removed).2.byExternalHash) : hash ∈ index.byExternalHash := by
  simp only [removeHash] at h
  split at h
  · exact h
  split at h
  · exact (AList.mem_erase.1 h).2
  · rw [byExternalHash_pruneFrom] at h
    exact (AList.mem_erase.1 h).2

theorem removeHash_of_absent (h : hash ∉ index.byExternalHash) :
    index.removeHash hash = (false, index) := by
  rw [← AList.lookup_eq_none] at h
  simp [removeHash, h]

@[simp] theorem limits_removeHashes (index : ExactKvIndex) (hashes : List ExternalBlockHash) :
    (index.removeHashes hashes).2.limits = index.limits := by
  induction hashes generalizing index with
  | nil => rfl
  | cons hash rest ih =>
    simp only [removeHashes]
    rw [ih, limits_removeHash]

variable {hashes : List ExternalBlockHash}

theorem mem_removeHashes (h : hash ∈ (index.removeHashes hashes).2.byExternalHash) :
    hash ∈ index.byExternalHash := by
  induction hashes generalizing index with
  | nil => exact h
  | cons head rest ih =>
    simp only [removeHashes] at h
    exact mem_removeHash (ih h)

theorem removeHashes_of_absent (h : ∀ hash ∈ hashes, hash ∉ index.byExternalHash) :
    index.removeHashes hashes = (0, index) := by
  induction hashes with
  | nil => rfl
  | cons hash rest ih =>
    simp only [forall_mem_cons] at h
    simp [removeHashes, removeHash_of_absent h.1, ih h.2]

end ExactKvIndex
end Ramjet
