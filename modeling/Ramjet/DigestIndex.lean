import Ramjet.BlockDigest
import Ramjet.ExactIndex

/-!
# Digest index

The compact index of `digest_index.rs`: block commitments label the edges, and an edge
whose primary commitment collides is poisoned.
-/

namespace Ramjet

structure DigestIndexLimits where
  maxNodes : Nat
  maxLogicalTokenIds : Nat
  maxLookupSteps : Nat
  maxExternalHashBytes : Nat
  maxTotalExternalHashBytes : Nat
  deriving DecidableEq

structure DigestMatch where
  blocks : Nat
  tokenIds : Nat
  deriving DecidableEq

inductive DigestIndexError where
  | blockDigest | inconsistentBlockShape | parentNotFound | duplicateHash | digestCollision
  | capacityExceeded | lookupBudgetExceeded | snapshotDigestMismatch | snapshotGroupNotFound
  | invalidSnapshotScope | unsupportedSnapshotGroups | invalidSnapshotRecord | cancelled
  deriving DecidableEq

inductive ChildEntry where
  | unique (guard : Bytes 16) (node : Nat)
  | poisoned (node : Nat)
  deriving DecidableEq

def ChildEntry.node : ChildEntry → Nat
  | unique _ node => node
  | poisoned node => node

structure DigestNode where
  parent : Option Nat
  block : Option PrimaryCommitment
  children : HashMap PrimaryCommitment ChildEntry
  childLengths : List Nat
  externalHash : Option ExternalBlockHash
  present : Bool
  logicalTokenIds : Nat

def DigestNode.root : DigestNode where
  parent := none
  block := none
  children := ∅
  childLengths := []
  externalHash := none
  present := true
  logicalTokenIds := 0

abbrev CommitFn := BlockDigester → List UInt32 → Except DigestIndexError BlockCommitment

def commitBlock : CommitFn := fun digester tokenIds =>
  match digester.commit tokenIds with
  | .ok commitment => .ok commitment
  | .error _ => .error .blockDigest

def externalHashLen : ExternalBlockHash → Nat
  | .bytes bytes => bytes.length
  | .signed _ => 8
  | .unsigned _ => 8

structure DigestKvIndex where
  limits : DigestIndexLimits
  digester : BlockDigester
  commit : CommitFn
  arena : Slab DigestNode
  byExternalHash : HashMap ExternalBlockHash Nat
  liveNodes : Nat
  logicalTokenIds : Nat
  externalHashBytes : Nat
  poisonedEdges : Nat

namespace DigestKvIndex
variable (limits : DigestIndexLimits) (digester : BlockDigester)

def withCommit (commit : CommitFn) :
    DigestKvIndex where
  limits
  digester
  commit
  arena := .singleton .root
  byExternalHash := ∅
  liveNodes := 0
  logicalTokenIds := 0
  externalHashBytes := 0
  poisonedEdges := 0

def new : DigestKvIndex :=
  withCommit limits digester commitBlock

variable (index : DigestKvIndex)

def clear : DigestKvIndex :=
  { index with
    arena := .singleton .root
    byExternalHash := ∅
    liveNodes := 0
    logicalTokenIds := 0
    externalHashBytes := 0
    poisonedEdges := 0 }

def node (id : Nat) : DigestNode := (index.arena.get? id).getD .root

def poison (parentId : Nat) (primary : PrimaryCommitment) :
    DigestKvIndex :=
  match (index.node parentId).children.lookup primary with
  | some (.unique _ node) =>
    { index with
      arena := index.arena.modify parentId fun parent =>
        { parent with children := parent.children.insert primary (.poisoned node) }
      poisonedEdges := index.poisonedEdges + 1 }
  | _ => index

def validExternalHash (hash : ExternalBlockHash) : Bool :=
  externalHashLen hash ≠ 0 && externalHashLen hash ≤ index.limits.maxExternalHashBytes

/-- `ensure_capacity` succeeds. -/
def hasCapacity (newNodes newTokenIds newHashBytes : Nat) : Bool :=
  index.liveNodes + newNodes ≤ index.limits.maxNodes &&
    index.logicalTokenIds + newTokenIds ≤ index.limits.maxLogicalTokenIds &&
    index.externalHashBytes + newHashBytes ≤ index.limits.maxTotalExternalHashBytes

def insertChild (parentId : Nat) (commitment : BlockCommitment)
    (externalHash : ExternalBlockHash) (logicalTokenIds : Nat) : Nat × DigestKvIndex :=
  let (id, arena) := index.arena.alloc
    { parent := some parentId
      block := some commitment.primary
      children := ∅
      childLengths := []
      externalHash := some externalHash
      present := true
      logicalTokenIds }
  let arena := arena.modify parentId fun parent =>
    { parent with
      children := parent.children.insert commitment.primary (.unique commitment.guard id)
      childLengths := addLength parent.childLengths commitment.primary.tokenCount.toNat }
  (id,
    { index with
      arena
      liveNodes := index.liveNodes + 1
      logicalTokenIds := index.logicalTokenIds + logicalTokenIds
      externalHashBytes := index.externalHashBytes + externalHashLen externalHash })

def existingPath (index : DigestKvIndex) (cursor : Nat) :
    List (BlockCommitment × ExternalBlockHash) →
      Except (Option (Nat × PrimaryCommitment)) (List Nat)
  | [] => .ok []
  | (commitment, externalHash) :: rest =>
    match (index.node cursor).children.lookup commitment.primary with
    | none => .ok []
    | some (.poisoned _) => .error none
    | some (.unique guard childId) =>
      if guard ≠ commitment.guard then .error (some (cursor, commitment.primary))
      else if (index.node childId).externalHash ≠ some externalHash then
        .error (some (cursor, commitment.primary))
      else (index.existingPath childId rest).map (childId :: ·)

def commitAll (index : DigestKvIndex) :
    List (List UInt32) → Except DigestIndexError (List BlockCommitment)
  | [] => .ok []
  | chunk :: rest =>
    match index.commit index.digester chunk with
    | .error error => .error error
    | .ok commitment => (index.commitAll rest).map (commitment :: ·)

def checkStore (index : DigestKvIndex) (event : BlockStored) :
    Except (DigestIndexError × Option (Nat × PrimaryCommitment)) (Nat × List BlockCommitment) :=
  if event.blockSize = 0 ∨ event.tokenIds = [] ∨ event.blockHashes = [] ∨
      divCeil event.tokenIds.length event.blockSize ≠ event.blockHashes.length then
    .error (.inconsistentBlockShape, none)
  else if !event.blockHashes.all index.validExternalHash then .error (.capacityExceeded, none)
  else
    match event.parentBlockHash.elim (some rootNode) index.byExternalHash.lookup with
    | none => .error (.parentNotFound, none)
    | some parentId =>
      if ¬ (event.parentBlockHash.toList ++ event.blockHashes).Nodup then
        .error (.duplicateHash, none)
      else
        let blocks := chunks event.blockSize event.tokenIds
        match index.commitAll blocks with
        | .error error => .error (error, none)
        | .ok commitments =>
          match index.existingPath parentId (commitments.zip event.blockHashes) with
          | .error edge => .error (.digestCollision, edge)
          | .ok path =>
            if !hashesAgree index.byExternalHash event.blockHashes path then
              .error (.digestCollision, none)
            else
              let newNodes := commitments.length - path.length
              let newTokenIds := ((blocks.drop path.length).map List.length).sum
              let newHashBytes := ((event.blockHashes.drop path.length).map externalHashLen).sum
              if !index.hasCapacity newNodes newTokenIds newHashBytes then
                .error (.capacityExceeded, none)
              else .ok (parentId, commitments)

def insertPath (index : DigestKvIndex) (cursor : Nat) :
    List ((BlockCommitment × ExternalBlockHash) × Nat) →
      Except DigestIndexError Unit × DigestKvIndex
  | [] => (.ok (), index)
  | ((commitment, externalHash), length) :: rest =>
    let write (childId : Nat) (index : DigestKvIndex) : DigestKvIndex :=
      { index with
        arena := index.arena.modify childId fun child =>
          { child with present := true, externalHash := some externalHash }
        byExternalHash := index.byExternalHash.insert externalHash childId }
    match (index.node cursor).children.lookup commitment.primary with
    | some (.unique _ childId) => (write childId index).insertPath childId rest
    | some (.poisoned _) => (.error .digestCollision, index)
    | none =>
      let (childId, index) := index.insertChild cursor commitment externalHash length
      (write childId index).insertPath childId rest

def store (event : BlockStored) :
    Except DigestIndexError Nat × DigestKvIndex :=
  match index.checkStore event with
  | .error (error, none) => (.error error, index)
  | .error (error, some (parentId, primary)) => (.error error, index.poison parentId primary)
  | .ok (parentId, commitments) =>
    let (result, index) := index.insertPath parentId
      ((commitments.zip event.blockHashes).zip
        ((chunks event.blockSize event.tokenIds).map List.length))
    (result.map fun _ => event.blockHashes.length, index)

def pruneFrom (index : DigestKvIndex) : Nat → Nat → DigestKvIndex
  | 0, _ => index
  | fuel + 1, id =>
    if id = rootNode then index
    else
      let node := index.node id
      if node.present || !node.children.entries.isEmpty then index
      else
        match node.parent, node.block with
        | some parentId, some block =>
          if (index.node parentId).children.lookup block = some (.poisoned id) then index
          else
            let index := { index with
              arena := (index.arena.release id).modify parentId fun parent =>
                { parent with children := parent.children.erase block }
              liveNodes := index.liveNodes - 1
              logicalTokenIds := index.logicalTokenIds - node.logicalTokenIds
              externalHashBytes :=
                index.externalHashBytes - node.externalHash.elim 0 externalHashLen }
            index.pruneFrom fuel parentId
        | _, _ => index

/-- One hash of a removal, and whether a block went with it. -/
def removeHash (externalHash : ExternalBlockHash) :
    Bool × DigestKvIndex :=
  match index.byExternalHash.lookup externalHash with
  | none => (false, index)
  | some id =>
    let index := { index with byExternalHash := index.byExternalHash.erase externalHash }
    let node := index.node id
    if !node.present || node.externalHash ≠ some externalHash then (false, index)
    else
      let index := { index with
        arena := index.arena.modify id fun node => { node with present := false } }
      (true, index.pruneFrom index.arena.slots.length id)

def removeHashes (index : DigestKvIndex) : List ExternalBlockHash → Nat × DigestKvIndex
  | [] => (0, index)
  | externalHash :: rest =>
    let (removed, index) := index.removeHash externalHash
    let (count, index) := index.removeHashes rest
    ((if removed then 1 else 0) + count, index)

def remove (event : BlockRemoved) : Nat × DigestKvIndex :=
  index.removeHashes event.blockHashes

/-- The edges a lookup of `tokenIds` follows. -/
def lookupGraph (tokenIds : List UInt32) :
    PrefixSearch.Graph Nat DigestIndexError where
  lengths id := (index.node id).childLengths
  edge id start stop :=
    match index.commit index.digester (slice tokenIds start stop) with
    | .error error => .error error
    | .ok commitment => .ok <|
      match (index.node id).children.lookup commitment.primary with
      | some (.unique guard childId) =>
        if guard = commitment.guard ∧ (index.node childId).present then some childId else none
      | _ => none

def findLongest (tokenIds : List UInt32) :
    Except DigestIndexError DigestMatch :=
  (PrefixSearch.longest (index.lookupGraph tokenIds) index.limits.maxLookupSteps tokenIds.length
    .lookupBudgetExceeded rootNode).map fun best => ⟨best.edges, best.consumed⟩

end DigestKvIndex
end Ramjet
