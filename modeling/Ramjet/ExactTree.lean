import Ramjet.DigestWf
import Ramjet.Lib.Walk

/-!
# The exact index as a tree

What every operation of `exact_index.rs` keeps: nodes hang under the root by their
blocks, and the reverse lookup names the residents.
-/

namespace Ramjet
open ExactKvIndex Slab DigestKvIndex AList List
namespace ExactKvIndex

def childAt (index : ExactKvIndex) (id : Nat) (block : List UInt32) : Option Nat :=
  (index.arena.get? id).bind fun node => node.children.lookup block

variable {index : ExactKvIndex}

theorem childAt_eq_some {id child : Nat} {block : List UInt32} :
    index.childAt id block = some child ↔
      ∃ node, index.arena.get? id = some node ∧ node.children.lookup block = some child := by
  simp [childAt, Option.bind_eq_some_iff]

variable {node : ExactNode}

theorem node_of_get? {id : Nat} (h : index.arena.get? id = some node) : index.node id = node := by
  simp [ExactKvIndex.node, h]

theorem childAt_of_get? {id : Nat} (h : index.arena.get? id = some node) (block : List UInt32) :
    index.childAt id block = node.children.lookup block := by
  simp [childAt, h]

theorem lookup_children (index : ExactKvIndex) (id : Nat) (block : List UInt32) :
    (index.node id).children.lookup block = index.childAt id block := by
  rcases h : index.arena.get? id with _ | node
  · simp [node, childAt, h, ExactNode.root]
  · simp [ExactKvIndex.node, childAt, h]

structure Tree (index : ExactKvIndex) : Prop where
  slab : index.arena.Wf
  root : ∃ node, index.arena.get? rootNode = some node ∧ node.parent = none ∧
    node.externalHash = none ∧ node.present
  child : ∀ p block i, index.childAt p block = some i →
    ∃ node, index.arena.get? i = some node ∧ node.parent = some p ∧ node.block = block
  parent : ∀ id node, index.arena.get? id = some node → id ≠ rootNode →
    ∃ p, node.parent = some p ∧ index.childAt p node.block = some id
  named : ∀ id node, index.arena.get? id = some node → id ≠ rootNode →
    ∃ hash, node.externalHash = some hash
  tried : ∀ id node block child, index.arena.get? id = some node →
    node.children.lookup block = some child → block.length ∈ node.childLengths
  lengths : ∀ id node, index.arena.get? id = some node → node.childLengths.Nodup

/-- The tree as the library reads it. -/
def view : NodeView ExactNode (List UInt32) Nat where
  Hangs node p block := node.parent = some p ∧ node.block = block
  entry node block := node.children.lookup block
  target := id
  hangs_unique h h' := ⟨Option.some.inj (h.1.symm.trans h'.1), h.2.symm.trans h'.2⟩

def nameView : NameView ExactNode ExternalBlockHash where
  name node := node.externalHash
  present node := node.present

def Resident (index : ExactKvIndex) (hash : ExternalBlockHash) (id : Nat) : Prop :=
  ∃ node, index.arena.get? id = some node ∧ node.present ∧ node.externalHash = some hash

structure Wf (index : ExactKvIndex) : Prop where
  tree : index.Tree
  filed : ∀ hash id, index.byExternalHash.lookup hash = some id ↔ index.Resident hash id

variable {index : ExactKvIndex}

namespace Tree

theorem hangs (h : index.Tree) : view.Tree rootNode index.arena where
  slab := h.slab
  child := h.child
  parent id node hg hn := by
    obtain ⟨p, hp, he⟩ := h.parent id node hg hn
    exact ⟨p, node.block, id, ⟨hp, rfl⟩, he, rfl⟩

theorem parent_of_hangs (h : view.Tree rootNode index.arena) (id : Nat) (node : ExactNode)
    (hg : index.arena.get? id = some node) (hn : id ≠ rootNode) :
    ∃ p, node.parent = some p ∧ index.childAt p node.block = some id := by
  obtain ⟨p, block, child, ⟨hp, rfl⟩, he, rfl⟩ := h.parent id node hg hn
  exact ⟨p, hp, he⟩

def Tries (node : ExactNode) : Prop :=
  (∀ block child, node.children.lookup block = some child → block.length ∈ node.childLengths) ∧
    node.childLengths.Nodup

theorem tries (h : index.Tree) (id : Nat) (node : ExactNode)
    (hg : index.arena.get? id = some node) : Tries node :=
  ⟨fun block child => h.tried id node block child hg, h.lengths id node hg⟩

theorem ne_root_of_hash (h : index.Tree) {id : Nat} {node : ExactNode} {hash : ExternalBlockHash}
    (hg : index.arena.get? id = some node) (hh : node.externalHash = some hash) :
    id ≠ rootNode := by
  rintro rfl
  obtain ⟨root, hr, -, hn, -⟩ := h.root
  rw [hr] at hg
  cases hg
  rw [hn] at hh
  cases hh

end Tree

theorem Wf.new (limits : ExactIndexLimits) : (ExactKvIndex.new limits).Wf := by
  have ho : ∀ i node, (ExactKvIndex.new limits).arena.get? i = some node →
      i = rootNode ∧ node = .root := fun _ _ h => get?_singleton_eq_some h
  have hc : ∀ p block i, (ExactKvIndex.new limits).childAt p block ≠ some i := by
    intro p block i he
    have ha : (ExactKvIndex.new limits).childAt p block = none :=
      NodeView.entryAt_singleton (V := view) (fun _ => rfl) p block
    rw [ha] at he
    cases he
  refine ⟨⟨singleton_wf _, ⟨.root, rfl, rfl, rfl, rfl⟩,
    fun p block i he => absurd he (hc p block i),
    fun id node hn hr => absurd (ho id node hn).1 hr,
    fun id node hn hr => absurd (ho id node hn).1 hr,
    fun id node block child hn hl => ?_, fun id node hn => ?_⟩,
    NameView.Filed.singleton (N := nameView) rfl⟩
  · rw [(ho id node hn).2] at hl
    cases hl
  · rw [(ho id node hn).2]
    exact nodup_nil

theorem Wf.clear (index : ExactKvIndex) : index.clear.Wf := by
  rw [clear_eq_new]
  exact .new _

/-! ## Changes that keep every node in its place -/

/-- A change of a node that leaves the tree alone. -/
structure SamePlace (node node' : ExactNode) : Prop where
  parent : node'.parent = node.parent
  block : node'.block = node.block
  children : node'.children = node.children
  childLengths : node'.childLengths = node.childLengths
  externalHash : node'.externalHash = node.externalHash

section Modify
variable {id : Nat} {f : ExactNode → ExactNode} {byExternalHash : HashMap ExternalBlockHash Nat}

theorem childAt_modify (hf : ∀ node, (f node).children = node.children) (i : Nat)
    (block : List UInt32) : childAt { index with
      arena := index.arena.modify id f
      byExternalHash } i block = index.childAt i block := by
  simp only [childAt, get?_modify]
  split
  · rcases index.arena.get? i with _ | node
    · rfl
    · simp [hf]
  · rfl

theorem Tree.modify (h : index.Tree)
    (hf : ∀ node, index.arena.get? id = some node → SamePlace node (f node)) (hi : id ≠ rootNode) :
    Tree { index with
      arena := index.arena.modify id f
      byExternalHash } := by
  have hs : ∀ node, index.arena.get? id = some node → view.Same node (f node) := by
    intro node hn
    have hl := hf node hn
    refine ⟨fun p key hh => ⟨hl.parent.trans hh.1, hl.block.trans hh.2⟩, fun key => ?_⟩
    exact congrArg (fun children => (lookup key children).map view.target) hl.children
  have hv := NodeView.Tree.modify hs h.hangs
  have ht := forall_modify (i := id) (f := f) h.tries fun node hn => by
    rw [Tree.Tries, (hf node hn).children, (hf node hn).childLengths]
    exact h.tries id node hn
  refine ⟨hv.slab, ?_, hv.child, Tree.parent_of_hangs hv,
    forall_modify h.named fun node hn he => ?_,
    fun i node block child hg => (ht i node hg).1 block child,
    fun i node hg => (ht i node hg).2⟩
  · obtain ⟨root, hr, ha⟩ := h.root
    exact ⟨root, by rw [get?_modify, if_neg hi, hr], ha⟩
  · rw [(hf node hn).externalHash]
    exact h.named id node hn he

end Modify

/-! ## A new leaf -/

def leaf (parentId : Nat) (block : List UInt32) (externalHash : ExternalBlockHash) : ExactNode where
  parent := some parentId
  block
  children := ∅
  childLengths := []
  externalHash := some externalHash
  present := true

def addChild (block : List UInt32) (id : Nat) (parent : ExactNode) : ExactNode :=
  { parent with
    children := parent.children.insert block id
    childLengths := addLength parent.childLengths block.length }

section InsertChild
variable {parentId : Nat} {block : List UInt32} {externalHash : ExternalBlockHash}

theorem get?_insertChild (hs : index.arena.Wf) (hl : index.arena.Live parentId)
    (block : List UInt32) (externalHash : ExternalBlockHash) (i : Nat) :
    (index.insertChild parentId block externalHash).2.arena.get? i =
      if (index.insertChild parentId block externalHash).1 = i then
        some (leaf parentId block externalHash) else if parentId = i then (index.arena.get? i).map
          (addChild block (index.insertChild parentId block externalHash).1)
      else index.arena.get? i :=
  get?_grow hs hl (leaf parentId block externalHash) (addChild block) i

theorem rewires_addChild (block : List UInt32) (id : Nat) :
    view.Rewires (addChild block id) block (some id) :=
  ⟨fun _ _ _ hh => hh, fun _ _ => lookup_insert_eq _ _ _ _⟩

theorem childAt_insertChild (hs : index.arena.Wf) (hl : index.arena.Live parentId)
    (block : List UInt32) (externalHash : ExternalBlockHash) (i : Nat) (key : List UInt32) :
    (index.insertChild parentId block externalHash).2.childAt i key =
      if i = parentId ∧ key = block then some (index.insertChild parentId block externalHash).1
      else index.childAt i key :=
  NodeView.entryAt_grow (l := leaf parentId block externalHash) hs hl (fun _ => rfl)
    (rewires_addChild block) i key

theorem forall_insertChild {P : Nat → ExactNode → Prop} (hs : index.arena.Wf)
    (h : ∀ i node, index.arena.get? i = some node → P i node)
    (hl : ∀ i, P i (leaf parentId block externalHash))
    (ha : ∀ id node, P parentId node → P parentId (addChild block id node)) (i : Nat)
    (node : ExactNode) : (index.insertChild parentId block externalHash).2.arena.get? i =
      some node → P i node :=
  forall_grow hs h hl ha i node

theorem Tree.insertChild (h : index.Tree) (ha : index.arena.Live parentId)
    (ho : index.childAt parentId block = none) (externalHash : ExternalBlockHash) :
    (index.insertChild parentId block externalHash).2.Tree := by
  have hv := NodeView.Tree.grow (l := leaf parentId block externalHash) h.slab ha
    (fun _ => rfl) (rewires_addChild block) h.hangs ho ⟨rfl, rfl⟩ fun _ => rfl
  have ht : ∀ i node, (index.insertChild parentId block externalHash).2.arena.get? i =
      some node → Tries node := forall_insertChild h.slab h.tries
    (fun _ => ⟨nofun, nodup_nil⟩) fun id node hn => by
      refine ⟨fun key child hl => ?_, nodup_addLength hn.2 _⟩
      simp only [addChild, lookup_insert_eq, mem_addLength] at hl ⊢
      split at hl
      next hk =>
        exact .inr (by rw [hk])
      · exact .inl (hn.1 key child hl)
  refine ⟨hv.slab, ?_, hv.child, Tree.parent_of_hangs hv,
    forall_insertChild h.slab h.named (fun _ _ => ⟨externalHash, rfl⟩) fun _ _ hn => hn,
    fun i node key child hg => (ht i node hg).1 key child,
    fun i node hg => (ht i node hg).2⟩
  obtain ⟨root, hr, hs⟩ := h.root
  have hw : (index.insertChild parentId block externalHash).1 ≠ rootNode :=
    grow_ne h.slab hr (leaf parentId block externalHash) parentId (addChild block)
  rw [get?_insertChild h.slab ha, if_neg hw, hr]
  split
  · exact ⟨_, rfl, hs⟩
  · exact ⟨root, rfl, hs⟩

end InsertChild

/-! ## The writes of a store -/

/-- The write of one position of a store. -/
def writeHash (index : ExactKvIndex) (childId : Nat) (externalHash : ExternalBlockHash) :
    ExactKvIndex :=
  { index with
    arena := index.arena.modify childId fun child =>
      { child with present := true, externalHash := some externalHash }
    byExternalHash := index.byExternalHash.insert externalHash childId }

theorem childAt_writeHash (id : Nat) (hash : ExternalBlockHash) (i : Nat) (block : List UInt32) :
    (index.writeHash id hash).childAt i block = index.childAt i block :=
  childAt_modify (fun _ => by rfl) i block

theorem lookup_writeHash (id : Nat) (hash hash' : ExternalBlockHash) :
    (index.writeHash id hash).byExternalHash.lookup hash' =
      if hash' = hash then some id else index.byExternalHash.lookup hash' :=
  lookup_insert_eq _ _ _ _

/-- The reverse lookup is right but for one node under one hash. -/
def FiledBut (index : ExactKvIndex) (id : Nat) (hash : ExternalBlockHash) : Prop :=
  ∀ hash' i, i ≠ id ∨ hash' ≠ hash →
    (index.byExternalHash.lookup hash' = some i ↔ index.Resident hash' i)

variable {hash : ExternalBlockHash}

theorem wf_writeHash (h : index.Tree) {id : Nat}
    (hg : index.arena.get? id = some node) (hh : node.externalHash = some hash)
    (hb : index.FiledBut id hash) (hf : ∀ i, index.byExternalHash.lookup hash = some i → i = id) :
    (index.writeHash id hash).Wf := by
  refine ⟨h.modify ?_ (h.ne_root_of_hash hg hh), ?_⟩
  · intro node' hn'
    rw [hg] at hn'
    cases hn'
    exact ⟨rfl, rfl, rfl, rfl, hh.symm⟩
  exact NameView.FiledBut.insert (N := nameView) hb hg hh ⟨rfl, rfl⟩ hf

theorem Wf.filedBut_insertChild (h : index.Wf) {cur : Nat} (hl : index.arena.Live cur)
    (block : List UInt32) (externalHash : ExternalBlockHash) :
    (index.insertChild cur block externalHash).2.FiledBut
      (index.insertChild cur block externalHash).1 externalHash := by
  exact NameView.Filed.grow (N := nameView) h.filed h.tree.slab hl
    (l := leaf cur block externalHash) rfl (g := addChild block) fun _ _ => ⟨rfl, rfl⟩

theorem insertPath_cons (cur : Nat) (block : List UInt32) (externalHash : ExternalBlockHash)
    (rest : List (List UInt32 × ExternalBlockHash)) :
    index.insertPath cur ((block, externalHash) :: rest) = match index.childAt cur block with
      | some cid => (index.writeHash cid externalHash).insertPath cid rest
      | none =>
        ((index.insertChild cur block externalHash).2.writeHash
          (index.insertChild cur block externalHash).1 externalHash).insertPath
          (index.insertChild cur block externalHash).1 rest := by
  rw [insertPath, lookup_children]
  rcases index.childAt cur block with _ | cid
  · rfl
  · rfl

/-- What a store has checked before it writes the rest of its path. -/
structure Pending (index : ExactKvIndex) (cursor : Nat)
    (items : List (List UInt32 × ExternalBlockHash)) (path : List Nat) : Prop where
  live : index.arena.Live cursor
  walk : index.existingPath cursor items = .ok path
  agree : hashesAgree index.byExternalHash (items.map Prod.snd) path
  nodup : (items.map Prod.snd).Nodup

theorem existingPath_congr {index' : ExactKvIndex}
    {items : List (List UInt32 × ExternalBlockHash)} (h : ∀ id,
      (index'.node id).children = (index.node id).children ∧
      (index'.node id).externalHash = (index.node id).externalHash) (hl : ∀ item ∈ items,
      index'.byExternalHash.lookup item.2 = index.byExternalHash.lookup item.2)
    (cur : Nat) : index'.existingPath cur items = index.existingPath cur items := by
  induction items generalizing cur with
  | nil => rfl
  | cons item rest ih =>
    obtain ⟨block, hash⟩ := item
    have hr := ih fun item hi => hl item (mem_cons_of_mem _ hi)
    have hh := hl (block, hash) (mem_cons_self ..)
    simp only [existingPath, (h _).1, (h _).2, hh, hr]

theorem existingPath_of_leaf {id : Nat} (h : ∀ block, index.childAt id block = none)
    (items : List (List UInt32 × ExternalBlockHash)) : index.existingPath id items = .ok [] := by
  rcases items with _ | ⟨⟨block, hash⟩, rest⟩
  · rfl
  · simp only [existingPath, lookup_children, h]

theorem node_writeHash (id : Nat) (hash : ExternalBlockHash)
    (hg : index.arena.get? id = some node) (hh : node.externalHash = some hash) (i : Nat) :
    ((index.writeHash id hash).node i).children = (index.node i).children ∧
      ((index.writeHash id hash).node i).externalHash = (index.node i).externalHash := by
  simp only [ExactKvIndex.node, writeHash, get?_modify]
  split
  next hi =>
    subst hi
    simp [hg, hh]
  · exact ⟨rfl, rfl⟩

section Store
variable {cur : Nat} {block : List UInt32} {externalHash : ExternalBlockHash}
  {rest : List (List UInt32 × ExternalBlockHash)} {path : List Nat}

section
variable (hp : index.Pending cur ((block, externalHash) :: rest) path)
include hp

theorem Pending.found (h : index.Wf) {cid : Nat} (he : index.childAt cur block = some cid) :
    ∃ child path', path = cid :: path' ∧ index.arena.get? cid = some child ∧
      child.externalHash = some externalHash ∧ index.existingPath cid rest = .ok path' := by
  obtain ⟨child, hc, -, -⟩ := h.tree.child _ _ _ he
  have hw := hp.walk
  simp only [existingPath, lookup_children, he] at hw
  split at hw
  · cases hw
  rename_i hh
  rw [not_not, node_of_get? hc] at hh
  split at hw
  · cases hw
  rcases hr : index.existingPath cid rest with error | path'
  · simp [hr, Except.map] at hw
  · simp only [hr, Except.map, Except.ok.injEq] at hw
    exact ⟨child, path', hw.symm, hc, hh, rfl⟩

theorem Pending.reuse (h : index.Wf) {cid : Nat} (he : index.childAt cur block = some cid) :
    (index.writeHash cid externalHash).Wf ∧
      (index.writeHash cid externalHash).Pending cid rest path.tail := by
  obtain ⟨child, path', rfl, hc, hh, hr⟩ := hp.found h he
  obtain ⟨hf, ha⟩ := hashesAgree_iff.1 hp.agree
  have hn := nodup_cons.1 hp.nodup
  refine ⟨?_, ?_⟩
  · refine wf_writeHash h.tree hc hh (fun hash i _ => h.filed hash i) ?_
    intro i hi
    have := hf i hi
    simpa [eq_comm] using this
  · refine ⟨?_, ?_, ?_, hn.2⟩
    · simp [Live, writeHash, hc]
    · rw [existingPath_congr (node_writeHash cid externalHash hc hh)]
      · exact hr
      intro item ht
      rw [lookup_writeHash, if_neg]
      intro heq
      exact hn.1 (mem_map.2 ⟨item, ht, heq⟩)
    · rw [writeHash, hashesAgree_insert hn.1]
      exact ha

theorem Pending.grow (h : index.Wf) (hn : index.childAt cur block = none) :
    let added := index.insertChild cur block externalHash
    (added.2.writeHash added.1 externalHash).Wf ∧
      (added.2.writeHash added.1 externalHash).Pending added.1 rest [] := by
  intro added
  have hb : path = [] := by
    have hw := hp.walk
    simp only [existingPath, lookup_children, hn, Except.ok.injEq] at hw
    exact hw.symm
  subst hb
  obtain ⟨hf, ha⟩ := hashesAgree_iff.1 hp.agree
  have hd := nodup_cons.1 hp.nodup
  have hg := get?_insertChild h.tree.slab hp.live block externalHash
  have hl : added.2.arena.get? added.1 = some (leaf cur block externalHash) := by
    rw [hg, if_pos rfl]
  refine ⟨wf_writeHash (h.tree.insertChild hp.live hn externalHash) hl rfl
    (h.filedBut_insertChild hp.live _ _) ?_, ?_, ?_, ?_, hd.2⟩
  · intro i hi
    simpa using hf i hi
  · simp [Live, writeHash, hl]
  · apply existingPath_of_leaf
    intro key
    rw [childAt_writeHash, childAt_of_get? hl]
    rfl
  · rw [writeHash, hashesAgree_insert hd.1]
    exact ha

end

variable {items : List (List UInt32 × ExternalBlockHash)}

theorem Pending.induct
    {motive : ExactKvIndex → Nat → List (List UInt32 × ExternalBlockHash) → ExactKvIndex → Prop}
    (nil : ∀ (index : ExactKvIndex) (cur : Nat), index.Wf → index.arena.Live cur →
      motive index cur [] index) (reuse : ∀ (index : ExactKvIndex) (cur : Nat) (block : List UInt32)
      (externalHash : ExternalBlockHash) (rest : List (List UInt32 × ExternalBlockHash))
      (path : List Nat) (cid : Nat) (final : ExactKvIndex), index.Wf →
      index.Pending cur ((block, externalHash) :: rest) path → index.childAt cur block = some cid →
      motive (index.writeHash cid externalHash) cid rest final →
      motive index cur ((block, externalHash) :: rest) final)
    (grow : ∀ (index : ExactKvIndex) (cur : Nat) (block : List UInt32)
      (externalHash : ExternalBlockHash) (rest : List (List UInt32 × ExternalBlockHash))
      (path : List Nat) (final : ExactKvIndex), index.Wf →
      index.Pending cur ((block, externalHash) :: rest) path → index.childAt cur block = none →
      motive ((index.insertChild cur block externalHash).2.writeHash
        (index.insertChild cur block externalHash).1 externalHash)
        (index.insertChild cur block externalHash).1 rest final →
      motive index cur ((block, externalHash) :: rest) final) (h : index.Wf)
    (hp : index.Pending cur items path) : motive index cur items (index.insertPath cur items) := by
  induction items generalizing index cur path with
  | nil => exact nil index cur h hp.live
  | cons item rest ih =>
    obtain ⟨block, externalHash⟩ := item
    rw [insertPath_cons]
    rcases he : index.childAt cur block with _ | cid
    · obtain ⟨hwf, hn⟩ := hp.grow h he
      exact grow _ _ _ _ _ _ _ h hp he (ih hwf hn)
    · obtain ⟨hwf, hn⟩ := hp.reuse h he
      exact reuse _ _ _ _ _ _ _ _ h hp he (ih hwf hn)

theorem Pending.insertPath (h : index.Wf) (hp : index.Pending cur items path) :
    (index.insertPath cur items).Wf := by
  refine hp.induct (motive := fun _ _ _ final => final.Wf) ?_ ?_ ?_ h
  · exact fun _ _ hwf _ => hwf
  · exact fun _ _ _ _ _ _ _ _ _ _ _ hf => hf
  · exact fun _ _ _ _ _ _ _ _ _ _ hf => hf

/-- What a store has found when all its checks pass. -/
structure Checked (index : ExactKvIndex) (event : BlockStored) (parentId : Nat)
    (path : List Nat) : Prop where
  size : 0 < event.blockSize
  hashes : (chunks event.blockSize event.tokenIds).length = event.blockHashes.length
  parent : event.parentBlockHash.elim (some rootNode) index.byExternalHash.lookup = some parentId
  nodup : event.blockHashes.Nodup
  walk : index.existingPath parentId
    ((chunks event.blockSize event.tokenIds).zip event.blockHashes) = .ok path
  agree : hashesAgree index.byExternalHash event.blockHashes path

variable {event : BlockStored}

theorem checked_of_checkStore {parentId : Nat}
    (hc : index.checkStore event = .ok parentId) : ∃ path, index.Checked event parentId path := by
  simp only [checkStore] at hc
  split at hc
  · cases hc
  rename_i hh
  rcases hr : event.parentBlockHash.elim (some rootNode) index.byExternalHash.lookup with
    _ | parent
  · simp [hr] at hc
  simp only [hr] at hc
  split at hc
  · cases hc
  rename_i hn
  rcases hw : index.existingPath parent
    ((chunks event.blockSize event.tokenIds).zip event.blockHashes) with error | path
  · simp [hw] at hc
  simp only [hw] at hc
  split at hc
  · cases hc
  rename_i ha
  split at hc
  · cases hc
  cases hc
  simp only [not_or, ne_eq, not_not] at hh hn
  have hs : 0 < event.blockSize := Nat.pos_of_ne_zero hh.1
  refine ⟨path, hs, ?_, hr, (nodup_append.1 hn).2.1, hw, by simpa using ha⟩
  rw [length_chunks hs]
  exact hh.2.2.2

theorem Checked.pending (h : index.Wf) {parentId : Nat} (hc : index.Checked event parentId path) :
    index.Pending parentId ((chunks event.blockSize event.tokenIds).zip event.blockHashes)
      path := by
  have hh : ((chunks event.blockSize event.tokenIds).zip event.blockHashes).map Prod.snd =
      event.blockHashes := map_snd_zip (by rw [hc.hashes])
  refine ⟨?_, hc.walk, by rw [hh]; exact hc.agree, by rw [hh]; exact hc.nodup⟩
  have ha := hc.parent
  rcases hp : event.parentBlockHash with _ | hash
  · rw [hp] at ha
    cases ha
    obtain ⟨root, hr, -⟩ := h.tree.root
    exact live_iff.2 ⟨root, hr⟩
  · rw [hp] at ha
    obtain ⟨node, hn, -⟩ := (h.filed _ _).1 ha
    exact live_iff.2 ⟨node, hn⟩

theorem Wf.store (h : index.Wf) (event : BlockStored) : (index.store event).2.Wf := by
  unfold ExactKvIndex.store
  split
  · exact h
  rename_i parentId hk
  obtain ⟨path, hc⟩ := checked_of_checkStore hk
  exact (hc.pending h).insertPath h

end Store

/-! ## Removals -/

/-- One step of the pruning: a leaf goes and its parent forgets it. -/
def dropLeaf (index : ExactKvIndex) (id : Nat) (node : ExactNode) (parentId : Nat) : ExactKvIndex :=
  { index with
    arena := (index.arena.release id).modify parentId fun parent =>
      { parent with children := parent.children.erase node.block }
    liveNodes := index.liveNodes - 1
    residentTokenIds := index.residentTokenIds - node.block.length }

theorem pruneFrom_succ (fuel id : Nat) : index.pruneFrom (fuel + 1) id = if id = rootNode then index
    else if (index.node id).present || !(index.node id).children.entries.isEmpty then index
    else
      match (index.node id).parent with
      | none => index
      | some parentId => (index.dropLeaf id (index.node id) parentId).pruneFrom fuel parentId := rfl

section DropLeaf
variable {id parentId : Nat} {node : ExactNode}

theorem get?_dropLeaf (i : Nat) : (index.dropLeaf id node parentId).arena.get? i =
    if id = i then none
    else if parentId = i then
      (index.arena.get? i).map fun parent =>
        { parent with children := parent.children.erase node.block }
    else index.arena.get? i :=
  get?_drop _ _ _ _ i

theorem rewires_eraseChild (block : List UInt32) : view.Rewires
    (fun parent => { parent with children := parent.children.erase block }) block none :=
  ⟨fun _ _ _ hh => hh, fun _ _ => lookup_erase_eq _ _ _⟩

theorem childAt_dropLeaf (hg : index.arena.get? id = some node)
    (he : node.children.entries.isEmpty) (parentId : Nat) (i : Nat) (block : List UInt32) :
    (index.dropLeaf id node parentId).childAt i block =
      if i = parentId ∧ block = node.block then none else index.childAt i block :=
  NodeView.entryAt_drop hg ((entries_isEmpty_iff node.children).1 he)
    (rewires_eraseChild node.block) parentId i block

theorem Tree.dropLeaf (h : index.Tree) (hg : index.arena.get? id = some node)
    (hb : id ≠ rootNode) (he : node.children.entries.isEmpty)
    (ha : node.parent = some parentId) : (index.dropLeaf id node parentId).Tree := by
  have hv := NodeView.Tree.drop hg ((entries_isEmpty_iff node.children).1 he)
    (rewires_eraseChild node.block) h.hangs hb ⟨ha, rfl⟩
  have ht := forall_drop (i := id) (p := parentId)
    (f := fun parent : ExactNode => { parent with children := parent.children.erase node.block })
    h.tries fun other ho => by
      refine ⟨fun block child hl => ?_, ho.2⟩
      simp only [lookup_erase_eq] at hl
      split at hl
      · cases hl
      · exact ho.1 block child hl
  refine ⟨hv.slab, ?_, hv.child, Tree.parent_of_hangs hv, forall_drop h.named fun _ ho => ho,
    fun i node block child hg => (ht i node hg).1 block child,
    fun i node hg => (ht i node hg).2⟩
  obtain ⟨root, hr, hs⟩ := h.root
  rw [get?_dropLeaf, if_neg hb, hr]
  split
  · exact ⟨_, rfl, hs⟩
  · exact ⟨root, rfl, hs⟩

theorem Wf.dropLeaf (h : index.Wf) (hg : index.arena.get? id = some node) (hr : id ≠ rootNode)
    (hb : node.present = false) (he : node.children.entries.isEmpty)
    (ha : node.parent = some parentId) : (index.dropLeaf id node parentId).Wf := by
  refine ⟨h.tree.dropLeaf hg hr he ha, ?_⟩
  refine NameView.Filed.drop (N := nameView) h.filed hg hb (fun _ => ?_) parentId
  exact ⟨rfl, rfl⟩

end DropLeaf

theorem Wf.pruneFrom_induct {motive : ExactKvIndex → Prop}
    (drop : ∀ (index : ExactKvIndex) (id parentId : Nat) (node : ExactNode), index.Wf →
      index.arena.get? id = some node → id ≠ rootNode → node.present = false →
      node.children.entries.isEmpty → node.parent = some parentId → motive index →
      motive (index.dropLeaf id node parentId)) (h : index.Wf) (hm : motive index) (fuel id : Nat) :
    (index.pruneFrom fuel id).Wf ∧ motive (index.pruneFrom fuel id) := by
  induction fuel generalizing index id with
  | zero => exact ⟨h, hm⟩
  | succ fuel ih =>
    rw [pruneFrom_succ]
    split
    · exact ⟨h, hm⟩
    rename_i hr
    split
    · exact ⟨h, hm⟩
    rename_i hl
    rcases hg : index.arena.get? id with _ | node
    · -- a vacant slot reads as the root, which is resident
      simp [node, hg, ExactNode.root] at hl
    rw [node_of_get? hg] at hl ⊢
    rcases ha : node.parent with _ | parentId
    · exact ⟨h, hm⟩
    simp only [Bool.or_eq_true, not_or, Bool.not_eq_true, Bool.not_eq_eq_eq_not,
      Bool.not_true] at hl
    have he : node.children.entries.isEmpty := by simpa using hl.2
    exact ih (h.dropLeaf hg hr hl.1 he ha)
      (drop index id parentId node h hg hr hl.1 he ha hm) parentId

/-- The index between the removal of a hash and the pruning. -/
def vacate (index : ExactKvIndex) (id : Nat) (externalHash : ExternalBlockHash) : ExactKvIndex :=
  { index with
    arena := index.arena.modify id fun node => { node with present := false }
    byExternalHash := index.byExternalHash.erase externalHash }

section
variable (h : index.Wf)
include h

theorem Wf.vacate {id : Nat}
    (hg : index.arena.get? id = some node) (hh : node.externalHash = some hash)
    (hl : index.byExternalHash.lookup hash = some id) : (index.vacate id hash).Wf := by
  refine ⟨h.tree.modify (fun _ _ => ⟨rfl, rfl, rfl, rfl, rfl⟩) (h.tree.ne_root_of_hash hg hh), ?_⟩
  exact NameView.Filed.erase (N := nameView) h.filed hg hh hl rfl

theorem Wf.removeHash_eq (hash : ExternalBlockHash) : index.removeHash hash =
      match index.byExternalHash.lookup hash with
      | none => (false, index)
      | some id =>
        (true, (index.vacate id hash).pruneFrom (index.vacate id hash).arena.slots.length id) := by
  unfold ExactKvIndex.removeHash
  rcases hl : index.byExternalHash.lookup hash with _ | id
  · rfl
  · obtain ⟨node, hn, hr, hh⟩ := (h.filed _ _).1 hl
    simp [ExactKvIndex.node, hn, hr, hh, ExactKvIndex.vacate]

theorem Wf.removeHash (hash : ExternalBlockHash) : (index.removeHash hash).2.Wf := by
  rw [h.removeHash_eq]
  rcases hl : index.byExternalHash.lookup hash with _ | id
  · exact h
  obtain ⟨node, hn, -, hh⟩ := (h.filed _ _).1 hl
  have hwf := h.vacate hn hh hl
  exact (hwf.pruneFrom_induct (motive := fun _ => True) (fun _ _ _ _ _ _ _ _ _ _ _ => trivial)
    trivial _ _).1

theorem Wf.removeHashes (hashes : List ExternalBlockHash) : (index.removeHashes hashes).2.Wf := by
  induction hashes generalizing index with
  | nil => exact h
  | cons hash rest ih => exact ih (h.removeHash hash)

theorem Wf.remove (event : BlockRemoved) : (index.remove event).2.Wf :=
  h.removeHashes event.blockHashes

end
end ExactKvIndex
end Ramjet
