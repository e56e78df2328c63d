import Ramjet.Lib.SlabTree
import Ramjet.DigestIndex

/-!
# The tree behind the digest index

Every live node but the root hangs from a live parent under its own block, and the
counters are totals over live nodes.
-/

namespace Ramjet
open Slab AList Option
namespace DigestKvIndex

def entryAt (index : DigestKvIndex) (id : Nat) (key : PrimaryCommitment) : Option ChildEntry :=
  (index.arena.get? id).bind fun node => node.children.lookup key

variable {index : DigestKvIndex} {id : Nat}

theorem entryAt_eq_some {key : PrimaryCommitment} {entry : ChildEntry} :
    index.entryAt id key = some entry ↔
      ∃ node, index.arena.get? id = some node ∧ node.children.lookup key = some entry := by
  simp [entryAt, bind_eq_some_iff]

variable {node : DigestNode}

theorem node_of_get? (h : index.arena.get? id = some node) : index.node id = node := by
  simp [DigestKvIndex.node, h]

theorem entryAt_of_get? (h : index.arena.get? id = some node) (key : PrimaryCommitment) :
    index.entryAt id key = node.children.lookup key := by
  simp [entryAt, h]

/-- What a node other than the root carries. -/
structure Labelled (index : DigestKvIndex) (node : DigestNode) : Prop where
  hash : ∃ hash, node.externalHash = some hash ∧ index.validExternalHash hash
  tokens : ∀ key, node.block = some key →
    node.logicalTokenIds = key.tokenCount.toNat ∧ 0 < key.tokenCount.toNat

structure Tree (index : DigestKvIndex) : Prop where
  slab : index.arena.Wf
  root : ∃ node, index.arena.get? rootNode = some node ∧ node.parent = none ∧
    node.externalHash = none ∧ node.logicalTokenIds = 0 ∧ node.block = none ∧ node.present
  child : ∀ p key e, index.entryAt p key = some e →
    ∃ node, index.arena.get? e.node = some node ∧ node.parent = some p ∧ node.block = some key
  parent : ∀ id node, index.arena.get? id = some node → id ≠ rootNode →
    ∃ p key e, node.parent = some p ∧ node.block = some key ∧ index.entryAt p key = some e ∧
      e.node = id
  rank : ∃ depth : Nat → Nat, depth rootNode = 0 ∧
    ∀ p key e, index.entryAt p key = some e → depth e.node = depth p + 1
  labelled : ∀ id node, index.arena.get? id = some node → id ≠ rootNode → index.Labelled node
  lengths : ∀ id node key e, index.arena.get? id = some node → node.children.lookup key = some e →
    key.tokenCount.toNat ∈ node.childLengths
  shortLengths : ∀ id node, index.arena.get? id = some node →
    ∀ length ∈ node.childLengths, length < 2 ^ 32
  nodes : index.liveNodes + 1 = index.arena.total fun _ => 1
  tokenIds : index.logicalTokenIds = index.arena.total (·.logicalTokenIds)
  hashBytes : index.externalHashBytes =
    index.arena.total fun node => node.externalHash.elim 0 externalHashLen
  capacity : index.hasCapacity 0 0 0

/-- The tree as the library reads it. -/
def view : NodeView DigestNode PrimaryCommitment ChildEntry where
  Hangs node p key := node.parent = some p ∧ node.block = some key
  entry node key := node.children.lookup key
  target := ChildEntry.node
  hangs_unique h h' :=
    ⟨some.inj (h.1.symm.trans h'.1), some.inj (h.2.symm.trans h'.2)⟩

def nameView : NameView DigestNode ExternalBlockHash where
  name node := node.externalHash
  present node := node.present

namespace Tree
variable {index : DigestKvIndex}

theorem hangs (h : index.Tree) : view.Tree rootNode index.arena where
  slab := h.slab
  child := h.child
  parent id node hg hn := by
    obtain ⟨p, key, e, hp, hk, he, hi⟩ := h.parent id node hg hn
    exact ⟨p, key, e, ⟨hp, hk⟩, he, hi⟩

theorem parent_of_hangs (h : view.Tree rootNode index.arena) (id : Nat) (node : DigestNode)
    (hg : index.arena.get? id = some node) (hn : id ≠ rootNode) :
    ∃ p key e, node.parent = some p ∧ node.block = some key ∧ index.entryAt p key = some e ∧
      e.node = id := by
  obtain ⟨p, key, e, ⟨hp, hk⟩, he, hi⟩ := h.parent id node hg hn
  exact ⟨p, key, e, hp, hk, he, hi⟩

def Tries (node : DigestNode) : Prop :=
  ∀ key e, node.children.lookup key = some e → key.tokenCount.toNat ∈ node.childLengths

section
variable (h : index.Tree)
include h

theorem tries (id : Nat) (node : DigestNode) (hg : index.arena.get? id = some node) : Tries node :=
  fun key e => h.lengths id node key e hg

theorem live_root : index.arena.Live rootNode := by
  obtain ⟨root, hr, -⟩ := h.root
  exact live_iff.2 ⟨root, hr⟩

theorem parent_ne_root {p : Nat} {key : PrimaryCommitment} {e : ChildEntry}
    (he : index.entryAt p key = some e) : e.node ≠ rootNode := by
  intro hr
  obtain ⟨node, hn, hp, -⟩ := h.child p key e he
  obtain ⟨root, hg, ho, -⟩ := h.root
  rw [hr, hg] at hn
  cases hn
  rw [ho] at hp
  cases hp

theorem ne_root_of_hash {id : Nat} {node : DigestNode} {hash : ExternalBlockHash}
    (hg : index.arena.get? id = some node) (hh : node.externalHash = some hash) :
    id ≠ rootNode := by
  rintro rfl
  obtain ⟨root, hr, -, hn, -⟩ := h.root
  rw [hr] at hg
  cases hg
  rw [hn] at hh
  cases hh

theorem entry_unique {p p' : Nat} {key key' : PrimaryCommitment}
    {e e' : ChildEntry} (he : index.entryAt p key = some e) (he' : index.entryAt p' key' = some e')
    (hn : e.node = e'.node) : p = p' ∧ key = key' := by
  obtain ⟨node, hg, hp, hb⟩ := h.child p key e he
  obtain ⟨node', hg', hp', hb'⟩ := h.child p' key' e' he'
  rw [hn, hg'] at hg
  cases hg
  rw [hp'] at hp
  rw [hb'] at hb
  cases hp
  cases hb
  exact ⟨rfl, rfl⟩

end

theorem new (limits : DigestIndexLimits) (D : BlockDigester) (commit : CommitFn) :
    (withCommit limits D commit).Tree := by
  have hg : ∀ id node, (withCommit limits D commit).arena.get? id = some node →
      id = rootNode ∧ node = .root := fun _ _ h => get?_singleton_eq_some h
  have he : ∀ p key e, (withCommit limits D commit).entryAt p key ≠ some e := by
    intro p key e h
    have ho : (withCommit limits D commit).entryAt p key = none :=
      NodeView.entryAt_singleton (V := view) (fun _ => rfl) p key
    rw [ho] at h
    cases h
  refine ⟨singleton_wf _, ⟨.root, rfl, rfl, rfl, rfl, rfl, rfl⟩,
    fun p key e h => absurd h (he p key e), fun id node h hn => absurd (hg id node h).1 hn,
    ⟨fun _ => 0, rfl, fun p key e h => absurd h (he p key e)⟩,
    fun id node h hn => absurd (hg id node h).1 hn, fun id node key e h hl => ?_,
    fun id node h length ha => ?_, ?_, ?_, ?_, ?_⟩
  · rw [(hg id node h).2] at hl
    cases hl
  · rw [(hg id node h).2] at ha
    cases ha
  · simp [withCommit, total_singleton]
  · simp [withCommit, total_singleton, DigestNode.root]
  · simp [withCommit, total_singleton, DigestNode.root]
  · simp [withCommit, hasCapacity]

end Tree

variable {index : DigestKvIndex}

/-- Two nodes that hold the same place in the tree. -/
structure SamePlace (node node' : DigestNode) : Prop where
  parent : node'.parent = node.parent
  block : node'.block = node.block
  externalHash : node'.externalHash = node.externalHash
  logicalTokenIds : node'.logicalTokenIds = node.logicalTokenIds
  childLengths : node'.childLengths = node.childLengths
  children : ∀ key, (node'.children.lookup key).map ChildEntry.node =
    (node.children.lookup key).map ChildEntry.node

theorem Labelled.of_same {index' : DigestKvIndex} {node' : DigestNode} (h : index.Labelled node)
    (hl : index'.limits = index.limits) (hh : node'.externalHash = node.externalHash)
    (hb : node'.block = node.block) (ht : node'.logicalTokenIds = node.logicalTokenIds) :
    index'.Labelled node' := by
  obtain ⟨hash, hs, hv⟩ := h.hash
  refine ⟨⟨hash, hh.trans hs, ?_⟩, ?_⟩
  · rw [← hv]
    simp only [validExternalHash, hl]
  · rw [hb, ht]
    exact h.tokens

variable {f : DigestNode → DigestNode} {hash : ExternalBlockHash}

theorem Tree.modify (h : index.Tree)
    (hf : ∀ node, index.arena.get? id = some node → SamePlace node (f node))
    (hr : id = rootNode → ∀ node, (f node).present = node.present)
    (byExternalHash : HashMap ExternalBlockHash Nat) (poisonedEdges : Nat) : Tree { index with
      arena := index.arena.modify id f
      byExternalHash
      poisonedEdges } := by
  have hs : ∀ node, index.arena.get? id = some node → view.Same node (f node) := by
    intro node hn
    have hp := hf node hn
    exact ⟨fun p key hh => ⟨hp.parent.trans hh.1, hp.block.trans hh.2⟩, hp.children⟩
  have hv := NodeView.Tree.modify hs h.hangs
  have ht := forall_modify (i := id) (f := f) h.tries fun node hn key e he => by
    have hm := (hf node hn).children key
    rw [he, map_some] at hm
    obtain ⟨old, hold, -⟩ := map_eq_some_iff.1 hm.symm
    rw [(hf node hn).childLengths]
    exact h.lengths id node key old hn hold
  refine ⟨hv.slab, ?_, hv.child, parent_of_hangs hv, NodeView.Ranked.modify hs h.rank,
    forall_modify (fun i node hg ha => (h.labelled i node hg ha).of_same rfl rfl rfl rfl)
      fun node hn ha => ?_,
    fun i node key e hg => ht i node hg key e,
    forall_modify h.shortLengths fun node hn => ?_,
    h.nodes.trans (total_modify (fun _ => 1) fun _ _ => rfl).symm,
    h.tokenIds.trans (total_modify _ fun node hn => (hf node hn).logicalTokenIds).symm,
    h.hashBytes.trans (total_modify _ fun node hn => ?_).symm, h.capacity⟩
  · obtain ⟨root, hg, hc, hd, hk, hb, hi⟩ := h.root
    rw [get?_modify, hg]
    split
    next hj =>
      have hp := hf root (hj ▸ hg)
      exact ⟨_, rfl, hp.parent.trans hc, hp.externalHash.trans hd,
        hp.logicalTokenIds.trans hk, hp.block.trans hb,
        (hr hj root).trans hi⟩
    · exact ⟨root, rfl, hc, hd, hk, hb, hi⟩
  · have hp := hf node hn
    exact (h.labelled id node hn ha).of_same rfl hp.externalHash hp.block hp.logicalTokenIds
  · rw [(hf node hn).childLengths]
    exact h.shortLengths id node hn
  · rw [(hf node hn).externalHash]

/-- The leaf `insertChild` makes. -/
def leaf (parentId : Nat) (commitment : BlockCommitment) (externalHash : ExternalBlockHash)
    (logicalTokenIds : Nat) : DigestNode where
  parent := some parentId
  block := some commitment.primary
  children := ∅
  childLengths := []
  externalHash := some externalHash
  present := true
  logicalTokenIds

def addChild (commitment : BlockCommitment) (id : Nat) (parent : DigestNode) : DigestNode :=
  { parent with
    children := parent.children.insert commitment.primary (.unique commitment.guard id)
    childLengths := addLength parent.childLengths commitment.primary.tokenCount.toNat }

section InsertChild
variable {pid : Nat} {cm : BlockCommitment} {eh : ExternalBlockHash} {length : Nat}

theorem insertChild_fresh (hs : index.arena.Wf) (pid : Nat) (cm : BlockCommitment)
    (eh : ExternalBlockHash) (length : Nat) :
    index.arena.get? (index.insertChild pid cm eh length).1 = none :=
  alloc_fresh hs _

theorem get?_insertChild (hs : index.arena.Wf) (hl : index.arena.Live pid)
    (cm : BlockCommitment) (eh : ExternalBlockHash) (length i : Nat) :
    (index.insertChild pid cm eh length).2.arena.get? i =
      if (index.insertChild pid cm eh length).1 = i then some (leaf pid cm eh length)
      else if pid = i then (index.arena.get? i).map
          (addChild cm (index.insertChild pid cm eh length).1) else index.arena.get? i :=
  get?_grow hs hl (leaf pid cm eh length) (addChild cm) i

theorem forall_insertChild {P : Nat → DigestNode → Prop} (hs : index.arena.Wf)
    (h : ∀ i node, index.arena.get? i = some node → P i node)
    (hl : ∀ i, P i (leaf pid cm eh length))
    (ha : ∀ id node, P pid node → P pid (addChild cm id node)) (i : Nat)
    (node : DigestNode) : (index.insertChild pid cm eh length).2.arena.get? i =
      some node → P i node :=
  forall_grow hs h hl ha i node

theorem rewires_addChild (cm : BlockCommitment) (id : Nat) :
    view.Rewires (addChild cm id) cm.primary (some (.unique cm.guard id)) :=
  ⟨fun _ _ _ hh => hh, fun _ _ => lookup_insert_eq _ _ _ _⟩

theorem entryAt_insertChild (hs : index.arena.Wf) (hl : index.arena.Live pid)
    (cm : BlockCommitment) (eh : ExternalBlockHash) (length i : Nat) (key : PrimaryCommitment) :
    (index.insertChild pid cm eh length).2.entryAt i key = if i = pid ∧ key = cm.primary then
        some (.unique cm.guard (index.insertChild pid cm eh length).1) else index.entryAt i key :=
  NodeView.entryAt_grow (l := leaf pid cm eh length) hs hl
    (fun _ => rfl) (rewires_addChild cm) i key

theorem Tree.insertChild (h : index.Tree) (ha : index.arena.Live pid)
    (ho : index.entryAt pid cm.primary = none) (hf : length = cm.primary.tokenCount.toNat)
    (hp : 0 < cm.primary.tokenCount.toNat) (hv : index.validExternalHash eh)
    (hc : index.hasCapacity 1 length (externalHashLen eh)) :
    (index.insertChild pid cm eh length).2.Tree := by
  have hi := NodeView.Tree.grow (l := leaf pid cm eh length)
    h.slab ha (fun _ => rfl) (rewires_addChild cm) h.hangs ho ⟨rfl, rfl⟩
    fun _ => rfl
  have hj := NodeView.Ranked.grow (l := leaf pid cm eh length)
    h.slab ha (fun _ => rfl) (rewires_addChild cm) h.rank h.hangs h.live_root fun _ => rfl
  have ht := fun g => total_grow (l := leaf pid cm eh length)
    (p := pid) (g := addChild cm) g h.slab
  have hb : ∀ i node, (index.insertChild pid cm eh length).2.arena.get? i =
      some node → Tries node :=
    forall_insertChild h.slab h.tries nofun fun id node hn key e he => by
      simp only [addChild, lookup_insert_eq, mem_addLength] at he ⊢
      split at he
      next hk =>
        exact .inr (by rw [hk])
      · exact .inl (hn key e he)
  refine ⟨hi.slab, ?_, hi.child, parent_of_hangs hi, hj, forall_insertChild h.slab
      (fun i node hg hd => (h.labelled i node hg hd).of_same rfl rfl rfl rfl) ?_
      fun _ _ hn hd => (hn hd).of_same rfl rfl rfl rfl,
    fun i node key e hg => hb i node hg key e,
    forall_insertChild h.slab h.shortLengths (fun _ _ hl => ?_) fun id node hn l hl => ?_,
    (congrArg (· + 1) h.nodes).trans (ht (fun _ => 1) fun _ _ => rfl).symm,
    (congrArg (· + length) h.tokenIds).trans (ht _ fun _ _ => rfl).symm,
    (congrArg (· + externalHashLen eh) h.hashBytes).trans (ht _ fun _ _ => rfl).symm,
    by simpa [hasCapacity, DigestKvIndex.insertChild] using hc⟩
  · obtain ⟨root, hr, hs⟩ := h.root
    have hw : (index.insertChild pid cm eh length).1 ≠ rootNode :=
      grow_ne h.slab hr (leaf pid cm eh length) pid (addChild cm)
    rw [get?_insertChild h.slab ha, if_neg hw, hr]
    split
    · exact ⟨_, rfl, hs⟩
    · exact ⟨root, rfl, hs⟩
  · refine fun _ _ => ⟨⟨eh, rfl, hv⟩, fun key hk => ?_⟩
    cases hk
    exact ⟨hf, hp⟩
  · cases hl
  · simp only [addChild, mem_addLength] at hl
    rcases hl with hl | rfl
    · exact hn l hl
    · exact UInt32.toNat_lt _

end InsertChild

/-- One turn of `pruneFrom`: a node goes, and its entry with it. -/
def dropLeaf (index : DigestKvIndex) (id : Nat) (node : DigestNode) (parentId : Nat)
    (block : PrimaryCommitment) : DigestKvIndex :=
  { index with
    arena := (index.arena.release id).modify parentId fun parent =>
      { parent with children := parent.children.erase block }
    liveNodes := index.liveNodes - 1
    logicalTokenIds := index.logicalTokenIds - node.logicalTokenIds
    externalHashBytes := index.externalHashBytes - node.externalHash.elim 0 externalHashLen }

section DropLeaf
variable {id pid : Nat} {node : DigestNode} {block : PrimaryCommitment}

theorem get?_dropLeaf (i : Nat) : (index.dropLeaf id node pid block).arena.get? i =
    if id = i then none
    else if pid = i then
      (index.arena.get? i).map fun parent => { parent with children := parent.children.erase block }
    else index.arena.get? i :=
  get?_drop _ _ _ _ i

theorem rewires_eraseChild (block : PrimaryCommitment) : view.Rewires
    (fun parent => { parent with children := parent.children.erase block }) block none :=
  ⟨fun _ _ _ hh => hh, fun _ _ => lookup_erase_eq _ _ _⟩

theorem entryAt_dropLeaf (hg : index.arena.get? id = some node)
    (he : node.children.entries.isEmpty) (pid : Nat) (block : PrimaryCommitment)
    (i : Nat) (key : PrimaryCommitment) : (index.dropLeaf id node pid block).entryAt i key =
      if i = pid ∧ key = block then none else index.entryAt i key :=
  NodeView.entryAt_drop hg ((entries_isEmpty_iff node.children).1 he)
    (rewires_eraseChild block) pid i key

theorem keep_dropLeaf {i : Nat} {other : DigestNode} (hi : id ≠ i) :
    (index.dropLeaf id node pid block).arena.get? i = some other →
      ∃ old, index.arena.get? i = some old ∧ other = { old with children := other.children } := by
  intro ho
  rw [get?_dropLeaf, if_neg hi] at ho
  split at ho
  · obtain ⟨old, hold, rfl⟩ := map_eq_some_iff.1 ho
    exact ⟨old, hold, rfl⟩
  · exact ⟨other, ho, rfl⟩

theorem live_dropLeaf {i : Nat} {old : DigestNode} (hi : id ≠ i)
    (hold : index.arena.get? i = some old) (node : DigestNode) (pid : Nat)
    (block : PrimaryCommitment) :
    ∃ other, (index.dropLeaf id node pid block).arena.get? i = some other ∧
      other = { old with children := other.children } := by
  rw [get?_dropLeaf, if_neg hi, hold]
  split
  · exact ⟨_, rfl, rfl⟩
  · exact ⟨_, rfl, rfl⟩

theorem Tree.dropLeaf (h : index.Tree) (hg : index.arena.get? id = some node) (hr : id ≠ rootNode)
    (hm : node.children.entries.isEmpty) (hp : node.parent = some pid)
    (hb : node.block = some block) : (index.dropLeaf id node pid block).Tree := by
  have hf := (entries_isEmpty_iff node.children).1 hm
  have hv := NodeView.Tree.drop hg hf (rewires_eraseChild block) h.hangs hr ⟨hp, hb⟩
  have ht := fun g => total_drop (p := pid)
    (f := fun parent : DigestNode => { parent with children := parent.children.erase block }) g hg
  have hi := forall_drop (i := id) (p := pid)
    (f := fun parent : DigestNode => { parent with children := parent.children.erase block })
    h.tries fun node hn key e he => by
      simp only [lookup_erase_eq] at he
      split at he
      · cases he
      · exact hn key e he
  obtain ⟨root, hg', hj⟩ := h.root
  obtain ⟨other, ho, hk⟩ := live_dropLeaf hr hg' node pid block
  refine ⟨hv.slab, ⟨other, ho, by rw [hk]; exact hj⟩, hv.child, parent_of_hangs hv,
    NodeView.Ranked.drop hg hf (rewires_eraseChild block) h.rank pid,
    forall_drop (fun i node hg hd => (h.labelled i node hg hd).of_same rfl rfl rfl rfl)
      fun _ hn hd => (hn hd).of_same rfl rfl rfl rfl,
    fun i node key e hg => hi i node hg key e,
    forall_drop h.shortLengths fun _ hn => hn, ?_, ?_, ?_, ?_⟩
  · have hs := h.nodes
    have ha := ht (fun _ => 1) fun _ => rfl
    have hr' := le_total (fun _ => 1) ho
    simp only [DigestKvIndex.dropLeaf] at hr' ⊢
    simp only [drop] at ha
    omega
  · have hl := h.tokenIds
    have ha := ht (·.logicalTokenIds) fun _ => rfl
    simp only [DigestKvIndex.dropLeaf]
    simp only [drop] at ha
    omega
  · have hy := h.hashBytes
    have ha := ht (fun node => node.externalHash.elim 0 externalHashLen) fun _ => rfl
    simp only [DigestKvIndex.dropLeaf]
    simp only [drop] at ha
    omega
  · have hc := h.capacity
    simp only [hasCapacity, Bool.and_eq_true, decide_eq_true_eq] at hc ⊢
    simp only [DigestKvIndex.dropLeaf]
    omega

end DropLeaf

def Resident (index : DigestKvIndex) (hash : ExternalBlockHash) (id : Nat) : Prop :=
  ∃ node, index.arena.get? id = some node ∧ node.present ∧ node.externalHash = some hash

/-- Without poisoned edges on the count there is none in the tree. -/
def Counted (index : DigestKvIndex) : Prop :=
  index.poisonedEdges = 0 → ∀ p key child, index.entryAt p key ≠ some (.poisoned child)

structure Wf (index : DigestKvIndex) : Prop where
  tree : index.Tree
  hashed : ∀ hash id, index.byExternalHash.lookup hash = some id ↔ index.Resident hash id
  counted : index.Counted
  commit : index.commit = commitBlock

theorem Wf.new (limits : DigestIndexLimits) (D : BlockDigester) :
    (DigestKvIndex.new limits D).Wf where
  tree := .new limits D commitBlock
  hashed := NameView.Filed.singleton (N := nameView) rfl
  counted := by
    intro _ p key child h
    have hn : (DigestKvIndex.new limits D).entryAt p key = none :=
      NodeView.entryAt_singleton (V := view) (fun _ => rfl) p key
    rw [hn] at h
    cases h
  commit := rfl

theorem Wf.clear (h : index.Wf) : index.clear.Wf := by
  have heq : index.clear = DigestKvIndex.new index.limits index.digester := by
    simp [DigestKvIndex.clear, DigestKvIndex.new, withCommit, h.commit]
  rw [heq]
  exact .new _ _

theorem entryAt_modify (hf : ∀ node, (f node).children = node.children)
    (byExternalHash : HashMap ExternalBlockHash Nat) (poisonedEdges : Nat) (i : Nat)
    (key : PrimaryCommitment) : entryAt { index with
      arena := index.arena.modify id f
      byExternalHash
      poisonedEdges } i key = index.entryAt i key := by
  simp only [entryAt, get?_modify]
  split
  · rcases index.arena.get? i with _ | node
    · rfl
    · simp [hf]
  · rfl

theorem Wf.poison (h : index.Wf) (pid : Nat) (primary : PrimaryCommitment) :
    (index.poison pid primary).Wf := by
  unfold DigestKvIndex.poison
  split
  next guard child hl =>
    refine ⟨h.tree.modify ?_ ?_ _ _, ?_, fun hz => by simp at hz, h.commit⟩
    · intro node hn
      rw [node_of_get? hn] at hl
      refine ⟨rfl, rfl, rfl, rfl, rfl, fun key => ?_⟩
      rw [lookup_insert_eq]
      split
      next hk =>
        rw [hk, hl]
        rfl
      · rfl
    · exact fun _ _ => rfl
    · refine NameView.Filed.modify (N := nameView) h.hashed (fun _ => ?_) pid
      exact ⟨rfl, rfl⟩
  · exact h

/-- The write of one position of a store. -/
def writeHash (index : DigestKvIndex) (childId : Nat) (externalHash : ExternalBlockHash) :
    DigestKvIndex :=
  { index with
    arena := index.arena.modify childId fun child =>
      { child with present := true, externalHash := some externalHash }
    byExternalHash := index.byExternalHash.insert externalHash childId }

/-- The reverse lookup is right but for one node under one hash. -/
def HashedBut (index : DigestKvIndex) (id : Nat) (hash : ExternalBlockHash) : Prop :=
  ∀ hash' i, i ≠ id ∨ hash' ≠ hash →
    (index.byExternalHash.lookup hash' = some i ↔ index.Resident hash' i)

theorem tree_writeHash (h : index.Tree) (hg : index.arena.get? id = some node)
    (hh : node.externalHash = some hash) : (index.writeHash id hash).Tree := by
  refine h.modify ?_ ?_ _ _
  · intro node' hn'
    rw [hg] at hn'
    cases hn'
    exact ⟨rfl, rfl, hh.symm, rfl, rfl, fun _ => rfl⟩
  · intro hi
    exact absurd hi (h.ne_root_of_hash hg hh)

theorem wf_writeHash (h : index.Tree) (ho : index.commit = commitBlock)
    (hg : index.arena.get? id = some node) (hh : node.externalHash = some hash)
    (hb : index.HashedBut id hash) (hf : ∀ i, index.byExternalHash.lookup hash = some i → i = id)
    (hc : index.Counted) : (index.writeHash id hash).Wf := by
  refine ⟨tree_writeHash h hg hh, ?_, ?_, ho⟩
  rotate_left
  · intro hz p key child
    rw [writeHash, entryAt_modify]
    · exact hc hz p key child
    · exact fun _ => rfl
  exact NameView.FiledBut.insert (N := nameView) hb hg hh ⟨rfl, rfl⟩ hf

end DigestKvIndex
end Ramjet
