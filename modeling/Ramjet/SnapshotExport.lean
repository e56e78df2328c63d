import Ramjet.DigestWf
import Ramjet.Lib.BreadthFirst
import Ramjet.SnapshotIndex

/-!
# What an export writes

The `k`-th record of an export, breadth first, describes the node visited after the root
and `k` others, and names its parent by position.
-/

namespace Ramjet
open Function List Slab
namespace DigestKvIndex
variable {index : DigestKvIndex}

def nextNodes (index : DigestKvIndex) (id : Nat) : List Nat :=
  match index.arena.get? id with
  | none => []
  | some node => ((sortedChildren node).toOption).getD []

variable {node : DigestNode} {e : ChildEntry} {key : PrimaryCommitment}
  {records : List DigestRecord} {n : Nat} {state' : ExportState}

theorem mem_entries_iff : (⟨key, e⟩ : Σ _ : PrimaryCommitment, ChildEntry) ∈ node.children.entries ↔
      node.children.lookup key = some e :=
  AList.mem_lookup_iff.symm

theorem sortedChildren_of_counted (h : index.Counted) (hz0 : index.poisonedEdges = 0) {id : Nat}
    (hg : index.arena.get? id = some node) : sortedChildren node = .ok (index.nextNodes id) := by
  have hn : node.children.entries.any (·.2.isPoisoned) = false := by
    rw [any_eq_false]
    rintro ⟨key, e⟩ hm
    rcases e with ⟨guard, child⟩ | child
    · simp [ChildEntry.isPoisoned]
    refine absurd ?_ (h hz0 id key child)
    rw [entryAt_of_get? hg]
    exact mem_entries_iff.1 hm
  simp [nextNodes, hg, sortedChildren, childNodes, hn, Except.map, Except.toOption]

theorem mem_nextNodes {id child : Nat} (h : child ∈ index.nextNodes id) :
    ∃ key e, index.entryAt id key = some e ∧ e.node = child := by
  unfold nextNodes at h
  rcases hg : index.arena.get? id with _ | node
  · simp [hg] at h
  simp only [hg, sortedChildren, childNodes] at h
  split at h
  · simp [Except.map, Except.toOption] at h
  simp only [Except.map, Except.toOption, Option.getD_some, mem_insertionSort, mem_map] at h
  obtain ⟨⟨key, e⟩, hm, rfl⟩ := h
  exact ⟨key, e, (entryAt_of_get? hg key).trans (mem_entries_iff.1 hm), rfl⟩

theorem mem_nextNodes_of_entry (h : index.Counted) (hz0 : index.poisonedEdges = 0) {id : Nat}
    (he : index.entryAt id key = some e) : e.node ∈ index.nextNodes id := by
  obtain ⟨node, hg, hl⟩ := entryAt_eq_some.1 he
  have hs := sortedChildren_of_counted h hz0 hg
  simp only [sortedChildren, childNodes] at hs
  split at hs
  · simp [Except.map] at hs
  simp only [Except.map, Except.ok.injEq] at hs
  rw [← hs, mem_insertionSort, mem_map]
  exact ⟨⟨key, e⟩, mem_entries_iff.2 hl, rfl⟩

theorem nodup_nextNodes (h : index.Tree) (id : Nat) : (index.nextNodes id).Nodup := by
  unfold nextNodes
  rcases hg : index.arena.get? id with _ | node
  · exact nodup_nil
  simp only [sortedChildren, childNodes]
  split
  · exact nodup_nil
  simp only [Except.map, Except.toOption, Option.getD_some]
  rw [(perm_insertionSort _ _).nodup_iff]
  refine Nodup.map_on ?_ node.children.nodupKeys.nodup
  rintro ⟨key, e⟩ hm ⟨key', e'⟩ hm' heq
  rw [mem_entries_iff] at hm hm'
  have hk := (h.entry_unique ((entryAt_of_get? hg key).trans hm)
    ((entryAt_of_get? hg key').trans hm') heq).2
  subst hk
  rw [hm] at hm'
  cases hm'
  rfl

theorem Tree.layered (h : index.Tree) :
    ∃ depth : Nat → Nat, depth rootNode = 0 ∧ BreadthFirst.Layered index.nextNodes depth := by
  obtain ⟨depth, hz0, hd⟩ := h.rank
  refine ⟨depth, hz0, nodup_nextNodes h, ?_, ?_⟩
  · intro x y z hx hy
    obtain ⟨key, e, he, hz⟩ := mem_nextNodes hx
    obtain ⟨key', e', he', hz'⟩ := mem_nextNodes hy
    exact (h.entry_unique he he' (hz.trans hz'.symm)).1
  · intro x y hy
    obtain ⟨key, e, he, rfl⟩ := mem_nextNodes hy
    exact hd x key e he

inductive ParentLink (visited : List Nat) (records : List DigestRecord) (k p : Nat)
    (r : DigestRecord) : Prop where
  | root (hp : p = rootNode) (hre : r.parentRecord = none)
      (ht : r.prefixTokenIds = r.blockTokenIds.toNat)
  | record (j : Nat) (r' : DigestRecord) (hj : j < k) (hp : visited[j + 1]? = some p)
      (hr' : records[j]? = some r') (hre : r.parentRecord = some j)
      (ht : r.prefixTokenIds = r'.prefixTokenIds + r.blockTokenIds.toNat)

structure Describes (index : DigestKvIndex) (id p : Nat) (node : DigestNode)
    (primary : PrimaryCommitment) (guard : Bytes 16) (hash : ExternalBlockHash)
    (r : DigestRecord) : Prop where
  get : index.arena.get? id = some node
  parent : node.parent = some p
  block : node.block = some primary
  entry : index.entryAt p primary = some (.unique guard id)
  externalHash : node.externalHash = some hash
  groupSlot : r.groupSlot = 0
  hash : r.externalHash = externalHashToSnapshot hash
  digest : r.blockDigest = primary.digest.toList ++ guard.toList
  tokens : r.blockTokenIds = primary.tokenCount
  present : r.present = node.present
  bounded : r.prefixTokenIds ≤ u64Max

def Described (index : DigestKvIndex) (visited : List Nat) (records : List DigestRecord) (k : Nat)
    (r : DigestRecord) : Prop :=
  ∃ id p node primary guard hash, visited[k + 1]? = some id ∧
    index.Describes id p node primary guard hash r ∧ ParentLink visited records k p r

theorem getElem?_append_of_some {α : Type} {l : List α} {i : Nat} {a : α} (h : l[i]? = some a)
    (m : List α) : (l ++ m)[i]? = some a := by
  rw [List.getElem?_append_left (List.getElem?_eq_some_iff.1 h).1, h]

variable {visited : List Nat}

theorem Described.append {k : Nat} {r : DigestRecord}
    (h : index.Described visited records k r) (ids : List Nat) (more : List DigestRecord) :
    index.Described (visited ++ ids) (records ++ more) k r := by
  obtain ⟨id, p, node, primary, guard, hash, hi, hf, hl⟩ := h
  refine ⟨id, p, node, primary, guard, hash, getElem?_append_of_some hi _, hf, ?_⟩
  rcases hl with ⟨hp, hre, ht⟩ | ⟨j, r', hj, hp, hr', hre, ht⟩
  · exact .root hp hre ht
  · exact .record j r' hj (getElem?_append_of_some hp _) (getElem?_append_of_some hr' _) hre ht

/-- The state of an export between two turns. -/
structure Exporting (index : DigestKvIndex) (depth : Nat → Nat) (visited : List Nat)
    (queue : List (Nat × Nat)) (state : ExportState) : Prop where
  frontier : BreadthFirst.Frontier index.nextNodes depth rootNode visited (queue.map (·.2))
  queued : ∀ item ∈ queue, item.1 ∈ visited ∧ item.2 ∈ index.nextNodes item.1
  first : visited[0]? = some rootNode
  length : visited.length = state.records.length + 1
  described : ∀ k r, state.records[k]? = some r → index.Described visited state.records k r
  position : ∀ k id, visited[k + 1]? = some id → state.recordForNode id = some k
  tokens : ∀ k id r, visited[k + 1]? = some id → state.records[k]? = some r →
    state.prefixForNode id = r.prefixTokenIds
  rootTokens : state.prefixForNode rootNode = 0

variable {depth : Nat → Nat}

theorem Exporting.start (hl : BreadthFirst.Layered index.nextNodes depth)
    (hz0 : depth rootNode = 0) :
    index.Exporting depth [rootNode] ((index.nextNodes rootNode).map (rootNode, ·)) .new where
  frontier := by
    have h := (BreadthFirst.Frontier.start index.nextNodes depth rootNode).step hl hz0
    simpa [comp_def] using h
  queued := by
    intro item hi
    obtain ⟨child, hc, rfl⟩ := mem_map.1 hi
    exact ⟨by simp, hc⟩
  first := rfl
  length := rfl
  described := by simp [ExportState.new]
  position := by simp
  tokens := by simp
  rootTokens := rfl

/-- What one turn of the export adds. -/
def recordOf (state : ExportState) (parentId : Nat) (node : DigestNode)
    (primary : PrimaryCommitment) (guard : Bytes 16) (hash : ExternalBlockHash) : DigestRecord where
  groupSlot := 0
  parentRecord := if parentId = rootNode then none else state.recordForNode parentId
  externalHash := externalHashToSnapshot hash
  blockDigest := primary.digest.toList ++ guard.toList
  blockTokenIds := primary.tokenCount
  prefixTokenIds := state.prefixForNode parentId + primary.tokenCount.toNat
  present := node.present

def ExportState.push (state : ExportState) (nodeId : Nat) (record : DigestRecord) :
    ExportState where
  records := state.records ++ [record]
  recordForNode := update state.recordForNode nodeId (some state.records.length)
  prefixForNode := update state.prefixForNode nodeId record.prefixTokenIds

variable {p : Nat} {children : List Nat} {state : ExportState}

theorem exportNode_ok (hg : index.arena.get? n = some node)
    (h : index.exportNode state p n = .ok (state', children)) :
    ∃ primary guard hash, node.block = some primary ∧
      (index.node p).children.lookup primary = some (.unique guard n) ∧
      node.externalHash = some hash ∧ sortedChildren node = .ok children ∧
      (recordOf state p node primary guard hash).prefixTokenIds ≤ u64Max ∧
      state.records.length < 2 ^ 32 ∧
      state' = state.push n (recordOf state p node primary guard hash) := by
  simp only [exportNode, node_of_get? hg] at h
  rcases hb : node.block with _ | primary
  · simp [hb] at h
  simp only [hb] at h
  split at h
  next guard child hl =>
    split at h
    · cases h
    rename_i ha
    split at h
    · cases h
    rename_i ht
    split at h
    · cases h
    rename_i hc
    rw [not_not] at ha
    subst ha
    rcases hh : node.externalHash with _ | hash
    · simp [hh] at h
    simp only [hh] at h
    rcases hs : sortedChildren node with error | children'
    · simp [hs, Except.map] at h
    simp only [hs, Except.map, Except.ok.injEq, Prod.mk.injEq] at h
    obtain ⟨hd, rfl⟩ := h
    exact ⟨primary, guard, hash, rfl, hl, rfl, rfl, Nat.le_of_not_lt ht,
      Nat.lt_of_not_le hc, hd.symm⟩
  · cases h

theorem exportNode_eq {primary : PrimaryCommitment} {guard : Bytes 16} {hash : ExternalBlockHash}
    (hg : index.arena.get? n = some node) (hb : node.block = some primary)
    (he : (index.node p).children.lookup primary = some (.unique guard n))
    (hh : node.externalHash = some hash) (hs : sortedChildren node = .ok children)
    (ht : state.prefixForNode p + primary.tokenCount.toNat ≤ u64Max)
    (hc : state.records.length < 2 ^ 32) : index.exportNode state p n =
      .ok (state.push n (recordOf state p node primary guard hash), children) := by
  simp only [exportNode, node_of_get? hg, hb, he, hh, hs, Except.map]
  rw [if_neg (by simp), if_neg (by omega), if_neg (by omega)]
  rfl

variable {queue : List (Nat × Nat)}

theorem Exporting.parentLink (h : index.Exporting depth visited queue state) (hp : p ∈ visited)
    (node : DigestNode) (primary : PrimaryCommitment) (guard : Bytes 16) (hash : ExternalBlockHash)
    : ParentLink visited state.records state.records.length p
      (recordOf state p node primary guard hash) := by
  obtain ⟨j, hj, ha⟩ := mem_iff_getElem.1 hp
  have hg : visited[j]? = some p := List.getElem?_eq_some_iff.2 ⟨hj, ha⟩
  by_cases hr : p = rootNode
  · refine .root hr ?_ ?_
    · simp [recordOf, hr]
    · simp [recordOf, hr, h.rootTokens]
  rcases j with _ | j
  · rw [h.first] at hg
    exact absurd (Option.some.inj hg).symm hr
  have hl : j < state.records.length := by
    have := h.length
    omega
  have hre := getElem?_eq_getElem hl
  refine .record j _ hl hg hre ?_ ?_
  · simp [recordOf, hr, h.position j p hg]
  · simp [recordOf, h.tokens j p _ hg hre]

theorem Exporting.step (hwf : index.Wf) (hy : BreadthFirst.Layered index.nextNodes depth)
    (hz0 : depth rootNode = 0) (h : index.Exporting depth visited ((p, n) :: queue) state)
    (ho : index.exportNode state p n = .ok (state', children)) :
    index.Exporting depth (visited ++ [n]) (queue ++ children.map (n, ·)) state' ∧
      children = index.nextNodes n := by
  obtain ⟨hp, hn⟩ := h.queued (p, n) (by simp)
  obtain ⟨key, e, he, rfl⟩ := mem_nextNodes hn
  obtain ⟨node, hg, hw, hb⟩ := hwf.tree.child p key e he
  obtain ⟨parent, ht, -⟩ := entryAt_eq_some.1 he
  obtain ⟨primary, guard, hash, ha, hu, hh, hs, hq, -, rfl⟩ :=
    exportNode_ok hg ho
  have hx : index.nextNodes e.node = children := by
    simp [nextNodes, hg, hs, Except.toOption]
  rw [node_of_get? ht, ← entryAt_of_get? ht] at hu
  have hf : e.node ∉ visited := by
    intro hm
    exact (nodup_append.1 h.frontier.nodup).2.2 _ hm e.node (by simp) rfl
  have hl := h.parentLink hp node primary guard hash
  have hv : ∀ k id, (visited ++ [e.node])[k + 1]? = some id →
      (visited[k + 1]? = some id ∧ id ≠ e.node) ∨ (k = state.records.length ∧ id = e.node) := by
    intro k id hd
    have hlen := h.length
    by_cases hk : k + 1 < visited.length
    · rw [getElem?_append_left hk] at hd
      exact .inl ⟨hd, fun heq => hf (heq ▸ mem_of_getElem? hd)⟩
    have hz := (List.getElem?_eq_some_iff.1 hd).1
    rw [length_append, length_singleton] at hz
    have hk' : k + 1 = visited.length := by omega
    rw [hk', getElem?_concat_length] at hd
    exact .inr ⟨by omega, (Option.some.inj hd).symm⟩
  refine ⟨⟨?_, ?_, ?_, ?_, ?_, ?_, ?_, ?_⟩, hx.symm⟩
  · have hsp := h.frontier.step hy hz0
    rw [hx] at hsp
    simpa [comp_def] using hsp
  · intro item hi
    rcases mem_append.1 hi with hi | hi
    · obtain ⟨h1, h2⟩ := h.queued item (mem_cons_of_mem _ hi)
      exact ⟨mem_append_left _ h1, h2⟩
    · obtain ⟨child, hch, rfl⟩ := mem_map.1 hi
      exact ⟨by simp, hx ▸ hch⟩
  · exact getElem?_append_of_some h.first _
  · simp [ExportState.push, h.length]
  · intro k r hr
    simp only [ExportState.push] at hr ⊢
    rcases Nat.lt_trichotomy k state.records.length with hk | rfl | hk
    · rw [getElem?_append_left hk] at hr
      exact (h.described k r hr).append _ _
    · rw [getElem?_concat_length, Option.some.injEq] at hr
      subst hr
      refine ⟨e.node, p, node, primary, guard, hash, ?_, ?_, ?_⟩
      · rw [← h.length, getElem?_concat_length]
      · exact ⟨hg, hw, ha, hu, hh, rfl, rfl, rfl, rfl, rfl, hq⟩
      · rcases hl with ⟨h1, h2, h3⟩ | ⟨j, r', hj, h1, h2, h3, h4⟩
        · exact .root h1 h2 h3
        · exact .record j r' hj (getElem?_append_of_some h1 _) (getElem?_append_of_some h2 _) h3 h4
    · rw [getElem?_eq_none (by simp; omega)] at hr
      cases hr
  · intro k id hd
    simp only [ExportState.push]
    rcases hv k id hd with ⟨hold, hc⟩ | ⟨rfl, rfl⟩
    · rw [update_of_ne hc]
      exact h.position k id hold
    · exact update_self ..
  · intro k id r hd hr
    simp only [ExportState.push] at hr ⊢
    rcases hv k id hd with ⟨hold, hc⟩ | ⟨rfl, rfl⟩
    · rw [update_of_ne hc]
      have hk : k < state.records.length := by
        have h1 := (List.getElem?_eq_some_iff.1 hold).1
        have h2 := h.length
        omega
      rw [getElem?_append_left hk] at hr
      exact h.tokens k id r hold hr
    · rw [getElem?_concat_length, Option.some.injEq] at hr
      subst hr
      exact update_self ..
  · have hc : rootNode ≠ e.node := (hwf.tree.parent_ne_root he).symm
    simp only [ExportState.push, update_of_ne hc]
    exact h.rootTokens

/-- What an export that succeeds has written. -/
structure Exported (index : DigestKvIndex) (depth : Nat → Nat) (visited : List Nat)
    (records : List DigestRecord) : Prop where
  frontier : BreadthFirst.Frontier index.nextNodes depth rootNode visited []
  first : visited[0]? = some rootNode
  length : visited.length = records.length + 1
  described : ∀ k r, records[k]? = some r → index.Described visited records k r

theorem Exporting.run (hwf : index.Wf) (hl : BreadthFirst.Layered index.nextNodes depth)
    (hz0 : depth rootNode = 0) {cancelled : Nat → Bool} {fuel : Nat}
    (h : index.Exporting depth visited queue state)
    (hr : index.exportLoop cancelled fuel queue state = .ok records) :
    ∃ visited, index.Exported depth visited records := by
  induction fuel generalizing visited queue state with
  | zero =>
    rcases queue with _ | ⟨⟨p, n⟩, queue⟩
    · cases hr
      exact ⟨visited, h.frontier, h.first, h.length, h.described⟩
    · cases hr
  | succ fuel ih =>
    rcases queue with _ | ⟨⟨p, n⟩, queue⟩
    · cases hr
      exact ⟨visited, h.frontier, h.first, h.length, h.described⟩
    simp only [exportLoop] at hr
    split at hr
    · cases hr
    rcases hn : index.exportNode state p n with error | ⟨state', children⟩
    · simp [hn] at hr
    simp only [hn] at hr
    exact ih (h.step hwf hl hz0 hn).1 hr

def tokensAt (index : DigestKvIndex) (id : Nat) : Nat :=
  (index.arena.get? id).elim 0 (·.logicalTokenIds)

theorem Exporting.live (hwf : index.Wf) (h : index.Exporting depth visited queue state) :
    ∀ id ∈ visited ++ queue.map (·.2), index.arena.Live id := by
  intro id hi
  rcases h.frontier.origin id hi with rfl | ⟨p, -, hc⟩
  · obtain ⟨root, hr, -⟩ := hwf.tree.root
    exact live_iff.2 ⟨root, hr⟩
  obtain ⟨key, e, he, rfl⟩ := mem_nextNodes hc
  obtain ⟨node, hn, -⟩ := hwf.tree.child _ key e he
  exact live_iff.2 ⟨node, hn⟩

def TokensWithin (index : DigestKvIndex) (visited : List Nat) (state : ExportState) : Prop :=
  ∀ id ∈ visited, state.prefixForNode id ≤ (visited.map index.tokensAt).sum

theorem exportNode_total (hwf : index.Wf) (hz0 : index.poisonedEdges = 0)
    (hq : index.liveNodes ≤ 2 ^ 32) (ht : index.logicalTokenIds ≤ u64Max)
    (h : index.Exporting depth visited ((p, n) :: queue) state)
    (hw : index.TokensWithin visited state) :
    ∃ state' children, index.exportNode state p n = .ok (state', children) ∧
      index.TokensWithin (visited ++ [n]) state' := by
  obtain ⟨hp, hn⟩ := h.queued (p, n) (by simp)
  obtain ⟨key, e, he, rfl⟩ := mem_nextNodes hn
  obtain ⟨node, hg, hpa, hb⟩ := hwf.tree.child p key e he
  obtain ⟨parent, ha, hv⟩ := entryAt_eq_some.1 he
  obtain ⟨guard, hu⟩ : ∃ guard, e = .unique guard e.node := by
    rcases e with ⟨guard, child⟩ | child
    · exact ⟨guard, rfl⟩
    · exact absurd he (hwf.counted hz0 p key child)
  have hj := hwf.tree.parent_ne_root he
  obtain ⟨⟨hash, hh, -⟩, hk⟩ := hwf.tree.labelled _ node hg hj
  have hx := (hk key hb).1
  have ho : index.tokensAt e.node = key.tokenCount.toNat := by
    simp [tokensAt, hg, hx]
  have hl : (visited ++ [e.node]).Nodup := by
    have := h.frontier.nodup
    simp only [map_cons] at this
    exact this.sublist (by simp)
  have hy : ∀ id ∈ visited ++ [e.node], index.arena.Live id := by
    intro id hi
    refine h.live hwf id ?_
    simp only [map_cons, mem_append, mem_cons, not_mem_nil, or_false] at hi ⊢
    tauto
  have hz : (visited.map index.tokensAt).sum + key.tokenCount.toNat ≤ index.logicalTokenIds := by
    have hd := sum_map_le_total (fun node : DigestNode => node.logicalTokenIds)
      (s := index.arena) hl
    rw [map_append, sum_append, ← hwf.tree.tokenIds] at hd
    simp only [map_cons, map_nil, sum_singleton] at hd
    rw [← ho]
    exact hd
  have hc : state.records.length < 2 ^ 32 := by
    have hd := length_le_total_one hl hy
    rw [← hwf.tree.nodes, length_append, length_singleton, h.length] at hd
    omega
  have hr : state.prefixForNode p + key.tokenCount.toNat ≤ u64Max := by
    have := hw p hp
    omega
  have hf : e.node ∉ visited := by
    intro hm
    exact (nodup_append.1 hl).2.2 _ hm e.node (by simp) rfl
  rw [hu] at hv
  refine ⟨state.push e.node (recordOf state p node key guard hash), index.nextNodes e.node, ?_, ?_⟩
  · have hs := sortedChildren_of_counted hwf.counted hz0 hg
    exact exportNode_eq hg hb (by rwa [node_of_get? ha]) hh hs hr hc
  intro id hi
  rw [map_append, sum_append]
  simp only [map_cons, map_nil, sum_singleton, ho]
  rcases mem_append.1 hi with hi | hi
  · have hj' : id ≠ e.node := fun heq => hf (heq ▸ hi)
    simp only [ExportState.push, update_of_ne hj']
    exact (hw id hi).trans (Nat.le_add_right _ _)
  rw [mem_singleton] at hi
  simp only [ExportState.push, hi, update_self, recordOf]
  exact Nat.add_le_add_right (hw p hp) _

theorem Exporting.total (hwf : index.Wf) (hz0 : index.poisonedEdges = 0)
    (ho : index.liveNodes ≤ 2 ^ 32) (ht : index.logicalTokenIds ≤ u64Max)
    (hl : BreadthFirst.Layered index.nextNodes depth) (hd : depth rootNode = 0) {fuel : Nat}
    (h : index.Exporting depth visited queue state) (hw : index.TokensWithin visited state)
    (hf : index.arena.slots.length < fuel + visited.length) :
    ∃ records, index.exportLoop (fun _ => false) fuel queue state = .ok records := by
  induction fuel generalizing visited queue state with
  | zero =>
    rcases queue with _ | ⟨⟨p, n⟩, queue⟩
    · exact ⟨_, rfl⟩
    -- every visited or queued node has a slot of its own
    have he := length_le_total_one h.frontier.nodup (h.live hwf)
    have hs := total_one_le_length (s := index.arena)
    rw [length_append] at he
    omega
  | succ fuel ih =>
    rcases queue with _ | ⟨⟨p, n⟩, queue⟩
    · exact ⟨_, rfl⟩
    obtain ⟨state', children, hn, hw'⟩ :=
      exportNode_total hwf hz0 ho ht h hw
    obtain ⟨hsp, -⟩ := h.step hwf hl hd hn
    obtain ⟨records, hr⟩ := ih hsp hw' (by
      rw [length_append, length_singleton]
      omega)
    refine ⟨records, ?_⟩
    rw [exportLoop]
    simpa [hn] using hr

end DigestKvIndex
end Ramjet
