import Ramjet.DigestWf

/-!
# Removed nodes that stay

A removed node stays only while something hangs from it. It keeps its hash, which the
stores may meanwhile have given to another block.
-/

namespace Ramjet
open List Option Slab
namespace DigestKvIndex
variable {index : DigestKvIndex}

/-- Every removed node other than `id` has a child. -/
def PrunedBut (index : DigestKvIndex) (id : Nat) : Prop :=
  ∀ i node, i ≠ id → index.arena.get? i = some node → node.present = false →
    ∃ key e, index.entryAt i key = some e

def Pruned (index : DigestKvIndex) : Prop :=
  ∀ i node, index.arena.get? i = some node → node.present = false →
    ∃ key e, index.entryAt i key = some e

theorem Pruned.singleton {index : DigestKvIndex} (ha : index.arena = .singleton .root) :
    index.Pruned := by
  intro i node hg hp
  rw [ha, get?_singleton] at hg
  split at hg
  · cases hg
    cases hp
  · cases hg

theorem Pruned.writeHash (h : index.Pruned) (id : Nat) (hash : ExternalBlockHash) :
    (index.writeHash id hash).Pruned := by
  intro i node hg hp
  have he : ∀ key, (index.writeHash id hash).entryAt i key = index.entryAt i key := by
    intro key
    rw [DigestKvIndex.writeHash, entryAt_modify]
    exact fun _ => rfl
  simp only [he]
  simp only [DigestKvIndex.writeHash, get?_modify] at hg
  split at hg
  · obtain ⟨old, -, rfl⟩ := map_eq_some_iff.1 hg
    cases hp
  · exact h i node hg hp

variable {parentId : Nat}

theorem Pruned.insertChild (h : index.Pruned) (hs : index.arena.Wf) (hl : index.arena.Live parentId)
    (com : BlockCommitment) (ext : ExternalBlockHash) (length : Nat) :
    (index.insertChild parentId com ext length).2.Pruned := by
  intro i node hg hp
  simp only [entryAt_insertChild hs hl]
  by_cases hi : i = parentId
  · exact ⟨com.primary, _, by rw [if_pos ⟨hi, rfl⟩]⟩
  simp only [hi, false_and, if_false]
  rw [get?_insertChild hs hl] at hg
  split at hg
  · cases hg
    cases hp
  · rw [if_neg (Ne.symm hi)] at hg
    exact h i node hg hp

theorem poison_eq_of_unpoisoned {primary : PrimaryCommitment}
    (hz0 : (index.poison parentId primary).poisonedEdges = 0) :
    index.poison parentId primary = index := by
  unfold poison at hz0 ⊢
  split
  next hl =>
    simp [hl] at hz0
  · rfl

theorem Pruned.store (hwf : index.Wf) (h : index.poisonedEdges = 0 → index.Pruned)
    (event : BlockStored) (hz0 : (index.store event).2.poisonedEdges = 0) :
    (index.store event).2.Pruned := by
  unfold DigestKvIndex.store at hz0 ⊢
  split
  next hk =>
    simp only [hk] at hz0
    exact h hz0
  next parentId primary hk =>
    simp only [hk] at hz0
    have heq := poison_eq_of_unpoisoned hz0
    rw [heq] at hz0 ⊢
    exact h hz0
  next parentId commitments hk =>
    simp only [hk] at hz0
    obtain ⟨path, hc⟩ := checked_of_checkStore hwf.commit hk
    have hu := (hc.pending hwf).induct
      (motive := fun index _ _ => index.poisonedEdges = 0 → index.Pruned) ?_ ?_ hwf h
    · obtain ⟨-, -, -, hr⟩ := hu
      exact hr hz0
    · intro index cursor com ext length rest path guard childId _ _ _ hm hz0
      exact (hm hz0).writeHash childId ext
    · intro index cursor com ext length rest path hwf hp _ hm hz0
      exact ((hm hz0).insertChild hwf.tree.slab hp.live _ _ _).writeHash _ _

theorem PrunedBut.dropLeaf {id : Nat} (h : index.PrunedBut id) {node : DigestNode}
    {block : PrimaryCommitment} (hg : index.arena.get? id = some node)
    (hm : node.children.entries.isEmpty) :
    (index.dropLeaf id node parentId block).PrunedBut parentId := by
  intro i other hi ho hp
  have hd : id ≠ i := by
    intro heq
    simp [get?_dropLeaf, heq] at ho
  obtain ⟨old, hold, hs⟩ := keep_dropLeaf hd ho
  rw [hs] at hp
  obtain ⟨key, e, he⟩ := h i old (Ne.symm hd) hold hp
  refine ⟨key, e, ?_⟩
  rw [entryAt_dropLeaf hg hm, if_neg (fun ha => hi ha.1)]
  exact he

theorem PrunedBut.pruneFrom (hwf : index.Wf) {fuel id : Nat} (hw : index.arena.Live id)
    (hj : (index.arena.total fun _ => 1) ≤ fuel) (h : index.poisonedEdges = 0 → index.PrunedBut id)
    (hz0 : (index.pruneFrom fuel id).poisonedEdges = 0) : (index.pruneFrom fuel id).Pruned := by
  induction fuel generalizing index id with
  | zero =>
    have hm := hwf.tree.nodes
    omega
  | succ fuel ih =>
    obtain ⟨node, hn⟩ := live_iff.1 hw
    -- where pruning stops, `id` itself is no removed leaf
    have hs : index.poisonedEdges = 0 →
        (node.present = false → ∃ key e, index.entryAt id key = some e) → index.Pruned := by
      intro hz hc i other ho ha
      by_cases hi : i = id
      · subst hi
        rw [hn] at ho
        cases ho
        exact hc ha
      · exact h hz i other hi ho ha
    rw [pruneFrom_succ, node_of_get? hn] at hz0 ⊢
    split at hz0
    next hr =>
      rw [if_pos hr]
      refine hs hz0 fun ha => ?_
      obtain ⟨root, hg, -, -, -, -, hu⟩ := hwf.tree.root
      rw [hr, hg] at hn
      cases hn
      rw [hu] at ha
      cases ha
    rename_i hr
    rw [if_neg hr]
    split at hz0
    next hk =>
      rw [if_pos hk]
      refine hs hz0 fun ha => ?_
      rw [ha, Bool.false_or, Bool.not_eq_true', isEmpty_eq_false_iff_exists_mem] at hk
      obtain ⟨⟨key, e⟩, hx⟩ := hk
      exact ⟨key, e, (entryAt_of_get? hn key).trans (AList.mem_lookup_iff.2 hx)⟩
    rename_i hl
    rw [if_neg hl]
    simp only [Bool.or_eq_true, not_or, Bool.not_eq_true, Bool.not_eq_eq_eq_not,
      Bool.not_true] at hl
    obtain ⟨parentId, block, entry, hq, hb, he, hc⟩ :=
      hwf.tree.parent id node hn hr
    obtain ⟨parent, hg, hy⟩ := entryAt_eq_some.1 he
    simp only [hq, hb] at hz0 ⊢
    split at hz0
    next hp =>
      rw [node_of_get? hg, hy] at hp
      cases hp
      exact absurd he (hwf.counted hz0 parentId block id)
    next hf =>
      rw [if_neg hf]
      have hv : node.children.entries.isEmpty := by simpa using hl.2
      have hne : id ≠ parentId := by
        rintro rfl
        obtain ⟨depth, -, hd⟩ := hwf.tree.rank
        have := hd _ _ _ he
        rw [hc] at this
        omega
      obtain ⟨other, ho, -⟩ := live_dropLeaf hne hg node parentId block
      have ht := total_dropLeaf hn parentId block
      exact ih (hwf.dropLeaf hn hr hl.1 hv hq hb)
        (live_iff.2 ⟨other, ho⟩) (by omega) (fun hz => (h hz).dropLeaf hn hv) hz0

theorem Pruned.removeHash (hwf : index.Wf) (h : index.poisonedEdges = 0 → index.Pruned)
    (hash : ExternalBlockHash) (hz0 : (index.removeHash hash).2.poisonedEdges = 0) :
    (index.removeHash hash).2.Pruned := by
  rw [hwf.removeHash_eq] at hz0 ⊢
  rcases hl : index.byExternalHash.lookup hash with _ | id
  · simp only [hl] at hz0
    exact h hz0
  simp only [hl] at hz0
  obtain ⟨node, hn, -, hh⟩ := (hwf.hashed _ _).1 hl
  refine PrunedBut.pruneFrom (hwf.vacate hn hh hl) ?_ (total_one_le_length _) ?_ hz0
  · simp [Slab.Live, vacate, hn]
  intro hz i other hi ho hp
  have he : ∀ key, (index.vacate id hash).entryAt i key = index.entryAt i key := by
    intro key
    rw [vacate, entryAt_modify]
    exact fun _ => rfl
  simp only [he]
  rw [vacate, get?_modify, if_neg (Ne.symm hi)] at ho
  exact h hz i other ho hp

theorem Pruned.removeHashes (hwf : index.Wf) (h : index.poisonedEdges = 0 → index.Pruned)
    (hashes : List ExternalBlockHash) (hz0 : (index.removeHashes hashes).2.poisonedEdges = 0) :
    (index.removeHashes hashes).2.Pruned := by
  induction hashes generalizing index with
  | nil => exact h hz0
  | cons hash rest ih => exact ih (hwf.removeHash hash) (Pruned.removeHash hwf h hash) hz0

/-- No two nodes carry the same hash, removed ones included. -/
def DistinctHashes (index : DigestKvIndex) : Prop :=
  ∀ i j m n hash, index.arena.get? i = some m → index.arena.get? j = some n →
    m.externalHash = some hash → n.externalHash = some hash → i = j

theorem DistinctHashes.singleton {index : DigestKvIndex}
    (ha : index.arena = .singleton .root) : index.DistinctHashes := by
  intro i j m n hash hi hj hm hn
  rw [ha, get?_singleton] at hi
  split at hi
  · cases hi
    cases hm
  · cases hi

theorem DistinctHashes.of_kept {index' : DigestKvIndex} (h : index.DistinctHashes)
    (hk : ∀ i n, index'.arena.get? i = some n →
      ∃ m, index.arena.get? i = some m ∧ m.externalHash = n.externalHash) :
    index'.DistinctHashes := by
  intro i j m n hash hi hj hm hn
  obtain ⟨m', hi', hm'⟩ := hk i m hi
  obtain ⟨n', hj', hn'⟩ := hk j n hj
  exact h i j m' n' hash hi' hj' (hm'.trans hm) (hn'.trans hn)

section
variable (h : index.DistinctHashes)
include h

theorem DistinctHashes.modify {id : Nat} {f : DigestNode → DigestNode}
    (hf : ∀ node, index.arena.get? id = some node → (f node).externalHash = node.externalHash)
    (byExternalHash : HashMap ExternalBlockHash Nat) (poisonedEdges : Nat) :
    DistinctHashes { index with
      arena := index.arena.modify id f
      byExternalHash
      poisonedEdges } := by
  refine h.of_kept ?_
  intro i n hg
  simp only [get?_modify] at hg
  split at hg
  next hi =>
    subst hi
    obtain ⟨old, hold, rfl⟩ := map_eq_some_iff.1 hg
    exact ⟨old, hold, (hf old hold).symm⟩
  · exact ⟨n, hg, rfl⟩

theorem DistinctHashes.poison (parentId : Nat)
    (primary : PrimaryCommitment) : (index.poison parentId primary).DistinctHashes := by
  unfold DigestKvIndex.poison
  split
  · refine h.modify (fun _ _ => ?_) _ _
    rfl
  · exact h

theorem DistinctHashes.pruneFrom (fuel id : Nat) : (index.pruneFrom fuel id).DistinctHashes := by
  induction fuel generalizing index id with
  | zero => exact h
  | succ fuel ih =>
    rw [pruneFrom_succ]
    split
    · exact h
    split
    · exact h
    split
    · split
      · exact h
      refine ih (h.of_kept ?_) _
      intro i n hg
      have hi : id ≠ i := by
        intro heq
        simp [get?_dropLeaf, heq] at hg
      obtain ⟨old, hold, hs⟩ := keep_dropLeaf hi hg
      exact ⟨old, hold, by rw [hs]⟩
    · exact h

end

theorem DistinctHashes.removeHash (hwf : index.Wf) (h : index.DistinctHashes)
    (hash : ExternalBlockHash) : (index.removeHash hash).2.DistinctHashes := by
  rw [hwf.removeHash_eq]
  rcases index.byExternalHash.lookup hash with _ | id
  · exact h
  · refine pruneFrom (h.modify (fun _ _ => ?_) _ _) _ _
    rfl

theorem DistinctHashes.removeHashes (hwf : index.Wf) (h : index.DistinctHashes)
    (hashes : List ExternalBlockHash) : (index.removeHashes hashes).2.DistinctHashes := by
  induction hashes generalizing index with
  | nil => exact h
  | cons hash rest ih => exact ih (hwf.removeHash hash) (h.removeHash hwf hash)

/-- A removed node under one of these hashes lies on the path. -/
def TombstonesOnPath (index : DigestKvIndex) (hashes : List ExternalBlockHash) (path : List Nat) :
    Prop :=
  ∀ hash ∈ hashes, ∀ id node, index.arena.get? id = some node → node.externalHash = some hash →
    node.present = false → id ∈ path

def ReclaimsOwnHashes (index : DigestKvIndex) (event : BlockStored) : Prop :=
  ∀ parentId commitments path, index.checkStore event = .ok (parentId, commitments) →
    index.existingPath parentId (commitments.zip event.blockHashes) = .ok path →
    index.TombstonesOnPath event.blockHashes path

theorem DistinctHashes.grow (hwf : index.Wf) (h : index.DistinctHashes) {cursor : Nat}
    {externalHash : ExternalBlockHash} (hv : index.arena.Live cursor)
    (hf : index.byExternalHash.lookup externalHash = none)
    (ht : index.TombstonesOnPath [externalHash] []) (com : BlockCommitment) (length : Nat) :
    (index.insertChild cursor com externalHash length).2.DistinctHashes := by
  have hg := get?_insertChild hwf.tree.slab hv com externalHash length
  have hold : ∀ i m, (index.insertChild cursor com externalHash length).2.arena.get? i =
      some m → (index.insertChild cursor com externalHash length).1 ≠ i →
      ∃ m', index.arena.get? i = some m' ∧ m'.externalHash = m.externalHash := by
    intro i m hi he
    rw [hg, if_neg he] at hi
    split at hi
    · obtain ⟨old, hold, rfl⟩ := map_eq_some_iff.1 hi
      exact ⟨old, hold, rfl⟩
    · exact ⟨m, hi, rfl⟩
  have hw : ∀ i m, index.arena.get? i = some m → m.externalHash ≠ some externalHash := by
    intro i m hi hh
    rcases hp : m.present with _ | _
    · exact not_mem_nil (ht externalHash (by simp) i m hi hh hp)
    have hk := (hwf.hashed externalHash i).2 ⟨m, hi, hp, hh⟩
    rw [hf] at hk
    cases hk
  intro i j m n hash hi hj hm hn
  by_cases hl : (index.insertChild cursor com externalHash length).1 = i
  · rw [hg, if_pos hl] at hi
    cases hi
    obtain rfl : externalHash = hash := some.inj hm
    by_contra hij
    obtain ⟨n', hn', hs⟩ := hold j n hj (by rwa [hl])
    exact hw j n' hn' (hs.trans hn)
  · obtain ⟨m', hm', hs⟩ := hold i m hi hl
    by_cases hl' : (index.insertChild cursor com externalHash length).1 = j
    · rw [hg, if_pos hl'] at hj
      cases hj
      obtain rfl : externalHash = hash := some.inj hn
      exact absurd (hs.trans hm) (hw i m' hm')
    · obtain ⟨n', hn', hs'⟩ := hold j n hj hl'
      exact h i j m' n' hash hm' hn' (hs.trans hm) (hs'.trans hn)

variable {hashes : List ExternalBlockHash}

theorem TombstonesOnPath.writeHash {path : List Nat} (h : index.TombstonesOnPath hashes path)
    (id : Nat) (hash : ExternalBlockHash) :
    (index.writeHash id hash).TombstonesOnPath hashes path := by
  intro other ho i node hg hh hp
  simp only [DigestKvIndex.writeHash, get?_modify] at hg
  split at hg
  · obtain ⟨old, -, rfl⟩ := map_eq_some_iff.1 hg
    cases hp
  · exact h other ho i node hg hh hp

theorem TombstonesOnPath.insertChild {path : List Nat} (h : index.TombstonesOnPath hashes path)
    (hs : index.arena.Wf) (hl : index.arena.Live parentId) (com : BlockCommitment)
    (ext : ExternalBlockHash) (length : Nat) :
    (index.insertChild parentId com ext length).2.TombstonesOnPath hashes path := by
  intro other ho i node hg hh hp
  rw [get?_insertChild hs hl] at hg
  split at hg
  · cases hg
    cases hp
  split at hg
  · obtain ⟨old, hold, rfl⟩ := map_eq_some_iff.1 hg
    exact h other ho i old hold hh hp
  · exact h other ho i node hg hh hp

theorem DistinctHashes.store (hwf : index.Wf) (h : index.DistinctHashes) {event : BlockStored}
    (hre : index.ReclaimsOwnHashes event) : (index.store event).2.DistinctHashes := by
  unfold DigestKvIndex.store
  split
  · exact h
  · exact h.poison _ _
  rename_i parentId commitments hk
  obtain ⟨path, hc⟩ := checked_of_checkStore hwf.commit hk
  have ht := hre parentId commitments path hk hc.walk
  have hu := (hc.pending hwf).induct (motive := fun index items path => index.DistinctHashes ∧
      index.TombstonesOnPath (items.map (·.1.2)) path) ?_ ?_ hwf ⟨h, ?_⟩
  · obtain ⟨-, -, -, hd, -⟩ := hu
    exact hd
  · intro index cursor com ext length rest path guard childId hwf hp hb hm
    obtain ⟨child, path', rfl, ha, hh, -⟩ := hp.found hwf hb
    obtain ⟨hf, -⟩ := nodup_cons.1 hp.nodup
    refine ⟨hm.1.modify ?_ _ _, TombstonesOnPath.writeHash ?_ _ _⟩
    · intro node hn
      rw [ha] at hn
      cases hn
      exact hh.symm
    · intro other ho i node hg ho' hj
      have he := hm.2 other (mem_cons_of_mem _ ho) i node hg ho' hj
      rcases mem_cons.1 he with rfl | he
      · -- the child's hash belongs to this turn, not to a later one
        rw [ha] at hg
        cases hg
        rw [hh] at ho'
        exact absurd (some.inj ho' ▸ ho) hf
      · exact he
  · intro index cursor com ext length rest path hwf hp hl hm
    obtain rfl := hp.missing hl
    have hq : index.byExternalHash.lookup ext = none := by
      rcases hs : index.byExternalHash.lookup ext with _ | i
      · rfl
      · simpa using (hashesAgree_iff.1 hp.agree).1 i hs
    have ht : index.TombstonesOnPath [ext] [] := by
      intro hash hh
      rw [mem_singleton] at hh
      exact hm.2 hash (by simp [hh])
    have hv : index.TombstonesOnPath (rest.map (·.1.2)) [] := by
      intro hash hh
      exact hm.2 hash (mem_cons_of_mem _ hh)
    have hr := hm.1.grow hwf hp.live hq ht com length
    refine ⟨hr.modify ?_ _ _, (hv.insertChild hwf.tree.slab hp.live com ext length).writeHash _ _⟩
    intro node hn
    rw [get?_insertChild hwf.tree.slab hp.live, if_pos rfl] at hn
    cases hn
    rfl
  · intro hash hh
    refine ht hash ?_
    obtain ⟨item, hi, rfl⟩ := mem_map.1 hh
    exact (of_mem_zip (of_mem_zip hi).1).2

end DigestKvIndex
end Ramjet
