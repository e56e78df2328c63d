import Ramjet.SnapshotImport

/-!
# Reading an export back

An import of exported records copies the index, node by node in the order of the visit.
-/

namespace Ramjet
open List Slab Option
namespace DigestKvIndex
variable {a : DigestKvIndex} {hash : ExternalBlockHash}

theorem snapshotHash_externalHashToSnapshot (h : a.validExternalHash hash) :
    snapshotHash (externalHashToSnapshot hash) = .ok hash := by
  rcases hash with (_ | ⟨byte, rest⟩) | value | value
  · simp [validExternalHash, externalHashLen] at h
  · rfl
  · rfl
  · rfl

theorem externalHashLen_externalHashToSnapshot (hash : ExternalBlockHash) :
    (externalHashToSnapshot hash).externalHashLen = externalHashLen hash := by
  cases hash <;> rfl

theorem externalHashToSnapshot_injective {hash' : ExternalBlockHash}
    (h : externalHashToSnapshot hash = externalHashToSnapshot hash') : hash = hash' := by
  cases hash <;> cases hash' <;> cases h <;> rfl

theorem exists_digest (primary : PrimaryCommitment) (guard : Bytes 16) :
    ∃ digest : Bytes 32, digest.toList = primary.digest.toList ++ guard.toList ∧
      commitmentFromDigest primary.tokenCount digest = ⟨primary, guard⟩ := by
  refine ⟨⟨primary.digest.toList ++ guard.toList, by simp⟩, rfl, ?_⟩
  have hf : Bytes.first (n := 16) (m := 16)
      ⟨primary.digest.toList ++ guard.toList, by simp⟩ = primary.digest := by
    apply Vector.eq
    exact take_left' (by simp)
  have hl : Bytes.last (n := 16) (m := 16)
      ⟨primary.digest.toList ++ guard.toList, by simp⟩ = guard := by
    apply Vector.eq
    exact drop_left' (by simp)
  simp only [commitmentFromDigest, hf, hl]

/-- The `j`-th visited node, as far as copies have been made. -/
def Copied (visited : List Nat) (k i j : Nat) : Prop := j ≤ k ∧ visited[j]? = some i

variable {visited : List Nat} {k : Nat}

theorem Copied.mono {i j : Nat} (h : Copied visited k i j) : Copied visited (k + 1) i j :=
  ⟨Nat.le_succ_of_le h.1, h.2⟩

theorem Copied.unique (hn : visited.Nodup) {l i j j' : Nat} (h : Copied visited k i j)
    (h' : Copied visited l i j') : j = j' := by
  obtain ⟨hl, hg⟩ := List.getElem?_eq_some_iff.1 h.2
  obtain ⟨hl', hg'⟩ := List.getElem?_eq_some_iff.1 h'.2
  exact (Nodup.getElem_inj_iff hn).1 (hg.trans hg'.symm)

structure CopySim (visited : List Nat) (k : Nat) (m n : DigestNode) : Prop where
  parent : Rel (Copied visited k) m.parent n.parent
  block : n.block = m.block
  externalHash : n.externalHash = m.externalHash
  present : n.present = m.present
  logicalTokenIds : n.logicalTokenIds = m.logicalTokenIds
  forth : ∀ key e', n.children.lookup key = some e' →
    ∃ e, m.children.lookup key = some e ∧ EntrySim (Copied visited k) e e'
  back : ∀ key e j, m.children.lookup key = some e → Copied visited k e.node j →
    ∃ e', n.children.lookup key = some e' ∧ EntrySim (Copied visited k) e e'

structure Importing (a : DigestKvIndex) (visited : List Nat) (records : List DigestRecord)
    (digester : BlockDigester) (k : Nat) (state : ImportState) : Prop where
  base : ImportWf a.limits digester state
  recordNodes : state.recordNodes = (range k).map fun t => some (t + 1)
  hashes : ∀ hash ∈ state.externalHashes, ∃ t r, t < k ∧ records[t]? = some r ∧
    r.externalHash = externalHashToSnapshot hash
  imported : state.imported = k
  free : state.scratch.arena.free = []
  slots : state.scratch.arena.slots.length = k + 1
  nodes : state.scratch.liveNodes = k
  tokens : state.scratch.logicalTokenIds = ((records.take k).map (·.blockTokenIds.toNat)).sum
  bytes : state.scratch.externalHashBytes =
    ((records.take k).map (·.externalHash.externalHashLen)).sum
  poisoned : state.scratch.poisonedEdges = 0
  copied : ∀ i j, Copied visited k i j → ∃ m n, a.arena.get? i = some m ∧
    state.scratch.arena.get? j = some n ∧ CopySim visited k m n

variable {records : List DigestRecord}

theorem Importing.start (ha : a.Wf) (hf : visited[0]? = some rootNode) (D : BlockDigester) :
    Importing a visited records D 0 (.new a.limits D) where
  base := ⟨.new _ _, rfl, rfl, by simp [ImportState.new]⟩
  recordNodes := rfl
  hashes := by simp [ImportState.new]
  imported := rfl
  free := rfl
  slots := rfl
  nodes := rfl
  tokens := by simp [ImportState.new, DigestKvIndex.new, withCommit]
  bytes := by simp [ImportState.new, DigestKvIndex.new, withCommit]
  poisoned := rfl
  copied := by
    rintro i j ⟨hj, hg⟩
    obtain rfl : j = 0 := by omega
    rw [hf] at hg
    cases hg
    obtain ⟨root, hr, hp, hh, hk, hb, hc⟩ := ha.tree.root
    refine ⟨root, .root, hr, rfl, ?_, hb.symm, hh.symm, hc.symm, hk.symm, ?_, ?_⟩
    · rw [hp]
      exact .none
    · intro key e' he'
      simp [DigestNode.root] at he'
    · -- the root itself is the only copy so far, and no entry leads to it
      rintro key e j he ⟨hj, ht⟩
      obtain rfl : j = 0 := by omega
      rw [hf] at ht
      have := ha.tree.parent_ne_root ((entryAt_of_get? hr key).trans he)
      exact absurd (some.inj ht).symm this

variable {r : DigestRecord}

theorem Importing.parentId {D : BlockDigester} {p : Nat} {state : ImportState}
    (h : Importing a visited records D k state) (hf : visited[0]? = some rootNode)
    (hl : ParentLink visited records k p r) :
    ∃ jp, state.parentId r.parentRecord = .ok jp ∧ Copied visited k p jp := by
  rcases hl with ⟨rfl, hre, -⟩ | ⟨j, r', hj, hp, -, hre, -⟩
  · exact ⟨rootNode, by rw [hre]; rfl, Nat.zero_le _, hf⟩
  refine ⟨j + 1, ?_, hj, hp⟩
  have hg : state.recordNodes[j]? = some (some (j + 1)) := by
    rw [h.recordNodes]
    simp [hj]
  simp only [hre, ImportState.parentId, hg]

variable {depth : Nat → Nat}

theorem Exported.child_later (ha : a.Wf) (h : Exported a depth visited records) {id : Nat}
    (hi : visited[k]? = some id) {key : PrimaryCommitment} {e : ChildEntry}
    (he : a.entryAt id key = some e) (j : Nat) : ¬ Copied visited k e.node j := by
  rintro ⟨hj, hg⟩
  have hn : visited.Nodup := by simpa using h.frontier.nodup
  rcases j with _ | t
  · rw [h.first] at hg
    exact ha.tree.parent_ne_root he (some.inj hg).symm
  have ht : t < records.length := by
    have h1 := (List.getElem?_eq_some_iff.1 hg).1
    have h2 := h.length
    omega
  obtain ⟨c, p, node, primary, guard, hash, hc, hf, hl⟩ :=
    h.described t _ (getElem?_eq_getElem ht)
  rw [hg] at hc
  cases hc
  obtain ⟨rfl, rfl⟩ := ha.tree.entry_unique he hf.entry rfl
  rcases hl with ⟨rfl, -, -⟩ | ⟨j, r', hj', hp, -, -, -⟩
  · have : k = 0 := Copied.unique hn (k := k) (l := 0) ⟨le_rfl, hi⟩ ⟨le_rfl, h.first⟩
    omega
  · have : k = j + 1 := Copied.unique hn (k := k) (l := j + 1) ⟨le_rfl, hi⟩ ⟨le_rfl, hp⟩
    omega

variable {guard : Bytes 16} {id p jp : Nat} {node : DigestNode} {primary : PrimaryCommitment}

theorem CopySim.leaf (ha : a.Wf) (h : Exported a depth visited records)
    (hi : visited[k + 1]? = some id) (hf : a.Describes id p node primary guard hash r)
    (hp : Copied visited k p jp) : CopySim visited (k + 1) node
      { DigestKvIndex.leaf jp ⟨primary, guard⟩ hash primary.tokenCount.toNat with
        present := r.present } where
  parent := by
    rw [hf.parent]
    exact .some hp.mono
  block := hf.block.symm
  externalHash := hf.externalHash.symm
  present := hf.present
  logicalTokenIds := by
    have hn : id ≠ rootNode := ha.tree.ne_root_of_hash hf.get hf.externalHash
    exact (((ha.tree.labelled id node hf.get hn).tokens primary hf.block).1).symm
  forth key e' he' := by simp [DigestKvIndex.leaf] at he'
  back key e j he hj :=
    absurd hj (h.child_later ha hi ((entryAt_of_get? hf.get key).trans he) j)

theorem CopySim.grow (ha : a.Wf) (h : Exported a depth visited records)
    (hd : visited[k + 1]? = some id) (hf : a.Describes id p node primary guard hash r)
    (hb : Copied visited k p jp) {i j : Nat} {m n : DigestNode} (hij : Copied visited k i j)
    (hm : a.arena.get? i = some m) (hn : CopySim visited k m n) : CopySim visited (k + 1) m
      (if jp = j then addChild ⟨primary, guard⟩ (k + 1) n else n) := by
  have hc : visited.Nodup := by simpa using h.frontier.nodup
  have ho : ∀ x y, Copied visited k x y → Copied visited (k + 1) x y := fun _ _ => Copied.mono
  have hw : ∀ x y, Copied visited (k + 1) x y → Copied visited k x y ∨ x = id ∧ y = k + 1 := by
    rintro x y ⟨hy, hx⟩
    rcases Nat.lt_or_ge k y with ht | hg
    · obtain rfl : y = k + 1 := by omega
      rw [hd] at hx
      exact .inr ⟨(some.inj hx).symm, rfl⟩
    · exact .inl ⟨hg, hx⟩
  have hold : ∀ y, ¬ Copied visited k id y := by
    intro y hy
    have := Copied.unique hc hy (l := k + 1) ⟨le_rfl, hd⟩
    have := hy.1
    omega
  have hl : jp = j ↔ p = i := by
    constructor
    · rintro rfl
      exact some.inj (hb.2.symm.trans hij.2)
    · rintro rfl
      exact Copied.unique hc hb hij
  -- an entry of `m` leads to the new node only at the parent, under the block
  have hk : ∀ key e, m.children.lookup key = some e → e.node = id →
      p = i ∧ key = primary ∧ e = .unique guard id := by
    intro key e he hi
    have he' := (entryAt_of_get? hm key).trans he
    obtain ⟨rfl, rfl⟩ := ha.tree.entry_unique he' hf.entry hi
    rw [hf.entry] at he'
    exact ⟨rfl, rfl, (some.inj he').symm⟩
  refine ⟨?_, ?_, ?_, ?_, ?_, ?_, ?_⟩
  · split <;> exact optionRel_mono hn.parent fun _ _ _ _ => ho _ _
  · split <;> exact hn.block
  · split <;> exact hn.externalHash
  · split <;> exact hn.present
  · split <;> exact hn.logicalTokenIds
  · intro key e' he'
    have holdE : n.children.lookup key = some e' →
        ∃ e, m.children.lookup key = some e ∧ EntrySim (Copied visited (k + 1)) e e' := by
      intro he'
      obtain ⟨e, he, hs⟩ := hn.forth key e' he'
      exact ⟨e, he, hs.mono ho⟩
    split at he'
    next hj =>
      simp only [addChild, AList.lookup_insert_eq] at he'
      split at he'
      next hq =>
        cases he'
        obtain rfl := hl.1 hj
        refine ⟨.unique guard id, ?_, .unique ⟨le_rfl, hd⟩⟩
        rw [hq, ← entryAt_of_get? hm]
        exact hf.entry
      · exact holdE he'
    · exact holdE he'
  · intro key e j' he hj'
    rcases hw _ _ hj' with hj' | ⟨hi, -⟩
    · obtain ⟨e', he', hs⟩ := hn.back key e j' he hj'
      refine ⟨e', ?_, hs.mono ho⟩
      split
      next hj =>
        simp only [addChild, AList.lookup_insert_eq]
        rw [if_neg, he']
        rintro rfl
        obtain rfl := hl.1 hj
        rw [← entryAt_of_get? hm, hf.entry] at he
        cases he
        exact hold _ hj'
      · exact he'
    · obtain ⟨hp, rfl, rfl⟩ := hk key e he hi
      refine ⟨.unique guard (k + 1), ?_, .unique ⟨le_rfl, hd⟩⟩
      rw [if_pos (hl.2 hp)]
      simp [addChild]

structure Fits (limits : DigestIndexLimits) (records : List DigestRecord) : Prop where
  nodes : records.length ≤ limits.maxNodes
  tokens : (records.map (·.blockTokenIds.toNat)).sum ≤ limits.maxLogicalTokenIds
  bytes : (records.map (·.externalHash.externalHashLen)).sum ≤ limits.maxTotalExternalHashBytes

theorem sum_take_succ_le (hr : records[k]? = some r) (f : DigestRecord → Nat) :
    ((records.take (k + 1)).map f).sum = ((records.take k).map f).sum + f r ∧
      ((records.take k).map f).sum + f r ≤ (records.map f).sum := by
  have hs : records.take (k + 1) = records.take k ++ [r] := by
    rw [take_add_one, hr]
    rfl
  have hu : ((records.take (k + 1)).map f).sum = ((records.take k).map f).sum + f r := by
    rw [hs]
    simp
  refine ⟨hu, ?_⟩
  rw [← hu]
  conv_rhs => rw [← take_append_drop (k + 1) records, map_append, sum_append]
  omega

section Step
variable {depth : Nat → Nat} {visited : List Nat} {records : List DigestRecord}
  {D : BlockDigester} {k : Nat} {state : ImportState} {r : DigestRecord}

theorem position_unique (hu : (records.map (·.externalHash)).Nodup) {t : Nat} {r' : DigestRecord}
    (ht : records[t]? = some r') (hr : records[k]? = some r)
    (hh : r'.externalHash = r.externalHash) : t = k := by
  have hl := (List.getElem?_eq_some_iff.1 ht).1
  refine (getElem?_inj (by simpa using hl) hu).1 ?_
  rw [getElem?_map, getElem?_map, ht, hr]
  simp [hh]

theorem Importing.not_resident (hx : Exported a depth visited records)
    (hu : (records.map (·.externalHash)).Nodup)
    (h : Importing a visited records D k state) (hr : records[k]? = some r)
    {hash : ExternalBlockHash} (hh : r.externalHash = externalHashToSnapshot hash) (j : Nat) :
    ¬ state.scratch.Resident hash j := by
  rintro ⟨n, hn, -, ha⟩
  have hj : j ≤ k := by
    have := get?_lt hn
    rw [h.slots] at this
    omega
  have hl : j < visited.length := by
    have h1 := (List.getElem?_eq_some_iff.1 hr).1
    have h2 := hx.length
    omega
  obtain ⟨m, n', hm, hn', hd⟩ := h.copied _ j ⟨hj, getElem?_eq_getElem hl⟩
  rw [hn] at hn'
  cases hn'
  have hb := hd.externalHash.symm.trans ha
  rcases j with _ | t
  · obtain ⟨root, ho, -, he, -⟩ := h.base.wf.tree.root
    rw [show rootNode = 0 from rfl, hn] at ho
    cases ho
    rw [he] at ha
    cases ha
  · have ht : t < records.length := by
      have := hx.length
      omega
    have hc := getElem?_eq_getElem ht
    obtain ⟨id, p, node, primary, guard, hash', hi, hf, -⟩ := hx.described t _ hc
    rw [getElem?_eq_getElem hl] at hi
    cases hi
    rw [hf.get] at hm
    cases hm
    rw [hf.externalHash] at hb
    cases hb
    have := position_unique hu hc hr (hf.hash.trans hh.symm)
    omega

theorem Importing.inserts (h : Importing a visited records D k state) {jp : Nat}
    (c : BlockCommitment) (present : Bool) {hash : ExternalBlockHash}
    (hf : state.scratch.byExternalHash.lookup hash = none)
    (hno : (state.scratch.node jp).children.lookup c.primary = none)
    (hca : state.scratch.hasCapacity 1 c.primary.tokenCount.toNat (externalHashLen hash)) :
    ∃ scratch, state.scratch.insertSnapshotChild jp c hash present = .ok (k + 1, scratch) ∧
      (scratch.arena.free = [] ∧ scratch.arena.slots.length = k + 1 + 1) ∧
      scratch.liveNodes = state.scratch.liveNodes + 1 ∧
      scratch.logicalTokenIds = state.scratch.logicalTokenIds + c.primary.tokenCount.toNat ∧
      scratch.externalHashBytes = state.scratch.externalHashBytes + externalHashLen hash ∧
      scratch.poisonedEdges = state.scratch.poisonedEdges := by
  have hb := insertSnapshotChild_eq state.scratch jp c present hf hno hca
  obtain ⟨hnx, hf', hw⟩ := alloc_of_free_nil h.free (leaf jp c hash c.primary.tokenCount.toNat)
  rw [h.slots] at hnx hw
  have hnx' : (state.scratch.insertChild jp c hash c.primary.tokenCount.toNat).1 = k + 1 := hnx
  simp only [hnx'] at hb
  refine ⟨_, hb, ⟨hf', ?_⟩, rfl, rfl, rfl, rfl⟩
  rw [Slab.length_modify]
  exact (Slab.length_modify ..).trans hw

theorem Importing.step (ha : a.Wf) (hx : Exported a depth visited records)
    (hu : (records.map (·.externalHash)).Nodup) (hs : Fits a.limits records)
    (h : Importing a visited records D k state) (hr : records[k]? = some r) :
    ∃ state', importRecord 0 state r = .ok state' ∧
      Importing a visited records D (k + 1) state' := by
  obtain ⟨id, p, node, primary, guard, hash, hid, hd, hl⟩ := hx.described k r hr
  obtain ⟨jp, hp, hjp⟩ := h.parentId hx.first hl
  obtain ⟨digest, hdgs, hco⟩ := exists_digest primary guard
  have hne : id ≠ rootNode := ha.tree.ne_root_of_hash hd.get hd.externalHash
  obtain ⟨hv, hps⟩ : a.validExternalHash hash ∧ 0 < primary.tokenCount.toNat := by
    obtain ⟨⟨hash', hh', hv⟩, hc⟩ := ha.tree.labelled id node hd.get hne
    rw [hd.externalHash] at hh'
    cases hh'
    exact ⟨hv, (hc primary hd.block).2⟩
  have hv' : state.scratch.validExternalHash hash := by
    simpa only [validExternalHash, h.base.limits] using hv
  obtain ⟨mp, np, hmp, hnp, hmnp⟩ := h.copied p jp hjp
  have hlv : state.scratch.arena.Live jp := Slab.live_iff.2 ⟨np, hnp⟩
  have hnd : visited.Nodup := by simpa using hx.frontier.nodup
  have hf : state.scratch.byExternalHash.lookup hash = none := by
    rcases hlk : state.scratch.byExternalHash.lookup hash with _ | j
    · rfl
    · exact absurd ((h.base.wf.hashed hash j).1 hlk) (h.not_resident hx hu hr hd.hash j)
  have hno : (state.scratch.node jp).children.lookup primary = none := by
    rw [node_of_get? hnp]
    rcases hlk : np.children.lookup primary with _ | e'
    · rfl
    obtain ⟨e, he, hsi⟩ := hmnp.forth primary e' hlk
    rw [← entryAt_of_get? hmp, hd.entry] at he
    cases he
    have h1 := Copied.unique hnd hsi.node (l := k + 1) ⟨le_rfl, hid⟩
    have h2 := hsi.node.1
    omega
  have hc := sum_take_succ_le hr (·.blockTokenIds.toNat)
  have hy := sum_take_succ_le hr (·.externalHash.externalHashLen)
  simp only [hd.tokens, hd.hash, externalHashLen_externalHashToSnapshot] at hc hy
  have hca : state.scratch.hasCapacity 1 primary.tokenCount.toNat
      (externalHashLen hash) = true := by
    have hk := (List.getElem?_eq_some_iff.1 hr).1
    have h1 := hs.nodes
    have h2 := hs.tokens
    have h3 := hs.bytes
    simp only [hasCapacity, Bool.and_eq_true, decide_eq_true_eq, h.base.limits, h.nodes, h.tokens,
      h.bytes]
    omega
  obtain ⟨scratch, hb, har, ho, hc', hy', hq⟩ := h.inserts ⟨primary, guard⟩ r.present hf hno hca
  have hrds : Reads state r jp digest hash (k + 1) scratch := by
    refine ⟨hp, ?_, hd.digest.trans hdgs.symm, ?_, hv', ?_, ?_⟩
    · rw [hd.tokens]
      intro hz
      rw [hz] at hps
      simp at hps
    · rw [hd.hash]
      exact snapshotHash_externalHashToSnapshot hv
    · intro hme
      obtain ⟨t, r', ht, hr', hh'⟩ := h.hashes hash hme
      have := position_unique hu hr' hr (hh'.trans hd.hash.symm)
      omega
    · rw [hd.tokens, hco]
      exact hb
  have hok := (importRecord_iff hd.groupSlot).2 ⟨jp, digest, hash, k + 1, scratch, hrds, rfl⟩
  have hg := get?_insertSnapshotChild h.base.wf hlv hb
  refine ⟨_, hok, h.base.record hok, ?_, ?_, congrArg (· + 1) h.imported, har.1, har.2,
    ho.trans (congrArg (· + 1) h.nodes), ?_, ?_, hq.trans h.poisoned, ?_⟩
  · simp [ImportState.push, h.recordNodes, List.range_succ]
  · intro hash' hme
    rcases List.mem_cons.1 hme with rfl | hme
    · exact ⟨k, r, Nat.lt_succ_self k, hr, hd.hash⟩
    · obtain ⟨t, r', ht, hr', hh'⟩ := h.hashes hash' hme
      exact ⟨t, r', Nat.lt_succ_of_lt ht, hr', hh'⟩
  · rw [hc.1, ← h.tokens]
    exact hc'
  · rw [hy.1, ← h.bytes]
    exact hy'
  · rintro i j ⟨hj, hi⟩
    change ∃ m n, _ ∧ scratch.arena.get? j = some n ∧ _
    rw [hg]
    rcases Nat.lt_or_ge k j with hlt | hle
    · obtain rfl : j = k + 1 := by omega
      rw [hid] at hi
      cases hi
      exact ⟨node, _, hd.get, if_pos rfl, .leaf ha hx hid hd hjp⟩
    · obtain ⟨m, n, hm, hn, hmn⟩ := h.copied i j ⟨hle, hi⟩
      have hgrow := hmn.grow ha hx hid hd hjp ⟨hle, hi⟩ hm
      refine ⟨m, _, hm, ?_, hgrow⟩
      rw [if_neg (by omega), hn]
      split <;> rfl

theorem Importing.run (ha : a.Wf) (hx : Exported a depth visited records)
    (hu : (records.map (·.externalHash)).Nodup) (hi : Fits a.limits records)
    (h : Importing a visited records D k state) (hk : k ≤ records.length) :
    ∃ state', importRecords 0 (fun _ => false) state (records.drop k) = .ok state' ∧
      Importing a visited records D records.length state' := by
  induction hn : records.length - k generalizing k state with
  | zero =>
    obtain rfl : k = records.length := by omega
    rw [drop_length]
    exact ⟨state, rfl, h⟩
  | succ n ih =>
    have hl : k < records.length := by omega
    have hr := getElem?_eq_getElem hl
    obtain ⟨next, hb, hs⟩ := h.step ha hx hu hi hr
    obtain ⟨state', hc, hd⟩ := ih hs hl (by omega)
    refine ⟨state', ?_, hd⟩
    rw [drop_eq_getElem_cons hl]
    simp only [importRecords, hb, Bool.false_eq_true, if_false]
    exact hc

end Step

theorem Exported.mem_visited (ha : a.Wf) (hz : a.poisonedEdges = 0)
    (hl : BreadthFirst.Layered a.nextNodes depth) (h : Exported a depth visited records)
    {i : Nat} (hi : a.arena.Live i) : i ∈ visited := by
  refine h.frontier.covers hl (S := a.arena.Live) ?_ i hi
  intro y hy
  obtain ⟨node, hn⟩ := live_iff.1 hy
  by_cases hr : y = rootNode
  · exact .inl hr
  obtain ⟨p, key, e, -, -, he, rfl⟩ := ha.tree.parent y node hn hr
  obtain ⟨parent, hp, -⟩ := entryAt_eq_some.1 he
  exact .inr ⟨p, live_iff.2 ⟨parent, hp⟩, mem_nextNodes_of_entry ha.counted hz he⟩

theorem Exported.sum_records (ha : a.Wf) (hz : a.poisonedEdges = 0)
    (hl : BreadthFirst.Layered a.nextNodes depth) (h : Exported a depth visited records)
    (f : DigestRecord → Nat) (g : DigestNode → Nat) (hb : ∀ id p node primary guard hash r,
      a.Describes id p node primary guard hash r → f r = g node)
    (hr : ∀ node, a.arena.get? rootNode = some node → g node = 0) :
    (records.map f).sum = a.arena.total g := by
  have hn : visited.Nodup := by simpa using h.frontier.nodup
  rw [← sum_map_eq_total g hn fun i hi => h.mem_visited ha hz hl hi]
  obtain ⟨rest, hs⟩ : ∃ rest, visited = rootNode :: rest := by
    rcases hv : visited with _ | ⟨v, rest⟩
    · have := h.length
      simp [hv] at this
    have := h.first
    simp only [hv, getElem?_cons_zero, some.injEq] at this
    exact ⟨rest, by rw [this]⟩
  obtain ⟨root, hg, -⟩ := ha.tree.root
  have hc : records.map f = rest.map fun i => (a.arena.get? i).elim 0 g := by
    apply ext_getElem?
    intro k
    rw [getElem?_map, getElem?_map]
    have hlen := h.length
    rw [hs, length_cons] at hlen
    rcases Nat.lt_or_ge k records.length with hk | hk
    · obtain ⟨id, p, node, primary, guard, hash, hd, hf, -⟩ :=
        h.described k _ (getElem?_eq_getElem hk)
      rw [hs, getElem?_cons_succ] at hd
      rw [getElem?_eq_getElem hk, hd]
      simp [hf.get, hb _ _ _ _ _ _ _ hf]
    · rw [getElem?_eq_none hk, getElem?_eq_none (by omega)]
      rfl
  rw [hs, map_cons, sum_cons, hc]
  simp [hg, hr root hg]

section Whole
variable {depth : Nat → Nat} {visited : List Nat} {records : List DigestRecord}

section
variable (ha : a.Wf)
include ha

theorem Exported.sum_tokens (hz : a.poisonedEdges = 0)
    (hl : BreadthFirst.Layered a.nextNodes depth) (h : Exported a depth visited records) :
    (records.map (·.blockTokenIds.toNat)).sum = a.logicalTokenIds := by
  rw [ha.tree.tokenIds]
  refine h.sum_records ha hz hl _ _ ?_ ?_
  · intro id p node primary guard hash r hf
    have he := ha.tree.ne_root_of_hash hf.get hf.externalHash
    rw [hf.tokens]
    exact (((ha.tree.labelled id node hf.get he).tokens primary hf.block).1).symm
  · intro node hn
    obtain ⟨root, hr, -, -, ht, -⟩ := ha.tree.root
    rw [hr] at hn
    cases hn
    exact ht

theorem Exported.sum_bytes (hz : a.poisonedEdges = 0)
    (hl : BreadthFirst.Layered a.nextNodes depth) (h : Exported a depth visited records) :
    (records.map (·.externalHash.externalHashLen)).sum = a.externalHashBytes := by
  rw [ha.tree.hashBytes]
  refine h.sum_records ha hz hl _ _ ?_ ?_
  · intro id p node primary guard hash r hf
    rw [hf.hash, externalHashLen_externalHashToSnapshot, hf.externalHash]
    rfl
  intro node hn
  obtain ⟨root, hr, -, hh, -⟩ := ha.tree.root
  rw [hr] at hn
  cases hn
  rw [hh]
  rfl

theorem Exported.fits (hz : a.poisonedEdges = 0)
    (hl : BreadthFirst.Layered a.nextNodes depth) (h : Exported a depth visited records)
    (hlen : records.length = a.liveNodes) : Fits a.limits records := by
  have hc := ha.tree.capacity
  simp only [hasCapacity, Nat.add_zero, Bool.and_eq_true, decide_eq_true_eq] at hc
  exact ⟨hlen.trans_le hc.1.1, (h.sum_tokens ha hz hl).trans_le hc.1.2,
    (h.sum_bytes ha hz hl).trans_le hc.2⟩

theorem Importing.simulates (hz : a.poisonedEdges = 0) (hy : BreadthFirst.Layered a.nextNodes depth)
    (hx : Exported a depth visited records) (hlen : records.length = a.liveNodes)
    {state : ImportState} (h : Importing a visited records a.digester records.length state) :
    Simulates (fun i j => visited[j]? = some i) a state.scratch := by
  have hd : visited.Nodup := by simpa using hx.frontier.nodup
  have hc : ∀ i j : Nat, visited[j]? = some i → Copied visited records.length i j := by
    intro i j hij
    have h1 := (List.getElem?_eq_some_iff.1 hij).1
    have h2 := hx.length
    exact ⟨by omega, hij⟩
  have hv : ∀ i, a.arena.Live i → ∃ j : Nat, visited[j]? = some i := by
    intro i hi
    exact mem_iff_getElem?.1 (hx.mem_visited ha hz hy hi)
  have ht : ∀ i j, Copied visited records.length i j → visited[j]? = some i := fun _ _ h => h.2
  refine ⟨hx.first, ?_, ?_, ?_, h.base.limits, h.base.digester, h.nodes.trans hlen,
    h.tokens.trans ?_, h.bytes.trans ?_, h.poisoned.trans hz.symm⟩
  · intro i j i' j' hij hij'
    constructor
    · rintro rfl
      exact Copied.unique hd (hc _ _ hij) (hc _ _ hij')
    · rintro rfl
      exact some.inj (hij.symm.trans hij')
  · intro i j hij
    obtain ⟨m, n, hm, hn, hb⟩ := h.copied i j (hc i j hij)
    refine ⟨m, n, hm, hn, optionRel_mono hb.parent fun _ _ _ _ => ht _ _, hb.block,
      hb.externalHash, hb.present, hb.logicalTokenIds, fun key => ?_⟩
    rcases hl : m.children.lookup key with _ | e
    · rcases hl' : n.children.lookup key with _ | e'
      · exact .none
      obtain ⟨e, he, -⟩ := hb.forth key e' hl'
      rw [hl] at he
      cases he
    · obtain ⟨child, hh, -⟩ := ha.tree.child i key e ((entryAt_of_get? hm key).trans hl)
      obtain ⟨j', hj'⟩ := hv e.node (live_iff.2 ⟨child, hh⟩)
      obtain ⟨e', he', hf⟩ := hb.back key e j' hl (hc _ _ hj')
      rw [he']
      exact .some (hf.mono ht)
  · intro hash
    have hr : ∀ i j : Nat, visited[j]? = some i →
        (a.Resident hash i ↔ state.scratch.Resident hash j) := by
      intro i j hij
      obtain ⟨m, n, hm, hn, hb⟩ := h.copied i j (hc i j hij)
      simp [Resident, hm, hn, hb.present, hb.externalHash]
    rcases hA : a.byExternalHash.lookup hash with _ | i
    · rcases hB : state.scratch.byExternalHash.lookup hash with _ | j
      · exact .none
      have hs := (h.base.wf.hashed hash j).1 hB
      obtain ⟨n, hn, -⟩ := hs
      have hj : j < visited.length := by
        have h1 := get?_lt hn
        have h2 := h.slots
        have h3 := hx.length
        omega
      have hij := getElem?_eq_getElem hj
      have := (ha.hashed hash _).2 ((hr _ j hij).2 ((h.base.wf.hashed hash j).1 hB))
      rw [hA] at this
      cases this
    · have hs := (ha.hashed hash i).1 hA
      obtain ⟨node, ho, -⟩ := hs
      obtain ⟨j, hij⟩ := hv i (live_iff.2 ⟨node, ho⟩)
      have := (h.base.wf.hashed hash j).2 ((hr i j hij).1 ((ha.hashed hash i).1 hA))
      rw [this]
      exact .some hij
  · rw [take_length]
    exact hx.sum_tokens ha hz hy
  · rw [take_length]
    exact hx.sum_bytes ha hz hy

theorem Exported.importRecords (hz : a.poisonedEdges = 0)
    (hl : BreadthFirst.Layered a.nextNodes depth) (hx : Exported a depth visited records)
    (hlen : records.length = a.liveNodes) (hu : (records.map (·.externalHash)).Nodup) :
    ∃ state, DigestKvIndex.importRecords 0 (fun _ => false) (.new a.limits a.digester) records =
        .ok state ∧ state.imported = records.length ∧ Similar a state.scratch := by
  obtain ⟨state, hr, h⟩ := (Importing.start ha hx.first a.digester).run ha hx hu
    (hx.fits ha hz hl hlen) (Nat.zero_le _)
  exact ⟨state, hr, h.imported, ha, h.base.wf, _, h.simulates ha hz hl hx hlen⟩

end
end Whole
end DigestKvIndex
end Ramjet
