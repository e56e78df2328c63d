import Ramjet.DigestPruning
import Ramjet.SnapshotRoundTrip

/-!
# Exports that validate

Breadth-first order gives a body all its validation asks for, but that no two records
share a hash.
-/

namespace Ramjet
open List Option

/-- The sizes of a body that depend on what the engine reported. -/
structure WithinLimits (limits : SnapshotLimits) (group : GroupMetadata) (body : SnapshotBody) :
    Prop where
  blocks : ∀ r ∈ body.records, r.blockTokenIds ≤ group.blockSize
  prefixes : ∀ r ∈ body.records, r.prefixTokenIds ≤ limits.maxPrefixTokenIds
  hashes : ∀ r ∈ body.records, r.externalHash.externalHashLen ≤ limits.maxExternalHashBytes
  hashBytes : (body.records.map (·.externalHash.externalHashLen)).sum ≤
    limits.maxTotalExternalHashBytes

def GroupMetadata.Publishable (group : GroupMetadata) : Prop :=
  group.disposition = .indexed ∧ group.blockSize ≠ 0 ∧ validDisposition group

namespace DigestKvIndex
variable {index : DigestKvIndex} {depth : Nat → Nat} {vis : List Nat}
  {body : SnapshotBody} {limits : SnapshotLimits} {group : GroupMetadata}

/-- An export about to be validated. -/
structure Publishing (index : DigestKvIndex) (depth : Nat → Nat) (visited : List Nat)
    (body : SnapshotBody) (limits : SnapshotLimits) (group : GroupMetadata) : Prop where
  wf : index.Wf
  unpoisoned : index.poisonedEdges = 0
  layered : BreadthFirst.Layered index.nextNodes depth
  rootDepth : depth rootNode = 0
  exported : Exported index depth visited body.records
  groups : body.groups = [group]
  publishable : group.Publishable
  digestBytes : body.digest.digestBytes = 32
  within : WithinLimits limits group body

variable {r : DigestRecord} {guard : Bytes 16} {hash : ExternalBlockHash} {node : DigestNode}
  {primary : PrimaryCommitment}

theorem Publishing.depth_eq (hb : index.Publishing depth vis body limits group) {id p : Nat}
    (h : index.Describes id p node primary guard hash r) : depth id = depth p + 1 :=
  hb.layered.deeper p id (mem_nextNodes_of_entry hb.wf.counted hb.unpoisoned h.entry)

/-- The validation's pass before its `k`-th record. -/
structure Scanned (depth : Nat → Nat) (visited : List Nat) (body : SnapshotBody) (k : Nat)
    (scan : RecordScan) : Prop where
  hashes : ∀ key ∈ scan.externalHashes, ∃ t r, t < k ∧ body.records[t]? = some r ∧
    key = (r.groupSlot, r.externalHash)
  depths : scan.depths.length = k
  layers : ∀ t id, t < k → visited[t + 1]? = some id → scan.depths[t]? = some (depth id - 1)
  counts : scan.childCounts.length = body.records.length
  counted : ∀ t r j, t < k → body.records[t]? = some r → r.parentRecord = some j →
    scan.childCounts[j]? ≠ some 0
  previous : ∃ d, scan.previousDepths = [d] ∧
    ∀ t id, k ≤ t → visited[t + 1]? = some id → d ≤ depth id - 1

theorem Scanned.start (hg : body.groups = [group]) : Scanned depth vis body 0 (.new body) where
  hashes := by simp [RecordScan.new]
  depths := rfl
  layers := by simp
  counts := by simp [RecordScan.new]
  counted := by simp
  previous := ⟨0, by simp [RecordScan.new, hg], fun _ _ _ _ => Nat.zero_le _⟩

variable {scan : RecordScan}

theorem Scanned.linked (hb : index.Publishing depth vis body limits group) {k : Nat}
    (h : Scanned depth vis body k scan) (hr : body.records[k]? = some r) {id : Nat}
    (hi : vis[k + 1]? = some id) : ∃ childCounts, linkRecord body scan k r =
        .ok (depth id - 1, r.prefixTokenIds, childCounts) ∧
      childCounts.length = body.records.length ∧
      ∀ t r' j, t < k + 1 → body.records[t]? = some r' → r'.parentRecord = some j →
        childCounts[j]? ≠ some 0 := by
  obtain ⟨id', p, node, primary, guard, hash, hi', hf, hl⟩ :=
    hb.exported.described k r hr
  rw [hi] at hi'
  cases hi'
  have hd := hb.depth_eq hf
  rcases hl with ⟨rfl, ho, hk⟩ | ⟨j, r', hj, hp, hr', hs, hk⟩
  · refine ⟨scan.childCounts, ?_, h.counts, ?_⟩
    · simp only [linkRecord, ho]
      rw [hd, hb.rootDepth, hk]
    intro t r' j ht hr' hj
    rcases Nat.lt_succ_iff_lt_or_eq.1 ht with ht | rfl
    · exact h.counted t r' j ht hr' hj
    rw [hr] at hr'
    cases hr'
    rw [ho] at hj
    cases hj
  · obtain ⟨p', pp, parent, primary', guard', hash', hp', ha, -⟩ :=
      hb.exported.described j r' hr'
    rw [hp] at hp'
    cases hp'
    have hd' := hb.depth_eq ha
    have hc : scan.depths.getD j 0 + 1 = depth id - 1 := by
      rw [getD_eq_getElem?_getD, h.layers j p hj hp, getD_some]
      omega
    have hn := hf.bounded
    rw [hk] at hn
    refine ⟨scan.childCounts.modify j (· + 1), ?_, by rw [length_modify, h.counts], ?_⟩
    · simp only [linkRecord, hs, if_pos hj, hr']
      rw [if_neg (by simp [ha.groupSlot, hf.groupSlot]), if_neg (by omega), hc, hk]
    intro t r'' j' ht hr'' hj'
    rw [getElem?_modify]
    rcases Nat.lt_succ_iff_lt_or_eq.1 ht with ht | rfl
    · have hold := h.counted t r'' j' ht hr'' hj'
      split
      · rcases scan.childCounts[j']? with _ | n
        · simp
        · simp
      · simpa using hold
    · rw [hr] at hr''
      cases hr''
      rw [hs] at hj'
      cases hj'
      rcases scan.childCounts[j]? with _ | n
      · simp
      · simp

theorem Describes.validRecordFields (hwf : index.Wf) (hg : group.Publishable)
    (hd : body.digest.digestBytes = 32) (hf : WithinLimits limits group body) {id p : Nat}
    (h : index.Describes id p node primary guard hash r) (hr : r ∈ body.records) :
    Ramjet.validRecordFields body limits group r := by
  have hn := hwf.tree.ne_root_of_hash h.get h.externalHash
  obtain ⟨⟨hash', hh', hv⟩, ht⟩ := hwf.tree.labelled id node h.get hn
  rw [h.externalHash] at hh'
  cases hh'
  have hs := (ht primary h.block).2
  have hlen : r.blockDigest.length = 32 := by simp [h.digest]
  have ht' : r.blockTokenIds ≠ 0 := by
    rw [h.tokens]
    intro hz
    rw [hz] at hs
    simp at hs
  have hh : r.externalHash.externalHashLen ≠ 0 := by
    rw [h.hash, externalHashLen_externalHashToSnapshot]
    simp only [validExternalHash, Bool.and_eq_true, decide_eq_true_eq] at hv
    exact hv.1
  simp [Ramjet.validRecordFields, hg.1, hlen, hd, ht', hh, hf.blocks r hr,
    hf.prefixes r hr, hf.hashes r hr]

section
variable (hp : index.Publishing depth vis body limits group)
include hp

section
variable (hu : (body.records.map (·.externalHash)).Nodup)
include hu

theorem Scanned.step {k : Nat}
    (h : Scanned depth vis body k scan) (hr : body.records[k]? = some r) :
    ∃ scan', validateRecord body limits scan k r = .ok scan' ∧
      Scanned depth vis body (k + 1) scan' := by
  obtain ⟨id, p, node, primary, guard, hash, hi, hf, hl⟩ := hp.exported.described k r hr
  obtain ⟨childCounts, hn, hlen, hc⟩ := h.linked hp hr hi
  obtain ⟨d, he, hd⟩ := h.previous
  have hb := hf.validRecordFields hp.wf hp.publishable hp.digestBytes hp.within (mem_of_getElem? hr)
  have hw : (r.groupSlot, r.externalHash) ∉ scan.externalHashes := by
    intro hm
    obtain ⟨t, r', ht, hr', heq⟩ := h.hashes _ hm
    have ha := (List.getElem?_eq_some_iff.1 hr').1
    have hg : (body.records.map (·.externalHash))[t]? =
        (body.records.map (·.externalHash))[k]? := by
      rw [getElem?_map, getElem?_map, hr', hr]
      simp [(Prod.mk.inj heq).2]
    have := (getElem?_inj (by simpa using ha) hu).1 hg
    omega
  have hj : d ≤ depth id - 1 := hd k id le_rfl hi
  refine ⟨⟨(r.groupSlot, r.externalHash) :: scan.externalHashes, scan.depths ++ [depth id - 1],
    childCounts, [depth id - 1]⟩, ?_, ?_, ?_, ?_, hlen, hc, depth id - 1, rfl, ?_⟩
  · have ho : body.groups[r.groupSlot]? = some group := by
      rw [hf.groupSlot, hp.groups]
      rfl
    simp only [validateRecord, ho, hn, he]
    rw [if_neg (by simp [hb, hw]), if_neg (by simp [hf.groupSlot, hj]), hf.groupSlot]
    rfl
  · intro key hk
    rcases mem_cons.1 hk with rfl | hk
    · exact ⟨k, r, Nat.lt_succ_self k, hr, rfl⟩
    · obtain ⟨t, r', ht, hr', heq⟩ := h.hashes key hk
      exact ⟨t, r', Nat.lt_succ_of_lt ht, hr', heq⟩
  · simp [h.depths]
  · intro t id' ht hi'
    rcases Nat.lt_succ_iff_lt_or_eq.1 ht with ht | rfl
    · exact getElem?_append_of_some (h.layers t id' ht hi') _
    rw [hi] at hi'
    cases hi'
    rw [← h.depths, getElem?_concat_length]
  · intro t id' ht hi'
    have hs : vis.Pairwise (depth · ≤ depth ·) := by
      simpa using hp.exported.frontier.sorted
    obtain ⟨ha, heq⟩ := List.getElem?_eq_some_iff.1 hi
    obtain ⟨ha', heq'⟩ := List.getElem?_eq_some_iff.1 hi'
    have := pairwise_iff_getElem.1 hs (k + 1) (t + 1) ha ha' (by omega)
    rw [heq, heq'] at this
    omega

theorem Scanned.run {k : Nat} (hk : k ≤ body.records.length) (h : Scanned depth vis body k scan) :
    ∃ scan', validateRecords body limits (fun _ => false) k scan (body.records.drop k) =
      .ok scan' ∧ Scanned depth vis body body.records.length scan' := by
  induction hn : body.records.length - k generalizing k scan with
  | zero =>
    obtain rfl : k = body.records.length := by omega
    exact ⟨scan, by rw [drop_length]; rfl, h⟩
  | succ n ih =>
    have hl : k < body.records.length := by omega
    have hr := getElem?_eq_getElem hl
    obtain ⟨scan', hv, hx⟩ := h.step hp hu hr
    obtain ⟨scan'', ha, hb⟩ := ih (by omega) hx (by omega)
    refine ⟨scan'', ?_, hb⟩
    rw [drop_eq_getElem_cons hl]
    simp only [validateRecords, hv, Bool.false_eq_true, if_false]
    exact ha

end

theorem Scanned.no_absent_leaf
    (hu : index.Pruned) (h : Scanned depth vis body body.records.length scan) :
    ((body.records.zip scan.childCounts).any fun (record, children) =>
      !record.present && children = 0) = false := by
  rw [List.any_eq_false]
  rintro ⟨r, children⟩ hm
  obtain ⟨k, hk⟩ := List.mem_iff_getElem?.1 hm
  obtain ⟨hr, hd⟩ := List.getElem?_zip_eq_some.1 hk
  simp only [Bool.and_eq_true, Bool.not_eq_true', decide_eq_true_eq, not_and]
  rintro ha rfl
  obtain ⟨id, p, node, primary, guard, hash, hi, hf, -⟩ := hp.exported.described k r hr
  rw [hf.present] at ha
  obtain ⟨key, e, he⟩ := hu id node hf.get ha
  obtain ⟨child, hc, hg, -⟩ := hp.wf.tree.child id key e he
  obtain ⟨t, r', ht, hr', hl⟩ : ∃ t r', t < body.records.length ∧ body.records[t]? = some r' ∧
      r'.parentRecord = some k := by
    have hv := hp.exported.mem_visited hp.wf hp.unpoisoned hp.layered (Slab.live_iff.2 ⟨child, hc⟩)
    obtain ⟨j, hj⟩ := List.mem_iff_getElem?.1 hv
    have hn : vis.Nodup := by simpa using hp.exported.frontier.nodup
    have hq := (List.getElem?_eq_some_iff.1 hj).1
    have hlen := hp.exported.length
    rcases j with _ | t
    · rw [hp.exported.first] at hj
      exact absurd (some.inj hj).symm (hp.wf.tree.parent_ne_root he)
    have ht : t < body.records.length := by omega
    have hb := List.getElem?_eq_getElem ht
    obtain ⟨id', p', node', primary', guard', hash', hi', hf', hl⟩ :=
      hp.exported.described t _ hb
    rw [hj] at hi'
    cases hi'
    obtain rfl : id = p' := by
      have h1 := hf'.parent
      have h2 := hf'.get
      rw [hc] at h2
      cases h2
      rw [hg] at h1
      exact some.inj h1
    refine ⟨t, _, ht, hb, ?_⟩
    rcases hl with ⟨ho, -, -⟩ | ⟨j, r', hj', hj'', -, hs, -⟩
    · exact absurd ho (hp.wf.tree.ne_root_of_hash hf.get hf.externalHash)
    have hw := (List.getElem?_eq_some_iff.1 hj'').1
    have := (List.getElem?_inj hw hn).1 (hj''.trans hi.symm)
    rw [hs]
    congr 1
    omega
  exact h.counted t r' k ht hr' hl hd

end

theorem Publishing.validateCollections (h : index.Publishing depth vis body limits group)
    (ho : body.resetScope = .fullEngine)
    (hc : measuredCapacity body.groups body.records = .ok body.capacity)
    (hr : index.Pruned) (hu : (body.records.map (·.externalHash)).Nodup) :
    Ramjet.validateCollections body limits (fun _ => false) = .ok () := by
  obtain ⟨scan, hs, hl⟩ := (Scanned.start h.groups).run h hu (Nat.zero_le _)
  rw [drop_zero] at hs
  have hg : validateGroups body.resetScope (fun _ => false) 0 [] body.groups = .ok () := by
    obtain ⟨hi, hz, hv⟩ := h.publishable
    have hk : group.attentionKind ≠ .unsupported := by
      intro hk
      simp [validDisposition, hk, hi] at hv
    simp [h.groups, validateGroups, ho, ResetScope.fullEngine, groupInScope, hi, hz, hv, hk]
  have hb : body.capacity.externalHashBytes ≤ limits.maxTotalExternalHashBytes := by
    simp only [measuredCapacity] at hc
    split at hc
    · rw [← Except.ok.inj hc]
      exact h.within.hashBytes
    · cases hc
  simp only [Ramjet.validateCollections, hg, hs, hc, bind, Except.bind,
    hl.no_absent_leaf h hr, Bool.false_eq_true, if_false, pure, Except.pure,
    Nat.not_lt.2 hb, ne_eq, not_true_eq_false]

theorem Exported.nodup_iff_distinct (hwf : index.Wf) (hz : index.poisonedEdges = 0)
    (hy : BreadthFirst.Layered index.nextNodes depth) {records : List DigestRecord}
    (hx : Exported index depth vis records) :
    (records.map (·.externalHash)).Nodup ↔ index.DistinctHashes := by
  have hb : vis.Nodup := by simpa using hx.frontier.nodup
  have hre : ∀ i m hash, index.arena.get? i = some m → m.externalHash = some hash →
      ∃ k, vis[k + 1]? = some i ∧
        (records.map (·.externalHash))[k]? = some (externalHashToSnapshot hash) := by
    intro i m hash hg hh
    obtain ⟨j, hj⟩ := mem_iff_getElem?.1 (hx.mem_visited hwf hz hy (Slab.live_iff.2 ⟨m, hg⟩))
    have ht := (List.getElem?_eq_some_iff.1 hj).1
    have hlen := hx.length
    rcases j with _ | k
    · rw [hx.first] at hj
      exact absurd (some.inj hj).symm (hwf.tree.ne_root_of_hash hg hh)
    have hk : k < records.length := by omega
    obtain ⟨id, p, node, primary, guard, hash', ha, hf, -⟩ :=
      hx.described k _ (getElem?_eq_getElem hk)
    rw [hj] at ha
    cases ha
    rw [hf.get] at hg
    cases hg
    rw [hf.externalHash] at hh
    cases hh
    refine ⟨k, hj, ?_⟩
    rw [getElem?_map, getElem?_eq_getElem hk, map_some, hf.hash]
  constructor
  · intro hu i j m n hash hi hj hm hn
    obtain ⟨k, hk, he⟩ := hre i m hash hi hm
    obtain ⟨k', hk', he'⟩ := hre j n hash hj hn
    have hl := (List.getElem?_eq_some_iff.1 he).1
    obtain rfl := (getElem?_inj hl hu).1 (he.trans he'.symm)
    exact some.inj (hk.symm.trans hk')
  · intro hd
    rw [nodup_iff_getElem?_ne_getElem?]
    intro k k' hl hk' heq
    rw [length_map] at hk'
    obtain ⟨i, p, m, primary, guard, hash, hi, hf, -⟩ :=
      hx.described k _ (getElem?_eq_getElem (hl.trans hk'))
    obtain ⟨j, p', n, primary', guard', hash', hj, hf', -⟩ :=
      hx.described k' _ (getElem?_eq_getElem hk')
    rw [getElem?_map, getElem?_map, getElem?_eq_getElem (hl.trans hk'),
      getElem?_eq_getElem hk', map_some, map_some, hf.hash,
      hf'.hash] at heq
    have hh := externalHashToSnapshot_injective (some.inj heq)
    subst hh
    obtain rfl := hd i j m n hash hf.get hf'.get hf.externalHash hf'.externalHash
    have hl' := (List.getElem?_eq_some_iff.1 hi).1
    have := (getElem?_inj hl' hb).1 (hi.trans hj.symm)
    omega

end DigestKvIndex
end Ramjet
