import Ramjet.SnapshotValid

/-!
# What a live companion can publish

An index without poisoned edges exports. The export is accepted exactly when no two of
its nodes, removed ones included, carry the same hash.
-/

namespace Ramjet
open List
namespace DigestOp

/-- What a live companion does to its index. -/
def Live : DigestOp → Prop
  | store _ | remove _ | clear => True
  | replace .. => False

/-- The runs of a live companion. -/
def liveSystem (limits : DigestIndexLimits) (digester : BlockDigester) :
    TransitionSystem DigestKvIndex DigestOp :=
  (system limits digester).restrict fun _ op => op.Live

/-- A step that takes up the hash of a removed node only by way of that node. -/
def ReclaimsOwnHashes (index : DigestKvIndex) : DigestOp → Prop
  | store event => index.ReclaimsOwnHashes event
  | remove _ | clear | replace .. => True

variable {limits : DigestIndexLimits} {digester : BlockDigester} {index : DigestKvIndex}

theorem pruned_of_reachable (h : (liveSystem limits digester).Reachable index) :
    index.Wf ∧ (index.poisonedEdges = 0 → index.Pruned) := by
  refine h.invariant (P := fun index => index.Wf ∧ (index.poisonedEdges = 0 → index.Pruned)) ?_ ?_
  · rintro index rfl
    exact ⟨.new limits digester, fun _ => .singleton rfl⟩
  rintro index op _ ⟨hwf, hp⟩ ⟨hl, rfl⟩
  refine ⟨wf_apply hwf op, ?_⟩
  cases op with
  | store event => exact DigestKvIndex.Pruned.store hwf hp event
  | remove event => exact DigestKvIndex.Pruned.removeHashes hwf hp event.blockHashes
  | clear => exact fun _ => .singleton rfl
  | replace body group cancelled => exact absurd hl id

theorem distinct_of_reachable
    (h : ((liveSystem limits digester).restrict ReclaimsOwnHashes).Reachable index) :
    index.Wf ∧ index.DistinctHashes := by
  refine h.invariant (P := fun index => index.Wf ∧ index.DistinctHashes) ?_ ?_
  · rintro index rfl
    exact ⟨.new limits digester, .singleton rfl⟩
  rintro index op _ ⟨hwf, hd⟩ ⟨hre, hl, rfl⟩
  refine ⟨wf_apply hwf op, ?_⟩
  cases op with
  | store event => exact hd.store hwf hre
  | remove event => exact hd.removeHashes hwf event.blockHashes
  | clear => exact .singleton rfl
  | replace body group cancelled => exact absurd hl id

end DigestOp

namespace DigestKvIndex
variable {index : DigestKvIndex}

theorem Exported.length_eq (hwf : index.Wf) (hz : index.poisonedEdges = 0)
    {depth : Nat → Nat} (hy : BreadthFirst.Layered index.nextNodes depth)
    {visited : List Nat} {records : List DigestRecord}
    (h : Exported index depth visited records) : records.length = index.liveNodes := by
  have hn : visited.Nodup := by simpa using h.frontier.nodup
  have hl : ∀ i ∈ visited, index.arena.Live i := by
    intro i hi
    obtain ⟨k, hk⟩ := mem_iff_getElem?.1 hi
    have ha := (List.getElem?_eq_some_iff.1 hk).1
    have he := h.length
    rcases k with _ | k
    · rw [h.first] at hk
      cases hk
      obtain ⟨root, hr, -⟩ := hwf.tree.root
      exact Slab.live_iff.2 ⟨root, hr⟩
    · obtain ⟨id, p, node, primary, guard, hash, hd, hf, -⟩ :=
        h.described k _ (getElem?_eq_getElem (by omega))
      rw [hk] at hd
      cases hd
      exact Slab.live_iff.2 ⟨node, hf.get⟩
  have ht := Slab.sum_map_eq_total (fun _ => 1) hn fun i hi => h.mem_visited hwf hz hy hi
  rw [Slab.sum_ones hl, ← hwf.tree.nodes, h.length] at ht
  omega

theorem exportSnapshot_total (hwf : index.Wf) (hz : index.poisonedEdges = 0)
    (ho : index.liveNodes ≤ 2 ^ 32) (hm : index.logicalTokenIds ≤ u64Max)
    (hb : index.externalHashBytes ≤ u64Max) (inc : EngineIncarnation)
    (watermark : Nat) (group : GroupMetadata) :
    ∃ body, index.exportSnapshotWithCancel inc watermark group (fun _ => false) =
      .ok body := by
  obtain ⟨depth, hd, hl⟩ := hwf.tree.layered
  obtain ⟨root, ht, -⟩ := hwf.tree.root
  have hs := Exporting.start hl hd
  obtain ⟨records, hg⟩ := hs.total hwf hz ho hm hl hd
    (by simp [TokensWithin, ExportState.new]) (Nat.lt_succ_self index.arena.slots.length)
  obtain ⟨visited, hx⟩ := hs.run hwf hl hd hg
  have hj := hx.length_eq hwf hz hl
  have hi : (records.map (·.blockDigest.length)).sum ≤ u64Max := by
    have ha : ∀ n ∈ records.map (·.blockDigest.length), n = 32 := by
      intro n hn
      obtain ⟨r, hr, rfl⟩ := mem_map.1 hn
      obtain ⟨k, hk⟩ := mem_iff_getElem?.1 hr
      obtain ⟨id, p, node, primary, guard, hash, -, hf, -⟩ := hx.described k r hk
      simp [hf.digest]
    rw [eq_replicate_of_mem ha, sum_replicate_nat, length_map, hj, u64Max]
    omega
  have hc : measuredCapacity [group] records = .ok ⟨[group].length, records.length,
      (records.map (·.externalHash.externalHashLen)).sum,
      (records.map (·.blockDigest.length)).sum⟩ := by
    rw [measuredCapacity, if_pos ⟨(hx.sum_bytes hwf hz hl).trans_le hb, hi⟩]
  rcases he : index.exportSnapshotWithCancel inc watermark group (fun _ => false) with
    error | body
  · simp [exportSnapshotWithCancel, hz, node_of_get? ht,
      sortedChildren_of_counted hwf.counted hz ht, hg, hj,
      SnapshotBody.refreshCapacity, hc, Except.map] at he
  · exact ⟨body, rfl⟩

def Published (body : SnapshotBody) (snapshotLimits : SnapshotLimits) (target : DigestKvIndex)
    (group : GroupMetadata) : Prop :=
  validateCollections body snapshotLimits (fun _ => false) = .ok () ∧
    ∃ imported, target.replaceFromSnapshot body ⟨group.dataParallelRank, group.groupIdx⟩ =
      (.ok body.records.length, imported)

/-- A live companion can always export, and what it exports is valid and accepted
exactly when no two of its nodes share a hash.  Runs whose stores reclaim no
foreign tombstone's hash never get there. -/
theorem publishes_iff_distinctHashes {limits : DigestIndexLimits} {digester : BlockDigester}
    (hreach : (DigestOp.liveSystem limits digester).Reachable index)
    (hzero : index.poisonedEdges = 0) (hnodes : index.liveNodes ≤ 2 ^ 32)
    (htokens : index.limits.maxLogicalTokenIds ≤ u64Max)
    (hbytes : index.limits.maxTotalExternalHashBytes ≤ u64Max) {group : GroupMetadata}
    (hgroup : group.Publishable) (incarnation : EngineIncarnation) (watermark : Nat) :
    ∃ body, index.exportSnapshotWithCancel incarnation watermark group (fun _ => false) = .ok body ∧
      ∀ (snapshotLimits : SnapshotLimits) (target : DigestKvIndex),
        WithinLimits snapshotLimits group body → target.limits = index.limits →
        target.digester = index.digester →
        (Published body snapshotLimits target group ↔ index.DistinctHashes) ∧
          (((DigestOp.liveSystem limits digester).restrict
              DigestOp.ReclaimsOwnHashes).Reachable index →
            Published body snapshotLimits target group) := by
  obtain ⟨hwf, hu⟩ := DigestOp.pruned_of_reachable hreach
  have hc := hwf.tree.capacity
  simp only [hasCapacity, Nat.add_zero, Bool.and_eq_true, decide_eq_true_eq] at hc
  obtain ⟨body, he⟩ := exportSnapshot_total hwf hzero hnodes (hc.1.2.trans htokens)
    (hc.2.trans hbytes) incarnation watermark group
  refine ⟨body, he, ?_⟩
  intro snapshotLimits target hw hm hi
  have hb := exportedBody_of_ok hwf he
  obtain ⟨depth, visited, ht, hl, hx⟩ := hb.visit
  have hd := hx.nodup_iff_distinct hwf hzero hl
  have hf : Published body snapshotLimits target group ↔ index.DistinctHashes := by
    constructor
    · rintro ⟨hv, -⟩
      exact hd.1 (hb.nodup_iff.1 (nodup_of_validateCollections hv))
    intro h
    have hp : index.Publishing depth visited body snapshotLimits group :=
      ⟨hwf, hzero, hl, ht, hx, hb.groups, hgroup, by rw [hb.digest], hw⟩
    have hn := hd.2 h
    refine ⟨hp.validateCollections hb.resetScope hb.capacity (hu hzero) hn,
      ?_⟩
    obtain ⟨imported, hr, -⟩ := hb.replace hwf hgroup.1 hn hm hi
    exact ⟨imported, hr⟩
  exact ⟨hf, fun h => hf.2 (DigestOp.distinct_of_reachable h).2⟩

theorem publishes_sample :
    ∃ imported, sampleIndex.exportSnapshotWithCancel sampleIncarnation 9 sampleGroup
        (fun _ => false) = .ok sampleBody ∧
      validateCollections sampleBody sampleLimits (fun _ => false) = .ok () ∧
      sampleIndex.replaceFromSnapshot sampleBody ⟨0, 0⟩ = (.ok 2, imported) := by
  have hs : (DigestKvIndex.new ⟨8, 8, 8, 8, 64⟩ sampleDigester).ReclaimsOwnHashes
      (storeTokens [1, 2] [7, 8]) := by
    intro parentId commitments path _ _ hash _ id node ht hh _
    rw [show (DigestKvIndex.new ⟨8, 8, 8, 8, 64⟩ sampleDigester).arena = .singleton .root from rfl,
      Slab.get?_singleton] at ht
    split at ht
    · cases ht
      cases hh
    · cases ht
  have hg : ((DigestOp.liveSystem ⟨8, 8, 8, 8, 64⟩ sampleDigester).restrict
      DigestOp.ReclaimsOwnHashes).Reachable sampleIndex :=
    .step (a := .remove (removal [7]))
      (.step (a := .store (storeTokens [1, 2] [7, 8])) (.init rfl) ⟨hs, trivial, rfl⟩)
      ⟨trivial, trivial, rfl⟩
  have he : sampleIndex.exportSnapshotWithCancel sampleIncarnation 9 sampleGroup
      (fun _ => false) = .ok sampleBody := by decide +kernel
  have ho : sampleGroup.Publishable := ⟨rfl, by decide, rfl⟩
  obtain ⟨body, hb, hp⟩ := publishes_iff_distinctHashes hg.of_restrict
    (by decide +kernel) (by decide +kernel) (by decide +kernel) (by decide +kernel) ho
    sampleIncarnation 9
  rw [he] at hb
  cases hb
  have hw : WithinLimits sampleLimits sampleGroup sampleBody := by
    refine ⟨?_, ?_, ?_, ?_⟩ <;> decide +kernel
  obtain ⟨hv, imported, hr⟩ := (hp sampleLimits sampleIndex hw rfl rfl).2
    hg
  exact ⟨imported, he, hv, hr⟩

/-- The first block of a chain is removed and its hash then names another one. -/
def retakenIndex : DigestKvIndex :=
  DigestOp.apply sampleIndex (.store (storeTokens [3] [7]))

def retakenBody : SnapshotBody :=
  { sampleBody with
    capacity := ⟨1, 3, 24, 96⟩
    records :=
      [⟨0, none, .unsigned 7, (sampleOuter 1).toList, 1, 1, false⟩,
        ⟨0, none, .unsigned 7, (sampleOuter 3).toList, 1, 1, true⟩,
        ⟨0, some 0, .unsigned 8, (sampleOuter 2).toList, 1, 2, true⟩] }

/-- Every operation succeeds, no edge is poisoned and the body is within all
limits; it is invalid, and its import is refused. -/
theorem retaken_hash_not_published :
    (DigestOp.liveSystem ⟨8, 8, 8, 8, 64⟩ sampleDigester).Reachable retakenIndex ∧
      (sampleIndex.store (storeTokens [3] [7])).1 = .ok 1 ∧ retakenIndex.poisonedEdges = 0 ∧
      retakenIndex.exportSnapshotWithCancel sampleIncarnation 9 sampleGroup (fun _ => false) =
        .ok retakenBody ∧
      WithinLimits sampleLimits sampleGroup retakenBody ∧
      validateCollections retakenBody sampleLimits (fun _ => false) = .error .invalidRecord ∧
      (sampleIndex.replaceFromSnapshot retakenBody ⟨0, 0⟩).1 = .error .duplicateHash := by
  refine ⟨?_, by decide +kernel, by decide +kernel, by decide +kernel, ?_, by decide +kernel,
    by decide +kernel⟩
  · exact .step (a := .store (storeTokens [3] [7])) (.step (a := .remove (removal [7]))
        (.step (a := .store (storeTokens [1, 2] [7, 8])) (.init rfl) ⟨trivial, rfl⟩)
        ⟨trivial, rfl⟩) ⟨trivial, rfl⟩
  · refine ⟨?_, ?_, ?_, ?_⟩ <;> decide +kernel

end DigestKvIndex
end Ramjet
