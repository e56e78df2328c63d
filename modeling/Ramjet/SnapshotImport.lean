import Ramjet.DigestSimulation
import Ramjet.SnapshotExport

/-!
# What an import reads

An import of any body yields a well-formed index; of an exported one, the record at
position `k` becomes node `k + 1`.
-/

namespace Ramjet.DigestKvIndex
variable {index : DigestKvIndex} {parentId nodeId : Nat} {com : BlockCommitment}
  {hash : ExternalBlockHash} {present : Bool} {index' : DigestKvIndex}

theorem insertSnapshotChild_ok
    (h : index.insertSnapshotChild parentId com hash present = .ok (nodeId, index')) :
    index.byExternalHash.lookup hash = none ∧
      (index.node parentId).children.lookup com.primary = none ∧
      index.hasCapacity 1 com.primary.tokenCount.toNat (externalHashLen hash) ∧
      nodeId = (index.insertChild parentId com hash com.primary.tokenCount.toNat).1 := by
  simp only [insertSnapshotChild] at h
  split at h
  · cases h
  rename_i hl
  split at h
  · cases h
  rename_i he
  split at h
  · cases h
  rename_i hc
  cases h
  exact ⟨by simpa using hl, he, by simpa using hc, rfl⟩

theorem insertSnapshotChild_eq (index : DigestKvIndex) (parentId : Nat)
    (com : BlockCommitment) (present : Bool) (hh : index.byExternalHash.lookup hash = none)
    (he : (index.node parentId).children.lookup com.primary = none)
    (hc : index.hasCapacity 1 com.primary.tokenCount.toNat (externalHashLen hash)) :
    let added := index.insertChild parentId com hash com.primary.tokenCount.toNat
    index.insertSnapshotChild parentId com hash present = .ok (added.1, { added.2 with
        arena := added.2.arena.modify added.1 fun node => { node with present }
        byExternalHash :=
          if present then added.2.byExternalHash.insert hash added.1
          else added.2.byExternalHash }) := by
  simp [insertSnapshotChild, hh, he, hc]

theorem wf_insertSnapshotChild (h : index.Wf) (hl : index.arena.Live parentId)
    (hs : 0 < com.primary.tokenCount.toNat) (hv : index.validExternalHash hash)
    (ho : index.insertSnapshotChild parentId com hash present = .ok (nodeId, index')) :
    index'.Wf := by
  obtain ⟨hh, he, hc, -⟩ := insertSnapshotChild_ok ho
  rw [insertSnapshotChild_eq _ _ _ present hh he hc] at ho
  cases ho
  obtain ⟨parent, hp⟩ := Slab.live_iff.1 hl
  rw [node_of_get? hp, ← entryAt_of_get? hp] at he
  have ht := h.tree.insertChild hl he rfl hs hv hc
  have hb := h.hashedBut_insertChild hl com hash com.primary.tokenCount.toNat
  have hd := h.counted_insertChild hl com hash com.primary.tokenCount.toNat
  have ha : (index.insertChild parentId com hash com.primary.tokenCount.toNat).2.arena.get?
      (index.insertChild parentId com hash com.primary.tokenCount.toNat).1 =
        some (leaf parentId com hash com.primary.tokenCount.toNat) := by
    rw [get?_insertChild h.tree.slab hl, if_pos rfl]
  have hg : (index.insertChild parentId com hash
      com.primary.tokenCount.toNat).2.commit = commitBlock := h.commit
  have hf : (index.insertChild parentId com hash
      com.primary.tokenCount.toNat).2.byExternalHash.lookup hash = none := hh
  generalize index.insertChild parentId com hash com.primary.tokenCount.toNat = added at *
  cases present with
  | true =>
    have hw : added.2.arena.modify added.1 (fun node => { node with present := true }) =
        (added.2.writeHash added.1 hash).arena := by
      refine Slab.modify_congr fun node hn => ?_
      rw [ha] at hn
      cases hn
      rfl
    have hwf := wf_writeHash ht hg ha rfl hb (by simp [hf]) hd
    simp only [hw, if_true]
    exact hwf
  | false =>
    refine ⟨ht.modify (fun _ _ => ?_)
      (fun hj => absurd hj (ht.ne_root_of_hash ha rfl)) _ _, ?_, ?_, hg⟩
    · exact ⟨rfl, rfl, rfl, rfl, rfl, fun _ => rfl⟩
    · intro hash' i
      simp only [Bool.false_eq_true, if_false]
      by_cases hr : i = added.1 ∧ hash' = hash
      · obtain ⟨rfl, rfl⟩ := hr
        simp [hf, Resident, ha]
      rw [hb hash' i (not_and_or.1 hr)]
      simp only [Resident, Slab.get?_modify]
      by_cases hi : added.1 = i
      · subst hi
        have hk : ¬ hash = hash' := fun h => hr ⟨rfl, h.symm⟩
        simp [ha, leaf, hk]
      · simp [hi]
    · intro hz0 p key child
      rw [entryAt_modify]
      · exact hd hz0 p key child
      · exact fun _ => rfl

theorem get?_insertSnapshotChild (h : index.Wf) (hl : index.arena.Live parentId)
    (ho : index.insertSnapshotChild parentId com hash present = .ok (nodeId, index'))
    (i : Nat) : index'.arena.get? i = if nodeId = i then
        some { leaf parentId com hash com.primary.tokenCount.toNat with
          present }
      else if parentId = i then (index.arena.get? i).map (addChild com nodeId)
      else index.arena.get? i := by
  obtain ⟨hh, he, hc, -⟩ := insertSnapshotChild_ok ho
  rw [insertSnapshotChild_eq _ _ _ present hh he hc] at ho
  cases ho
  rw [Slab.get?_modify, get?_insertChild h.tree.slab hl]
  split
  · rfl
  · rfl

structure Reads (state : ImportState) (record : DigestRecord) (parentId : Nat)
    (digest : Bytes 32) (hash : ExternalBlockHash) (nodeId : Nat) (scratch : DigestKvIndex) :
    Prop where
  parent : state.parentId record.parentRecord = .ok parentId
  tokens : record.blockTokenIds ≠ 0
  bytes : record.blockDigest = digest.toList
  parsed : snapshotHash record.externalHash = .ok hash
  valid : state.scratch.validExternalHash hash
  fresh : hash ∉ state.externalHashes
  insert : state.scratch.insertSnapshotChild parentId
    (commitmentFromDigest record.blockTokenIds digest) hash record.present = .ok (nodeId, scratch)

def ImportState.push (state : ImportState) (hash : ExternalBlockHash) (nodeId : Nat)
    (scratch : DigestKvIndex) : ImportState where
  scratch
  recordNodes := state.recordNodes ++ [some nodeId]
  externalHashes := hash :: state.externalHashes
  imported := state.imported + 1

variable {slot : Nat} {state state' : ImportState}

theorem importRecord_iff {record : DigestRecord} (hs : record.groupSlot = slot) :
    importRecord slot state record = .ok state' ↔ ∃ parentId digest hash nodeId scratch,
        Reads state record parentId digest hash nodeId scratch ∧
          state' = state.push hash nodeId scratch := by
  constructor
  · intro h
    simp only [importRecord, hs, ne_eq, not_true_eq_false, if_false, bind, Except.bind,
      throw, throwThe, MonadExceptOf.throw, pure, Except.pure] at h
    split at h
    · cases h
    rename_i parentId hp
    split at h
    · cases h
    rename_i ht
    split at h
    next hl =>
      split at h
      · cases h
      rename_i hash hh
      split at h
      · cases h
      rename_i hv
      split at h
      · cases h
      rename_i hf
      split at h
      · cases h
      rename_i out hi
      cases h
      exact ⟨parentId, ⟨record.blockDigest, hl⟩, hash, out.1, out.2,
        ⟨hp, ht, rfl, hh, by simpa using hv, hf, hi⟩, rfl⟩
    · cases h
  · rintro ⟨parentId, digest, hash, nodeId, scratch, h, rfl⟩
    have hl : record.blockDigest.length = 32 := by
      rw [h.bytes]
      exact digest.toList_length
    have hd : (⟨record.blockDigest, hl⟩ : Bytes 32) = digest :=
      List.Vector.eq _ _ h.bytes
    simp [importRecord, hs, h.parent, h.tokens, hl, h.parsed, h.valid, h.fresh, hd,
      h.insert, bind, Except.bind, pure, Except.pure, ImportState.push]

theorem importRecord_skip {record : DigestRecord} (hs : record.groupSlot ≠ slot) :
    importRecord slot state record =
      .ok { state with recordNodes := state.recordNodes ++ [none] } := by
  simp [importRecord, hs]

theorem tokenCount_commitmentFromDigest (tokenCount : UInt32) (digest : Bytes 32) :
    (commitmentFromDigest tokenCount digest).primary.tokenCount = tokenCount := rfl

theorem live_insertSnapshotChild (h : index.Wf) (hl : index.arena.Live parentId)
    (ho : index.insertSnapshotChild parentId com hash present = .ok (nodeId, index')) :
    index'.arena.Live nodeId ∧ ∀ i, index.arena.Live i → index'.arena.Live i := by
  have hg := get?_insertSnapshotChild h hl ho
  constructor
  · simp [Slab.Live, hg]
  intro i hi
  simp only [Slab.Live] at hi ⊢
  rw [hg]
  split
  · rfl
  split
  · simpa using hi
  · exact hi

/-- The state of an import between two records, whatever the body. -/
structure ImportWf (limits : DigestIndexLimits) (digester : BlockDigester) (state : ImportState) :
    Prop where
  wf : state.scratch.Wf
  limits : state.scratch.limits = limits
  digester : state.scratch.digester = digester
  live : ∀ id, some id ∈ state.recordNodes → state.scratch.arena.Live id

theorem insertSnapshotChild_limits
    (ho : index.insertSnapshotChild parentId com hash present = .ok (nodeId, index')) :
    index'.limits = index.limits ∧ index'.digester = index.digester := by
  obtain ⟨hh, he, hc, -⟩ := insertSnapshotChild_ok ho
  rw [insertSnapshotChild_eq _ _ _ present hh he hc] at ho
  cases ho
  exact ⟨rfl, rfl⟩

theorem ImportWf.record {limits : DigestIndexLimits} {digester : BlockDigester}
    {record : DigestRecord} (h : ImportWf limits digester state)
    (ho : importRecord slot state record = .ok state') : ImportWf limits digester state' := by
  by_cases hs : record.groupSlot = slot
  · obtain ⟨parentId, digest, hash, nodeId, scratch, hd, rfl⟩ := (importRecord_iff hs).1 ho
    have hl : state.scratch.arena.Live parentId := by
      have ha := hd.parent
      rcases hp : record.parentRecord with _ | parent
      · rw [hp] at ha
        cases ha
        obtain ⟨root, hr, -⟩ := h.wf.tree.root
        exact Slab.live_iff.2 ⟨root, hr⟩
      · simp only [hp, ImportState.parentId] at ha
        split at ha
        next node hn =>
          cases ha
          exact h.live _ (List.mem_of_getElem? hn)
        · cases ha
    have hb : 0 < (commitmentFromDigest record.blockTokenIds digest).primary.tokenCount.toNat := by
      rw [tokenCount_commitmentFromDigest]
      exact Nat.pos_of_ne_zero fun hz => hd.tokens (UInt32.toNat_inj.1 hz)
    obtain ⟨hw, hk⟩ := live_insertSnapshotChild h.wf hl hd.insert
    obtain ⟨hm, hg⟩ := insertSnapshotChild_limits hd.insert
    refine ⟨wf_insertSnapshotChild h.wf hl hb hd.valid hd.insert,
      hm.trans h.limits, hg.trans h.digester, ?_⟩
    intro id hi
    rcases List.mem_append.1 hi with hi | hi
    · exact hk id (h.live id hi)
    · simp only [List.mem_singleton, Option.some.injEq] at hi
      exact hi ▸ hw
  · rw [importRecord_skip hs] at ho
    cases ho
    refine ⟨h.wf, h.limits, h.digester, fun id hi => h.live id ?_⟩
    simpa using hi

theorem ImportWf.records {limits : DigestIndexLimits} {digester : BlockDigester}
    {cancelled : Nat → Bool} {records : List DigestRecord} (h : ImportWf limits digester state)
    (ho : importRecords slot cancelled state records = .ok state') :
    ImportWf limits digester state' := by
  induction records generalizing state with
  | nil =>
    cases ho
    exact h
  | cons record rest ih =>
    simp only [importRecords] at ho
    split at ho
    · cases ho
    split at ho
    · cases ho
    next next hn =>
      exact ih (h.record hn) ho

theorem Wf.replaceFromSnapshotWithCancel (h : index.Wf) (body : SnapshotBody)
    (group : SnapshotGroupKey) (cancelled : Nat → Bool) :
    (index.replaceFromSnapshotWithCancel body group cancelled).2.Wf := by
  unfold DigestKvIndex.replaceFromSnapshotWithCancel
  rcases hi : index.importSnapshot body group cancelled with error | state
  · exact h
  simp only [importSnapshot] at hi
  split at hi
  · cases hi
  split at hi
  · cases hi
  split at hi
  · cases hi
  split at hi
  · split at hi
    · cases hi
    have hs : ImportWf index.limits index.digester (.new index.limits index.digester) :=
      ⟨.new _ _, rfl, rfl, by simp [ImportState.new]⟩
    exact (hs.records hi).wf
  · cases hi

end Ramjet.DigestKvIndex
