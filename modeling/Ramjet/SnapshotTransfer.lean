import Ramjet.CompanionSource
import Ramjet.Lib.Runs
import Ramjet.SnapshotBootstrap
import Ramjet.SnapshotRoundTrip

/-!
# A snapshot from the companion to the router

What a router prepares from a companion's frame is related to the captured index, and
later batches keep the two related.
-/

namespace Ramjet
namespace SnapshotCodec
variable {codec : SnapshotCodec} {body : SnapshotBody} {limits : SnapshotLimits}
  {frame : List UInt8} {cancelled : Nat → Bool}

theorem encodeSnapshotWithCancel_ok
    (h : codec.encodeSnapshotWithCancel body limits cancelled = .ok frame) :
    ∃ payload envelope, codec.encodeBody body = some payload ∧ envelope.payload = payload ∧
      codec.encodeEnvelope envelope = some frame := by
  unfold encodeSnapshotWithCancel at h
  obtain ⟨-, h⟩ := Guards.of_guard h
  obtain ⟨-, -, h⟩ := Guards.of_bind h
  obtain ⟨-, h⟩ := Guards.of_guard h
  rcases hp : codec.encodeBody body with _ | payload
  · rw [hp] at h
    cases h
  rw [hp] at h
  obtain ⟨-, h⟩ := Guards.of_guard h
  obtain ⟨-, h⟩ := Guards.of_guard h
  dsimp only at h
  split at h
  · cases h
  rename_i envelopeFrame he
  obtain ⟨-, h⟩ := Guards.of_guard h
  cases h
  exact ⟨payload, _, rfl, rfl, he⟩

theorem decodeSnapshotWithCancel_ok {expected : SnapshotExpectations}
    (h : codec.decodeSnapshotWithCancel frame limits expected cancelled = .ok body) :
    ∃ envelope, codec.decodeEnvelope frame = some envelope ∧
      codec.decodeBody envelope.payload = some body ∧
      validateCollections body limits (fun i => cancelled (4 + i)) = .ok () := by
  unfold decodeSnapshotWithCancel at h
  obtain ⟨-, h⟩ := Guards.of_guard h
  obtain ⟨-, h⟩ := Guards.of_guard h
  rcases he : codec.decodeEnvelope frame with _ | envelope
  · rw [he] at h
    cases h
  rw [he] at h
  -- cancellation, schema, checksum and length are of no interest here
  obtain ⟨-, h⟩ := Guards.of_guard h
  obtain ⟨-, h⟩ := Guards.of_guard h
  obtain ⟨-, h⟩ := Guards.of_guard h
  obtain ⟨-, h⟩ := Guards.of_guard h
  obtain ⟨-, h⟩ := Guards.of_guard h
  obtain ⟨-, h⟩ := Guards.of_guard h
  rcases hb : codec.decodeBody envelope.payload with _ | decoded
  · rw [hb] at h
    cases h
  rw [hb] at h
  obtain ⟨-, -, h⟩ := Guards.of_bind h
  obtain ⟨-, h⟩ := Guards.of_guard h
  obtain ⟨-, h⟩ := Guards.of_guard h
  obtain ⟨-, h⟩ := Guards.of_guard h
  obtain ⟨-, h⟩ := Guards.of_guard h
  obtain ⟨⟨⟩, hv, h⟩ := Guards.of_bind h
  cases h
  exact ⟨envelope, rfl, hb, hv⟩

end SnapshotCodec

namespace DigestKvIndex
variable {index target : DigestKvIndex} {cancelled : Nat → Bool} {state : ImportState}

theorem importRecords_of_cancel {slot : Nat} {state' : ImportState} {records : List DigestRecord}
    (h : importRecords slot cancelled state records = .ok state') :
    importRecords slot (fun _ => false) state records = .ok state' := by
  induction records generalizing state with
  | nil => exact h
  | cons record rest ih =>
    simp only [importRecords] at h ⊢
    split at h
    · cases h
    split at h
    · cases h
    rename_i next hn
    rw [if_neg (by simp)]
    exact ih h

variable {body : SnapshotBody} {group : SnapshotGroupKey}

theorem importSnapshot_of_cancel (h : target.importSnapshot body group cancelled = .ok state) :
    target.importSnapshot body group (fun _ => false) = .ok state := by
  simp only [importSnapshot] at h ⊢
  split at h
  · cases h
  rename_i hd
  split at h
  · cases h
  rename_i hs
  split at h
  · cases h
  rename_i hn
  rw [if_neg hd, if_neg hs, if_neg hn]
  split at h
  · split at h
    · cases h
    rename_i hg
    rw [if_neg hg]
    exact importRecords_of_cancel h
  · cases h

theorem importSnapshot_group {md : GroupMetadata} (hg : body.groups = [md])
    (h : target.importSnapshot body group cancelled = .ok state) :
    md.disposition = .indexed ∧ group = ⟨md.dataParallelRank, md.groupIdx⟩ := by
  simp only [importSnapshot, hg] at h
  split at h
  · cases h
  split at h
  · cases h
  split at h
  · cases h
  split at h
  next only slot hf =>
    split at h
    · cases h
    rename_i hs
    rw [not_or, not_not, not_not] at hs
    have hm : (only, slot) ∈ [md].zipIdx.filter
        (fun cand => cand.1.disposition = .indexed) := by
      rw [hf]
      exact List.mem_singleton_self _
    rw [List.mem_filter] at hm
    simp only [List.zipIdx_singleton, List.mem_singleton, Prod.mk.injEq] at hm
    obtain ⟨⟨rfl, rfl⟩, hi⟩ := hm
    refine ⟨by simpa using hi, ?_⟩
    rcases group with ⟨rank, groupIdx⟩
    rw [SnapshotGroupKey.mk.injEq]
    exact ⟨hs.1.symm, hs.2.symm⟩
  · cases h

theorem ExportedBody.similar_of_import (hwf : index.Wf) {inc : EngineIncarnation}
    {watermark : Nat} {md : GroupMetadata} (hb : index.ExportedBody inc watermark md body)
    (hu : (body.records.map (·.externalHash)).Nodup) (hl : target.limits = index.limits)
    (hg : target.digester = index.digester) {count : Nat} {imported : DigestKvIndex}
    (h : target.replaceFromSnapshotWithCancel body group cancelled = (.ok count, imported)) :
    group = ⟨md.dataParallelRank, md.groupIdx⟩ ∧ Similar index imported := by
  unfold replaceFromSnapshotWithCancel at h
  split at h
  · cases h
  rename_i state hi
  cases h
  obtain ⟨hd, rfl⟩ := importSnapshot_group hb.groups hi
  refine ⟨rfl, ?_⟩
  obtain ⟨imported, hr, hs⟩ := hb.replace hwf hd hu hl hg
  simp only [replaceFromSnapshot, replaceFromSnapshotWithCancel, importSnapshot_of_cancel hi] at hr
  rw [Prod.mk.injEq] at hr
  exact hr.2 ▸ hs

end DigestKvIndex

namespace DigestKvIndex
variable {a b index : DigestKvIndex}

/-- The parameters of an index, which no operation changes. -/
def setup (index : DigestKvIndex) : DigestIndexLimits × BlockDigester :=
  (index.limits, index.digester)

theorem setup_of_clear (h : a.clear = b.clear) : a.setup = b.setup :=
  congrArg (fun index => (index.limits, index.digester)) h

/-! What is left of an index once it is cleared, no operation changes. -/

theorem clear_insertPath (index : DigestKvIndex) (cursor : Nat)
    (path : List ((BlockCommitment × ExternalBlockHash) × Nat)) :
    (index.insertPath cursor path).2.clear = index.clear := by
  induction path generalizing index cursor with
  | nil => rfl
  | cons entry rest ih =>
    obtain ⟨⟨commitment, hash⟩, length⟩ := entry
    simp only [insertPath]
    split
    · rw [ih]
      rfl
    · rfl
    · rw [ih]
      rfl

theorem clear_store (index : DigestKvIndex) (event : BlockStored) :
    (index.store event).2.clear = index.clear := by
  unfold store
  split
  · rfl
  · unfold poison
    split <;> rfl
  · exact clear_insertPath _ _ _

theorem clear_pruneFrom (index : DigestKvIndex) (fuel id : Nat) :
    (index.pruneFrom fuel id).clear = index.clear := by
  induction fuel generalizing index id with
  | zero => rfl
  | succ fuel ih =>
    simp only [pruneFrom]
    split
    · rfl
    split
    · rfl
    split
    · split
      · rfl
      · rw [ih]
        rfl
    · rfl

theorem clear_removeHashes (index : DigestKvIndex) (hashes : List ExternalBlockHash) :
    (index.removeHashes hashes).2.clear = index.clear := by
  induction hashes generalizing index with
  | nil => rfl
  | cons hash rest ih =>
    simp only [removeHashes]
    rw [ih]
    simp only [removeHash]
    split
    · rfl
    split
    · rfl
    · exact clear_pruneFrom _ _ _

end DigestKvIndex

namespace SnapshotDigestDeltaAdapter
open DigestKvIndex
variable {adapter router : SnapshotDigestDeltaAdapter} {a b index : DigestKvIndex}

theorem applyEvent_sound (adapter : SnapshotDigestDeltaAdapter) (h : index.Wf) (rank : UInt32)
    (summary : DigestDeltaSummary) (event : KvEvent) :
    (adapter.applyEvent rank index summary event).2.Wf ∧
      (adapter.applyEvent rank index summary event).2.setup = index.setup := by
  cases event with
  | blockStored stored =>
    have ht : (index.store stored).2.Wf ∧ (index.store stored).2.setup = index.setup :=
      ⟨h.store stored, setup_of_clear (clear_store index stored)⟩
    simp only [applyEvent]
    split
    · split
      next hs =>
        rwa [hs] at ht
      next hs =>
        rwa [hs] at ht
      next hs =>
        rwa [hs] at ht
    · exact ⟨h, rfl⟩
  | blockRemoved removed =>
    simp only [applyEvent]
    split
    · exact ⟨h.remove removed, setup_of_clear (clear_removeHashes index _)⟩
    · exact ⟨h, rfl⟩
  | allBlocksCleared =>
    simp only [applyEvent]
    split
    · exact ⟨h.clear, rfl⟩
    · exact ⟨h, rfl⟩

theorem applyEvents_sound (adapter : SnapshotDigestDeltaAdapter) (h : index.Wf) (rank : UInt32)
    (summary : DigestDeltaSummary) (events : List KvEvent) :
    (adapter.applyEvents rank index summary events).2.Wf ∧
      (adapter.applyEvents rank index summary events).2.setup = index.setup := by
  induction events generalizing index summary with
  | nil => exact ⟨h, rfl⟩
  | cons event rest ih =>
    obtain ⟨hwf, hs⟩ := applyEvent_sound adapter h rank summary event
    simp only [applyEvents]
    split
    next summary' next he =>
      rw [he] at hwf hs
      obtain ⟨hr, hrestSetup⟩ := ih hwf summary'
      exact ⟨hr, hrestSetup.trans hs⟩
    next error next he =>
      rw [he] at hwf hs
      exact ⟨hwf.clear, hs⟩

theorem applyEvent_similar (hg : router.group = adapter.group) (h : Similar a b)
    (rank : UInt32) (summary : DigestDeltaSummary) (event : KvEvent) :
    (adapter.applyEvent rank a summary event).1 = (router.applyEvent rank b summary event).1 ∧
      Similar (adapter.applyEvent rank a summary event).2
        (router.applyEvent rank b summary event).2 := by
  cases event with
  | blockStored stored =>
    obtain ⟨he, hn⟩ := h.store stored
    have ha : router.acceptStore rank stored = adapter.acceptStore rank stored := by
      simp only [acceptStore, hg]
    simp only [applyEvent, ha]
    by_cases ht : adapter.acceptStore rank stored = true
    · rw [if_pos ht, if_pos ht]
      rcases hA : a.store stored with ⟨resultA, nextA⟩
      rcases hB : b.store stored with ⟨resultB, nextB⟩
      rw [hA, hB] at he hn
      obtain rfl : resultA = resultB := he
      rcases resultA with error | blocks
      · cases error <;> exact ⟨rfl, hn⟩
      · exact ⟨rfl, hn⟩
    · rw [if_neg ht, if_neg ht]
      exact ⟨rfl, h⟩
  | blockRemoved removed =>
    obtain ⟨hc, hn⟩ := h.remove removed
    have ha : router.acceptRemove rank removed = adapter.acceptRemove rank removed := by
      simp only [acceptRemove, hg]
    simp only [applyEvent, ha]
    by_cases ht : adapter.acceptRemove rank removed = true
    · rw [if_pos ht, if_pos ht]
      exact ⟨by rw [hc], hn⟩
    · rw [if_neg ht, if_neg ht]
      exact ⟨rfl, h⟩
  | allBlocksCleared =>
    simp only [applyEvent, hg]
    by_cases hr : rank = adapter.group.dataParallelRank
    · rw [if_pos hr, if_pos hr]
      exact ⟨rfl, h.clear⟩
    · rw [if_neg hr, if_neg hr]
      exact ⟨rfl, h⟩

theorem applyEvents_similar (hg : router.group = adapter.group) (h : Similar a b)
    (rank : UInt32) (summary : DigestDeltaSummary) (events : List KvEvent) :
    (adapter.applyEvents rank a summary events).1 = (router.applyEvents rank b summary events).1 ∧
      Similar (adapter.applyEvents rank a summary events).2
        (router.applyEvents rank b summary events).2 := by
  induction events generalizing a b summary with
  | nil => exact ⟨rfl, h⟩
  | cons event rest ih =>
    obtain ⟨hr, hn⟩ := applyEvent_similar hg h rank summary event
    simp only [applyEvents]
    rcases hA : adapter.applyEvent rank a summary event with ⟨resultA, nextA⟩
    rcases hB : router.applyEvent rank b summary event with ⟨resultB, nextB⟩
    rw [hA, hB] at hr hn
    obtain rfl : resultA = resultB := hr
    rcases resultA with error | summary'
    · exact ⟨rfl, hn.clear⟩
    · exact ih hn summary'

/-- A batch that both take, the router from its payload. -/
theorem applyPayload_similar {batch : KvEventBatch} {payload : List UInt8}
    {summary : DigestDeltaSummary} {a' b' : DigestKvIndex} (hg : router.group = adapter.group)
    (h : Similar a b) (hap : adapter.applyBatch a batch = (.ok summary, a'))
    (hd : ∀ decoded, router.decodeBatch payload = .ok decoded → decoded = batch)
    (hp : router.applyPayload b payload = some b') : Similar a' b' := by
  simp only [applyPayload, apply] at hp
  rcases he : router.decodeBatch payload with error | decoded
  · simp [he] at hp
  obtain rfl := hd decoded he
  have hn := (applyEvents_similar hg h (decoded.dataParallelRank.getD 0) ⟨0, 0, 0, 0⟩
    decoded.events).2
  unfold applyBatch at hap
  simp only [he, applyBatch] at hp
  rw [hap] at hn
  split at hp
  next hr =>
    rw [hr, Option.some.inj hp] at hn
    exact hn
  · cases hp

end SnapshotDigestDeltaAdapter

namespace CompanionIndexSource
open DigestKvIndex

/-- What the router makes of a frame that a build has written. -/
theorem prepared_of_buildFrame {codec : SnapshotCodec} (ho : codec.RoundTrips)
    {config : CompanionIndexSourceConfig} {build : SnapshotBuild} {frame : List UInt8}
    {exportCancelled encodeCancelled : Nat → Bool} (hwf : build.index.Wf)
    (ha : buildFrame codec config build exportCancelled encodeCancelled = .ok frame)
    {digestSecret : Bytes 32} {snapshotLimits : SnapshotLimits} {indexLimits : DigestIndexLimits}
    {group : SnapshotGroupKey} {minimum : Nat} {cancelled : Nat → Bool}
    {prepared : PreparedSnapshotGeneration DigestKvIndex} (hl : indexLimits = build.index.limits)
    (hi : (BlockDigester.new codec.sha256 digestSecret).keyId = build.identity.digestKeyId →
      BlockDigester.new codec.sha256 digestSecret = build.index.digester)
    (h : prepareAuthenticatedSnapshotWithCancel codec
      ⟨build.identity.engineIncarnation, build.watermark, build.identity.digestKeyId,
        build.identity.companionGeneration, frame⟩
      digestSecret snapshotLimits indexLimits group minimum cancelled = .ok prepared) :
    group = ⟨config.group.dataParallelRank, config.group.groupIdx⟩ ∧
      prepared.snapshotWatermark = build.watermark ∧
      prepared.identity = ⟨build.identity.engineIncarnation, build.identity.digestKeyId,
        build.identity.companionGeneration⟩ ∧ Similar build.index prepared.index := by
  -- the companion's side: the captured index was exported and encoded
  unfold buildFrame at ha
  split at ha
  · cases ha
  · cases ha
  rename_i body hx
  split at ha
  · cases ha
  · cases ha
  rename_i encoded hn
  cases ha
  have hb := exportedBody_of_ok hwf hx
  obtain ⟨payload, envelope, hp, rfl, he⟩ :=
    SnapshotCodec.encodeSnapshotWithCancel_ok hn
  -- the router's side: the frame decodes to the same body
  simp only [prepareAuthenticatedSnapshotWithCancel] at h
  split at h
  · cases h
  rename_i hk
  split at h
  · cases h
  rename_i decoded hd
  obtain ⟨envelope', he', hc, hv⟩ :=
    SnapshotCodec.decodeSnapshotWithCancel_ok hd
  have hs : decoded = body := by
    rw [ho.envelope _ _ he] at he'
    cases he'
    rw [ho.body _ _ hp] at hc
    exact (Option.some.inj hc).symm
  subst hs
  split at h
  · cases h
  split at h
  · cases h
  rename_i count index hm
  split at h
  · cases h
  cases h
  have hu := hb.nodup_iff.1 (nodup_of_validateCollections hv)
  obtain ⟨hg, hf⟩ := hb.similar_of_import hwf hu hl (hi (not_not.1 hk)) hm
  exact ⟨hg, rfl, rfl, hf⟩

end CompanionIndexSource
end Ramjet
