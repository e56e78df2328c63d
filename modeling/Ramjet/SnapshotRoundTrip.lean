import Ramjet.SnapshotCopy
import Ramjet.Lib.Runs

/-!
# Snapshot round trips

An index written out, framed, decoded and read back answers every later call as the
original does, lookup budgets aside.
-/

namespace Ramjet
open List

/-- What may have happened to an index since it was empty. -/
inductive DigestOp where
  | store (event : BlockStored)
  | remove (event : BlockRemoved)
  | clear
  | replace (body : SnapshotBody) (group : SnapshotGroupKey) (cancelled : Nat → Bool)

namespace DigestOp

def apply (index : DigestKvIndex) : DigestOp → DigestKvIndex
  | store event => (index.store event).2
  | remove event => (index.remove event).2
  | clear => index.clear
  | replace body group cancelled => (index.replaceFromSnapshotWithCancel body group cancelled).2

def system (limits : DigestIndexLimits) (digester : BlockDigester) :
    TransitionSystem DigestKvIndex DigestOp where
  init index := index = .new limits digester
  step index op index' := index' = op.apply index

theorem wf_apply {index : DigestKvIndex} (h : index.Wf) (op : DigestOp) : (op.apply index).Wf := by
  cases op with
  | store event => exact h.store event
  | remove event => exact h.remove event
  | clear => exact h.clear
  | replace body group cancelled => exact h.replaceFromSnapshotWithCancel body group cancelled

theorem wf_of_reachable {limits : DigestIndexLimits} {digester : BlockDigester}
    {index : DigestKvIndex} (h : (system limits digester).Reachable index) : index.Wf := by
  refine h.invariant (P := DigestKvIndex.Wf) ?_ ?_
  · rintro index rfl
    exact .new limits digester
  · rintro index op _ hwf rfl
    exact wf_apply hwf op

end DigestOp

inductive IndexCall where
  | store (event : BlockStored)
  | remove (event : BlockRemoved)
  | clear
  | findLongest (tokenIds : List UInt32)

inductive IndexAnswer where
  | stored (result : Except DigestIndexError Nat)
  | removed (count : Nat)
  | cleared
  | found (result : Except DigestIndexError DigestMatch)

namespace IndexCall

def run (index : DigestKvIndex) : IndexCall → IndexAnswer × DigestKvIndex
  | store event => (.stored (index.store event).1, (index.store event).2)
  | remove event => (.removed (index.remove event).1, (index.remove event).2)
  | clear => (.cleared, index.clear)
  | findLongest tokenIds => (.found (index.findLongest tokenIds), index)

def answers (index : DigestKvIndex) : List IndexCall → List IndexAnswer
  | [] => []
  | call :: rest => (call.run index).1 :: answers (call.run index).2 rest

def Agrees (x y : IndexAnswer) : Prop :=
  x = y ∨ x = .found (.error .lookupBudgetExceeded) ∨ y = .found (.error .lookupBudgetExceeded)

variable {a b : DigestKvIndex}

section
variable (h : DigestKvIndex.Similar a b)
include h

theorem agrees_findLongest (tokenIds : List UInt32) :
    Agrees (.found (a.findLongest tokenIds)) (.found (b.findLongest tokenIds)) := by
  rcases hA : a.findLongest tokenIds with e | x
  · rw [h.left.findLongest_error hA]
    exact .inr (.inl rfl)
  rcases hB : b.findLongest tokenIds with e | y
  · rw [h.right.findLongest_error hB]
    exact .inr (.inr rfl)
  · exact .inl (by rw [h.findLongest hA hB])

theorem agrees_run (call : IndexCall) :
    Agrees (call.run a).1 (call.run b).1 ∧ DigestKvIndex.Similar (call.run a).2 (call.run b).2 := by
  cases call with
  | store event => exact ⟨.inl (congrArg IndexAnswer.stored (h.store event).1), (h.store event).2⟩
  | remove event =>
    exact ⟨.inl (congrArg IndexAnswer.removed (h.remove event).1), (h.remove event).2⟩
  | clear => exact ⟨.inl rfl, h.clear⟩
  | findLongest tokenIds => exact ⟨agrees_findLongest h tokenIds, h⟩

theorem agrees_answers (calls : List IndexCall) :
    Forall₂ Agrees (answers a calls) (answers b calls) := by
  induction calls generalizing a b with
  | nil => exact .nil
  | cons call rest ih =>
    obtain ⟨hf, hn⟩ := agrees_run h call
    exact .cons hf (ih hn)

end
end IndexCall

namespace DigestKvIndex
variable {index : DigestKvIndex}

structure ExportedBody (index : DigestKvIndex) (incarnation : EngineIncarnation) (watermark : Nat)
    (group : GroupMetadata) (body : SnapshotBody) : Prop where
  unpoisoned : index.poisonedEdges = 0
  visit : ∃ depth visited, depth rootNode = 0 ∧ BreadthFirst.Layered index.nextNodes depth ∧
    Exported index depth visited body.records
  length : body.records.length = index.liveNodes
  engineIncarnation : body.engineIncarnation = incarnation
  watermark : body.watermark = watermark
  resetScope : body.resetScope = .fullEngine
  digest : body.digest = ⟨.hmacSha256V1, index.digester.keyId.toList, 32⟩
  groups : body.groups = [group]
  capacity : measuredCapacity body.groups body.records = .ok body.capacity

variable {incarnation : EngineIncarnation} {watermark : Nat} {group : GroupMetadata}
  {body : SnapshotBody}

theorem exportedBody_of_ok (h : index.Wf) {cancelled : Nat → Bool}
    (ho : index.exportSnapshotWithCancel incarnation watermark group cancelled = .ok body) :
    index.ExportedBody incarnation watermark group body := by
  simp only [exportSnapshotWithCancel] at ho
  split at ho
  · cases ho
  split at ho
  · cases ho
  rename_i hz
  rw [not_not] at hz
  obtain ⟨root, hr, -⟩ := h.tree.root
  rw [node_of_get? hr, sortedChildren_of_counted h.counted hz hr] at ho
  simp only at ho
  split at ho
  · cases ho
  rename_i records hb
  split at ho
  · cases ho
  rename_i ha
  rw [not_not] at ha
  obtain ⟨depth, hd, hl⟩ := h.tree.layered
  obtain ⟨visited, he⟩ :=
    (Exporting.start hl hd).run h hl hd hb
  rcases hc : measuredCapacity [group] records with error | capacity
  · simp [SnapshotBody.refreshCapacity, hc, Except.map] at ho
  simp only [SnapshotBody.refreshCapacity, hc, Except.map, Except.ok.injEq] at ho
  subst ho
  exact ⟨hz, ⟨depth, visited, hd, hl, he⟩, ha, rfl, rfl, rfl, rfl, rfl, hc⟩

theorem ExportedBody.nodup_iff (h : index.ExportedBody incarnation watermark group body) :
    (body.records.map fun record => (record.groupSlot, record.externalHash)).Nodup ↔
      (body.records.map (·.externalHash)).Nodup := by
  obtain ⟨depth, visited, -, -, he⟩ := h.visit
  have hs : ∀ r ∈ body.records, r.groupSlot = 0 := by
    intro r hr
    obtain ⟨k, hk⟩ := mem_iff_getElem?.1 hr
    obtain ⟨id, p, node, primary, guard, hash, -, hf, -⟩ := he.described k r hk
    exact hf.groupSlot
  have hm : body.records.map (fun record => (record.groupSlot, record.externalHash)) =
      (body.records.map (·.externalHash)).map (Prod.mk 0) := by
    rw [map_map]
    apply map_congr_left
    intro r hr
    simp [hs r hr]
  rw [hm, nodup_map_iff (Prod.mk_right_injective 0)]

theorem ExportedBody.replace (hwf : index.Wf)
    (h : index.ExportedBody incarnation watermark group body) (hg : group.disposition = .indexed)
    (hu : (body.records.map (·.externalHash)).Nodup) {target : DigestKvIndex}
    (ha : target.limits = index.limits) (hd : target.digester = index.digester) :
    ∃ imported, target.replaceFromSnapshot body ⟨group.dataParallelRank, group.groupIdx⟩ =
        (.ok body.records.length, imported) ∧ Similar index imported := by
  obtain ⟨depth, visited, -, hl, he⟩ := h.visit
  obtain ⟨state, hr, hi, hs⟩ :=
    he.importRecords hwf h.unpoisoned hl h.length hu
  refine ⟨state.scratch, ?_, hs⟩
  have hn : ¬ index.limits.maxNodes < body.records.length := by
    have := (he.fits hwf h.unpoisoned hl h.length).nodes
    omega
  have hm : target.importSnapshot body ⟨group.dataParallelRank, group.groupIdx⟩
      (fun _ => false) = .ok state := by
    simp [importSnapshot, h.digest, h.resetScope, h.groups, ha, hd, hn, hg, hr]
  simp only [replaceFromSnapshot, replaceFromSnapshotWithCancel, hm, hi]

/-- An export that validates survives its frame, and an index of the same
limits and secret that imports it answers all later calls as the original. -/
theorem snapshot_round_trip (codec : SnapshotCodec) (hcodec : codec.RoundTrips)
    {limits : DigestIndexLimits} {digester : BlockDigester}
    (hreach : (DigestOp.system limits digester).Reachable index)
    {incarnation : EngineIncarnation} {watermark : Nat} {group : GroupMetadata}
    (hgroup : group.disposition = .indexed) {cancelled : Nat → Bool} {body : SnapshotBody}
    (hexport : index.exportSnapshotWithCancel incarnation watermark group cancelled = .ok body)
    {snapshotLimits : SnapshotLimits}
    (hvalid : validateBody body snapshotLimits (fun _ => false) = .ok ())
    {target : DigestKvIndex} (hlimits : target.limits = index.limits)
    (hdigester : target.digester = index.digester) :
    (∀ frame, codec.encodeSnapshot body snapshotLimits = .ok frame →
      codec.decodeSnapshot frame snapshotLimits
        ⟨body.engineIncarnation, body.resetScope, body.digest⟩ = .ok body) ∧
    ∃ imported, target.replaceFromSnapshot body ⟨group.dataParallelRank, group.groupIdx⟩ =
        (.ok body.records.length, imported) ∧
      ∀ calls, Forall₂ IndexCall.Agrees (IndexCall.answers index calls)
        (IndexCall.answers imported calls) := by
  have hwf := DigestOp.wf_of_reachable hreach
  have hb := exportedBody_of_ok hwf hexport
  have hc : validateCollections body snapshotLimits (fun _ => false) = .ok () := by
    rcases hh : validateHeader body snapshotLimits with error | ⟨⟩
    · simp [validateBody, hh, bind, Except.bind] at hvalid
    · simpa [validateBody, hh, bind, Except.bind] using hvalid
  have hu := hb.nodup_iff.1 (nodup_of_validateCollections hc)
  refine ⟨fun frame hf => SnapshotCodec.decodeSnapshot_encodeSnapshot hcodec hf, ?_⟩
  obtain ⟨imported, hr, hs⟩ := hb.replace hwf hgroup hu hlimits hdigester
  exact ⟨imported, hr, IndexCall.agrees_answers hs⟩

/-- MessagePack for the sizes that occur in the sample frame. -/
def packUint (n : Nat) : List UInt8 :=
  if n < 128 then [UInt8.ofNat n]
  else if n < 256 then [0xcc, UInt8.ofNat n]
  else [0xcd, UInt8.ofNat (n / 256), UInt8.ofNat n]

def packStr (text : String) : List UInt8 := (0xa0 + UInt8.ofNat text.length) :: asciiBytes text

def packBin (bytes : List UInt8) : List UInt8 :=
  if bytes.length < 256 then [0xc4, UInt8.ofNat bytes.length] ++ bytes
  else [0xc5, UInt8.ofNat (bytes.length / 256), UInt8.ofNat bytes.length] ++ bytes

def packArray (items : List (List UInt8)) : List UInt8 :=
  (0x90 + UInt8.ofNat items.length) :: items.flatten

def packMap (fields : List (String × List UInt8)) : List UInt8 :=
  (0x80 + UInt8.ofNat fields.length) :: fields.flatMap fun field => packStr field.1 ++ field.2

/-- A resident block under a removed one. -/
def sampleIndex : DigestKvIndex :=
  DigestOp.apply (DigestOp.apply (.new ⟨8, 8, 8, 8, 64⟩ sampleDigester)
    (.store (storeTokens [1, 2] [7, 8]))) (.remove (removal [7]))

def sampleIncarnation : EngineIncarnation where
  engineId := "engine-a"
  modelRevision := "revision-a"
  imageDigest := "sha256:a"
  processStartedUnixNs := 42
  attestationSha256 := replicate 32 7

def sampleGroup : GroupMetadata := ⟨0, 0, .fullAttention, .indexed, 1⟩

def sampleBody : SnapshotBody where
  engineIncarnation := sampleIncarnation
  watermark := 9
  resetScope := .fullEngine
  digest := ⟨.hmacSha256V1, sampleKeyId.toList, 32⟩
  capacity := ⟨1, 2, 16, 64⟩
  groups := [sampleGroup]
  records :=
    [⟨0, none, .unsigned 7, (sampleOuter 1).toList, 1, 1, false⟩,
      ⟨0, some 0, .unsigned 8, (sampleOuter 2).toList, 1, 2, true⟩]

def samplePayload : List UInt8 :=
  packMap [("engine_incarnation", packMap [("engine_id", packStr "engine-a"),
          ("model_revision", packStr "revision-a"),
          ("image_digest", packStr "sha256:a"),
          ("process_started_unix_ns", packUint 42),
          ("attestation_sha256", packBin (replicate 32 7))]),
      ("watermark", packUint 9),
      ("reset_scope", packMap
        [("kind", packStr "full_engine"), ("data_parallel_rank", [0xc0]), ("group_idx", [0xc0])]),
      ("digest", packMap [("algorithm", packStr "hmac_sha256_v1"),
          ("key_id", packBin sampleKeyId.toList),
          ("digest_bytes", packUint 32)]),
      ("capacity", packMap [("groups", packUint 1), ("records", packUint 2),
          ("external_hash_bytes", packUint 16),
          ("digest_bytes", packUint 64)]),
      ("groups", packArray [packMap [("data_parallel_rank", packUint 0), ("group_idx", packUint 0),
          ("attention_kind", packStr "full_attention"),
          ("disposition", packStr "indexed"),
          ("block_size", packUint 1)]]),
      ("records", packArray [packMap [("group_slot", packUint 0), ("parent_record", [0xc0]),
          ("external_hash", packMap [("kind", packStr "unsigned"), ("value", packUint 7)]),
          ("block_digest", packBin (sampleOuter 1).toList),
          ("block_token_ids", packUint 1),
          ("prefix_token_ids", packUint 1),
          ("present", [0xc2])], packMap
        [("group_slot", packUint 0), ("parent_record", packUint 0),
          ("external_hash", packMap [("kind", packStr "unsigned"), ("value", packUint 8)]),
          ("block_digest", packBin (sampleOuter 2).toList),
          ("block_token_ids", packUint 1),
          ("prefix_token_ids", packUint 2),
          ("present", [0xc3])]])]

def samplePayloadSha256 : Bytes 32 :=
  .ofHex 0x7c80d9782bf5f1ecd53c2101c21b50afa72cc74cf86ee5bbf7af46b50d005463

def sampleEnvelope : SnapshotEnvelope where
  schemaVersion := 2
  checksumAlgorithm := .sha256
  payloadBytes := 809
  checksum := samplePayloadSha256.toList
  payload := samplePayload

def sampleFrame : List UInt8 :=
  packMap [("schema_version", packUint 2), ("checksum_algorithm", packStr "sha256"),
      ("payload_bytes", packUint 809),
      ("checksum", packBin samplePayloadSha256.toList),
      ("payload", packBin samplePayload)]

def sampleCodec : SnapshotCodec where
  sha256 _ := samplePayloadSha256
  encodeBody body := if body = sampleBody then some samplePayload else none
  decodeBody bytes := if bytes = samplePayload then some sampleBody else none
  encodeEnvelope envelope := if envelope = sampleEnvelope then some sampleFrame else none
  decodeEnvelope bytes := if bytes = sampleFrame then some sampleEnvelope else none

theorem sampleCodec_roundTrips : sampleCodec.RoundTrips where
  body body bytes h := by
    simp only [sampleCodec, Option.ite_none_right_eq_some, Option.some.injEq] at h ⊢
    exact ⟨h.2.symm, h.1.symm⟩
  envelope envelope bytes h := by
    simp only [sampleCodec, Option.ite_none_right_eq_some, Option.some.injEq] at h ⊢
    exact ⟨h.2.symm, h.1.symm⟩

def sampleLimits : SnapshotLimits := ⟨2048, 2048, 512, 32, 4, 16, 256, 1024, 1024⟩

theorem snapshot_round_trip_sample : sampleIndex.findLongest [1, 2] = .ok ⟨0, 0⟩ ∧
      sampleCodec.encodeSnapshot sampleBody sampleLimits = .ok sampleFrame ∧
      sampleCodec.decodeSnapshot sampleFrame sampleLimits
        ⟨sampleIncarnation, .fullEngine, sampleBody.digest⟩ = .ok sampleBody ∧
      ∃ imported, (DigestKvIndex.new ⟨8, 8, 8, 8, 64⟩ sampleDigester).replaceFromSnapshot sampleBody
          ⟨0, 0⟩ = (.ok 2, imported) ∧
        ∀ calls, Forall₂ IndexCall.Agrees (IndexCall.answers sampleIndex calls)
          (IndexCall.answers imported calls) := by
  have ha : (DigestOp.system ⟨8, 8, 8, 8, 64⟩ sampleDigester).Reachable sampleIndex :=
    .step (.step (.init rfl) rfl) rfl
  have he : sampleIndex.exportSnapshotWithCancel sampleIncarnation 9 sampleGroup
      (fun _ => false) = .ok sampleBody := by decide +kernel
  have hv : validateBody sampleBody sampleLimits (fun _ => false) = .ok () := by
    decide +kernel
  have hf : sampleCodec.encodeSnapshot sampleBody sampleLimits = .ok sampleFrame := by
    decide +kernel
  have hl : (DigestKvIndex.new ⟨8, 8, 8, 8, 64⟩ sampleDigester).limits =
      sampleIndex.limits := by decide +kernel
  have hr := snapshot_round_trip sampleCodec sampleCodec_roundTrips ha rfl he hv
    hl rfl
  exact ⟨by decide +kernel, hf, hr.1 _ hf, hr.2⟩

theorem filtered_group_not_imported :
    let empty := DigestKvIndex.new ⟨8, 8, 8, 8, 64⟩ sampleDigester
    let group := { sampleGroup with attentionKind := .mamba, disposition := .filtered }
    let body := { sampleBody with capacity := ⟨1, 0, 0, 0⟩, groups := [group], records := [] }
    (DigestOp.system ⟨8, 8, 8, 8, 64⟩ sampleDigester).Reachable empty ∧
      empty.exportSnapshotWithCancel sampleIncarnation 9 group (fun _ => false) = .ok body ∧
      validateBody body sampleLimits (fun _ => false) = .ok () ∧
      (empty.replaceFromSnapshot body ⟨0, 0⟩).1 = .error .unsupportedSnapshotGroups :=
  ⟨.init rfl, by decide +kernel, by decide +kernel, by decide +kernel⟩

end DigestKvIndex
end Ramjet
