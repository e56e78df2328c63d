import Ramjet.BlockDigest
import Ramjet.KvWire

/-!
# Snapshot frames

The wire contract of `kv_snapshot.rs`: a checksummed envelope around digest records.
MessagePack and SHA-256 are parameters; the cancellation probe is asked with the number
of questions put before.
-/

namespace Ramjet
open List

def snapshotSchemaVersion : Nat := 2

def sha256Bytes : Nat := 32

structure SnapshotLimits where
  maxFrameBytes : Nat
  maxPayloadBytes : Nat
  maxIncarnationComponentBytes : Nat
  maxKeyIdBytes : Nat
  maxGroups : Nat
  maxRecords : Nat
  maxExternalHashBytes : Nat
  maxTotalExternalHashBytes : Nat
  maxPrefixTokenIds : Nat

structure EngineIncarnation where
  engineId : String
  modelRevision : String
  imageDigest : String
  processStartedUnixNs : Nat
  attestationSha256 : List UInt8
  deriving DecidableEq

inductive DigestAlgorithm where
  | hmacSha256V1 | unsupported
  deriving DecidableEq

structure DigestSpec where
  algorithm : DigestAlgorithm
  keyId : List UInt8
  digestBytes : Nat
  deriving DecidableEq

inductive ResetKind where
  | fullEngine | dataParallelRank | cacheGroup | unsupported
  deriving DecidableEq

structure ResetScope where
  kind : ResetKind
  dataParallelRank : Option UInt32
  groupIdx : Option UInt32
  deriving DecidableEq

def ResetScope.fullEngine : ResetScope := ⟨.fullEngine, none, none⟩

/-- The attention kinds a snapshot names. -/
inductive GroupAttentionKind where
  | fullAttention | mlaAttention | sinkFullAttention | slidingWindow | slidingWindowMla | mamba
  | chunkedLocalAttention | encoderOnlyAttention | crossAttention | unsupported
  deriving DecidableEq

inductive GroupDisposition where
  | indexed | filtered | unsupported
  deriving DecidableEq

structure GroupMetadata where
  dataParallelRank : UInt32
  groupIdx : UInt32
  attentionKind : GroupAttentionKind
  disposition : GroupDisposition
  blockSize : UInt32
  deriving DecidableEq

inductive SnapshotBlockHash where
  | bytes (value : List UInt8)
  | signed (value : Int64)
  | unsigned (value : UInt64)
  deriving DecidableEq

def SnapshotBlockHash.externalHashLen : SnapshotBlockHash → Nat
  | bytes value => value.length
  | signed _ => 8
  | unsigned _ => 8

structure DigestRecord where
  groupSlot : Nat
  parentRecord : Option Nat
  externalHash : SnapshotBlockHash
  blockDigest : List UInt8
  blockTokenIds : UInt32
  prefixTokenIds : Nat
  present : Bool
  deriving DecidableEq

structure SnapshotCapacity where
  groups : Nat
  records : Nat
  externalHashBytes : Nat
  digestBytes : Nat
  deriving DecidableEq

structure SnapshotBody where
  engineIncarnation : EngineIncarnation
  watermark : Nat
  resetScope : ResetScope
  digest : DigestSpec
  capacity : SnapshotCapacity
  groups : List GroupMetadata
  records : List DigestRecord
  deriving DecidableEq

structure SnapshotExpectations where
  engineIncarnation : EngineIncarnation
  resetScope : ResetScope
  digest : DigestSpec

inductive SnapshotError where
  | frameTooLarge | invalidMessagePack | unsupportedSchema | unsupportedChecksum
  | invalidPayloadLength | invalidChecksum | invalidIncarnation | incarnationMismatch
  | unsupportedDigest | digestMismatch | unsupportedResetScope | resetScopeMismatch | tooManyGroups
  | tooManyRecords | capacityExceeded | capacityMismatch | invalidGroup | invalidRecord | cancelled
  | encodeFailed
  deriving DecidableEq

def measuredCapacity (groups : List GroupMetadata) (records : List DigestRecord) :
    Except SnapshotError SnapshotCapacity :=
  let externalHashBytes := (records.map (·.externalHash.externalHashLen)).sum
  let digestBytes := (records.map (·.blockDigest.length)).sum
  -- both sums are folded with `checked_add`
  if externalHashBytes ≤ u64Max ∧ digestBytes ≤ u64Max then
    .ok ⟨groups.length, records.length, externalHashBytes, digestBytes⟩
  else .error .capacityExceeded

def SnapshotBody.refreshCapacity (body : SnapshotBody) : Except SnapshotError SnapshotBody :=
  (measuredCapacity body.groups body.records).map fun capacity => { body with capacity }

def validateIncarnation (incarnation : EngineIncarnation) (limits : SnapshotLimits) :
    Except SnapshotError Unit :=
  let validComponent (value : String) :=
    value ≠ "" && value.utf8ByteSize ≤ limits.maxIncarnationComponentBytes
  if !validComponent incarnation.engineId || !validComponent incarnation.modelRevision ||
      !validComponent incarnation.imageDigest || incarnation.processStartedUnixNs = 0 ||
      incarnation.attestationSha256.length ≠ sha256Bytes then
    .error .invalidIncarnation
  else .ok ()

def validResetScope (scope : ResetScope) : Bool :=
  match scope.kind with
  | .fullEngine => scope.dataParallelRank.isNone && scope.groupIdx.isNone
  | .dataParallelRank => scope.dataParallelRank.isSome && scope.groupIdx.isNone
  | .cacheGroup => scope.dataParallelRank.isSome && scope.groupIdx.isSome
  | .unsupported => false

def validateHeader (body : SnapshotBody) (limits : SnapshotLimits) : Except SnapshotError Unit := do
  validateIncarnation body.engineIncarnation limits
  if body.digest.algorithm ≠ .hmacSha256V1 ∨ body.digest.digestBytes ≠ sha256Bytes ∨
      body.digest.keyId.length ≠ sha256Bytes ∨ limits.maxKeyIdBytes < body.digest.keyId.length then
    throw .unsupportedDigest
  if !validResetScope body.resetScope then throw .unsupportedResetScope
  if limits.maxGroups < body.groups.length then throw .tooManyGroups
  if limits.maxRecords < body.records.length then throw .tooManyRecords

variable (group : GroupMetadata)

def validDisposition : Bool :=
  let main := group.attentionKind = .fullAttention || group.attentionKind = .mlaAttention ||
    group.attentionKind = .sinkFullAttention
  match main, group.disposition with
  | true, .indexed => true
  | false, .filtered => true
  | _, _ => false

def groupInScope (scope : ResetScope) : Bool :=
  match scope.kind with
  | .fullEngine => true
  | .dataParallelRank => scope.dataParallelRank = some group.dataParallelRank
  | .cacheGroup => scope.dataParallelRank = some group.dataParallelRank &&
      scope.groupIdx = some group.groupIdx
  | .unsupported => false

def validateGroups (scope : ResetScope) (cancelled : Nat → Bool) :
    Nat → List (UInt32 × UInt32) → List GroupMetadata → Except SnapshotError Unit
  | _, _, [] => .ok ()
  | i, seen, group :: rest =>
    if cancelled i then .error .cancelled
    else if group.blockSize = 0 || group.attentionKind = .unsupported ||
        group.disposition = .unsupported || (group.dataParallelRank, group.groupIdx) ∈ seen ||
        !groupInScope group scope || !validDisposition group then
      .error .invalidGroup
    else validateGroups scope cancelled (i + 1)
      ((group.dataParallelRank, group.groupIdx) :: seen) rest

/-- What the pass over the records remembers of the earlier ones. -/
structure RecordScan where
  externalHashes : List (Nat × SnapshotBlockHash)
  depths : List Nat
  childCounts : List Nat
  previousDepths : List Nat

def RecordScan.new (body : SnapshotBody) : RecordScan where
  externalHashes := []
  depths := []
  childCounts := List.replicate body.records.length 0
  previousDepths := List.replicate body.groups.length 0

def validRecordFields (body : SnapshotBody) (limits : SnapshotLimits) (group : GroupMetadata)
    (record : DigestRecord) : Bool :=
  group.disposition = .indexed && record.blockDigest.length = body.digest.digestBytes &&
    record.blockTokenIds ≠ 0 && record.blockTokenIds ≤ group.blockSize &&
    record.prefixTokenIds ≤ limits.maxPrefixTokenIds &&
    record.externalHash.externalHashLen ≠ 0 &&
    record.externalHash.externalHashLen ≤ limits.maxExternalHashBytes

def linkRecord (body : SnapshotBody) (scan : RecordScan) (index : Nat) (record : DigestRecord) :
    Except SnapshotError (Nat × Nat × List Nat) :=
  match record.parentRecord with
  | none => .ok (0, record.blockTokenIds.toNat, scan.childCounts)
  | some parent =>
    match (if parent < index then body.records[parent]? else none) with
    | none => .error .invalidRecord
    | some parentRecord =>
      if parentRecord.groupSlot ≠ record.groupSlot then .error .invalidRecord
      else if u64Max < parentRecord.prefixTokenIds + record.blockTokenIds.toNat then
        .error .invalidRecord
      else .ok (scan.depths.getD parent 0 + 1,
        parentRecord.prefixTokenIds + record.blockTokenIds.toNat,
        scan.childCounts.modify parent (· + 1))

def validateRecord (body : SnapshotBody) (limits : SnapshotLimits) (scan : RecordScan)
    (index : Nat) (record : DigestRecord) : Except SnapshotError RecordScan :=
  match body.groups[record.groupSlot]? with
  | none => .error .invalidRecord
  | some group =>
    if !validRecordFields body limits group record ||
        (record.groupSlot, record.externalHash) ∈ scan.externalHashes then
      .error .invalidRecord
    else
      match linkRecord body scan index record with
      | .error error => .error error
      | .ok (depth, expectedPrefix, childCounts) =>
        if depth < scan.previousDepths.getD record.groupSlot 0 ∨
            record.prefixTokenIds ≠ expectedPrefix then
          .error .invalidRecord
        else .ok
          { externalHashes := (record.groupSlot, record.externalHash) :: scan.externalHashes
            depths := scan.depths ++ [depth]
            childCounts
            previousDepths := scan.previousDepths.set record.groupSlot depth }

def validateRecords (body : SnapshotBody) (limits : SnapshotLimits) (cancelled : Nat → Bool) :
    Nat → RecordScan → List DigestRecord → Except SnapshotError RecordScan
  | _, scan, [] => .ok scan
  | index, scan, record :: rest =>
    if cancelled index then .error .cancelled
    else
      match validateRecord body limits scan index record with
      | .error error => .error error
      | .ok scan => validateRecords body limits cancelled (index + 1) scan rest

def validateCollections (body : SnapshotBody) (limits : SnapshotLimits) (cancelled : Nat → Bool) :
    Except SnapshotError Unit := do
  validateGroups body.resetScope cancelled 0 [] body.groups
  let scan ← validateRecords body limits (fun i => cancelled (body.groups.length + i)) 0
    (.new body) body.records
  if (body.records.zip scan.childCounts).any fun (record, children) =>
      !record.present && children = 0 then
    throw .invalidRecord
  let measured ← measuredCapacity body.groups body.records
  if limits.maxTotalExternalHashBytes < measured.externalHashBytes then throw .capacityExceeded
  if measured ≠ body.capacity then throw .capacityMismatch

def validateBody (body : SnapshotBody) (limits : SnapshotLimits) (cancelled : Nat → Bool) :
    Except SnapshotError Unit := do
  validateHeader body limits
  validateCollections body limits cancelled

variable {body : SnapshotBody} {limits : SnapshotLimits} {index : Nat} {scan scan' : RecordScan}
  {cancelled : Nat → Bool}

theorem validateRecord_fresh {record : DigestRecord}
    (h : validateRecord body limits scan index record = .ok scan') :
    (record.groupSlot, record.externalHash) ∉ scan.externalHashes ∧
      scan'.externalHashes = (record.groupSlot, record.externalHash) :: scan.externalHashes := by
  simp only [validateRecord] at h
  split at h
  · cases h
  split at h
  · cases h
  rename_i hf
  split at h
  · cases h
  split at h
  · cases h
  cases h
  simp only [Bool.or_eq_true, decide_eq_true_eq, not_or] at hf
  exact ⟨hf.2, rfl⟩

theorem nodup_of_validateRecords {records : List DigestRecord}
    (h : validateRecords body limits cancelled index scan records = .ok scan') :
    (records.map fun record => (record.groupSlot, record.externalHash)).Nodup ∧
      ∀ record ∈ records, (record.groupSlot, record.externalHash) ∉ scan.externalHashes := by
  induction records generalizing index scan with
  | nil => simp
  | cons record rest ih =>
    simp only [validateRecords] at h
    split at h
    · cases h
    split at h
    · cases h
    rename_i next hn
    obtain ⟨hd, hr⟩ := ih h
    obtain ⟨hf, hs⟩ := validateRecord_fresh hn
    rw [hs] at hr
    constructor
    · rw [map_cons, nodup_cons]
      refine ⟨?_, hd⟩
      intro hm
      obtain ⟨other, ho, heq⟩ := mem_map.1 hm
      exact hr other ho (heq ▸ mem_cons_self ..)
    · intro other ho
      rcases mem_cons.1 ho with rfl | ho
      · exact hf
      · exact fun hm => hr other ho (mem_cons_of_mem _ hm)

theorem nodup_of_validateCollections (h : validateCollections body limits cancelled = .ok ()) :
    (body.records.map fun record => (record.groupSlot, record.externalHash)).Nodup := by
  simp only [validateCollections, bind, Except.bind] at h
  split at h
  · cases h
  split at h
  · cases h
  rename_i scan hs
  exact (nodup_of_validateRecords hs).1

inductive ChecksumAlgorithm where
  | sha256 | unsupported
  deriving DecidableEq

structure SnapshotEnvelope where
  schemaVersion : Nat
  checksumAlgorithm : ChecksumAlgorithm
  payloadBytes : Nat
  checksum : List UInt8
  payload : List UInt8
  deriving DecidableEq

/-- MessagePack for the two wire types, and SHA-256. -/
structure SnapshotCodec where
  sha256 : List UInt8 → Bytes 32
  encodeBody : SnapshotBody → Option (List UInt8)
  decodeBody : List UInt8 → Option SnapshotBody
  encodeEnvelope : SnapshotEnvelope → Option (List UInt8)
  decodeEnvelope : List UInt8 → Option SnapshotEnvelope

structure SnapshotCodec.RoundTrips (codec : SnapshotCodec) : Prop where
  body : ∀ body bytes, codec.encodeBody body = some bytes → codec.decodeBody bytes = some body
  envelope : ∀ envelope bytes,
    codec.encodeEnvelope envelope = some bytes → codec.decodeEnvelope bytes = some envelope

namespace SnapshotCodec
variable (codec : SnapshotCodec)

def encodeSnapshotWithCancel (body : SnapshotBody)
    (limits : SnapshotLimits) (cancelled : Nat → Bool) : Except SnapshotError (List UInt8) := do
  let probes := body.groups.length + body.records.length
  if cancelled 0 then throw .cancelled
  validateBody body limits fun i => cancelled (1 + i)
  if cancelled (1 + probes) then throw .cancelled
  match codec.encodeBody body with
  | none => throw .encodeFailed
  | some payload =>
    if limits.maxPayloadBytes < payload.length then throw .capacityExceeded
    if cancelled (2 + probes) then throw .cancelled
    let envelope : SnapshotEnvelope :=
      { schemaVersion := snapshotSchemaVersion
        checksumAlgorithm := .sha256
        payloadBytes := payload.length
        checksum := (codec.sha256 payload).toList
        payload }
    match codec.encodeEnvelope envelope with
    | none => throw .encodeFailed
    | some frame =>
      if limits.maxFrameBytes < frame.length then throw .frameTooLarge
      return frame

def encodeSnapshot (body : SnapshotBody) (limits : SnapshotLimits) :
    Except SnapshotError (List UInt8) :=
  codec.encodeSnapshotWithCancel body limits fun _ => false

def decodeSnapshotWithCancel (frame : List UInt8)
    (limits : SnapshotLimits) (expected : SnapshotExpectations) (cancelled : Nat → Bool) :
    Except SnapshotError SnapshotBody := do
  if cancelled 0 then throw .cancelled
  if limits.maxFrameBytes < frame.length then throw .frameTooLarge
  match codec.decodeEnvelope frame with
  | none => throw .invalidMessagePack
  | some envelope =>
    if cancelled 1 then throw .cancelled
    if envelope.schemaVersion ≠ snapshotSchemaVersion then throw .unsupportedSchema
    if envelope.checksumAlgorithm ≠ .sha256 then throw .unsupportedChecksum
    if limits.maxPayloadBytes < envelope.payload.length ∨
        envelope.payload.length ≠ envelope.payloadBytes then
      throw .invalidPayloadLength
    if envelope.checksum.length ≠ sha256Bytes ∨
        (codec.sha256 envelope.payload).toList ≠ envelope.checksum then
      throw .invalidChecksum
    if cancelled 2 then throw .cancelled
    match codec.decodeBody envelope.payload with
    | none => throw .invalidMessagePack
    | some body =>
      validateHeader body limits
      if body.engineIncarnation ≠ expected.engineIncarnation then throw .incarnationMismatch
      if body.digest ≠ expected.digest then throw .digestMismatch
      if body.resetScope ≠ expected.resetScope then throw .resetScopeMismatch
      if cancelled 3 then throw .cancelled
      validateCollections body limits fun i => cancelled (4 + i)
      return body

def decodeSnapshot (frame : List UInt8) (limits : SnapshotLimits)
    (expected : SnapshotExpectations) : Except SnapshotError SnapshotBody :=
  codec.decodeSnapshotWithCancel frame limits expected fun _ => false

theorem decodeSnapshot_encodeSnapshot {codec : SnapshotCodec} (ho : codec.RoundTrips)
    {body : SnapshotBody} {limits : SnapshotLimits} {frame : List UInt8}
    (h : codec.encodeSnapshot body limits = .ok frame) : codec.decodeSnapshot frame limits
      ⟨body.engineIncarnation, body.resetScope, body.digest⟩ = .ok body := by
  simp only [encodeSnapshot, encodeSnapshotWithCancel, validateBody] at h
  rcases hh : validateHeader body limits with error | ⟨⟩
  · simp [hh, bind, Except.bind] at h
  rcases hc : validateCollections body limits (fun _ => false) with error | ⟨⟩
  · simp [hh, hc, bind, Except.bind] at h
  simp only [hh, hc, bind, Except.bind] at h
  rcases hp : codec.encodeBody body with _ | payload
  · simp [hp] at h
  simp only [hp, Bool.false_eq_true, if_false, pure, Except.pure] at h
  split at h
  · cases h
  rename_i ha
  split at h
  · cases h
  rename_i frame' he
  simp only [throw, throwThe, MonadExceptOf.throw] at h
  split at h
  · cases h
  rename_i hf
  cases h
  simp only [decodeSnapshot, decodeSnapshotWithCancel, ho.envelope _ _ he, ho.body _ _ hp, hh, hc]
  simp [hf, ha, bind, Except.bind, pure, Except.pure, sha256Bytes]

end SnapshotCodec
end Ramjet
