import Ramjet.Lib.Fields
import Ramjet.SnapshotTail

/-!
# Authenticated sessions

`snapshot_session.rs`: a router's hello and the response with a snapshot, fixed frames
under an HMAC. MessagePack is a parameter.
-/

namespace Ramjet
open Fields List

structure SnapshotSessionLimits where
  maxResponseFrameBytes : Nat
  maxHeaderBytes : Nat
  maxSnapshotFrameBytes : Nat
  maxIncarnationComponentBytes : Nat

inductive SnapshotSessionError where
  | helloFrameTooLarge | responseFrameTooLarge | headerTooLarge | snapshotFrameTooLarge
  | invalidFrameLength | invalidMessagePack | unsupportedSchema | invalidMessageType
  | invalidDirection | invalidMagic | invalidIncarnation | invalidGeneration | invalidChecksum
  | authenticationFailed | challengeMismatch | incarnationMismatch | staleWatermark | keyIdMismatch
  | staleGeneration | encodeFailed
  deriving DecidableEq

structure ResponseMetadata where
  engineIncarnation : EngineIncarnation
  snapshotWatermark : Nat
  digestKeyId : List UInt8
  companionGeneration : Nat
  snapshotFrameSha256 : List UInt8
  deriving DecidableEq

/-- Identity metadata of `snapshot_tail_wire.rs`. -/
structure IdentityMetadata where
  engineIncarnation : EngineIncarnation
  digestKeyId : List UInt8
  deriving DecidableEq

/-- SHA-256, and MessagePack for the metadata of both frames. -/
structure SessionCodec where
  sha256 : List UInt8 → Bytes 32
  encodeResponse : ResponseMetadata → Option (List UInt8)
  decodeResponse : List UInt8 → Option ResponseMetadata
  encodeIdentity : IdentityMetadata → Option (List UInt8)
  decodeIdentity : List UInt8 → Option IdentityMetadata

structure SessionCodec.RoundTrips (codec : SessionCodec) : Prop where
  response : ∀ metadata bytes,
    codec.encodeResponse metadata = some bytes → codec.decodeResponse bytes = some metadata
  identity : ∀ metadata bytes,
    codec.encodeIdentity metadata = some bytes → codec.decodeIdentity bytes = some metadata

def transcript (domain : List UInt8) (parts : List (List UInt8)) : List UInt8 :=
  domain ++ (parts.map fun part => beBytes 8 part.length ++ part).flatten

theorem transcript_inj {domain part part' : List UInt8}
    (h : transcript domain [part] = transcript domain [part']) : part = part' := by
  simp only [transcript, map_cons, map_nil, flatten_cons, flatten_nil, append_nil] at h
  exact (append_inj (append_cancel_left h) (by simp)).2

variable (sha256 : List UInt8 → Bytes 32)

def authenticate (secret : Bytes 32) (domain : List UInt8) (parts : List (List UInt8)) : Bytes 32 :=
  hmacSha256 sha256 secret.toList (transcript domain parts)

/-- The source's loop ors every difference into one word. -/
def constantWorkMacEq (candidate : List UInt8) (expected : Bytes 32) : Bool :=
  expected.toList.zipIdx.foldl
    (fun difference entry => difference ||| (candidate.getD entry.2 0 ^^^ entry.1).toNat)
    (candidate.length ^^^ 32) = 0

theorem foldl_or_eq_zero {α : Type} (f : α → Nat) (entries : List α) (start : Nat) :
    entries.foldl (fun difference entry => difference ||| f entry) start = 0 ↔
      start = 0 ∧ ∀ entry ∈ entries, f entry = 0 := by
  induction entries generalizing start with
  | nil => simp
  | cons entry rest ih =>
    rw [foldl_cons, ih, Nat.or_eq_zero_iff, forall_mem_cons, and_assoc]

theorem constantWorkMacEq_iff {cand : List UInt8} {expected : Bytes 32} :
    constantWorkMacEq cand expected ↔ cand = expected.toList := by
  have hn : expected.toList.length = 32 := by simp
  rw [constantWorkMacEq, decide_eq_true_eq, foldl_or_eq_zero, Nat.xor_eq_zero_iff]
  constructor
  · rintro ⟨hl, hb⟩
    apply ext_getElem (by omega)
    intro i hi hi'
    have he := hb (expected.toList[i], i) (by
      rw [mk_mem_zipIdx_iff_getElem?]
      exact getElem?_eq_getElem hi')
    have hx : cand[i] ^^^ expected.toList[i] = 0 := by
      apply UInt8.toNat_inj.1
      simpa [getD_eq_getElem?_getD, getElem?_eq_getElem hi] using he
    exact UInt8.xor_eq_zero_iff.1 hx
  · rintro rfl
    refine ⟨hn, ?_⟩
    rintro ⟨byte, i⟩ hm
    rw [mk_mem_zipIdx_iff_getElem?] at hm
    simp [getD_eq_getElem?_getD, hm]

def validSessionIncarnation (incarnation : EngineIncarnation) (maxBytes : Nat) : Bool :=
  let valid := fun (value : String) => value ≠ "" && value.utf8ByteSize ≤ maxBytes
  valid incarnation.engineId && valid incarnation.modelRevision && valid incarnation.imageDigest &&
    incarnation.processStartedUnixNs ≠ 0 && incarnation.attestationSha256.length = 32

def readField (frame : List UInt8) (offset width : Nat) :
    Except SnapshotSessionError (List UInt8) :=
  if offset + width ≤ frame.length then .ok (bytesAt frame offset width)
  else .error .invalidFrameLength

def sessionMagic : List UInt8 := asciiBytes "MDSNAP01"

def sessionSchemaVersion : Nat := 1

def clientHelloType : UInt8 := 1

def snapshotResponseType : UInt8 := 2

def clientToServer : UInt8 := 1

def serverToClient : UInt8 := 2

def helloFrameBytes : Nat := 80

def responsePrefixBytes : Nat := 64

def responseOverheadBytes : Nat := 96

def snapshotResponseLengthPrefixBytes : Nat := 20

def helloAuthDomain : List UInt8 :=
  asciiBytes "mini-dynamo/snapshot-session/client-hello/auth/v1" ++ [0]

def responseAuthDomain : List UInt8 :=
  asciiBytes "mini-dynamo/snapshot-session/server-response/auth/v1" ++ [0]

variable (challenge : Bytes 32)

/-- The hello up to its authenticator. -/
def helloBody : List UInt8 :=
  [sessionMagic, beBytes 2 sessionSchemaVersion, [clientHelloType], [clientToServer],
    beBytes 4 helloFrameBytes, challenge.toList].flatten

structure SnapshotSessionBinding where
  challenge : Bytes 32
  engineIncarnation : EngineIncarnation
  snapshotWatermark : Nat
  digestKeyId : Bytes 32
  companionGeneration : Nat

structure SnapshotSessionExpectations where
  challenge : Bytes 32
  engineIncarnation : EngineIncarnation
  digestKeyId : Bytes 32
  minimumSnapshotWatermark : Nat
  minimumCompanionGeneration : Nat

def responseParts (metadata snapshotFrame : List UInt8) :
    List (List UInt8) :=
  [sessionMagic, beBytes 2 sessionSchemaVersion, [snapshotResponseType], [serverToClient],
    beBytes 8 (responseOverheadBytes + metadata.length + snapshotFrame.length),
    beBytes 4 metadata.length, beBytes 8 snapshotFrame.length, challenge.toList, metadata,
    snapshotFrame]

def responseMetadata (snapshotFrame : List UInt8)
    (binding : SnapshotSessionBinding) : ResponseMetadata where
  engineIncarnation := binding.engineIncarnation
  snapshotWatermark := binding.snapshotWatermark
  digestKeyId := binding.digestKeyId.toList
  companionGeneration := binding.companionGeneration
  snapshotFrameSha256 := (sha256 snapshotFrame).toList

namespace SessionCodec

def encodeAuthenticatedSnapshot (codec : SessionCodec) (snapshotFrame : List UInt8)
    (binding : SnapshotSessionBinding) (secret : Bytes 32) (limits : SnapshotSessionLimits) :
    Except SnapshotSessionError (List UInt8) :=
  if !validSessionIncarnation binding.engineIncarnation limits.maxIncarnationComponentBytes then
    .error .invalidIncarnation
  else if binding.companionGeneration = 0 then .error .invalidGeneration
  else if limits.maxSnapshotFrameBytes < snapshotFrame.length then .error .snapshotFrameTooLarge
  else
    match codec.encodeResponse (responseMetadata codec.sha256 snapshotFrame binding) with
    | none => .error .encodeFailed
    | some metadata =>
      if limits.maxHeaderBytes < metadata.length then .error .headerTooLarge
      else
        let total := responseOverheadBytes + metadata.length + snapshotFrame.length
        if u64Max < total ∨ limits.maxResponseFrameBytes < total then
          .error .responseFrameTooLarge
        else if 2 ^ 32 ≤ metadata.length then .error .headerTooLarge
        else
          let frame := (responseParts binding.challenge metadata snapshotFrame).flatten
          .ok (frame ++ (authenticate codec.sha256 secret responseAuthDomain [frame]).toList)

end SessionCodec

def validateFixedHeader (frame : List UInt8) (expectedType expectedDirection : UInt8) :
    Except SnapshotSessionError Unit :=
  if bytesAt frame 0 8 ≠ sessionMagic then .error .invalidMagic
  else
    match readField frame 8 2 with
    | .error error => .error error
    | .ok version =>
      if beNat version ≠ sessionSchemaVersion then .error .unsupportedSchema
      else if frame[10]? ≠ some expectedType then .error .invalidMessageType
      else if frame[11]? ≠ some expectedDirection then .error .invalidDirection
      else .ok ()

def declaredLengths (frame : List UInt8) (limits : SnapshotSessionLimits) :
    Except SnapshotSessionError (Nat × Nat) := do
  let declaredTotal := beNat (← readField frame 12 8)
  let metadataLen := beNat (← readField frame 20 4)
  let snapshotLen := beNat (← readField frame 24 8)
  if limits.maxResponseFrameBytes < declaredTotal then throw .responseFrameTooLarge
  if limits.maxHeaderBytes < metadataLen then throw .headerTooLarge
  if limits.maxSnapshotFrameBytes < snapshotLen then throw .snapshotFrameTooLarge
  let expectedTotal := responseOverheadBytes + metadataLen + snapshotLen
  -- a sum beyond 64 bits is no frame's length either
  if declaredTotal ≠ expectedTotal ∨ frame.length ≠ expectedTotal then throw .invalidFrameLength
  return (metadataLen, snapshotLen)

variable (metadata : ResponseMetadata)

def validateResponseMetadata (limits : SnapshotSessionLimits) :
    Except SnapshotSessionError Unit :=
  if !validSessionIncarnation metadata.engineIncarnation limits.maxIncarnationComponentBytes then
    .error .invalidIncarnation
  else if metadata.digestKeyId.length ≠ 32 then .error .keyIdMismatch
  else if metadata.companionGeneration = 0 then .error .invalidGeneration
  else if metadata.snapshotFrameSha256.length ≠ 32 then .error .invalidChecksum
  else .ok ()

def checkExpectations (snapshotBytes : List UInt8) (expected : SnapshotSessionExpectations) :
    Except SnapshotSessionError AuthenticatedSnapshot :=
  if metadata.engineIncarnation ≠ expected.engineIncarnation then .error .incarnationMismatch
  else if metadata.digestKeyId ≠ expected.digestKeyId.toList then .error .keyIdMismatch
  else if metadata.snapshotWatermark < expected.minimumSnapshotWatermark then
    .error .staleWatermark
  else if metadata.companionGeneration < expected.minimumCompanionGeneration then
    .error .staleGeneration
  else if !constantWorkMacEq metadata.snapshotFrameSha256 (sha256 snapshotBytes) then
    .error .invalidChecksum
  else
    .ok
      { engineIncarnation := metadata.engineIncarnation
        snapshotWatermark := metadata.snapshotWatermark
        digestKeyId := expected.digestKeyId
        companionGeneration := metadata.companionGeneration
        snapshotFrame := snapshotBytes }

namespace SessionCodec

def decodeAuthenticatedSnapshot (codec : SessionCodec) (frame : List UInt8)
    (expected : SnapshotSessionExpectations) (secret : Bytes 32) (limits : SnapshotSessionLimits) :
    Except SnapshotSessionError AuthenticatedSnapshot := do
  if !validSessionIncarnation expected.engineIncarnation limits.maxIncarnationComponentBytes then
    throw .invalidIncarnation
  if limits.maxResponseFrameBytes < frame.length then throw .responseFrameTooLarge
  if frame.length < responseOverheadBytes then throw .invalidFrameLength
  validateFixedHeader frame snapshotResponseType serverToClient
  let (metadataLen, snapshotLen) ← declaredLengths frame limits
  let snapshotEnd := responsePrefixBytes + metadataLen + snapshotLen
  if !constantWorkMacEq (frame.drop snapshotEnd)
      (authenticate codec.sha256 secret responseAuthDomain [frame.take snapshotEnd]) then
    throw .authenticationFailed
  if !constantWorkMacEq (bytesAt frame 32 32) expected.challenge then throw .challengeMismatch
  match codec.decodeResponse (bytesAt frame responsePrefixBytes metadataLen) with
  | none => throw .invalidMessagePack
  | some metadata =>
    validateResponseMetadata metadata limits
    checkExpectations codec.sha256 metadata
      (bytesAt frame (responsePrefixBytes + metadataLen) snapshotLen) expected

end SessionCodec

def authenticatedSnapshotFrameLength (lengthPrefix : List UInt8) (limits : SnapshotSessionLimits) :
    Except SnapshotSessionError Nat := do
  if lengthPrefix.length ≠ snapshotResponseLengthPrefixBytes then throw .invalidFrameLength
  validateFixedHeader lengthPrefix snapshotResponseType serverToClient
  let declaredTotal := beNat (← readField lengthPrefix 12 8)
  if declaredTotal < responseOverheadBytes then throw .invalidFrameLength
  if limits.maxResponseFrameBytes < declaredTotal then throw .responseFrameTooLarge
  return declaredTotal

variable {frame : List UInt8}

theorem readField_ok {bytes : List UInt8} {offset width : Nat}
    (h : readField frame offset width = .ok bytes) : bytes = bytesAt frame offset width := by
  unfold readField at h
  split at h
  · cases h
    rfl
  · cases h

variable {limits : SnapshotSessionLimits}

theorem declaredLengths_ok {metadataLen snapshotLen : Nat}
    (h : declaredLengths frame limits = .ok (metadataLen, snapshotLen)) :
    metadataLen = beNat (bytesAt frame 20 4) ∧ snapshotLen = beNat (bytesAt frame 24 8) ∧
      frame.length = responseOverheadBytes + metadataLen + snapshotLen := by
  simp only [declaredLengths, bind, Except.bind, pure, Except.pure] at h
  split at h
  · cases h
  split at h
  · cases h
  rename_i md hm
  split at h
  · cases h
  rename_i snap hs
  split at h
  · cases h
  split at h
  · cases h
  split at h
  · cases h
  split at h
  · cases h
  rename_i ht
  rw [readField_ok hm, readField_ok hs] at ht h
  rw [Except.ok.injEq, Prod.mk.injEq] at h
  obtain ⟨rfl, rfl⟩ := h
  refine ⟨rfl, rfl, ?_⟩
  by_contra hn
  exact ht (.inr hn)

structure DecodedResponse (codec : SessionCodec) (frame : List UInt8)
    (expected : SnapshotSessionExpectations) (secret : Bytes 32)
    (authenticated : AuthenticatedSnapshot) (metadata : ResponseMetadata)
    (metadataLen snapshotLen : Nat) : Prop where
  metadataLen_eq : metadataLen = beNat (bytesAt frame 20 4)
  snapshotLen_eq : snapshotLen = beNat (bytesAt frame 24 8)
  length : frame.length = responseOverheadBytes + metadataLen + snapshotLen
  mac : frame.drop (responsePrefixBytes + metadataLen + snapshotLen) =
    (authenticate codec.sha256 secret responseAuthDomain
      [frame.take (responsePrefixBytes + metadataLen + snapshotLen)]).toList
  challenge : bytesAt frame 32 32 = expected.challenge.toList
  metadata_eq : codec.decodeResponse (bytesAt frame responsePrefixBytes metadataLen) = some metadata
  incarnation : authenticated.engineIncarnation = metadata.engineIncarnation
  expected_incarnation : authenticated.engineIncarnation = expected.engineIncarnation
  watermark : authenticated.snapshotWatermark = metadata.snapshotWatermark
  keyId : authenticated.digestKeyId.toList = metadata.digestKeyId
  generation : authenticated.companionGeneration = metadata.companionGeneration
  snapshotFrame : authenticated.snapshotFrame =
    bytesAt frame (responsePrefixBytes + metadataLen) snapshotLen

variable {expected : SnapshotSessionExpectations} {authenticated : AuthenticatedSnapshot}

theorem checkExpectations_ok {sha256 : List UInt8 → Bytes 32} {md : ResponseMetadata}
    {snapshotBytes : List UInt8}
    (h : checkExpectations sha256 md snapshotBytes expected = .ok authenticated) :
    md.engineIncarnation = expected.engineIncarnation ∧
      md.digestKeyId = expected.digestKeyId.toList ∧
      authenticated =
        { engineIncarnation := md.engineIncarnation
          snapshotWatermark := md.snapshotWatermark
          digestKeyId := expected.digestKeyId
          companionGeneration := md.companionGeneration
          snapshotFrame := snapshotBytes } := by
  unfold checkExpectations at h
  split at h
  · cases h
  rename_i hinc
  split at h
  · cases h
  rename_i hk
  split at h
  · cases h
  split at h
  · cases h
  split at h
  · cases h
  cases h
  exact ⟨not_not.1 hinc, not_not.1 hk, rfl⟩

theorem SessionCodec.decodeAuthenticatedSnapshot_ok {codec : SessionCodec} {secret : Bytes 32}
    (h : codec.decodeAuthenticatedSnapshot frame expected secret limits = .ok authenticated) :
    ∃ md metadataLen snapshotLen,
      DecodedResponse codec frame expected secret authenticated md metadataLen
        snapshotLen := by
  simp only [decodeAuthenticatedSnapshot, bind, Except.bind] at h
  split at h
  · cases h
  split at h
  · cases h
  split at h
  · cases h
  split at h
  · cases h
  split at h
  · cases h
  rename_i lengths hl
  obtain ⟨metadataLen, snapshotLen⟩ := lengths
  obtain ⟨ht, hs, he⟩ := declaredLengths_ok hl
  split at h
  · cases h
  rename_i hmac
  split at h
  · cases h
  rename_i hc
  split at h
  · cases h
  rename_i md hm
  split at h
  · cases h
  obtain ⟨hinc, hk, rfl⟩ := checkExpectations_ok h
  exact ⟨md, metadataLen, snapshotLen, ht, hs, he, constantWorkMacEq_iff.1 (by simpa using hmac),
    constantWorkMacEq_iff.1 (by simpa using hc), hm, rfl, hinc, rfl,
    hk.symm, rfl, rfl⟩

end Ramjet
