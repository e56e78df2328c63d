import Ramjet.SnapshotSession

/-!
# Tail frames

`snapshot_tail_wire.rs`: a fixed binary prefix, the identity in MessagePack and a payload,
under an HMAC with a key for the session, its generation and the direction.
-/

namespace Ramjet
open Fields

def TailFrameType.toByte : TailFrameType → UInt8
  | event => 1
  | caughtUp => 2
  | identity => 3
  | disconnect => 4

/-- The source's `TryFrom<u8>`. -/
def TailFrameType.ofByte (value : UInt8) : Option TailFrameType :=
  if value = 1 then some event
  else if value = 2 then some caughtUp
  else if value = 3 then some identity
  else if value = 4 then some disconnect
  else none

theorem TailFrameType.ofByte_toByte (frameType : TailFrameType) :
    ofByte frameType.toByte = some frameType := by
  cases frameType <;> rfl

inductive TailDirection where
  | routerToCompanion | companionToRouter
  deriving DecidableEq

def TailDirection.toByte : TailDirection → UInt8
  | routerToCompanion => 1
  | companionToRouter => 2

def TailDirection.ofByte (value : UInt8) : Option TailDirection :=
  if value = 1 then some routerToCompanion
  else if value = 2 then some companionToRouter
  else none

structure TailWireLimits where
  maxFrameBytes : Nat
  maxMetadataBytes : Nat
  maxPayloadBytes : Nat
  maxIncarnationComponentBytes : Nat

inductive TailWireError where
  | frameTooLarge | metadataTooLarge | payloadTooLarge | invalidFrameLength | invalidMagic
  | unsupportedSchema | invalidMessageType | invalidDirection | authenticationFailed
  | sessionMismatch | invalidMessageSequence | sequenceOverflow | invalidMessagePack
  | invalidIncarnation | incarnationMismatch | invalidKeyId | keyIdMismatch | invalidGeneration
  | generationMismatch | invalidFrameFields | encodeFailed
  deriving DecidableEq

def tailMagic : List UInt8 := asciiBytes "MDTAIL01"

def tailSchemaVersion : Nat := 1

def tailAuthDomain : List UInt8 := asciiBytes "mini-dynamo/snapshot-tail/frame/auth/v1" ++ [0]

def keyDerivationDomain : List UInt8 :=
  asciiBytes "mini-dynamo/snapshot-tail/key-derivation/v1" ++ [0]

def tailPrefixBytes : Nat := 96

def frameOverheadBytes : Nat := 128

def tailFrameLengthPrefixBytes : Nat := 20

/-- The source's `TailSessionKey::derive`. -/
def deriveTailKey (sha256 : List UInt8 → Bytes 32) (secret sessionId : Bytes 32)
    (companionGeneration : Nat) (direction : TailDirection) : Bytes 32 :=
  authenticate sha256 secret keyDerivationDomain
    [sessionId.toList, beBytes 8 companionGeneration, [direction.toByte]]

structure TailFrameBinding where
  frameType : TailFrameType
  direction : TailDirection
  sessionId : Bytes 32
  messageSequence : Nat
  deliverySequence : Nat
  eventWatermark : Nat
  engineIncarnation : EngineIncarnation
  digestKeyId : Bytes 32
  companionGeneration : Nat

structure TailSessionExpectations where
  direction : TailDirection
  sessionId : Bytes 32
  firstMessageSequence : Nat
  engineIncarnation : EngineIncarnation
  digestKeyId : Bytes 32
  companionGeneration : Nat

def validateKindFields (frameType : TailFrameType)
    (deliverySequence eventWatermark payloadLen : Nat) : Except TailWireError Unit :=
  match frameType with
  | .event =>
    if deliverySequence = 0 ∨ payloadLen = 0 then .error .invalidFrameFields else .ok ()
  | .caughtUp => if payloadLen = 0 then .ok () else .error .invalidFrameFields
  | .identity | .disconnect =>
    if deliverySequence = 0 ∧ eventWatermark = 0 ∧ payloadLen = 0 then .ok ()
    else .error .invalidFrameFields

/-- A frame up to its authenticator, in the parts that are written. -/
def tailParts (binding : TailFrameBinding) (metadata payload : List UInt8) : List (List UInt8) :=
  [tailMagic, beBytes 2 tailSchemaVersion, [binding.frameType.toByte], [binding.direction.toByte],
    beBytes 8 (frameOverheadBytes + metadata.length + payload.length), beBytes 4 metadata.length,
    beBytes 8 payload.length, binding.sessionId.toList, beBytes 8 binding.messageSequence,
    beBytes 8 binding.deliverySequence, beBytes 8 binding.eventWatermark,
    beBytes 8 binding.companionGeneration, metadata, payload]

def encodeTailFrame (codec : SessionCodec) (payload : List UInt8) (binding : TailFrameBinding)
    (key : Bytes 32) (limits : TailWireLimits) : Except TailWireError (List UInt8) :=
  if !validSessionIncarnation binding.engineIncarnation limits.maxIncarnationComponentBytes then
    .error .invalidIncarnation
  else if binding.companionGeneration = 0 then .error .invalidGeneration
  else if binding.messageSequence = 0 ∨ binding.messageSequence = u64Max then
    .error .invalidMessageSequence
  else
    match validateKindFields binding.frameType binding.deliverySequence binding.eventWatermark
      payload.length with
    | .error error => .error error
    | .ok () =>
      if limits.maxPayloadBytes < payload.length then .error .payloadTooLarge
      else
        match codec.encodeIdentity ⟨binding.engineIncarnation, binding.digestKeyId.toList⟩ with
        | none => .error .encodeFailed
        | some metadata =>
          let total := frameOverheadBytes + metadata.length + payload.length
          if limits.maxMetadataBytes < metadata.length then .error .metadataTooLarge
          else if u64Max < total ∨ limits.maxFrameBytes < total then .error .frameTooLarge
          else if 2 ^ 32 ≤ metadata.length then .error .metadataTooLarge
          else
            let frame := (tailParts binding metadata payload).flatten
            .ok (frame ++ (authenticate codec.sha256 key tailAuthDomain [frame]).toList)

structure TailFrameDecoder where
  key : Bytes 32
  direction : TailDirection
  sessionId : Bytes 32
  nextMessageSequence : Nat
  engineIncarnation : EngineIncarnation
  digestKeyId : Bytes 32
  companionGeneration : Nat
  limits : TailWireLimits

def TailFrameDecoder.new (key : Bytes 32) (expected : TailSessionExpectations)
    (limits : TailWireLimits) : Except TailWireError TailFrameDecoder :=
  if !validSessionIncarnation expected.engineIncarnation limits.maxIncarnationComponentBytes then
    .error .invalidIncarnation
  else if expected.companionGeneration = 0 then .error .invalidGeneration
  else if expected.firstMessageSequence = 0 then .error .invalidMessageSequence
  else
    .ok
      { key
        direction := expected.direction
        sessionId := expected.sessionId
        nextMessageSequence := expected.firstMessageSequence
        engineIncarnation := expected.engineIncarnation
        digestKeyId := expected.digestKeyId
        companionGeneration := expected.companionGeneration
        limits }

def readTailField (frame : List UInt8) (offset width : Nat) : Except TailWireError Nat :=
  if offset + width ≤ frame.length then .ok (beNat (bytesAt frame offset width))
  else .error .invalidFrameLength

def tailHeader (frame : List UInt8) : Except TailWireError (TailFrameType × TailDirection) := do
  if bytesAt frame 0 8 ≠ tailMagic then throw .invalidMagic
  if (← readTailField frame 8 2) ≠ tailSchemaVersion then throw .unsupportedSchema
  match frame[10]?.bind TailFrameType.ofByte with
  | none => throw .invalidMessageType
  | some frameType =>
    match frame[11]?.bind TailDirection.ofByte with
    | none => throw .invalidDirection
    | some direction => return (frameType, direction)

def declaredTailLengths (frame : List UInt8) (limits : TailWireLimits) :
    Except TailWireError (Nat × Nat) := do
  let declaredTotal ← readTailField frame 12 8
  let metadataLen ← readTailField frame 20 4
  let payloadLen ← readTailField frame 24 8
  if limits.maxFrameBytes < declaredTotal then throw .frameTooLarge
  if limits.maxMetadataBytes < metadataLen then throw .metadataTooLarge
  if limits.maxPayloadBytes < payloadLen then throw .payloadTooLarge
  let expectedTotal := frameOverheadBytes + metadataLen + payloadLen
  if declaredTotal ≠ expectedTotal ∨ frame.length ≠ expectedTotal then throw .invalidFrameLength
  return (metadataLen, payloadLen)

namespace TailFrameDecoder

def checkIdentity (self : TailFrameDecoder) (metadata : IdentityMetadata)
    (companionGeneration : Nat) : Except TailWireError Unit :=
  if !validSessionIncarnation metadata.engineIncarnation
      self.limits.maxIncarnationComponentBytes then
    .error .invalidIncarnation
  else if metadata.digestKeyId.length ≠ 32 then .error .invalidKeyId
  else if companionGeneration = 0 then .error .invalidGeneration
  else if metadata.engineIncarnation ≠ self.engineIncarnation then .error .incarnationMismatch
  else if !constantWorkMacEq metadata.digestKeyId self.digestKeyId then .error .keyIdMismatch
  else if companionGeneration ≠ self.companionGeneration then .error .generationMismatch
  else .ok ()

def verifyMessage (codec : SessionCodec) (self : TailFrameDecoder) (frame : List UInt8) :
    Except TailWireError (TailFrameType × Nat × Nat) :=
  if self.limits.maxFrameBytes < frame.length then .error .frameTooLarge
  else if frame.length < frameOverheadBytes then .error .invalidFrameLength
  else
    match tailHeader frame with
    | .error error => .error error
    | .ok (frameType, direction) =>
      if direction ≠ self.direction then .error .invalidDirection
      else
        match declaredTailLengths frame self.limits with
        | .error error => .error error
        | .ok (metadataLen, payloadLen) =>
          if !constantWorkMacEq (frame.drop (tailPrefixBytes + metadataLen + payloadLen))
              (authenticate codec.sha256 self.key tailAuthDomain
                [frame.take (tailPrefixBytes + metadataLen + payloadLen)]) then
            .error .authenticationFailed
          else if !constantWorkMacEq (bytesAt frame 32 32) self.sessionId then
            .error .sessionMismatch
          else
            match readTailField frame 64 8 with
            | .error error => .error error
            | .ok messageSequence =>
              if messageSequence ≠ self.nextMessageSequence then .error .invalidMessageSequence
              else if messageSequence = u64Max then .error .sequenceOverflow
              else .ok (frameType, metadataLen, payloadLen)

/-- The remaining fields of an authenticated message. -/
def verifyFields (codec : SessionCodec) (self : TailFrameDecoder) (frame : List UInt8)
    (frameType : TailFrameType) (metadataLen payloadLen : Nat) :
    Except TailWireError VerifiedTailFrame := do
  let deliverySequence ← readTailField frame 72 8
  let eventWatermark ← readTailField frame 80 8
  let companionGeneration ← readTailField frame 88 8
  match codec.decodeIdentity (bytesAt frame tailPrefixBytes metadataLen) with
  | none => throw .invalidMessagePack
  | some metadata =>
    self.checkIdentity metadata companionGeneration
    validateKindFields frameType deliverySequence eventWatermark payloadLen
    return {
      frameType
      deliverySequence
      eventWatermark
      engineIncarnation := metadata.engineIncarnation
      -- checked to be the metadata's
      digestKeyId := self.digestKeyId
      companionGeneration
      payload := bytesAt frame (tailPrefixBytes + metadataLen) payloadLen }

/-- Only a frame that passes as a whole advances the decoder. -/
def decode (codec : SessionCodec) (self : TailFrameDecoder) (frame : List UInt8) :
    Except TailWireError VerifiedTailFrame × TailFrameDecoder :=
  match self.verifyMessage codec frame with
  | .error error => (.error error, self)
  | .ok (frameType, metadataLen, payloadLen) =>
    match self.verifyFields codec frame frameType metadataLen payloadLen with
    | .error error => (.error error, self)
    | .ok verified =>
      (.ok verified, { self with nextMessageSequence := self.nextMessageSequence + 1 })

end TailFrameDecoder

/-- The length a stream reader takes from the first bytes of a frame. -/
def tailFrameLength (lengthPrefix : List UInt8) (limits : TailWireLimits) :
    Except TailWireError Nat := do
  if lengthPrefix.length ≠ tailFrameLengthPrefixBytes then throw .invalidFrameLength
  let _ ← tailHeader lengthPrefix
  let declaredTotal ← readTailField lengthPrefix 12 8
  if declaredTotal < frameOverheadBytes then throw .invalidFrameLength
  if limits.maxFrameBytes < declaredTotal then throw .frameTooLarge
  return declaredTotal

variable {frame : List UInt8}

theorem readTailField_ok {offset width value : Nat}
    (h : readTailField frame offset width = .ok value) :
    value = beNat (bytesAt frame offset width) := by
  unfold readTailField at h
  split at h
  · cases h
    rfl
  · cases h

variable {frameType : TailFrameType}

theorem tailHeader_ok {direction : TailDirection}
    (h : tailHeader frame = .ok (frameType, direction)) :
    frame[10]?.bind TailFrameType.ofByte = some frameType ∧
      frame[11]?.bind TailDirection.ofByte = some direction := by
  simp only [tailHeader, bind, Except.bind, pure, Except.pure] at h
  split at h
  · cases h
  split at h
  · cases h
  split at h
  · cases h
  split at h
  · cases h
  rename_i ht
  split at h
  · cases h
  rename_i hd
  rw [Except.ok.injEq, Prod.mk.injEq] at h
  exact ⟨ht.trans (congrArg some h.1), hd.trans (congrArg some h.2)⟩

variable {metadataLen payloadLen : Nat}

theorem declaredTailLengths_ok {limits : TailWireLimits}
    (h : declaredTailLengths frame limits = .ok (metadataLen, payloadLen)) :
    metadataLen = beNat (bytesAt frame 20 4) ∧ payloadLen = beNat (bytesAt frame 24 8) ∧
      frame.length = frameOverheadBytes + metadataLen + payloadLen := by
  simp only [declaredTailLengths, bind, Except.bind, pure, Except.pure] at h
  split at h
  · cases h
  split at h
  · cases h
  rename_i md hm
  split at h
  · cases h
  rename_i payload hp
  split at h
  · cases h
  split at h
  · cases h
  split at h
  · cases h
  split at h
  · cases h
  rename_i ht
  rw [Except.ok.injEq, Prod.mk.injEq] at h
  obtain ⟨rfl, rfl⟩ := h
  refine ⟨readTailField_ok hm, readTailField_ok hp, ?_⟩
  by_contra hn
  exact ht (.inr hn)

/-- An authenticated message, read off the bytes of its frame. -/
structure DecodedMessage (codec : SessionCodec) (decoder : TailFrameDecoder) (frame : List UInt8)
    (frameType : TailFrameType) (metadataLen payloadLen : Nat) : Prop where
  frameType_eq : frame[10]?.bind TailFrameType.ofByte = some frameType
  direction : frame[11]?.bind TailDirection.ofByte = some decoder.direction
  metadataLen_eq : metadataLen = beNat (bytesAt frame 20 4)
  payloadLen_eq : payloadLen = beNat (bytesAt frame 24 8)
  length : frame.length = frameOverheadBytes + metadataLen + payloadLen
  mac : frame.drop (tailPrefixBytes + metadataLen + payloadLen) =
    (authenticate codec.sha256 decoder.key tailAuthDomain
      [frame.take (tailPrefixBytes + metadataLen + payloadLen)]).toList
  session : bytesAt frame 32 32 = decoder.sessionId.toList
  message : beNat (bytesAt frame 64 8) = decoder.nextMessageSequence

structure DecodedFields (codec : SessionCodec) (decoder : TailFrameDecoder) (frame : List UInt8)
    (frameType : TailFrameType) (verified : VerifiedTailFrame) (metadata : IdentityMetadata)
    (metadataLen payloadLen : Nat) : Prop where
  frameType_eq : verified.frameType = frameType
  delivery : verified.deliverySequence = beNat (bytesAt frame 72 8)
  watermark : verified.eventWatermark = beNat (bytesAt frame 80 8)
  generation : verified.companionGeneration = beNat (bytesAt frame 88 8)
  expected_generation : verified.companionGeneration = decoder.companionGeneration
  metadata_eq : codec.decodeIdentity (bytesAt frame tailPrefixBytes metadataLen) = some metadata
  incarnation : verified.engineIncarnation = metadata.engineIncarnation
  keyId : verified.digestKeyId.toList = metadata.digestKeyId
  payload : verified.payload = bytesAt frame (tailPrefixBytes + metadataLen) payloadLen

variable {self : TailFrameDecoder}

theorem TailFrameDecoder.checkIdentity_ok {md : IdentityMetadata} {companionGeneration : Nat}
    (h : self.checkIdentity md companionGeneration = .ok ()) :
    md.digestKeyId = self.digestKeyId.toList ∧
      companionGeneration = self.companionGeneration := by
  unfold checkIdentity at h
  split at h
  · cases h
  split at h
  · cases h
  split at h
  · cases h
  split at h
  · cases h
  split at h
  · cases h
  rename_i hk
  split at h
  · cases h
  rename_i hg
  exact ⟨constantWorkMacEq_iff.1 (by simpa using hk), not_not.1 hg⟩

variable {codec : SessionCodec}

theorem TailFrameDecoder.verifyMessage_ok
    (h : self.verifyMessage codec frame = .ok (frameType, metadataLen, payloadLen)) :
    DecodedMessage codec self frame frameType metadataLen payloadLen := by
  unfold verifyMessage at h
  split at h
  · cases h
  split at h
  · cases h
  split at h
  · cases h
  rename_i frameType' direction hh
  obtain ⟨ht, hd⟩ := tailHeader_ok hh
  split at h
  · cases h
  rename_i hi
  rw [not_not.1 hi] at hd
  split at h
  · cases h
  rename_i metadataLen' payloadLen' he
  obtain ⟨ha, hp, hl⟩ := declaredTailLengths_ok he
  split at h
  · cases h
  rename_i hmac
  split at h
  · cases h
  rename_i hs
  split at h
  · cases h
  rename_i message hm
  split at h
  · cases h
  rename_i hn
  split at h
  · cases h
  cases h
  exact ⟨ht, hd, ha, hp, hl,
    constantWorkMacEq_iff.1 (by simpa using hmac), constantWorkMacEq_iff.1 (by simpa using hs),
    (readTailField_ok hm).symm.trans (not_not.1 hn)⟩

variable {verified : VerifiedTailFrame}

theorem TailFrameDecoder.verifyFields_ok
    (h : self.verifyFields codec frame frameType metadataLen payloadLen = .ok verified) :
    ∃ md, DecodedFields codec self frame frameType verified md metadataLen
      payloadLen := by
  simp only [verifyFields, bind, Except.bind, pure, Except.pure] at h
  split at h
  · cases h
  rename_i delivery hd
  split at h
  · cases h
  rename_i watermark hw
  split at h
  · cases h
  rename_i generation hg
  split at h
  · cases h
  rename_i md hm
  split at h
  · cases h
  rename_i hi
  obtain ⟨hk, he⟩ := checkIdentity_ok hi
  split at h
  · cases h
  cases h
  exact ⟨md, rfl, readTailField_ok hd, readTailField_ok hw,
    readTailField_ok hg, he, hm, rfl, hk.symm, rfl⟩

theorem TailFrameDecoder.decode_ok {decoder : TailFrameDecoder}
    (h : self.decode codec frame = (.ok verified, decoder)) :
    decoder = { self with nextMessageSequence := self.nextMessageSequence + 1 } ∧
      ∃ frameType metadata metadataLen payloadLen,
        DecodedMessage codec self frame frameType metadataLen payloadLen ∧
          DecodedFields codec self frame frameType verified metadata metadataLen payloadLen := by
  unfold decode at h
  split at h
  · cases h
  rename_i frameType metadataLen payloadLen hm
  split at h
  · cases h
  rename_i hf
  cases h
  obtain ⟨metadata, hd⟩ := verifyFields_ok hf
  exact ⟨rfl, frameType, metadata, metadataLen, payloadLen, verifyMessage_ok hm, hd⟩

end Ramjet
