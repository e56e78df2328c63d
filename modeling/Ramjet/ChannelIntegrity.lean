import Ramjet.SnapshotConsumer
import Ramjet.SnapshotProducer
import Ramjet.SnapshotRoundTrip

/-!
# Integrity of the snapshot channel

If every authenticator that passes was computed by a router or the companion, then what
a router's session accepts from any bytes is the companion's, message by message.
-/

namespace Ramjet
open Fields List

/-! ## Authenticated frames determine their fields -/

/-- A frame under an authenticator of its own. -/
def sealed (sha256 : List UInt8 → Bytes 32) (key : Bytes 32) (domain body : List UInt8) :
    List UInt8 :=
  body ++ (authenticate sha256 key domain [body]).toList

def sealedBody (frame : List UInt8) : List UInt8 := frame.take (frame.length - 32)

def sealedTag (frame : List UInt8) : List UInt8 := frame.drop (frame.length - 32)

section Sealed
variable {sha256 : List UInt8 → Bytes 32} {key : Bytes 32} {domain body frame : List UInt8}

@[simp] theorem sealedBody_sealed : sealedBody (sealed sha256 key domain body) = body := by
  simp [sealedBody, sealed]

theorem eq_sealed (hb : sealedBody frame = body)
    (ht : sealedTag frame = (authenticate sha256 key domain [body]).toList) :
    frame = sealed sha256 key domain body := by
  rw [sealed, ← ht, ← hb, sealedBody, sealedTag, take_append_drop]

end Sealed

/-- Transcripts under domains that differ early differ. -/
theorem transcript_ne {domain domain' : List UInt8} (n : Nat) (hn : n ≤ domain.length)
    (hn' : n ≤ domain'.length) (he : domain.take n ≠ domain'.take n)
    (parts parts' : List (List UInt8)) : transcript domain parts ≠ transcript domain' parts' := by
  intro h
  have ht := congrArg (take n) h
  rw [transcript, transcript, take_append_of_le_length hn, take_append_of_le_length hn'] at ht
  exact he ht

variable (parts parts' : List (List UInt8))

theorem response_ne_hello :
    transcript responseAuthDomain parts ≠ transcript helloAuthDomain parts' :=
  transcript_ne 30 (by decide +kernel) (by decide +kernel) (by decide +kernel) parts parts'

theorem response_ne_tail :
    transcript responseAuthDomain parts ≠ transcript tailAuthDomain parts' :=
  transcript_ne 30 (by decide +kernel) (by decide +kernel) (by decide +kernel) parts parts'

theorem tail_ne_hello : transcript tailAuthDomain parts ≠ transcript helloAuthDomain parts' :=
  transcript_ne 30 (by decide +kernel) (by decide +kernel) (by decide +kernel) parts parts'

variable {frame : List UInt8}

/-- The fields of a response, at the offsets its reader uses. -/
theorem response_fields {challenge : Bytes 32} {md snapshotFrame tag : List UInt8}
    (hfr : frame = (responseParts challenge md snapshotFrame).flatten ++ tag)
    (he : md.length < 2 ^ 32) (hs : snapshotFrame.length ≤ u64Max) :
    beNat (bytesAt frame 20 4) = md.length ∧
    beNat (bytesAt frame 24 8) = snapshotFrame.length ∧ bytesAt frame 32 32 = challenge.toList ∧
      bytesAt frame responsePrefixBytes md.length = md ∧
      bytesAt frame (responsePrefixBytes + md.length) snapshotFrame.length =
        snapshotFrame := by
  have hp : frame = (responseParts challenge md snapshotFrame ++ [tag]).flatten := by
    rw [hfr, flatten_append]
    simp
  have hm : sessionMagic.length = 8 := by decide +kernel
  refine ⟨beNat_parts 5 hp rfl (by simp [responseParts, hm]) he,
    beNat_parts 6 hp rfl (by simp [responseParts, hm]) (Nat.lt_of_le_of_lt hs (by decide)),
    bytesAt_parts 7 hp rfl (by simp [responseParts, hm]) (by simp),
    bytesAt_parts 8 hp rfl ?_ rfl, bytesAt_parts 9 hp rfl ?_ rfl⟩
  · simp [responseParts, hm, responsePrefixBytes]
  · simp [responseParts, hm, responsePrefixBytes]
    omega

theorem encodeAuthenticatedSnapshot_ok {codec : SessionCodec} {snapshotFrame : List UInt8}
    {binding : SnapshotSessionBinding} {secret : Bytes 32} {limits : SnapshotSessionLimits}
    (h : codec.encodeAuthenticatedSnapshot snapshotFrame binding secret limits = .ok frame) : ∃ md,
      codec.encodeResponse (responseMetadata codec.sha256 snapshotFrame binding) = some md ∧
      frame = sealed codec.sha256 secret responseAuthDomain
        (responseParts binding.challenge md snapshotFrame).flatten ∧
      md.length < 2 ^ 32 ∧ snapshotFrame.length ≤ u64Max := by
  simp only [SessionCodec.encodeAuthenticatedSnapshot] at h
  split at h
  · cases h
  split at h
  · cases h
  split at h
  · cases h
  split at h
  · cases h
  rename_i md hm
  split at h
  · cases h
  split at h
  · cases h
  rename_i ht
  split at h
  · cases h
  rename_i hl
  cases h
  refine ⟨md, hm, rfl, Nat.lt_of_not_le hl, ?_⟩
  have hf : ¬u64Max < responseOverheadBytes + md.length + snapshotFrame.length :=
    fun ha => ht (.inl ha)
  omega

structure TailFields (binding : TailFrameBinding) (metadata payload frame : List UInt8) : Prop where
  frameType : frame[10]?.bind TailFrameType.ofByte = some binding.frameType
  metadataLen : beNat (bytesAt frame 20 4) = metadata.length
  payloadLen : beNat (bytesAt frame 24 8) = payload.length
  session : bytesAt frame 32 32 = binding.sessionId.toList
  message : beNat (bytesAt frame 64 8) = binding.messageSequence
  delivery : beNat (bytesAt frame 72 8) = binding.deliverySequence
  watermark : beNat (bytesAt frame 80 8) = binding.eventWatermark
  generation : beNat (bytesAt frame 88 8) = binding.companionGeneration
  metadata_eq : bytesAt frame tailPrefixBytes metadata.length = metadata
  payload_eq : bytesAt frame (tailPrefixBytes + metadata.length) payload.length = payload

theorem tail_fields {binding : TailFrameBinding} {md payload tag : List UInt8}
    {challenge : Bytes 32} {messageSequence : Nat}
    (hfr : frame = (tailParts binding md payload).flatten ++ tag)
    (hse : binding.OfSession challenge messageSequence) (hs : messageSequence ≤ u64Max)
    (he : md.length < 2 ^ 32) (hy : payload.length ≤ u64Max) :
    TailFields binding md payload frame := by
  have hp : frame = (tailParts binding md payload ++ [tag]).flatten := by
    rw [hfr, flatten_append]
    simp
  have hm : tailMagic.length = 8 := by decide +kernel
  have hu : ∀ {value : Nat}, value ≤ u64Max → value < 256 ^ 8 :=
    fun h => Nat.lt_of_le_of_lt h (by decide)
  constructor
  · rw [getElem?_of_bytesAt (bytesAt_parts 2 hp rfl (by simp [tailParts, hm]) rfl)]
    exact binding.frameType.ofByte_toByte
  · exact beNat_parts 5 hp rfl (by simp [tailParts, hm]) he
  · exact beNat_parts 6 hp rfl (by simp [tailParts, hm]) (hu hy)
  · exact bytesAt_parts 7 hp rfl (by simp [tailParts, hm]) (by simp)
  · exact beNat_parts 8 hp rfl (by simp [tailParts, hm]) (hu (hse.message ▸ hs))
  · exact beNat_parts 9 hp rfl (by simp [tailParts, hm]) (hu hse.delivery)
  · exact beNat_parts 10 hp rfl (by simp [tailParts, hm]) (hu hse.watermark)
  · exact beNat_parts 11 hp rfl (by simp [tailParts, hm]) (hu hse.generation)
  · exact bytesAt_parts 12 hp rfl (by simp [tailParts, hm, tailPrefixBytes]) rfl
  · refine bytesAt_parts 13 hp rfl ?_ rfl
    simp [tailParts, hm, tailPrefixBytes]
    omega

/-! ## Honest authenticators -/

/-- An authenticator that a reader compares. -/
structure MacCheck where
  key : Bytes 32
  message : List UInt8
  tag : List UInt8

def MacCheck.passes (sha256 : List UInt8 → Bytes 32) (check : MacCheck) : Prop :=
  (hmacSha256 sha256 check.key.toList check.message).toList = check.tag

def MacCheck.ofFrame (key : Bytes 32) (domain frame : List UInt8) : MacCheck :=
  ⟨key, transcript domain [sealedBody frame], sealedTag frame⟩

def tailChecks (codec : SessionCodec) : Nat → TailFrameDecoder → List UInt8 → List MacCheck
  | 0, _, _ => []
  | fuel + 1, decoder, stream =>
    match readTailFrame decoder.limits stream with
    | .error _ => []
    | .ok (frame, rest) =>
      MacCheck.ofFrame decoder.key tailAuthDomain frame :: match decoder.decode codec frame with
        | (.error _, _) => []
        | (.ok _, decoder) => tailChecks codec fuel decoder rest

/-- Every authenticator a session compares on a stream. -/
def ConsumerSession.macChecks (codec : SessionCodec) (session : ConsumerSession)
    (stream : List UInt8) : List MacCheck :=
  match readSnapshotFrame session.sessionLimits stream with
  | .error _ => []
  | .ok (frame, rest) =>
    MacCheck.ofFrame session.secret responseAuthDomain frame ::
      match codec.decodeAuthenticatedSnapshot frame session.expected session.secret
        session.sessionLimits with
      | .error _ => []
      | .ok authenticated =>
        match session.tailDecoder codec authenticated with
        | .error _ => []
        | .ok decoder => tailChecks codec rest.length decoder rest

inductive Honest (codec : SessionCodec) (secret : Bytes 32) (config : SnapshotProducerConfig)
    (sessions : List ProducerSession) : Bytes 32 → List UInt8 → Prop
  | hello (challenge : Bytes 32) :
    Honest codec secret config sessions secret (transcript helloAuthDomain [helloBody challenge])
  | response {session : ProducerSession} {frame : List UInt8} (hse : session ∈ sessions)
      (hfr : session.response codec secret config = .ok frame) :
    Honest codec secret config sessions secret (transcript responseAuthDomain [sealedBody frame])
  | tail {session : ProducerSession} {encoded : EncodedTail} (hse : session ∈ sessions)
      (hencd : encoded ∈ session.tail codec secret config) :
    Honest codec secret config sessions (session.tailKey codec secret)
      (transcript tailAuthDomain [sealedBody encoded.frame])

/-- No authenticator on the stream is forged: one that passes was computed by
someone who holds the secret. -/
def ConsumerSession.Unforged (codec : SessionCodec) (config : SnapshotProducerConfig)
    (sessions : List ProducerSession) (session : ConsumerSession) (stream : List UInt8) : Prop :=
  ∀ check ∈ session.macChecks codec stream, check.passes codec.sha256 →
    Honest codec session.secret config sessions check.key check.message

section Integrity
variable {codec : SessionCodec} {secret key : Bytes 32} {config : SnapshotProducerConfig}
  {sessions : List ProducerSession}

theorem honest_response {body : List UInt8}
    (h : Honest codec secret config sessions key (transcript responseAuthDomain [body])) :
    ∃ producer ∈ sessions, ∃ frame, producer.response codec secret config = .ok frame ∧
      sealedBody frame = body := by
  generalize hm : transcript responseAuthDomain [body] = message at h
  cases h with
  | hello challenge => exact absurd hm (response_ne_hello _ _)
  | response hse hfr =>
    exact ⟨_, hse, _, hfr, (transcript_inj hm).symm⟩
  | tail hse hencd => exact absurd hm (response_ne_tail _ _)

theorem honest_tail {body : List UInt8}
    (h : Honest codec secret config sessions key (transcript tailAuthDomain [body])) :
    ∃ producer ∈ sessions, producer.tailKey codec secret = key ∧
      ∃ encoded ∈ producer.tail codec secret config, sealedBody encoded.frame = body := by
  generalize hm : transcript tailAuthDomain [body] = message at h
  cases h with
  | hello challenge => exact absurd hm (tail_ne_hello _ _)
  | response hse hfr => exact absurd hm.symm (response_ne_tail _ _)
  | tail hse hencd =>
    exact ⟨_, hse, rfl, _, hencd, (transcript_inj hm).symm⟩

structure ResponseOf (codec : SessionCodec) (secret : Bytes 32) (config : SnapshotProducerConfig)
    (producer : ProducerSession) (frame : List UInt8) (authenticated : AuthenticatedSnapshot) :
    Prop where
  response : producer.response codec secret config = .ok frame
  snapshotFrame : authenticated.snapshotFrame = producer.snapshot.frame
  incarnation : authenticated.engineIncarnation = producer.snapshot.identity.engineIncarnation
  keyId : authenticated.digestKeyId = producer.snapshot.identity.digestKeyId
  watermark : authenticated.snapshotWatermark = producer.snapshot.watermark
  generation : authenticated.companionGeneration = producer.snapshot.identity.companionGeneration

variable {frame : List UInt8}

theorem responseOf_decoded (ho : codec.RoundTrips) {expected : SnapshotSessionExpectations}
    {authenticated : AuthenticatedSnapshot} {limits : SnapshotSessionLimits}
    (hd : codec.decodeAuthenticatedSnapshot frame expected secret limits = .ok authenticated)
    (hh : (MacCheck.ofFrame secret responseAuthDomain frame).passes codec.sha256 →
      Honest codec secret config sessions secret
        (transcript responseAuthDomain [sealedBody frame])) :
    ∃ producer ∈ sessions, producer.challenge = expected.challenge ∧
      ResponseOf codec secret config producer frame authenticated := by
  obtain ⟨md, metadataLen, snapshotLen, he⟩ :=
    SessionCodec.decodeAuthenticatedSnapshot_ok hd
  have hn : frame.length - 32 = responsePrefixBytes + metadataLen + snapshotLen := by
    rw [he.length, responseOverheadBytes, responsePrefixBytes]
    omega
  have ht : sealedTag frame =
      (authenticate codec.sha256 secret responseAuthDomain [sealedBody frame]).toList := by
    rw [sealedTag, sealedBody, hn]
    exact he.mac
  obtain ⟨producer, hp, response, hg, hb⟩ := honest_response (hh ht.symm)
  obtain ⟨bytes, hy, rfl, hf, hi⟩ := encodeAuthenticatedSnapshot_ok hg
  rw [sealedBody_sealed] at hb
  have hfr : frame = sealed codec.sha256 secret responseAuthDomain
      (responseParts producer.challenge bytes producer.snapshot.frame).flatten :=
    eq_sealed hb.symm (by rw [hb]; exact ht)
  obtain ⟨hl, hl', hc, ha, hj⟩ := response_fields hfr hf hi
  have hm := he.metadataLen_eq.trans hl
  have hs := he.snapshotLen_eq.trans hl'
  have hmetadata_eq : md = responseMetadata codec.sha256 producer.snapshot.frame
        ⟨producer.challenge, producer.snapshot.identity.engineIncarnation,
          producer.snapshot.watermark, producer.snapshot.identity.digestKeyId,
          producer.snapshot.identity.companionGeneration⟩ := by
    have hr := he.metadata_eq
    rw [hm, ha, ho.response _ _ hy] at hr
    exact (Option.some.inj hr).symm
  refine ⟨producer, hp, Subtype.ext (hc.symm.trans he.challenge), ?_⟩
  refine ⟨hfr ▸ hg, ?_, ?_, ?_, ?_, ?_⟩
  · rw [he.snapshotFrame, hm, hs, hj]
  · rw [he.incarnation, hmetadata_eq]
    rfl
  · apply Subtype.ext
    show authenticated.digestKeyId.toList = _
    rw [he.keyId, hmetadata_eq]
    rfl
  · rw [he.watermark, hmetadata_eq]
    rfl
  · rw [he.generation, hmetadata_eq]
    rfl

structure TailOf (codec : SessionCodec) (decoder : TailFrameDecoder) (encoded : EncodedTail)
    (frame : List UInt8) (verified : VerifiedTailFrame) : Prop where
  frame : encoded.frame = frame
  session : encoded.binding.sessionId = decoder.sessionId
  direction : encoded.binding.direction = .companionToRouter
  message : encoded.binding.messageSequence = decoder.nextMessageSequence
  generation : encoded.binding.companionGeneration = decoder.companionGeneration
  frameType : verified.frameType = encoded.binding.frameType
  delivery : verified.deliverySequence = encoded.binding.deliverySequence
  watermark : verified.eventWatermark = encoded.binding.eventWatermark
  incarnation : verified.engineIncarnation = encoded.binding.engineIncarnation
  keyId : verified.digestKeyId = encoded.binding.digestKeyId
  companionGeneration : verified.companionGeneration = encoded.binding.companionGeneration
  payload : verified.payload = encoded.payload

theorem ProducerSession.tail_get {producer : ProducerSession} {k : Nat} {encoded : EncodedTail}
    (h : (producer.tail codec secret config)[k]? = some encoded) :
    encoded.binding.OfSession producer.challenge (1 + k) ∧ 1 + k ≤ u64Max ∧
      encodeTailFrame codec encoded.payload encoded.binding (producer.tailKey codec secret)
        config.tailLimits = .ok encoded.frame := by
  unfold ProducerSession.tail at h
  split at h
  · simp at h
  refine TailWriteState.produceTail_get producer.fits ?_ ?_ h
  · show 1 ≤ u64Max
    decide
  · exact Nat.zero_le _

theorem tailOf_decoded (hj : codec.RoundTrips) {decoder next : TailFrameDecoder}
    {verified : VerifiedTailFrame} (hd : decoder.decode codec frame = (.ok verified, next))
    (hh : (MacCheck.ofFrame decoder.key tailAuthDomain frame).passes codec.sha256 →
      Honest codec secret config sessions decoder.key
        (transcript tailAuthDomain [sealedBody frame])) :
    ∃ producer ∈ sessions, producer.challenge = decoder.sessionId ∧
      producer.tailKey codec secret = decoder.key ∧
      ∃ k encoded, (producer.tail codec secret config)[k]? = some encoded ∧
        1 + k = decoder.nextMessageSequence ∧ TailOf codec decoder encoded frame verified := by
  obtain ⟨-, frameType, metadata, metadataLen, payloadLen, hs, ha⟩ :=
    TailFrameDecoder.decode_ok hd
  have hq : frame.length - 32 = tailPrefixBytes + metadataLen + payloadLen := by
    rw [hs.length, frameOverheadBytes, tailPrefixBytes]
    omega
  have hg : sealedTag frame =
      (authenticate codec.sha256 decoder.key tailAuthDomain [sealedBody frame]).toList := by
    rw [sealedTag, sealedBody, hq]
    exact hs.mac
  obtain ⟨producer, ho, hu, encoded, hencd, hb⟩ := honest_tail (hh hg.symm)
  obtain ⟨k, hk⟩ := mem_iff_getElem?.1 hencd
  obtain ⟨hse, hf, hfr⟩ := producer.tail_get hk
  obtain ⟨bytes, hy, he, hz, hl⟩ := encodeTailFrame_ok hfr
  have hx : encoded.payload.length ≤ u64Max := by omega
  -- the body and the key are the companion's, so the tag and the whole frame are
  have hc : encoded.frame = sealed codec.sha256 decoder.key tailAuthDomain
      (tailParts encoded.binding bytes encoded.payload).flatten := by
    rw [he, hu, sealed]
  rw [hc, sealedBody_sealed] at hb
  have hv : frame = encoded.frame := by
    rw [hc]
    exact eq_sealed hb.symm (by rw [hb]; exact hg)
  have ht := tail_fields (hv.trans he) hse hf hl hx
  have hm := hs.metadataLen_eq.trans ht.metadataLen
  have hp := hs.payloadLen_eq.trans ht.payloadLen
  have hi : metadata =
      ⟨encoded.binding.engineIncarnation, encoded.binding.digestKeyId.toList⟩ := by
    have hr := ha.metadata_eq
    rw [hm, ht.metadata_eq, hj.identity _ _ hy] at hr
    exact (Option.some.inj hr).symm
  have hw : encoded.binding.sessionId = decoder.sessionId :=
    Subtype.ext (ht.session.symm.trans hs.session)
  have hn : encoded.binding.messageSequence = decoder.nextMessageSequence :=
    ht.message.symm.trans hs.message
  refine ⟨producer, ho, hse.sessionId.symm.trans hw, hu, k, encoded, hk,
    hse.message.symm.trans hn, ?_⟩
  refine ⟨hv.symm, hw, hse.direction, hn, ?_, ?_, ?_, ?_, ?_, ?_, ?_, ?_⟩
  · exact ht.generation.symm.trans (ha.generation.symm.trans ha.expected_generation)
  · rw [ha.frameType_eq]
    exact Option.some.inj (hs.frameType_eq.symm.trans ht.frameType)
  · exact ha.delivery.trans ht.delivery
  · exact ha.watermark.trans ht.watermark
  · rw [ha.incarnation, hi]
  · apply Subtype.ext
    show verified.digestKeyId.toList = _
    rw [ha.keyId, hi]
    rfl
  · exact ha.generation.trans ht.generation
  · rw [ha.payload, hm, hp, ht.payload_eq]

theorem acceptFrames_get {fuel n : Nat} {decoder : TailFrameDecoder} {stream : List UInt8}
    {verified : VerifiedTailFrame}
    (h : (acceptFrames codec fuel decoder stream)[n]? = some (frame, verified)) :
    MacCheck.ofFrame decoder.key tailAuthDomain frame ∈ tailChecks codec fuel decoder stream ∧
      ∃ next, { decoder with nextMessageSequence := decoder.nextMessageSequence + n }.decode codec
        frame = (.ok verified, next) := by
  induction fuel generalizing decoder stream n with
  | zero => simp [acceptFrames] at h
  | succ fuel ih =>
    unfold acceptFrames at h
    split at h
    · simp at h
    rename_i first rest hr
    split at h
    · simp at h
    rename_i firstVerified next hd
    obtain ⟨rfl, -⟩ := TailFrameDecoder.decode_ok hd
    simp only [tailChecks, hr, hd]
    cases n with
    | zero =>
      cases h
      exact ⟨mem_cons_self .., _, hd⟩
    | succ n =>
      rw [getElem?_cons_succ] at h
      obtain ⟨hm, next', hn⟩ := ih h
      refine ⟨mem_cons_of_mem _ hm, next', ?_⟩
      rw [← Nat.add_right_comm, Nat.add_assoc] at hn
      exact hn

/-- Whatever bytes reach a router session: if no authenticator on them is
forged, the snapshot it accepts is one the companion encoded for its challenge,
and the `n`-th tail frame is the companion's message `n` for the challenge,
generation and direction, byte for byte and field by field. -/
theorem snapshot_channel_integrity (hcodec : codec.RoundTrips) (session : ConsumerSession)
    (stream rest : List UInt8) (authenticated : AuthenticatedSnapshot)
    (hunforged : session.Unforged codec config sessions stream)
    (haccept : session.acceptSnapshot codec stream = .ok (authenticated, rest)) :
    (∃ producer ∈ sessions, producer.challenge = session.expected.challenge ∧
      ∃ frame, stream = frame ++ rest ∧
        ResponseOf codec session.secret config producer frame authenticated) ∧
      ∀ n frame verified,
        (session.acceptTail codec authenticated rest)[n]? = some (frame, verified) →
        ∃ producer ∈ sessions, producer.challenge = session.expected.challenge ∧
          producer.tailKey codec session.secret = session.tailKey codec authenticated ∧
          ∃ encoded, (producer.tail codec session.secret config)[n]? = some encoded ∧
            encoded.frame = frame ∧ encoded.binding.sessionId = session.expected.challenge ∧
            encoded.binding.messageSequence = n + 1 ∧
            encoded.binding.companionGeneration = authenticated.companionGeneration ∧
            encoded.binding.direction = .companionToRouter ∧
            verified.frameType = encoded.binding.frameType ∧
            verified.deliverySequence = encoded.binding.deliverySequence ∧
            verified.eventWatermark = encoded.binding.eventWatermark ∧
            verified.engineIncarnation = encoded.binding.engineIncarnation ∧
            verified.digestKeyId = encoded.binding.digestKeyId ∧
            verified.companionGeneration = encoded.binding.companionGeneration ∧
            verified.payload = encoded.payload := by
  unfold ConsumerSession.acceptSnapshot at haccept
  split at haccept
  · cases haccept
  rename_i frame rest' ha
  split at haccept
  · cases haccept
  rename_i authenticated' he
  rw [Except.ok.injEq, Prod.mk.injEq] at haccept
  obtain ⟨rfl, rfl⟩ := haccept
  have hh : session.macChecks codec stream =
      MacCheck.ofFrame session.secret responseAuthDomain frame ::
        match session.tailDecoder codec authenticated' with
        | .error _ => []
        | .ok decoder => tailChecks codec rest'.length decoder rest' := by
    simp only [ConsumerSession.macChecks, ha, he]
  refine ⟨?_, ?_⟩
  · obtain ⟨producer, hp, hc, hr⟩ := responseOf_decoded hcodec he
      (hunforged _ (by rw [hh]; exact mem_cons_self ..))
    exact ⟨producer, hp, hc, frame, readFrame_ok ha, hr⟩
  intro n tailFrame verified hg
  unfold ConsumerSession.acceptTail at hg
  split at hg
  · simp at hg
  rename_i decoder hd
  obtain ⟨hb, next, hx⟩ := acceptFrames_get hg
  obtain ⟨producer, hp, hc, hy, k, encoded, hk, hn, ht⟩ :=
    tailOf_decoded hcodec hx (hunforged _ (by
      rw [hh, hd]
      exact mem_cons_of_mem _ hb))
  have hf := ConsumerSession.tailDecoder_ok hd
  subst hf
  have hi : k = n := by
    have hn' : 1 + k = 1 + n := hn
    omega
  subst hi
  have hm : encoded.binding.messageSequence = 1 + k := ht.message
  exact ⟨producer, hp, hc, hy, encoded, hk, ht.frame, ht.session, by omega,
    ht.generation, ht.direction, ht.frameType, ht.delivery, ht.watermark,
    ht.incarnation, ht.keyId, ht.companionGeneration, ht.payload⟩

end Integrity

/-! ## A sample stream -/

namespace SampleChannel
open DigestKvIndex

def frameSha256 : Bytes 32 :=
  .ofHex 0x039058c6f2c0cb492c533b0a4d14ef77cc0f78abccced5287d84a1a2011cfb81

def responseInner : Bytes 32 :=
  .ofHex 0x90dc50e33cabc7d78b8710fd40b9b56caeeee8f5f51ecd47f7648ac5879d2e86

def responseOuter : Bytes 32 :=
  .ofHex 0x4706f5c3c2391fadb911cbaf274ccc4143df8d1e9571c424710357585fab5ccb

def keyInner : Bytes 32 := .ofHex 0x2f84d09c72fd1a66bb0c9557397157a84893d8203185fb3f7dd753352c7a72a6

def keyOuter : Bytes 32 := .ofHex 0xe00ae90622b483afdb0ff5ba4e5edf460caf7c9bd3cca6c565e78e340af4f753

def tailInner : Bytes 32 :=
  .ofHex 0x099c6ab49723ddc4293505c41b13ab05cec17eb7f4f0355f50870b26bdf4cc02

def tailOuter : Bytes 32 :=
  .ofHex 0xef1031c3d9efe69f92c68b3aa072f20d1bb82d1fb695689fd783b52dab0aadac

def sha256 (message : List UInt8) : Bytes 32 :=
  if message.length = 3 then frameSha256
  else if message.length = 504 then responseInner
  else if message.length = 173 then keyInner
  else if message.length = 423 then tailInner
  else if message.drop 64 = responseInner.toList then responseOuter
  else if message.drop 64 = keyInner.toList then keyOuter
  else tailOuter

def metadata (digest : Bytes 32) : ResponseMetadata :=
  ⟨sampleIncarnation, 9, sampleKeyId.toList, 1, digest.toList⟩

def packedIncarnation : List UInt8 :=
  packMap [("engine_id", packStr "engine-a"), ("model_revision", packStr "revision-a"),
      ("image_digest", packStr "sha256:a"),
      ("process_started_unix_ns", packUint 42),
      ("attestation_sha256", packBin (replicate 32 7))]

def packedMetadata (digest : Bytes 32) : List UInt8 :=
  packMap [("engine_incarnation", packedIncarnation), ("snapshot_watermark", packUint 9),
      ("digest_key_id", packBin sampleKeyId.toList),
      ("companion_generation", packUint 1),
      ("snapshot_frame_sha256", packBin digest.toList)]

def identity : IdentityMetadata := ⟨sampleIncarnation, sampleKeyId.toList⟩

def packedIdentity : List UInt8 :=
  packMap [("engine_incarnation", packedIncarnation), ("digest_key_id", packBin sampleKeyId.toList)]

/-- A codec that knows the metadata of one response. -/
def codecOf (sha256 : List UInt8 → Bytes 32) (digest : Bytes 32) : SessionCodec where
  sha256
  encodeResponse value := if value = metadata digest then some (packedMetadata digest) else none
  decodeResponse bytes := if bytes = packedMetadata digest then some (metadata digest) else none
  encodeIdentity value := if value = identity then some packedIdentity else none
  decodeIdentity bytes := if bytes = packedIdentity then some identity else none

def codec : SessionCodec := codecOf sha256 frameSha256

theorem codec_roundTrips : codec.RoundTrips where
  response value bytes h := by
    simp only [codec, codecOf, Option.ite_none_right_eq_some, Option.some.injEq] at h
    simp [codec, codecOf, h.1, h.2.symm]
  identity value bytes h := by
    simp only [codec, codecOf, Option.ite_none_right_eq_some, Option.some.injEq] at h
    simp [codec, codecOf, h.1, h.2.symm]

def secret : Bytes 32 := ⟨asciiBytes "snapshot-session-secret-32-byte!", by decide +kernel⟩

def producerIdentity : ProducerIdentity := ⟨sampleIncarnation, sampleKeyId, 1⟩

def producer : ProducerSession where
  challenge := List.Vector.replicate 32 0xa1
  snapshot := ⟨producerIdentity, 9, [1, 2, 3]⟩
  events := [.batch producerIdentity 10 [5]]
  fits := by
    simp only [mem_singleton, forall_eq]
    exact ⟨by decide, by decide⟩

def config : SnapshotProducerConfig := ⟨⟨4096, 1024, 2048, 64⟩, ⟨4096, 1024, 2048, 64⟩⟩

def session : ConsumerSession where
  secret
  expected := ⟨producer.challenge, sampleIncarnation, sampleKeyId, 0, 0⟩
  sessionLimits := config.sessionLimits
  tailLimits := config.tailLimits

def response : List UInt8 := ((producer.response codec secret config).toOption).getD []

def tailFrame : List UInt8 := ((producer.tail codec secret config)[0]?.map (·.frame)).getD []

theorem response_eq : producer.response codec secret config = .ok response := by
  have ho : (producer.response codec secret config).isOk := by decide +kernel
  unfold response
  rcases h : producer.response codec secret config with error | frame
  · rw [h] at ho
    cases ho
  · rfl

/-- Both authenticators the session compares are the companion's. -/
theorem unforged : session.Unforged codec config [producer] (response ++ tailFrame) := by
  have hh : (session.macChecks codec (response ++ tailFrame)).map
      (fun check => (check.key.toList, check.message)) =
      [(secret.toList, transcript responseAuthDomain [sealedBody response]),
        ((producer.tailKey codec secret).toList,
          transcript tailAuthDomain [sealedBody tailFrame])] := by
    decide +kernel
  have ht : ((producer.tail codec secret config).map (·.frame)) = [tailFrame] := by
    decide +kernel
  intro check hc _
  have hm := mem_map_of_mem (f := fun check : MacCheck =>
    (check.key.toList, check.message)) hc
  rw [hh] at hm
  rcases mem_pair.1 hm with heq | heq
  · rw [Prod.mk.injEq] at heq
    rw [heq.2, show check.key = secret from Subtype.ext heq.1]
    exact .response (mem_singleton_self _) response_eq
  rw [Prod.mk.injEq] at heq
  rw [heq.2, show check.key = producer.tailKey codec secret from Subtype.ext heq.1]
  have hfr : tailFrame ∈ (producer.tail codec secret config).map (·.frame) := by
    rw [ht]
    exact mem_singleton_self _
  obtain ⟨encoded, hencd, hfr⟩ := mem_map.1 hfr
  rw [← hfr]
  exact .tail (mem_singleton_self _) hencd

end SampleChannel

open SampleChannel in
theorem snapshot_channel_integrity_sample : ∃ authenticated rest,
      session.acceptSnapshot codec (response ++ tailFrame) = .ok (authenticated, rest) ∧
      (session.acceptTail codec authenticated rest).length = 1 ∧
      ∃ producer' ∈ [producer], producer'.challenge = session.expected.challenge ∧
        ∃ frame, response ++ tailFrame = frame ++ rest ∧
          ResponseOf codec secret config producer' frame authenticated := by
  have hr : (session.acceptSnapshot codec (response ++ tailFrame)).toOption.any (fun result =>
      (session.acceptTail codec result.1 result.2).length == 1) = true := by
    decide +kernel
  rcases ha : session.acceptSnapshot codec (response ++ tailFrame) with error | ⟨auth, rest⟩
  · rw [ha] at hr
    cases hr
  · rw [ha] at hr
    refine ⟨auth, rest, rfl, beq_iff_eq.1 hr, ?_⟩
    exact (snapshot_channel_integrity codec_roundTrips session _ rest auth unforged ha).1

end Ramjet
