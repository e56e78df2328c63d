import Ramjet.CompanionSource
import Ramjet.TailWire

/-!
# Producer sessions

`snapshot_producer.rs`: a response with the snapshot, then one frame for each event.
-/

namespace Ramjet

inductive SnapshotProducerError where
  | tail (error : TailWireError)
  | watermarkRegression
  | identityChanged
  | sequenceOverflow

structure TailWriteState where
  identity : ProducerIdentity
  challenge : Bytes 32
  messageSequence : Nat
  deliverySequence : Nat
  eventWatermark : Nat

/-- The binding and payload a frame was encoded from, its bytes, and how the
session ends with it, if it does. -/
structure EncodedTail where
  binding : TailFrameBinding
  payload : List UInt8
  frame : List UInt8
  outcome : Option (Except SnapshotProducerError Unit)

namespace TailWriteState

def requireIdentity (self : TailWriteState) (identity : ProducerIdentity) :
    Except SnapshotProducerError Unit :=
  if identity ≠ self.identity then .error .identityChanged else .ok ()

def binding (self : TailWriteState) (frameType : TailFrameType) (identity : ProducerIdentity)
    (deliverySequence eventWatermark : Nat) : TailFrameBinding where
  frameType
  direction := .companionToRouter
  sessionId := self.challenge
  messageSequence := self.messageSequence
  deliverySequence
  eventWatermark
  engineIncarnation := identity.engineIncarnation
  digestKeyId := identity.digestKeyId
  companionGeneration := identity.companionGeneration

def describe (self : TailWriteState) :
    ProducerTailEvent → Except SnapshotProducerError
      (TailFrameBinding × List UInt8 × Option (Except SnapshotProducerError Unit) ×
        TailWriteState)
  | .batch identity eventWatermark payload =>
    match self.requireIdentity identity with
    | .error error => .error error
    | .ok () =>
      if eventWatermark ≤ self.eventWatermark then .error .watermarkRegression
      else if self.deliverySequence = u64Max then .error .sequenceOverflow
      else
        .ok (self.binding .event identity (self.deliverySequence + 1) eventWatermark, payload, none,
          { self with
            deliverySequence := self.deliverySequence + 1
            eventWatermark })
  | .caughtUp identity eventWatermark =>
    match self.requireIdentity identity with
    | .error error => .error error
    | .ok () =>
      if eventWatermark ≠ self.eventWatermark then .error .watermarkRegression
      else
        .ok (self.binding .caughtUp identity self.deliverySequence eventWatermark, [], none, self)
  | .identityChanged identity =>
    -- the frame names the new identity; the client's decoder refuses it
    .ok (self.binding .identity identity 0 0, [], some (.error .identityChanged), self)
  | .disconnect identity =>
    match self.requireIdentity identity with
    | .error error => .error error
    | .ok () => .ok (self.binding .disconnect identity 0 0, [], some (.ok ()), self)

def encode (codec : SessionCodec) (self : TailWriteState) (event : ProducerTailEvent)
    (key : Bytes 32) (limits : TailWireLimits) :
    Except SnapshotProducerError (EncodedTail × TailWriteState) :=
  match self.describe event with
  | .error error => .error error
  | .ok (binding, payload, outcome, state) =>
    match encodeTailFrame codec payload binding key limits with
    | .error error => .error (.tail error)
    | .ok frame =>
      if self.messageSequence = u64Max then .error .sequenceOverflow
      else
        .ok (⟨binding, payload, frame, outcome⟩,
          { state with messageSequence := self.messageSequence + 1 })

/-- `produce_tail`: frames are written until one ends the session. -/
def produceTail (codec : SessionCodec) (key : Bytes 32) (limits : TailWireLimits) :
    TailWriteState → List ProducerTailEvent → List EncodedTail
  | _, [] => []
  | state, event :: rest =>
    match state.encode codec event key limits with
    | .error _ => []
    | .ok (encoded, state) =>
      if encoded.outcome.isSome then [encoded]
      else encoded :: produceTail codec key limits state rest

end TailWriteState

/-- Every number of an event fits its field. -/
def ProducerTailEvent.Fits : ProducerTailEvent → Prop
  | batch identity eventWatermark _ =>
    identity.companionGeneration ≤ u64Max ∧ eventWatermark ≤ u64Max
  | caughtUp identity eventWatermark =>
    identity.companionGeneration ≤ u64Max ∧ eventWatermark ≤ u64Max
  | identityChanged identity => identity.companionGeneration ≤ u64Max
  | disconnect identity => identity.companionGeneration ≤ u64Max

/-- A session of the companion: the challenge of its hello, the snapshot that was
built for it, and the events of its queue. -/
structure ProducerSession where
  challenge : Bytes 32
  snapshot : CompanionIndexSource.ProducerSnapshot
  events : List ProducerTailEvent
  fits : ∀ event ∈ events, event.Fits

structure SnapshotProducerConfig where
  sessionLimits : SnapshotSessionLimits
  tailLimits : TailWireLimits

namespace ProducerSession

def response (codec : SessionCodec) (secret : Bytes 32) (config : SnapshotProducerConfig)
    (session : ProducerSession) : Except SnapshotSessionError (List UInt8) :=
  codec.encodeAuthenticatedSnapshot session.snapshot.frame
    { challenge := session.challenge
      engineIncarnation := session.snapshot.identity.engineIncarnation
      snapshotWatermark := session.snapshot.watermark
      digestKeyId := session.snapshot.identity.digestKeyId
      companionGeneration := session.snapshot.identity.companionGeneration }
    secret config.sessionLimits

def tailKey (codec : SessionCodec) (secret : Bytes 32) (session : ProducerSession) : Bytes 32 :=
  deriveTailKey codec.sha256 secret session.challenge session.snapshot.identity.companionGeneration
    .companionToRouter

def writeState (session : ProducerSession) : TailWriteState where
  identity := session.snapshot.identity
  challenge := session.challenge
  messageSequence := 1
  deliverySequence := 0
  eventWatermark := session.snapshot.watermark

def tail (codec : SessionCodec) (secret : Bytes 32) (config : SnapshotProducerConfig)
    (session : ProducerSession) : List EncodedTail :=
  match session.response codec secret config with
  | .error _ => []
  | .ok _ =>
    session.writeState.produceTail codec (session.tailKey codec secret) config.tailLimits
      session.events

end ProducerSession

section
variable {codec : SessionCodec} {limits : TailWireLimits} {key : Bytes 32}
  {binding : TailFrameBinding} {event : ProducerTailEvent} {self : TailWriteState}
  {encoded : EncodedTail}

theorem encodeTailFrame_ok {payload frame : List UInt8}
    (h : encodeTailFrame codec payload binding key limits = .ok frame) : ∃ md,
      codec.encodeIdentity ⟨binding.engineIncarnation, binding.digestKeyId.toList⟩ = some md ∧
      frame = (tailParts binding md payload).flatten ++
        (authenticate codec.sha256 key tailAuthDomain
          [(tailParts binding md payload).flatten]).toList ∧
      frameOverheadBytes + md.length + payload.length ≤ u64Max ∧
      md.length < 2 ^ 32 := by
  simp only [encodeTailFrame] at h
  split at h
  · cases h
  split at h
  · cases h
  split at h
  · cases h
  split at h
  · cases h
  split at h
  · cases h
  split at h
  · cases h
  rename_i md hm
  split at h
  · cases h
  split at h
  · cases h
  rename_i ht
  split at h
  · cases h
  rename_i hl
  cases h
  refine ⟨md, hm, rfl, ?_, Nat.lt_of_not_le hl⟩
  by_contra ha
  exact ht (.inl (Nat.lt_of_not_le ha))

structure TailFrameBinding.OfSession (binding : TailFrameBinding) (challenge : Bytes 32)
    (messageSequence : Nat) : Prop where
  sessionId : binding.sessionId = challenge
  direction : binding.direction = .companionToRouter
  message : binding.messageSequence = messageSequence
  delivery : binding.deliverySequence ≤ u64Max
  watermark : binding.eventWatermark ≤ u64Max
  generation : binding.companionGeneration ≤ u64Max

variable {state : TailWriteState}

theorem TailWriteState.describe_ok {payload : List UInt8}
    {outcome : Option (Except SnapshotProducerError Unit)} (he : event.Fits)
    (hd : self.deliverySequence ≤ u64Max)
    (h : self.describe event = .ok (binding, payload, outcome, state)) :
    binding.OfSession self.challenge self.messageSequence ∧ state.challenge = self.challenge ∧
      state.deliverySequence ≤ u64Max := by
  cases event with
  | batch identity eventWatermark bytes =>
    simp only [describe] at h
    split at h
    · cases h
    split at h
    · cases h
    split at h
    · cases h
    rename_i hm
    cases h
    have hn : self.deliverySequence + 1 ≤ u64Max := by omega
    exact ⟨⟨rfl, rfl, rfl, hn, he.2, he.1⟩, rfl, hn⟩
  | caughtUp identity eventWatermark =>
    simp only [describe] at h
    split at h
    · cases h
    split at h
    · cases h
    cases h
    exact ⟨⟨rfl, rfl, rfl, hd, he.2, he.1⟩, rfl, hd⟩
  | identityChanged identity =>
    cases h
    exact ⟨⟨rfl, rfl, rfl, Nat.zero_le _, Nat.zero_le _, he⟩, rfl, hd⟩
  | disconnect identity =>
    simp only [describe] at h
    split at h
    · cases h
    cases h
    exact ⟨⟨rfl, rfl, rfl, Nat.zero_le _, Nat.zero_le _, he⟩, rfl, hd⟩

theorem TailWriteState.encode_ok (h : self.encode codec event key limits = .ok (encoded, state)) :
    ∃ described,
      self.describe event = .ok (encoded.binding, encoded.payload, encoded.outcome, described) ∧
        encodeTailFrame codec encoded.payload encoded.binding key limits = .ok encoded.frame ∧
        self.messageSequence ≠ u64Max ∧
        state = { described with messageSequence := self.messageSequence + 1 } := by
  unfold encode at h
  split at h
  · cases h
  rename_i binding payload outcome described hd
  split at h
  · cases h
  rename_i frame hfr
  split at h
  · cases h
  rename_i hm
  cases h
  exact ⟨described, hd, hfr, hm, rfl⟩

theorem TailWriteState.produceTail_get {events : List ProducerTailEvent}
    (he : ∀ event ∈ events, event.Fits) (hm : state.messageSequence ≤ u64Max)
    (hd : state.deliverySequence ≤ u64Max) {k : Nat}
    (h : (produceTail codec key limits state events)[k]? = some encoded) :
    encoded.binding.OfSession state.challenge (state.messageSequence + k) ∧
      state.messageSequence + k ≤ u64Max ∧
      encodeTailFrame codec encoded.payload encoded.binding key limits = .ok encoded.frame := by
  induction events generalizing state k with
  | nil => simp [produceTail] at h
  | cons event rest ih =>
    simp only [produceTail] at h
    split at h
    · simp at h
    rename_i first next ha
    obtain ⟨described, hs, hfr, hx, rfl⟩ := encode_ok ha
    obtain ⟨hb, hc, hn⟩ :=
      describe_ok (he event (List.mem_cons_self ..)) hd hs
    have hr : ∀ event ∈ rest, event.Fits :=
      fun event hv => he event (List.mem_cons_of_mem _ hv)
    cases k with
    | zero =>
      have hf : first = encoded := by
        split at h
        · simpa using h
        · simpa using h
      subst hf
      exact ⟨hb, hm, hfr⟩
    | succ k =>
      split at h
      · simp at h
      rw [List.getElem?_cons_succ] at h
      have hh : state.messageSequence + 1 + k = state.messageSequence + (k + 1) := by omega
      rw [← hh, ← hc]
      refine ih hr ?_ ?_ h
      · show state.messageSequence + 1 ≤ u64Max
        omega
      · exact hn

end
end Ramjet
