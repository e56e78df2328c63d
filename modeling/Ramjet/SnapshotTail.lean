import Ramjet.KvSnapshot

/-!
# Tail fence

The lifecycle of one bootstrap generation (`snapshot_tail.rs`) and its verified frames.
Deliveries are numbered without gaps; event watermarks only grow.
-/

namespace Ramjet

inductive SnapshotTailState where
  | awaitingSnapshot | catchingUp | ready | fenced
  deriving DecidableEq

inductive SnapshotTailFenceReason where
  | staleSnapshot | unsupportedResetScope | incarnationChanged | digestKeyChanged
  | generationChanged | tailGap | eventWatermarkRegression | sequenceOverflow | bufferOverflow
  | caughtUpMismatch | disconnected | cancelled | applicationFailed | unexpectedState
  deriving DecidableEq

structure AuthenticatedIdentity where
  engineIncarnation : EngineIncarnation
  digestKeyId : List UInt8
  generation : Nat

/-- Output of the session decoder of `snapshot_session.rs`. -/
structure AuthenticatedSnapshot where
  engineIncarnation : EngineIncarnation
  snapshotWatermark : Nat
  digestKeyId : Bytes 32
  companionGeneration : Nat
  snapshotFrame : List UInt8

inductive SnapshotAction where
  | accepted (snapshotWatermark deliverySequence : Nat)
  | fenced (reason : SnapshotTailFenceReason)

inductive TailAction where
  | apply (deliverySequence eventWatermark : Nat)
  | duplicate
  | fenced (reason : SnapshotTailFenceReason)

inductive CaughtUpAction where
  | ready
  | alreadyReady
  | fenced (reason : SnapshotTailFenceReason)

inductive IdentityAction where
  | current
  | fenced (reason : SnapshotTailFenceReason)

def snapshotDeliverySequence : Nat := 0

structure SnapshotTailFence where
  expectedIncarnation : EngineIncarnation
  expectedDigestKeyId : List UInt8
  minimumSnapshotWatermark : Nat
  appliedDeliverySequence : Option Nat
  appliedEventWatermark : Option Nat
  revision : Nat
  generation : Nat
  state : SnapshotTailState
  reason : Option SnapshotTailFenceReason

namespace SnapshotTailFence

def startBootstrap (expectedIncarnation : EngineIncarnation) (minimumSnapshotWatermark : Nat)
    (expectedDigestKeyId : List UInt8) (generation : Nat) : SnapshotTailFence where
  expectedIncarnation
  expectedDigestKeyId
  minimumSnapshotWatermark
  appliedDeliverySequence := none
  appliedEventWatermark := none
  revision := 1
  generation
  state := .awaitingSnapshot
  reason := none

def bumpRevision (fence : SnapshotTailFence) : SnapshotTailFence :=
  { fence with revision := saturatingAdd fence.revision 1 }

def fence (self : SnapshotTailFence) (reason : SnapshotTailFenceReason) :
    SnapshotTailFenceReason × SnapshotTailFence :=
  let self :=
    if self.state ≠ .fenced then
      { self with
        state := .fenced
        reason := some reason
        appliedDeliverySequence := none
        appliedEventWatermark := none }.bumpRevision
    else self
  (self.reason.getD reason, self)

def checkIdentity (self : SnapshotTailFence) (identity : AuthenticatedIdentity) :
    Except SnapshotTailFenceReason Unit :=
  if identity.generation ≠ self.generation then .error .generationChanged
  else if identity.engineIncarnation ≠ self.expectedIncarnation then .error .incarnationChanged
  else if identity.digestKeyId ≠ self.expectedDigestKeyId then .error .digestKeyChanged
  else .ok ()

def acceptSnapshot (self : SnapshotTailFence) (snapshot : AuthenticatedSnapshot)
    (resetScope : ResetScope) : SnapshotAction × SnapshotTailFence :=
  let fenced (reason : SnapshotTailFenceReason) :=
    (SnapshotAction.fenced (self.fence reason).1, (self.fence reason).2)
  match self.reason with
  | some reason => (.fenced reason, self)
  | none =>
    if self.state ≠ .awaitingSnapshot then fenced .unexpectedState
    else
      match self.checkIdentity ⟨snapshot.engineIncarnation, snapshot.digestKeyId.toList,
        snapshot.companionGeneration⟩ with
      | .error reason => fenced reason
      | .ok () =>
        if resetScope ≠ .fullEngine then fenced .unsupportedResetScope
        else if snapshot.snapshotWatermark < self.minimumSnapshotWatermark then
          fenced .staleSnapshot
        else
          (.accepted snapshot.snapshotWatermark snapshotDeliverySequence,
            { self with
              appliedDeliverySequence := some snapshotDeliverySequence
              appliedEventWatermark := some snapshot.snapshotWatermark
              state := .catchingUp }.bumpRevision)

def acceptTail (self : SnapshotTailFence) (identity : AuthenticatedIdentity)
    (deliverySequence eventWatermark : Nat) : TailAction × SnapshotTailFence :=
  let fenced (reason : SnapshotTailFenceReason) :=
    (TailAction.fenced (self.fence reason).1, (self.fence reason).2)
  match self.reason with
  | some reason => (.fenced reason, self)
  | none =>
    if self.state ≠ .catchingUp ∧ self.state ≠ .ready then fenced .unexpectedState
    else
      match self.checkIdentity identity with
      | .error reason => fenced reason
      | .ok () =>
        match self.appliedDeliverySequence, self.appliedEventWatermark with
        | some appliedDelivery, some appliedEvent =>
          if deliverySequence ≤ appliedDelivery then (.duplicate, self)
          -- `applied_delivery + 1` overflows
          else if appliedDelivery = u64Max then fenced .sequenceOverflow
          else if deliverySequence ≠ appliedDelivery + 1 then fenced .tailGap
          else if deliverySequence = u64Max then fenced .sequenceOverflow
          else if eventWatermark ≤ appliedEvent then fenced .eventWatermarkRegression
          else
            (.apply deliverySequence eventWatermark,
              { self with
                appliedDeliverySequence := some deliverySequence
                appliedEventWatermark := some eventWatermark }.bumpRevision)
        | _, _ => fenced .unexpectedState

def caughtUp (self : SnapshotTailFence) (identity : AuthenticatedIdentity)
    (deliverySequence eventWatermark : Nat) : CaughtUpAction × SnapshotTailFence :=
  let fenced (reason : SnapshotTailFenceReason) :=
    (CaughtUpAction.fenced (self.fence reason).1, (self.fence reason).2)
  match self.reason with
  | some reason => (.fenced reason, self)
  | none =>
    match self.checkIdentity identity with
    | .error reason => fenced reason
    | .ok () =>
      if self.appliedDeliverySequence ≠ some deliverySequence ∨
          self.appliedEventWatermark ≠ some eventWatermark then
        fenced .caughtUpMismatch
      else
        match self.state with
        | .catchingUp => (.ready, { self with state := .ready }.bumpRevision)
        | .ready => (.alreadyReady, self)
        | .awaitingSnapshot | .fenced => fenced .unexpectedState

def observeIdentity (self : SnapshotTailFence) (identity : AuthenticatedIdentity) :
    IdentityAction × SnapshotTailFence :=
  match self.reason with
  | some reason => (.fenced reason, self)
  | none =>
    match self.checkIdentity identity with
    | .ok () => (.current, self)
    | .error reason => (.fenced (self.fence reason).1, (self.fence reason).2)

def disconnected (self : SnapshotTailFence) : SnapshotTailFence := (self.fence .disconnected).2

def bufferOverflowed (self : SnapshotTailFence) : SnapshotTailFence :=
  (self.fence .bufferOverflow).2

def applicationFailed (self : SnapshotTailFence) : SnapshotTailFence :=
  (self.fence .applicationFailed).2

structure Advances (fence : SnapshotTailFence) (deliverySequence eventWatermark : Nat)
    (next : SnapshotTailFence) : Prop where
  reason : fence.reason = none
  state : fence.state = .catchingUp ∨ fence.state = .ready
  delivery : ∃ applied, fence.appliedDeliverySequence = some applied ∧
    deliverySequence = applied + 1
  watermark : ∃ applied, fence.appliedEventWatermark = some applied ∧ applied < eventWatermark
  bounded : deliverySequence ≠ u64Max
  next : next = { fence with
    appliedDeliverySequence := some deliverySequence
    appliedEventWatermark := some eventWatermark }.bumpRevision

variable {self next : SnapshotTailFence} {identity : AuthenticatedIdentity}
  {deliverySequence eventWatermark : Nat}

theorem acceptTail_apply {delivery event : Nat}
    (h : self.acceptTail identity deliverySequence eventWatermark = (.apply delivery event, next)) :
    delivery = deliverySequence ∧ event = eventWatermark ∧
      self.Advances deliverySequence eventWatermark next := by
  simp only [acceptTail] at h
  split at h
  · cases h
  rename_i hr
  split at h
  · cases h
  rename_i hs
  split at h
  · cases h
  split at h
  next applied watermark hd hw =>
    split at h
    · cases h
    split at h
    · cases h
    split at h
    · cases h
    rename_i hn
    split at h
    · cases h
    rename_i hb
    split at h
    · cases h
    rename_i hg
    cases h
    refine ⟨rfl, rfl, hr, ?_, ⟨applied, hd, not_not.1 hn⟩,
      ⟨watermark, hw, Nat.lt_of_not_le hg⟩, hb, rfl⟩
    by_contra ht
    exact hs (not_or.1 ht)
  · cases h

theorem acceptTail_duplicate
    (h : self.acceptTail identity deliverySequence eventWatermark = (.duplicate, next)) :
    next = self := by
  simp only [acceptTail] at h
  repeat' split at h
  all_goals cases h
  rfl

theorem caughtUp_ready (h : self.caughtUp identity deliverySequence eventWatermark = (.ready, next))
    :
    self.state = .catchingUp ∧ self.appliedDeliverySequence = some deliverySequence ∧
      self.appliedEventWatermark = some eventWatermark ∧
      next = { self with state := .ready }.bumpRevision := by
  simp only [caughtUp] at h
  split at h
  · cases h
  split at h
  · cases h
  split at h
  · cases h
  rename_i ha
  rw [not_or, not_not, not_not] at ha
  split at h
  next hs =>
    cases h
    exact ⟨hs, ha.1, ha.2, rfl⟩
  · cases h
  · cases h
  · cases h

theorem caughtUp_alreadyReady
    (h : self.caughtUp identity deliverySequence eventWatermark = (.alreadyReady, next)) :
    next = self := by
  simp only [caughtUp] at h
  repeat' split at h
  all_goals cases h
  rfl

theorem observeIdentity_current (h : self.observeIdentity identity = (.current, next)) :
    next = self := by
  simp only [observeIdentity] at h
  repeat' split at h
  all_goals cases h
  rfl

theorem acceptSnapshot_accepted {snap : AuthenticatedSnapshot} {resetScope : ResetScope}
    {watermark delivery : Nat}
    (h : self.acceptSnapshot snap resetScope = (.accepted watermark delivery, next)) :
    self.reason = none ∧ self.minimumSnapshotWatermark ≤ snap.snapshotWatermark ∧
      next = { self with
        appliedDeliverySequence := some snapshotDeliverySequence
        appliedEventWatermark := some snap.snapshotWatermark
        state := .catchingUp }.bumpRevision := by
  simp only [acceptSnapshot] at h
  split at h
  · cases h
  rename_i hr
  split at h
  · cases h
  split at h
  · cases h
  split at h
  · cases h
  split at h
  · cases h
  rename_i hw
  cases h
  exact ⟨hr, Nat.le_of_not_lt hw, rfl⟩

end SnapshotTailFence

inductive TailFrameType where
  | event | caughtUp | identity | disconnect
  deriving DecidableEq

/-- A frame the decoder of the session has authenticated. -/
structure VerifiedTailFrame where
  frameType : TailFrameType
  deliverySequence : Nat
  eventWatermark : Nat
  engineIncarnation : EngineIncarnation
  digestKeyId : Bytes 32
  companionGeneration : Nat
  payload : List UInt8

inductive VerifiedTailAction where
  | apply (deliverySequence eventWatermark : Nat) (payload : List UInt8)
  | duplicate
  | ready
  | alreadyReady
  | identityCurrent
  | fenced (reason : SnapshotTailFenceReason)

namespace VerifiedTailFrame

def identity (self : VerifiedTailFrame) : AuthenticatedIdentity :=
  ⟨self.engineIncarnation, self.digestKeyId.toList, self.companionGeneration⟩

def applyTo (self : VerifiedTailFrame) (fence : SnapshotTailFence) :
    VerifiedTailAction × SnapshotTailFence :=
  match self.frameType with
  | .event =>
    match fence.acceptTail self.identity self.deliverySequence self.eventWatermark with
    | (.apply delivery event, fence) => (.apply delivery event self.payload, fence)
    | (.duplicate, fence) => (.duplicate, fence)
    | (.fenced reason, fence) => (.fenced reason, fence)
  | .caughtUp =>
    match fence.caughtUp self.identity self.deliverySequence self.eventWatermark with
    | (.ready, fence) => (.ready, fence)
    | (.alreadyReady, fence) => (.alreadyReady, fence)
    | (.fenced reason, fence) => (.fenced reason, fence)
  | .identity =>
    match fence.observeIdentity self.identity with
    | (.current, fence) => (.identityCurrent, fence)
    | (.fenced reason, fence) => (.fenced reason, fence)
  | .disconnect => (.fenced .disconnected, fence.disconnected)

variable {self : VerifiedTailFrame} {fence fence' : SnapshotTailFence}

theorem applyTo_apply {delivery event : Nat} {payload : List UInt8}
    (h : self.applyTo fence = (.apply delivery event payload, fence')) :
    payload = self.payload ∧ fence.Advances self.deliverySequence self.eventWatermark fence' := by
  unfold applyTo at h
  split at h
  · split at h
    next ht =>
      cases h
      obtain ⟨-, -, ha⟩ := SnapshotTailFence.acceptTail_apply ht
      exact ⟨rfl, ha⟩
    · cases h
    · cases h
  · split at h <;> cases h
  · split at h <;> cases h
  · cases h

theorem applyTo_ready (h : self.applyTo fence = (.ready, fence')) :
    fence.state = .catchingUp ∧ fence.appliedDeliverySequence = some self.deliverySequence ∧
      fence.appliedEventWatermark = some self.eventWatermark ∧
      fence' = { fence with state := .ready }.bumpRevision := by
  unfold applyTo at h
  split at h
  · split at h <;> cases h
  · split at h
    next hc =>
      cases h
      exact SnapshotTailFence.caughtUp_ready hc
    · cases h
    · cases h
  · split at h <;> cases h
  · cases h

variable {action : VerifiedTailAction}

theorem applyTo_quiet (h : self.applyTo fence = (action, fence'))
    (ha : action = .duplicate ∨ action = .alreadyReady ∨ action = .identityCurrent) :
    fence' = fence := by
  unfold applyTo at h
  split at h
  · split at h
    · cases h
      simp at ha
    next ht =>
      cases h
      exact SnapshotTailFence.acceptTail_duplicate ht
    · cases h
      simp at ha
  · split at h
    · cases h
      simp at ha
    next hc =>
      cases h
      exact SnapshotTailFence.caughtUp_alreadyReady hc
    · cases h
      simp at ha
  · split at h
    next hi =>
      cases h
      exact SnapshotTailFence.observeIdentity_current hi
    · cases h
      simp at ha
  · cases h
    simp at ha

theorem applyTo_keeps (h : self.applyTo fence = (action, fence'))
    (hp : ∀ delivery event payload, action ≠ .apply delivery event payload)
    (hf : ∀ reason, action ≠ .fenced reason) :
    fence'.appliedDeliverySequence = fence.appliedDeliverySequence ∧
      fence'.appliedEventWatermark = fence.appliedEventWatermark := by
  cases action with
  | apply delivery event payload => exact absurd rfl (hp delivery event payload)
  | ready =>
    obtain ⟨-, -, -, rfl⟩ := applyTo_ready h
    exact ⟨rfl, rfl⟩
  | fenced reason => exact absurd rfl (hf reason)
  | duplicate | alreadyReady | identityCurrent =>
    rw [applyTo_quiet h (by simp)]
    exact ⟨rfl, rfl⟩

end VerifiedTailFrame
end Ramjet
