import Ramjet.DsparkGuard
import Ramjet.GuardStore

/-!
# Reliability guard of a replica

`DsparkGuardReplica` of `proxy.rs`: detector, last probe result and durable fence of one
upstream under one lock.
-/

namespace Ramjet

inductive DsparkGuardMode where
  | off | observe | quarantine
  deriving DecidableEq

inductive ReliabilityState where
  | disabled | baseline | healthy | idle | suspect | wouldQuarantine | quarantined
  | persistenceFailure | unavailable
  deriving DecidableEq

inductive DurableFenceState where
  | ready
  | startupUncertain
  | awaitingAttestation
  | pendingQuarantine (commitment : Bytes 32)
  | rearmPersistenceFailure
  deriving DecidableEq

namespace DurableFenceState

def blocksServing (fence : DurableFenceState) : Bool := fence ≠ .ready

def persistenceFailed : DurableFenceState → Bool
  | .startupUncertain | .pendingQuarantine _ | .rearmPersistenceFailure => true
  | .ready | .awaitingAttestation => false

end DurableFenceState

inductive QuarantineReason where
  | uncleanRestart | zeroAcceptance | unattestedThreshold
  deriving DecidableEq

inductive PersistenceOperation where
  | quarantine | rearm
  deriving DecidableEq

structure GuardTransition where
  rearmed : Bool := false
  quarantineReason : Option QuarantineReason := none
  persistenceFailure : Option PersistenceOperation := none

def GuardTransition.merge (transition next : GuardTransition) : GuardTransition where
  rearmed := transition.rearmed || next.rearmed
  quarantineReason := next.quarantineReason.or transition.quarantineReason
  persistenceFailure := next.persistenceFailure.or transition.persistenceFailure

structure GuardApplication where
  observation : Observation
  state : ReliabilityState
  quarantineReason : Option QuarantineReason
  persistenceFailure : Option PersistenceOperation

structure ReliabilitySnapshot where
  state : ReliabilityState
  quarantined : Bool
  effectiveHealthy : Bool

structure GuardReplica where
  guard : DsparkGuard
  probeHealthy : Bool
  state : ReliabilityState
  durableFence : DurableFenceState

namespace GuardReplica

def new (thresholds : GuardThresholds) (mode : DsparkGuardMode) (probeHealthy : Bool)
    (restoredQuarantine : Option (Bytes 32)) (startupUncertain : Bool) : GuardReplica where
  guard :=
    let guard : DsparkGuard := ⟨thresholds, none, 0, false, false, none⟩
    match restoredQuarantine with
    | some commitment => guard.restoreQuarantine commitment
    | none => guard
  probeHealthy
  state :=
    if startupUncertain then .persistenceFailure
    else if restoredQuarantine.isSome then .quarantined
    else if mode = .off then .disabled
    else .baseline
  durableFence := if startupUncertain then .startupUncertain else .ready

variable (replica : GuardReplica)

def fenced : Bool := replica.guard.quarantined || replica.durableFence.blocksServing

def status : ReliabilitySnapshot where
  state := replica.state
  quarantined := replica.fenced
  effectiveHealthy := replica.probeHealthy && !replica.fenced

/-- What `publish_effective_health` gives the router. -/
def effective : Bool :=
  replica.probeHealthy && !replica.guard.quarantined && !replica.durableFence.blocksServing

def setFence (fence : DurableFenceState) : GuardReplica := { replica with durableFence := fence }

variable (incarnation : Bytes 32)

/-- The guard after an attestation, and whether that left quarantine. -/
def attest : GuardReplica × Bool :=
  let (guard, outcome) := replica.guard.attestIncarnation incarnation
  ({ replica with guard }, outcome = .rearmed)

def restore : GuardReplica :=
  { replica with guard := replica.guard.restoreQuarantine incarnation }

variable {n : Nat} (upstreams : Fin n → Bytes 32) (upstream : Fin n)

def enforceQuarantine (commitment : Option (Bytes 32)) (store : Option (GuardStore n))
    (io : Publication) : GuardReplica × Option (GuardStore n) × GuardTransition :=
  match commitment with
  | none =>
    (replica.setFence .awaitingAttestation, store.map (·.poisonRuntime upstream),
      { quarantineReason := some .unattestedThreshold })
  | some commitment =>
    match store with
    | none =>
      (replica.setFence (.pendingQuarantine commitment), none,
        { persistenceFailure := some .quarantine })
    | some store =>
      match store.persistQuarantine upstreams upstream commitment io with
      | (store, .ok _) =>
        ((replica.setFence .ready).restore commitment, some store,
          { quarantineReason := some .zeroAcceptance })
      | (store, .error _) =>
        (replica.setFence (.pendingQuarantine commitment), some store,
          { persistenceFailure := some .quarantine })

def retryQuarantine (reason : QuarantineReason) (commitment : Bytes 32)
    (persist : GuardStore n → GuardStore n × Except DsparkGuardStoreError StoreMutation)
    (store : Option (GuardStore n)) : GuardReplica × Option (GuardStore n) × GuardTransition :=
  match store with
  | none => (replica, none, { persistenceFailure := some .quarantine })
  | some store =>
    match persist store with
    | (store, .ok _) =>
      ((replica.restore commitment).setFence .ready, some store,
        { quarantineReason := some reason })
    | (store, .error _) => (replica, some store, { persistenceFailure := some .quarantine })

def rearm (commitment : Bytes 32) (store : Option (GuardStore n)) (io : Publication) :
    GuardReplica × Option (GuardStore n) × GuardTransition :=
  match store.bind fun store => (store.quarantinedEngineCore upstream).map (store, ·) with
  | none =>
    (replica.setFence .rearmPersistenceFailure, store, { persistenceFailure := some .rearm })
  | some (held, quarantined) =>
    if quarantined = commitment then ((replica.attest commitment).1.setFence .ready, some held, {})
    else
      match held.persistRearm upstreams upstream quarantined commitment io with
      | (held, .error _) =>
        (replica.setFence .rearmPersistenceFailure, some held,
          { persistenceFailure := some .rearm })
      | (held, .ok _) =>
        let (replica, rearmed) := (replica.setFence .ready).attest commitment
        (replica, some held, { rearmed })

def reconcileEngineCore (commitment : Option (Bytes 32)) (store : Option (GuardStore n))
    (io : Publication) : GuardReplica × Option (GuardStore n) × GuardTransition :=
  match commitment with
  | none => (replica, store, {})
  | some commitment =>
    match replica.durableFence with
    | .startupUncertain =>
      replica.retryQuarantine .uncleanRestart commitment
        (·.persistUncertainFence upstreams upstream commitment io) store
    | .awaitingAttestation =>
      (replica.setFence .ready).enforceQuarantine upstreams upstream (some commitment) store io
    | .pendingQuarantine pending =>
      if pending ≠ commitment then
        let (replica, rearmed) := (replica.setFence .ready).attest commitment
        (replica, store, { rearmed })
      else
        replica.retryQuarantine .zeroAcceptance commitment
          (·.persistQuarantine upstreams upstream commitment io) store
    | .ready | .rearmPersistenceFailure =>
      if !replica.guard.quarantined then
        let (replica, rearmed) := replica.attest commitment
        (replica, store, { rearmed })
      else replica.rearm upstreams upstream commitment store io

/-- The state reported after a round. -/
def reportedState (transition : GuardTransition) (observation : Observation) : ReliabilityState :=
  if replica.durableFence.persistenceFailed then .persistenceFailure
  else if replica.guard.quarantined then .quarantined
  else if transition.rearmed ∨ observation.outcome = .baseline then .baseline
  else
    match observation.outcome with
    | .clean => .healthy
    | .idle => .idle
    | .zeroAcceptance => if observation.thresholdMet then .wouldQuarantine else .suspect
    | .baseline => .baseline
    | .counterReset | .inconsistent | .parse _ => .unavailable

variable (mode : DsparkGuardMode)

/-- Whether this round's observation starts a quarantine. -/
def enters (observation : Observation) : Bool :=
  mode = .quarantine && observation.thresholdMet && !replica.guard.quarantined &&
    replica.durableFence = .ready

variable (sample : Except ParseFailure DsparkCounters)

def withObservation : GuardReplica × Observation :=
  let (guard, observation) := replica.guard.observe sample
  ({ replica with guard }, observation)

/-- One guard round: the attested commitment first, then the sample. -/
def apply (attested : Option (Bytes 32)) (store : Option (GuardStore n)) (io : Publication) :
    GuardReplica × Option (GuardStore n) × GuardApplication :=
  let (replica, store, transition) :=
    replica.reconcileEngineCore upstreams upstream attested store io
  let (replica, observation) := replica.withObservation sample
  let (replica, store, transition) :=
    if replica.enters mode observation then
      let (replica, store, next) := replica.enforceQuarantine upstreams upstream attested store io
      (replica, store, transition.merge next)
    else (replica, store, transition)
  let state := replica.reportedState transition observation
  ({ replica with state }, store,
    ⟨observation, state, transition.quarantineReason, transition.persistenceFailure⟩)

section ProbeHealth
variable {replica upstreams upstream} {commitment : Option (Bytes 32)}
  {store : Option (GuardStore n)} {io : Publication}

theorem probeHealthy_enforceQuarantine :
    (replica.enforceQuarantine upstreams upstream commitment store io).1.probeHealthy =
      replica.probeHealthy := by
  unfold enforceQuarantine
  split
  · rfl
  split
  · rfl
  · split <;> rfl

theorem probeHealthy_retryQuarantine {reason : QuarantineReason} {commitment : Bytes 32}
    {persist : GuardStore n → GuardStore n × Except DsparkGuardStoreError StoreMutation} :
    (replica.retryQuarantine reason commitment persist store).1.probeHealthy =
      replica.probeHealthy := by
  unfold retryQuarantine
  split
  · rfl
  · split <;> rfl

theorem probeHealthy_rearm {commitment : Bytes 32} :
    (replica.rearm upstreams upstream commitment store io).1.probeHealthy =
      replica.probeHealthy := by
  unfold rearm
  split
  · rfl
  split
  · rfl
  · split <;> rfl

theorem probeHealthy_reconcileEngineCore :
    (replica.reconcileEngineCore upstreams upstream commitment store io).1.probeHealthy =
      replica.probeHealthy := by
  unfold reconcileEngineCore
  split
  · rfl
  split
  · exact probeHealthy_retryQuarantine
  · exact probeHealthy_enforceQuarantine
  · split
    · rfl
    · exact probeHealthy_retryQuarantine
  all_goals
    split
    · rfl
    · exact probeHealthy_rearm

theorem probeHealthy_apply {mode : DsparkGuardMode} {sample : Except ParseFailure DsparkCounters} :
    (replica.apply upstreams upstream mode sample commitment store io).1.probeHealthy =
      replica.probeHealthy := by
  have hr : (replica.reconcileEngineCore upstreams upstream commitment store io).1.probeHealthy =
        replica.probeHealthy := probeHealthy_reconcileEngineCore
  simp only [apply]
  split
  · exact probeHealthy_enforceQuarantine.trans hr
  · exact hr

end ProbeHealth
end GuardReplica
end Ramjet
