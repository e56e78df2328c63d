import Ramjet.Dispatch
import Ramjet.GuardReplica
import Ramjet.Lib.Threads
import Ramjet.LoadGuards

/-!
# Health of a fleet

What decides in `proxy.rs` whether an upstream serves: probes with admission
(`tokenizer.rs`), guard rounds, warmup (`warmup_admission.rs`) and outcomes of requests.
Each `async fn` is a thread; a lock section or an atomic access is one action.
-/

namespace Ramjet
open Function GuardReplica

inductive WarmupAdmissionMode where
  | off | shadow | enforce
  deriving DecidableEq

structure WarmupAdmissionConfig where
  mode : WarmupAdmissionMode
  consecutiveSuccesses : Nat
  stableFor : Nat
  successes_pos : 0 < consecutiveSuccesses

structure WarmupReplica where
  ready : Bool
  consecutiveSuccesses : Nat
  firstSuccess : Option Nat

inductive WarmupAdmissionOutcome where
  | stable | pending | admitted | reset | serving
  deriving DecidableEq

namespace WarmupReplica

/-- Replicas begin admitted. -/
def initial : WarmupReplica := ⟨true, 0, none⟩

def observeProbe (config : WarmupAdmissionConfig) (replica : WarmupReplica) (healthy : Bool)
    (now : Nat) : WarmupReplica × WarmupAdmissionOutcome :=
  if !healthy then (⟨false, 0, none⟩, .reset)
  else if replica.ready then (replica, .stable)
  else
    let firstSuccess := replica.firstSuccess.getD now
    let successes := saturatingAdd replica.consecutiveSuccesses 1
    if successes ≥ config.consecutiveSuccesses ∧ now - firstSuccess ≥ config.stableFor then
      (⟨true, successes, some firstSuccess⟩, .admitted)
    else (⟨false, successes, some firstSuccess⟩, .pending)

/-- Completed work admits at once. -/
def observeServing : WarmupReplica × WarmupAdmissionOutcome := (⟨true, 0, none⟩, .serving)

end WarmupReplica

inductive UpstreamAdmissionMode where
  | http | compatibility
  deriving DecidableEq

inductive CompatibilityAdmission where
  | matched | mismatch | notConfigured | unavailable
  deriving DecidableEq

/-- `warmup` is absent when warmup admission is off, `attestation` without a
compatibility manifest, `servingRuntime` without a serving runtime in it. -/
structure FleetConfig (n : Nat) where
  admission : UpstreamAdmissionMode
  solomon : Bool
  attestation : Bool
  servingRuntime : Bool
  warmup : Option WarmupAdmissionConfig
  guardMode : DsparkGuardMode
  thresholds : GuardThresholds
  upstreamCommitments : Fin n → Bytes 32
  placement : Placement
  routeMaxAttempts : Option Nat
  solomon_http : solomon → admission = .http
  warmup_http : warmup.isSome → admission = .http
  quarantine_compatibility : guardMode = .quarantine → admission = .compatibility
  compatibility_upstreams : admission = .compatibility → 2 ≤ n

structure ProbeResult where
  passed : Bool
  admission : Option CompatibilityAdmission

/-- The state of an upstream's fences when a request reserved load on it. -/
structure FailOpenDispatch where
  upstream : Nat
  quarantined : Bool
  durablyFenced : Bool
  attested : Option Bool

inductive FleetSlot (n : Nat) where
  | probe (u : Fin n)
  | poll (u : Fin n)
  | request (k : Nat)
  | controller
  deriving DecidableEq

/-- How health is published, in several lock sections. `pending`: the publication a thread
is in the middle of; `writer`: whose publication of an upstream began last, while nobody
else has written since; `settled`: one has ended so, or none has begun; `marked`: no probe
that started after the last mark has passed; `fresh`: the last probe started after it. -/
structure HealthHistory (n : Nat) where
  pending : FleetSlot n → Option (Fin n × Bool)
  writer : Fin n → Option (FleetSlot n)
  settled : Fin n → Bool
  marked : Fin n → Bool
  fresh : Fin n → Bool

/-- What the threads share. The last four fields are history: the last result a probe
published, every reservation that failed open, what each request that fails open still
has to try, and how the upstreams' health was written. -/
structure FleetMemory (n : Nat) where
  router : Router n
  replicas : Fin n → GuardReplica
  store : Option (GuardStore n)
  admissionReady : Fin n → Bool
  commitments : Fin n → Option (Bytes 32)
  warmup : Fin n → WarmupReplica
  lastSuccess : Fin n → Nat
  published : Fin n → Option ProbeResult
  failOpens : List FailOpenDispatch
  awaited : Nat → List Nat
  history : HealthHistory n

variable {n : Nat}

namespace HealthHistory
variable (history : HealthHistory n)

def initial : HealthHistory n :=
  ⟨fun _ => none, fun _ => none, fun _ => true, fun _ => false, fun _ => false⟩

variable (slot : FleetSlot n) (u : Fin n)

def announce (healthy : Bool) : HealthHistory n :=
  { history with
    pending := update history.pending slot (some (u, healthy))
    writer := update history.writer u (some slot)
    settled := update history.settled u false }

def write : HealthHistory n :=
  { history with
    writer := update history.writer u (if history.writer u = some slot then some slot else none)
    settled := update history.settled u false }

/-- The last write of a publication. -/
def settle : HealthHistory n :=
  { history with
    pending := update history.pending slot none
    writer := update history.writer u none
    settled := update history.settled u (history.writer u = some slot) }

/-- A guard round writes in one lock section. -/
def touch : HealthHistory n := { history with writer := update history.writer u none }

def startProbe : HealthHistory n := { history with fresh := update history.fresh u true }

def pass (passed : Bool) : HealthHistory n :=
  { history with
    marked := update history.marked u (history.marked u && !(passed && history.fresh u)) }

def mark : HealthHistory n :=
  { history with
    marked := update history.marked u true
    fresh := update history.fresh u false }

end HealthHistory

namespace FleetMemory
variable (m : FleetMemory n)

def healthy (u : Fin n) : Bool := (m.router.states u).healthy

def probeHealthy (u : Fin n) : Bool := (m.replicas u).probeHealthy

def setHealthy (u : Fin n) (healthy : Bool) : FleetMemory n :=
  { m with router := m.router.setHealthy u healthy }

def announce (slot : FleetSlot n) (u : Fin n) (healthy : Bool) : FleetMemory n :=
  { m with history := m.history.announce slot u healthy }

def settle (slot : FleetSlot n) (u : Fin n) : FleetMemory n :=
  { m with history := m.history.settle slot u }

def startProbe (u : Fin n) : FleetMemory n := { m with history := m.history.startProbe u }

def markUnavailable (u : Fin n) : FleetMemory n :=
  { m.setHealthy u false with history := m.history.mark u }

def publishProbeHealth (u : Fin n) (healthy : Bool) : FleetMemory n × Bool :=
  let replica := { m.replicas u with probeHealthy := healthy }
  ({ m with
      replicas := update m.replicas u replica
      router := m.router.setHealthy u replica.effective }, replica.effective)

/-- A guard round of a replica, under its lock. -/
def applyGuard (config : FleetConfig n) (u : Fin n) (sample : Except ParseFailure DsparkCounters)
    (attested : Option (Bytes 32)) (io : Publication) : FleetMemory n :=
  let (replica, store, _) :=
    (m.replicas u).apply config.upstreamCommitments u config.guardMode sample attested m.store io
  { m with
    replicas := update m.replicas u replica
    store
    router := m.router.setHealthy u replica.effective
    history := m.history.touch u }

def compatibilityAttested (config : FleetConfig n) (u : Fin n) : Option Bool :=
  if config.attestation then some (m.admissionReady u) else none

def setAdmissionReady (u : Fin n) (ready : Bool) : FleetMemory n :=
  { m with admissionReady := update m.admissionReady u ready }

def setCommitment (u : Fin n) (commitment : Option (Bytes 32)) : FleetMemory n :=
  { m with commitments := update m.commitments u commitment }

def setWarmup (slot : FleetSlot n) (u : Fin n) (replica : WarmupReplica) : FleetMemory n :=
  { m with warmup := update m.warmup u replica, history := m.history.write slot u }

def routingReady (config : FleetConfig n) (u : Fin n) : Bool :=
  config.warmup.all fun warmup => warmup.mode ≠ .enforce || (m.warmup u).ready

def setPublished (u : Fin n) (result : ProbeResult) : FleetMemory n :=
  { m with
    published := update m.published u (some result)
    history := (m.history.write (.probe u) u).pass u result.passed }

def setAwaited (k : Nat) (upstreams : List Nat) : FleetMemory n :=
  { m with awaited := update m.awaited k upstreams }

/-- A completed response counts as a sign of life for a while. -/
def servedWithin (u : Fin n) (now window : Nat) : Bool :=
  m.lastSuccess u ≠ 0 && now - (m.lastSuccess u - 1) ≤ window

def recordSuccess (u : Fin n) (now : Nat) : FleetMemory n :=
  { m with lastSuccess := update m.lastSuccess u (saturatingAdd now 1) }

end FleetMemory

section Fields
variable (m : FleetMemory n) (u v : Fin n)

theorem Router.healthy_setHealthy (router : Router n) (u v : Fin n) (healthy : Bool) :
    ((router.setHealthy u healthy).states v).healthy =
      if v = u then healthy else (router.states v).healthy := by
  simp only [Router.setHealthy, Router.modify, Fin.val_inj]
  split <;> rfl

namespace FleetMemory
variable (healthy : Bool)

theorem healthy_setHealthy :
    (m.setHealthy u healthy).healthy v = if v = u then healthy else m.healthy v :=
  Router.healthy_setHealthy ..

theorem healthy_publishProbeHealth : (m.publishProbeHealth u healthy).1.healthy v =
      if v = u then (m.publishProbeHealth u healthy).2 else m.healthy v :=
  Router.healthy_setHealthy ..

theorem probeHealthy_publishProbeHealth : (m.publishProbeHealth u healthy).1.probeHealthy v =
      if v = u then healthy else m.probeHealthy v := by
  simp only [publishProbeHealth, probeHealthy, update_apply]
  split <;> rfl

theorem publishProbeHealth_le (h : (m.publishProbeHealth u healthy).2) : healthy := by
  simp only [publishProbeHealth, effective, Bool.and_eq_true] at h
  exact h.1.1

variable (config : FleetConfig n) (sample : Except ParseFailure DsparkCounters)
  (attested : Option (Bytes 32)) (io : Publication)

theorem probeHealthy_applyGuard :
    (m.applyGuard config u sample attested io).probeHealthy v = m.probeHealthy v := by
  simp only [applyGuard, probeHealthy, update_apply]
  split
  next heq =>
    rw [heq]
    exact probeHealthy_apply
  · rfl

theorem healthy_applyGuard (h : (m.applyGuard config u sample attested io).healthy v) :
    m.healthy v ∨ v = u ∧ m.probeHealthy u := by
  simp only [applyGuard, healthy, Router.healthy_setHealthy] at h
  split at h
  next heq =>
    simp only [effective, Bool.and_eq_true, probeHealthy_apply] at h
    exact .inr ⟨heq, h.1.1⟩
  · exact .inl h

end FleetMemory
end Fields

/-- The answer to a readiness probe. -/
inductive ProbeReply where
  | body
  | tooLarge
  | status
  | failed (error : TransportError)

inductive ProbeReason where
  | none
  | responseTooLarge
  | http
  | transport (error : TransportError)
  | rankHttp
  | rankTimeout
  | modelMismatch
  | contractMismatch
  | compatibilityMismatch
  | compatibilityUnavailable

inductive IdentityReply where
  | unavailable
  | evidence (commitment : Option (Bytes 32))

/-- `rank` is the failure of a rank probe, `advertised` and `contract` say whether a body
is as expected. -/
structure FleetAnswers where
  probe : ProbeReply
  rank : Option ProbeReason
  advertised : Bool
  contract : Bool
  identity : IdentityReply
  sample : Except ParseFailure DsparkCounters
  io : Publication
  attempt : AttemptAnswer
  now : Nat

abbrev FleetThread (n : Nat) (α : Type) : Type := Thread (FleetMemory n) FleetAnswers α

namespace FleetThread
open Thread

def when (condition : Bool) (t : FleetThread n Unit) : FleetThread n Unit :=
  if condition then t else .done ()

/-- Warmup admission sees a probe, if there is any. -/
def observeProbe (config : FleetConfig n) (slot : FleetSlot n) (u : Fin n) (healthy : Bool) :
    FleetThread n Unit :=
  match config.warmup with
  | some warmup => atomic fun e m =>
    (m.setWarmup slot u (WarmupReplica.observeProbe warmup (m.warmup u) healthy e.now).1, ())
  | none => .done ()

def observeServing (config : FleetConfig n) (slot : FleetSlot n) (u : Fin n) :
    FleetThread n Unit :=
  match config.warmup with
  | some _ => modify (·.setWarmup slot u WarmupReplica.observeServing.1)
  | none => .done ()

/-- `slot` is where the thread runs. -/
def publishUpstreamHealth (config : FleetConfig n) (slot : FleetSlot n) (u : Fin n)
    (probeHealthy : Bool) : FleetThread n Unit := do
  modify (·.announce slot u probeHealthy)
  (if probeHealthy then observeServing config slot u else observeProbe config slot u false)
  modify fun m => (m.publishProbeHealth u probeHealthy).1.settle slot u

def publishProbedUpstreamHealth (config : FleetConfig n) (u : Fin n) (result : ProbeResult) :
    FleetThread n Unit := do
  modify (·.announce (.probe u) u result.passed)
  let underlying ← atomic fun _ m =>
    let (m, underlying) := m.publishProbeHealth u result.passed
    (m.setPublished u result, underlying)
  observeProbe config (.probe u) u (result.passed && underlying)
  let withheld ← atomic fun _ m =>
    let withheld := underlying && !m.routingReady config u
    (if withheld then m else m.settle (.probe u) u, withheld)
  when withheld (modify fun m => (m.setHealthy u false).settle (.probe u) u)

def recentServingSuccessWindowMs : Nat := 30000

def ProbeReason.starved : ProbeReason → Bool
  | .transport .timeout | .transport .connect | .rankTimeout => true
  | _ => false

def probeFailureIsStarvation (config : FleetConfig n) (u : Fin n) (reason : ProbeReason) :
    FleetThread n Bool :=
  if config.admission = .compatibility ∨ !ProbeReason.starved reason then .done false
  else atomic fun e m => (m, m.servedWithin u e.now recentServingSuccessWindowMs)

def markProbe (config : FleetConfig n) (u : Fin n) (result : ProbeResult) (reason : ProbeReason) :
    FleetThread n Unit := do
  let suppressed ←
    (if result.passed then done false else probeFailureIsStarvation config u reason)
  when (!suppressed) (publishProbedUpstreamHealth config u result)

/-- A request that completed on an upstream. -/
def noteUpstreamServingSuccess (config : FleetConfig n) (slot : FleetSlot n) (u : Fin n) :
    FleetThread n Unit := do
  atomic fun e m => (m.recordSuccess u e.now, ())
  when (config.admission ≠ .compatibility) do
    let healthy ← read (·.healthy u)
    when (!healthy) (publishUpstreamHealth config slot u true)

def clearCommitment (u : Fin n) : FleetThread n Unit := modify (·.setCommitment u none)

def publishAdmission (config : FleetConfig n) (u : Fin n) (ready : Bool) : FleetThread n Unit :=
  when config.attestation do
    modify (·.setAdmissionReady u ready)
    when (!ready) (clearCommitment u)

def invalidateAdmission (config : FleetConfig n) (u : Fin n) : FleetThread n Unit :=
  publishAdmission config u false

def evaluateAdmission (config : FleetConfig n) (u : Fin n) : FleetThread n CompatibilityAdmission :=
  if config.attestation ∧ config.servingRuntime then do
    let reply ← ask (·.identity)
    match reply with
    | .unavailable => do
      clearCommitment u
      return .unavailable
    | .evidence commitment => do
      modify (·.setCommitment u commitment)
      return if commitment.isSome then .matched else .mismatch
  else return .notConfigured

def rankProbe (config : FleetConfig n) : FleetThread n (Option ProbeReason) :=
  if config.admission = .compatibility then .done none else ask (·.rank)

def admitProbe (config : FleetConfig n) (u : Fin n) (healthy : Bool) (reason : ProbeReason) :
    FleetThread n Unit := do
  let compatibility ← evaluateAdmission config u
  let (healthy, reason) := match compatibility with
    | .matched => (healthy, reason)
    | .mismatch => (false, .compatibilityMismatch)
    | .notConfigured | .unavailable => (false, .compatibilityUnavailable)
  when (compatibility = .matched) (publishAdmission config u true)
  markProbe config u ⟨healthy, some compatibility⟩ reason
  when (!healthy) (invalidateAdmission config u)

def probeWithAdmission (config : FleetConfig n) (u : Fin n) (fenceBeforeCheck : Bool) :
    FleetThread n Unit := do
  modify (·.startProbe u)
  when (config.admission = .compatibility && fenceBeforeCheck) do
    publishUpstreamHealth config (.probe u) u false
    invalidateAdmission config u
  let reply ← ask (·.probe)
  match reply with
  | .body => do
    let rank ← rankProbe config
    if config.solomon then
      let contract ← ask (·.contract)
      markProbe config u ⟨contract, none⟩ (if contract then .none else .contractMismatch)
    else
      let advertised ← ask (·.advertised)
      let healthy := rank.isNone && advertised
      let reason := if advertised then rank.getD .none else .modelMismatch
      if config.admission = .compatibility then admitProbe config u healthy reason
      else markProbe config u ⟨healthy, none⟩ reason
  | .tooLarge => unanswered .responseTooLarge
  | .status => unanswered .http
  | .failed error => unanswered (.transport error)
where
  unanswered (reason : ProbeReason) : FleetThread n Unit := do
    markProbe config u ⟨false, none⟩ reason
    when (config.admission = .compatibility) (invalidateAdmission config u)

def pollDsparkGuard (config : FleetConfig n) (u : Fin n) : FleetThread n Unit := do
  let sample ← ask (·.sample)
  let attested ← read (·.compatibilityAttested config u)
  let commitment ← (if attested = some true then read (·.commitments u) else done none)
  atomic fun e m => (m.applyGuard config u sample commitment e.io, ())

end FleetThread
end Ramjet
