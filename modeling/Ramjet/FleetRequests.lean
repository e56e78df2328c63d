import Ramjet.FleetHealth

/-!
# Requests on a fleet

The request path of `proxy.rs` as a thread: a decision, the candidates that serve or may
be failed open to, one attempt after the other.
-/

namespace Ramjet
variable {n : Nat}

theorem Router.healthy_acquireGated {router router' : Router n} {u units : Nat}
    {requireHealthy : Bool} {guard : LoadGuard}
    (h : router.acquireGated u units requireHealthy = some (router', guard)) (v : Fin n) :
    (router'.states v).healthy = (router.states v).healthy := by
  simp only [Router.acquireGated] at h
  split at h
  · split at h
    · cases h
    cases h
    simp only [Router.modify]
    split <;> rfl
  · cases h

namespace FleetMemory
variable (m : FleetMemory n)

def drained (u : Nat) : Bool :=
  if h : u < n then (m.router.states ⟨u, h⟩).drained else false

def quarantined (u : Nat) : Bool :=
  if h : u < n then (m.replicas ⟨u, h⟩).status.quarantined else true

variable (config : FleetConfig n)

def attested (u : Nat) : Option Bool :=
  if h : u < n then m.compatibilityAttested config ⟨u, h⟩ else none

/-- The fences of an upstream as they are now. -/
def fences (u : Nat) : FailOpenDispatch where
  upstream := u
  quarantined := if h : u < n then (m.replicas ⟨u, h⟩).guard.quarantined else false
  durablyFenced := if h : u < n then (m.replicas ⟨u, h⟩).durableFence.blocksServing else false
  attested := m.attested config u

def acquireForDispatch (k u units : Nat) (failingOpen : Bool)
    (rest : List Nat) : FleetMemory n × Bool :=
  let m := if failingOpen then m.setAwaited k rest else m
  match
    if failingOpen then m.router.acquireFailingOpen u units
    else m.router.acquireIfHealthy u units
  with
  | some (router, _) =>
    ({ m with
        router
        failOpens := if failingOpen then m.fences config u :: m.failOpens else m.failOpens }, true)
  | none => (m, false)

/-- The reservation of an attempt goes back. -/
def release (u units : Nat) : FleetMemory n :=
  { m with router := (LoadGuard.doRelease ⟨u, max units 1, false⟩ m.router).1 }

end FleetMemory

structure FleetRequest (n : Nat) where
  route : Router n → Decision
  failover : List Nat
  reuse : Bool

namespace FleetThread
open Thread

def onUpstream (u : Nat) (t : Fin n → FleetThread n Unit) : FleetThread n Unit :=
  if h : u < n then t ⟨u, h⟩ else .done ()

def mayFailOpen (config : FleetConfig n) (k : Nat) (found : List Nat) (u : Nat) :
    FleetThread n Bool := do
  let drained ← atomic fun _ m => (m.setAwaited k (found ++ [u]), m.drained u)
  if drained then return false
  let quarantined ← read (·.quarantined u)
  if quarantined then return false
  if config.admission = .compatibility then do
    let attested ← read (·.attested config u)
    return attested = some true
  else return true

/-- At most `limit` further candidates. -/
def failOpenCandidates (config : FleetConfig n) (k : Nat) (d : Decision) :
    List Nat → Nat → List (Nat × Nat) → FleetThread n (List (Nat × Nat))
  | _, 0, found => return found
  | [], _ + 1, found => return found
  | candidate :: rest, limit + 1, found =>
    match d.stateOf candidate with
    | none => failOpenCandidates config k d rest (limit + 1) found
    | some state => do
      let may ← mayFailOpen config k (found.map Prod.fst) state.index
      if may then
        failOpenCandidates config k d rest limit (found ++ [(candidate, state.requestLoadUnits)])
      else failOpenCandidates config k d rest (limit + 1) found

/-- A server error is no sign of life. -/
def recordUpstreamRequest (config : FleetConfig n) (k u status : Nat) : FleetThread n Unit :=
  when (status < 500 || 600 ≤ status)
    (onUpstream u (noteUpstreamServingSuccess config (.request k)))

def withdraw (config : FleetConfig n) (k u : Nat) : FleetThread n Unit :=
  onUpstream u (publishUpstreamHealth config (.request k) · false)

def settle (config : FleetConfig n) (k : Nat) (plan : DispatchPlan)
    (attempt candidate units : Nat) : AttemptAnswer → FleetThread n Unit
  | .refused => .done ()
  | .responded status =>
    if (status = 502 ∨ status = 503) ∧ attempt + 1 < plan.attemptLimit then do
      withdraw config k candidate
      recordUpstreamRequest config k candidate status
      modify (·.release candidate units)
    else do
      -- the response is served, or it is a state that another upstream may know
      recordUpstreamRequest config k candidate status
      modify (·.release candidate units)
  | .failed error => do
    withdraw config k candidate
    modify (·.release candidate units)
    when (error = .connect) (forEach (withdraw config k) (siblings config.placement candidate))

/-- At most `remaining` further attempts. -/
def attempts (config : FleetConfig n) (k : Nat) (reuse : Bool) (plan : DispatchPlan) :
    Nat → RetryState → FleetThread n Unit
  | 0, _ => .done ()
  | remaining + 1, s =>
    match s.candidates[s.tried.length]? with
    | none => .done ()
    | some (candidate, units) => do
      let rest := (s.candidates.drop (s.tried.length + 1)).map Prod.fst
      let acquired ← atomic fun _ m =>
        m.acquireForDispatch config k candidate units plan.failingOpen rest
      let answer ← (if acquired then ask (·.attempt) else done .refused)
      settle config k plan s.tried.length candidate units answer
      let s := s.step config.placement plan reuse answer
      if s.selected.isSome then done () else attempts config k reuse plan remaining s

def request (config : FleetConfig n) (k : Nat) (r : FleetRequest n) : FleetThread n Unit := do
  let decision ← read fun m => r.route m.router
  let routed := decision.servingCandidates
  let serving := decision.appendFailover routed r.failover
  if serving.isEmpty then
    let candidates ← failOpenCandidates config k decision decision.candidates failOpenMaxAttempts []
    let plan : DispatchPlan := ⟨candidates, true, 0, candidates.length⟩
    modify (·.setAwaited k (candidates.map Prod.fst))
    attempts config k r.reuse plan plan.attemptLimit (.start plan)
    modify (·.setAwaited k [])
  else
    let plan : DispatchPlan := ⟨serving, false, serving.length - routed.length,
      match config.routeMaxAttempts with
      | some limit => min limit serving.length
      | none => serving.length⟩
    attempts config k r.reuse plan plan.attemptLimit (.start plan)

end FleetThread

section Actions
open Thread FleetThread
variable {c : FleetConfig n} {G : FleetMemory n → FleetMemory n → Prop}

/-- Relations that a publication keeps to, up to the end of a probe. -/
structure Tolerates (config : FleetConfig n) (G : FleetMemory n → FleetMemory n → Prop) : Prop where
  refl : ∀ m, G m m
  warmup : ∀ m slot u replica, G m (m.setWarmup slot u replica)
  announced : ∀ m slot u healthy, G m (m.announce slot u healthy)
  settled : ∀ m slot u, G m (m.settle slot u)
  withheld : ∀ m slot u, G m ((m.setHealthy u false).settle slot u)
  down : ∀ m slot u, G m ((m.publishProbeHealth u false).1.settle slot u)
  up : config.admission ≠ .compatibility →
    ∀ m slot u, G m ((m.publishProbeHealth u true).1.settle slot u)

theorem always_when {condition : Bool} {t : FleetThread n Unit}
    (h : condition → t.Always G) : (when condition t).Always G := by
  unfold when
  split
  · exact h ‹_›
  · trivial

theorem always_modify {f : FleetMemory n → FleetMemory n} (h : ∀ m, G m (f m)) :
    Always G (modify f : FleetThread n Unit) :=
  Always.atomic fun _ m => h m

namespace Tolerates
variable (h : Tolerates c G)
include h

theorem read {α : Type} {f : FleetMemory n → α} : Always G (read f : FleetThread n α) :=
  Always.atomic fun _ m => h.refl m

theorem ask {α : Type} {f : FleetAnswers → α} : Always G (ask f : FleetThread n α) :=
  Always.atomic fun _ m => h.refl m

variable (u : Fin n)

theorem observeProbe (slot : FleetSlot n) (healthy : Bool) :
    Always G (observeProbe c slot u healthy) := by
  unfold FleetThread.observeProbe
  split
  · exact Always.atomic fun _ m => h.warmup m slot u _
  · trivial

theorem publishUpstreamHealth {slot : FleetSlot n} {probeHealthy : Bool}
    (hm : probeHealthy → c.admission ≠ .compatibility) :
    Always G (publishUpstreamHealth c slot u probeHealthy) := by
  refine Always.bind (always_modify fun m => h.announced m slot u _) fun _ => ?_
  cases probeHealthy with
  | false => exact (h.observeProbe u slot false).bind fun _ => always_modify (h.down · slot u)
  | true =>
    refine Always.bind ?_ fun _ => always_modify (h.up (hm rfl) · slot u)
    change Always G (observeServing c slot u)
    unfold observeServing
    split
    · exact always_modify (h.warmup · slot u _)
    · trivial

theorem publishRest (underlying passed : Bool) : Always G (do
      FleetThread.observeProbe c (.probe u) u passed
      let withheld ← Thread.atomic fun _ m =>
        let withheld := underlying && !m.routingReady c u
        (if withheld then m else m.settle (.probe u) u, withheld)
      when withheld (modify fun m => (m.setHealthy u false).settle (.probe u) u)) := by
  refine (h.observeProbe u _ passed).bind fun _ => Always.bind (.atomic fun _ m => ?_) fun _ => ?_
  · dsimp only
    split
    · exact h.refl m
    · exact h.settled m _ u
  · exact always_when fun _ => always_modify fun m => h.withheld m _ u

end Tolerates

/-- What a request does beside publishing health. -/
structure Dispatches (m m' : FleetMemory n) : Prop where
  frame : m' = { m with
    router := m'.router, lastSuccess := m'.lastSuccess, failOpens := m'.failOpens,
    awaited := m'.awaited }
  healthy : ∀ v, m'.healthy v = m.healthy v

/-- What it does once an attempt has its answer. -/
structure Serves (m m' : FleetMemory n) : Prop extends Dispatches m m' where
  awaited : m'.awaited = m.awaited
  failOpens : m'.failOpens = m.failOpens

/-- What the probe of an upstream does beside publishing health. -/
structure Examines (u : Fin n) (m m' : FleetMemory n) : Prop where
  frame : m' = { m with
    admissionReady := m'.admissionReady, commitments := m'.commitments, history := m'.history }
  history : m'.history = { m.history with fresh := m'.history.fresh }
  others : ∀ v, v ≠ u → m'.admissionReady v = m.admissionReady v

variable {I : FleetMemory n → Prop} {R : FleetMemory n → FleetMemory n → Prop}
  {P : FleetMemory n → Prop}

structure AnswerRule (config : FleetConfig n) (k : Nat) (I : FleetMemory n → Prop)
    (R G : FleetMemory n → FleetMemory n → Prop) (P : FleetMemory n → Prop) : Prop where
  serve : ∀ {α : Type} {t : FleetThread n α}, t.Always Serves → t.Meets I R G P fun _ => P
  publish : ∀ u (healthy : Bool), (healthy → config.admission ≠ .compatibility) →
    (publishUpstreamHealth config (.request k) u healthy).Meets I R G P fun _ => P

theorem meets_when {Q : FleetMemory n → Prop} {condition : Bool} {t : FleetThread n Unit}
    (h : condition → t.Meets I R G P fun _ => Q) (hs : condition = false → ∀ m, I m → P m → Q m) :
    (when condition t).Meets I R G P fun _ => Q := by
  unfold when
  split
  · exact h ‹_›
  · exact fun m hI hm => hs (Bool.eq_false_of_not_eq_true ‹_›) m hI hm

theorem dispatches_read {α : Type} {f : FleetMemory n → α} :
    Always Dispatches (read f : FleetThread n α) :=
  .atomic fun _ _ => ⟨rfl, fun _ => rfl⟩

theorem Serves.refl (m : FleetMemory n) : Serves m m := ⟨⟨rfl, fun _ => rfl⟩, rfl, rfl⟩

theorem Serves.release (m : FleetMemory n) (u units : Nat) : Serves m (m.release u units) := by
  refine ⟨⟨rfl, fun v => ?_⟩, rfl, rfl⟩
  simp only [FleetMemory.healthy, FleetMemory.release, LoadGuard.doRelease, Router.modify,
    Bool.false_eq_true, if_false]
  split <;> rfl

theorem Serves.acquire (m : FleetMemory n) (k u units : Nat) (rest : List Nat) :
    Serves m (m.acquireForDispatch c k u units false rest).1 := by
  simp only [FleetMemory.acquireForDispatch, Bool.false_eq_true, if_false]
  split
  · exact ⟨⟨rfl, Router.healthy_acquireGated ‹_›⟩, rfl, rfl⟩
  · exact Serves.refl m

theorem dispatches_acquire (m : FleetMemory n) (k u units : Nat) (failingOpen : Bool)
    (rest : List Nat) : Dispatches m (m.acquireForDispatch c k u units failingOpen rest).1 := by
  cases failingOpen with
  | false => exact (Serves.acquire m k u units rest).toDispatches
  | true =>
    simp only [FleetMemory.acquireForDispatch, if_true]
    split
    · exact ⟨rfl, Router.healthy_acquireGated ‹_›⟩
    · exact ⟨rfl, fun _ => rfl⟩

theorem dispatches_failOpenCandidates (k : Nat) (d : Decision) (candidates : List Nat)
    (limit : Nat) (found : List (Nat × Nat)) :
    Always Dispatches (failOpenCandidates c k d candidates limit found) := by
  have hm : ∀ found u, Always Dispatches (mayFailOpen c k found u) := by
    intro found u
    refine Always.bind (Always.atomic fun _ m => ⟨rfl, fun _ => rfl⟩) fun drained => ?_
    split
    · trivial
    refine dispatches_read.bind fun quarantined => ?_
    split
    · trivial
    split
    · exact dispatches_read.bind fun _ => trivial
    · trivial
  fun_induction failOpenCandidates with
  | case1 | case2 => trivial
  | case3 _ _ _ _ _ ih => exact ih
  | case4 candidate rest limit found state _ ih ih' =>
    refine (hm _ _).bind fun may => ?_
    split
    · exact ih
    · exact ih'

namespace AnswerRule
variable {k : Nat} (h : AnswerRule c k I R G P)
include h

theorem withdraw (u : Nat) : (withdraw c k u).Meets I R G P fun _ => P := by
  unfold FleetThread.withdraw onUpstream
  split
  · exact h.publish _ false (by rintro ⟨⟩)
  · exact fun _ _ hm => hm

theorem record (u status : Nat) :
    (recordUpstreamRequest c k u status).Meets I R G P fun _ => P := by
  refine meets_when (fun _ => ?_) fun _ _ _ hm => hm
  unfold onUpstream
  split
  · refine .bind (h.serve (.atomic fun _ m => ⟨⟨rfl, fun _ => rfl⟩, rfl, rfl⟩)) fun _ =>
      meets_when (fun ha => ?_) fun _ _ _ hm => hm
    refine .bind (h.serve (.atomic fun _ => Serves.refl)) fun healthy =>
      meets_when (fun _ => ?_) fun _ _ _ hm => hm
    exact h.publish _ true fun _ => of_decide_eq_true ha
  · exact fun _ _ hm => hm

theorem settle (plan : DispatchPlan) (attempt candidate units : Nat) (answer : AttemptAnswer) :
    (FleetThread.settle c k plan attempt candidate units answer).Meets I R G P fun _ => P := by
  have hr := h.serve (always_modify fun m => Serves.release m candidate units)
  cases answer with
  | refused => exact fun _ _ hm => hm
  | responded status =>
    simp only [FleetThread.settle]
    split
    · exact (h.withdraw candidate).bind fun _ => (h.record candidate status).bind fun _ => hr
    · exact (h.record candidate status).bind fun _ => hr
  | failed error =>
    refine (h.withdraw candidate).bind fun _ => hr.bind fun _ =>
      meets_when (fun _ => ?_) fun _ _ _ hm => hm
    exact .forEach fun u _ => h.withdraw u

theorem attempts {plan : DispatchPlan} (ha : ∀ u units rest,
      (atomic fun _ m => m.acquireForDispatch c k u units plan.failingOpen rest :
        FleetThread n Bool).Meets I R G P fun _ => P)
    (reuse : Bool) (remaining : Nat) (s : RetryState) :
    (FleetThread.attempts c k reuse plan remaining s).Meets I R G P fun _ => P := by
  induction remaining generalizing s with
  | zero => exact fun _ _ hm => hm
  | succ remaining ih =>
    unfold FleetThread.attempts
    split
    · exact fun _ _ hm => hm
    refine (ha _ _ _).bind fun _ => .bind (h.serve ?_) fun answer => (h.settle ..).bind fun _ => ?_
    · split
      · exact .atomic fun _ => Serves.refl
      · trivial
    dsimp only
    split
    · exact fun _ _ hm => hm
    · exact ih _

end AnswerRule

/-- An assertion that a whole request keeps. -/
structure RequestRule (config : FleetConfig n) (k : Nat) (I : FleetMemory n → Prop)
    (R G : FleetMemory n → FleetMemory n → Prop) (P : FleetMemory n → Prop) : Prop where
  aside : ∀ {α : Type} {t : FleetThread n α}, t.Always Dispatches → t.Meets I R G P fun _ => P
  publish : ∀ u (healthy : Bool), (healthy → config.admission ≠ .compatibility) →
    (publishUpstreamHealth config (.request k) u healthy).Meets I R G P fun _ => P

namespace RequestRule
variable {k : Nat} (h : RequestRule c k I R G P)
include h

theorem attempts (reuse : Bool) (plan : DispatchPlan) (remaining : Nat) (s : RetryState) :
    (FleetThread.attempts c k reuse plan remaining s).Meets I R G P fun _ => P := by
  have ha : AnswerRule c k I R G P :=
    ⟨fun ht => h.aside (ht.mono fun _ _ hs => hs.toDispatches), h.publish⟩
  exact ha.attempts (fun _ _ _ => h.aside (.atomic fun _ m => dispatches_acquire m ..)) ..

theorem request (r : FleetRequest n) :
    (FleetThread.request c k r).Meets I R G P fun _ => P := by
  refine (h.aside dispatches_read).bind fun decision => ?_
  have ha : ∀ upstreams, (modify (·.setAwaited k upstreams) : FleetThread n Unit).Meets I R G P
      fun _ => P := fun _ => h.aside (always_modify fun _ => ⟨rfl, fun _ => rfl⟩)
  dsimp only
  split
  · refine (h.aside (dispatches_failOpenCandidates ..)).bind fun candidates =>
      (ha _).bind fun _ => ?_
    exact (h.attempts ..).bind fun _ => ha _
  · exact h.attempts ..

end RequestRule

structure ProbeRule (config : FleetConfig n) (u : Fin n) (I : FleetMemory n → Prop)
    (R G : FleetMemory n → FleetMemory n → Prop) (P : FleetMemory n → Prop) : Prop where
  aside : ∀ {α : Type} {t : FleetThread n α}, t.Always (Examines u) → t.Meets I R G P fun _ => P
  withdraw : (publishUpstreamHealth config (.probe u) u false).Meets I R G P fun _ => P
  publish : ∀ result, (publishProbedUpstreamHealth config u result).Meets I R G P fun _ => P

section Examines
variable (u : Fin n)

theorem examines_ask {α : Type} {f : FleetAnswers → α} :
    Always (Examines u) (ask f : FleetThread n α) :=
  .atomic fun _ _ => ⟨rfl, rfl, fun _ _ => rfl⟩

theorem examines_setCommitment (commitment : Option (Bytes 32)) :
    Always (Examines u) (modify (·.setCommitment u commitment) : FleetThread n Unit) :=
  always_modify fun _ => ⟨rfl, rfl, fun _ _ => rfl⟩

theorem examines_publishAdmission (ready : Bool) :
    Always (Examines u) (publishAdmission c u ready) := by
  refine always_when fun _ => .bind (always_modify fun m => ?_) fun _ => ?_
  · exact ⟨rfl, rfl, fun v hv => Function.update_of_ne hv _ _⟩
  · exact always_when fun _ => examines_setCommitment u none

theorem examines_evaluateAdmission : Always (Examines u) (evaluateAdmission c u) := by
  unfold evaluateAdmission
  split
  · refine (examines_ask u).bind fun reply => ?_
    split
    · exact (examines_setCommitment u none).bind fun _ => trivial
    · exact (examines_setCommitment u _).bind fun _ => trivial
  · trivial

end Examines

namespace ProbeRule
variable {u : Fin n} (h : ProbeRule c u I R G P)
include h

theorem markProbe (result : ProbeResult) (reason : ProbeReason) :
    (markProbe c u result reason).Meets I R G P fun _ => P := by
  refine .bind (h.aside ?_) fun suppressed =>
    meets_when (fun _ => h.publish result) fun _ _ _ hm => hm
  split
  · trivial
  unfold probeFailureIsStarvation
  split
  · trivial
  · exact .atomic fun _ _ => ⟨rfl, rfl, fun _ _ => rfl⟩

theorem publishAdmission (ready : Bool) :
    (publishAdmission c u ready).Meets I R G P fun _ => P :=
  h.aside (examines_publishAdmission u ready)

theorem unanswered (reason : ProbeReason) :
    (probeWithAdmission.unanswered c u reason).Meets I R G P fun _ => P :=
  (h.markProbe _ _).bind fun _ => meets_when (fun _ => h.publishAdmission false) fun _ _ _ hm => hm

theorem probeWithAdmission (fence : Bool) :
    (probeWithAdmission c u fence).Meets I R G P fun _ => P := by
  refine .bind (h.aside (always_modify fun _ => ⟨rfl, rfl, fun _ _ => rfl⟩)) fun _ =>
    .bind (meets_when (fun _ => ?_) fun _ _ _ hm => hm) fun _ =>
    (h.aside (examines_ask u)).bind fun reply => ?_
  · exact h.withdraw.bind fun _ => h.publishAdmission false
  cases reply with
  | body =>
    refine .bind (h.aside ?_) fun rank => ?_
    · unfold rankProbe
      split
      · trivial
      · exact examines_ask u
    dsimp only
    split
    · exact (h.aside (examines_ask u)).bind fun _ => h.markProbe _ _
    refine (h.aside (examines_ask u)).bind fun advertised => ?_
    split
    · refine (h.aside (examines_evaluateAdmission u)).bind fun compatibility => ?_
      refine .bind (meets_when (fun _ => h.publishAdmission true) fun _ _ _ hm => hm) fun _ => ?_
      exact (h.markProbe _ _).bind fun _ =>
        meets_when (fun _ => h.publishAdmission false) fun _ _ _ hm => hm
    · exact h.markProbe _ _
  | tooLarge | status | failed error => exact h.unanswered _

end ProbeRule
end Actions

/-- The probe loop has one probe of an upstream at a time, the guard loop one round; a
controller marks upstreams down and sets drain fences. -/
inductive FleetCode (n : Nat) where
  | probe (u : Fin n) (fenceBeforeCheck : Bool)
  | poll (u : Fin n)
  | request (k : Nat) (r : FleetRequest n)
  | markUpstreamUnavailable (u : Fin n)
  | setDrained (u : Fin n) (drained : Bool)

abbrev FleetState (n : Nat) : Type := Machine.State (FleetMemory n) FleetAnswers (FleetSlot n)

abbrev FleetMove (n : Nat) : Type := Machine.Move FleetAnswers (FleetSlot n) (FleetCode n)

/-- Health, guards and admission when the process starts. -/
structure FleetMemory.Initial (config : FleetConfig n) (m : FleetMemory n) : Prop where
  replicas : ∀ u, ∃ restored uncertain, m.replicas u = .new config.thresholds config.guardMode
    (config.admission ≠ .compatibility) restored uncertain
  store : m.store.isSome = decide (config.guardMode = .quarantine)
  healthy : ∀ u, m.healthy u = (m.replicas u).effective
  admissionReady : ∀ u, m.admissionReady u = false
  commitments : ∀ u, m.commitments u = none
  warmup : ∀ u, m.warmup u = .initial
  lastSuccess : ∀ u, m.lastSuccess u = 0
  published : ∀ u, m.published u = none
  failOpens : m.failOpens = []
  awaited : ∀ k, m.awaited k = []
  history : m.history = .initial

def fleetMachine (config : FleetConfig n) :
    Machine (FleetMemory n) FleetAnswers (FleetSlot n) (FleetCode n) where
  init := FleetMemory.Initial config
  slot
    | .probe u _ => .probe u
    | .poll u => .poll u
    | .request k _ => .request k
    | .markUpstreamUnavailable _ | .setDrained _ _ => .controller
  code
    | .probe u fence => FleetThread.probeWithAdmission config u fence
    | .poll u => FleetThread.pollDsparkGuard config u
    | .request k r => FleetThread.request config k r
    | .markUpstreamUnavailable u => Thread.modify (·.markUnavailable u)
    | .setDrained u drained =>
      Thread.modify fun m => { m with router := m.router.setDrained u drained }

namespace SampleFleet

scoped instance neZero : NeZero 2 := ⟨by decide⟩

def config (admission : UpstreamAdmissionMode) (warmup : Option WarmupAdmissionConfig)
    (guardMode : DsparkGuardMode) (hwar : warmup.isSome → admission = .http)
    (hgd : guardMode = .quarantine → admission = .compatibility) : FleetConfig 2 where
  admission
  solomon := false
  attestation := admission = .compatibility
  servingRuntime := admission = .compatibility
  warmup
  guardMode
  thresholds := sampleThresholds
  upstreamCommitments := fun _ => .replicate 32 0
  placement := ⟨2, fun _ => "node", fun upstream => s!"http://engine-{upstream}:8000"⟩
  routeMaxAttempts := none
  solomon_http h := by cases h
  warmup_http := hwar
  quarantine_compatibility := hgd
  compatibility_upstreams _ := le_rfl

def gated : FleetConfig 2 := config .compatibility none .off (by decide) (by decide)

variable (config : FleetConfig 2)

/-- The process has just started. -/
def memory : FleetMemory 2 where
  router := ⟨fun _ => ⟨⟨1024, []⟩,
    fun _ => none, 0, 0, config.admission ≠ .compatibility, false⟩, 0⟩
  replicas := fun _ =>
    .new config.thresholds config.guardMode (config.admission ≠ .compatibility) none false
  store := none
  admissionReady := fun _ => false
  commitments := fun _ => none
  warmup := fun _ => .initial
  lastSuccess := fun _ => 0
  published := fun _ => none
  failOpens := []
  awaited := fun _ => []
  history := .initial

theorem initial {c : FleetConfig 2} (hgd : c.guardMode ≠ .quarantine) : (memory c).Initial c where
  replicas _ := ⟨none, false, rfl⟩
  store := (decide_eq_false hgd).symm
  healthy _ := by
    simp only [FleetMemory.healthy, memory, GuardReplica.effective, GuardReplica.new]
    simp [DurableFenceState.blocksServing]
  admissionReady _ := rfl
  commitments _ := rfl
  warmup _ := rfl
  lastSuccess _ := rfl
  published _ := rfl
  failOpens := rfl
  awaited _ := rfl
  history := rfl

def start : FleetState 2 := ⟨memory config, fun _ => .done ()⟩

def answers : FleetAnswers where
  probe := .body
  rank := none
  advertised := true
  contract := false
  identity := .evidence (some (.replicate 32 1))
  sample := .error .missing
  io := .failed .publishFailed
  attempt := .failed .timeout
  now := 0

theorem ungrouped : ([] : List Nat) = [] ∨ ([] : List Nat).length = 2 := .inl rfl

def routing : RouterConfig ℤ 2 where
  alpha := 4
  maxOverlapBlocks := 32
  estimator := ⟨2048, 32768, 8⟩
  projectedLoad := false
  speculationMode := .off
  speculationProfiles := [.standard, .standard]
  affinity := .byPrefix
  horizonMode := .off
  affinityBasis := .absolute
  affinityGroups := []
  upstreams_pos := Nat.two_pos
  profiles_length := by decide
  groups_length := ungrouped

/-- A short request that the router places by load. -/
def request : FleetRequest 2 where
  route router :=
    match (router.routeFingerprints routing 4096 [] 1 .neutral false 0).1 with
    | some (decision, _) => decision
    | none => ⟨[], [], 0, 0, 0, 0, 0, .single⟩
  failover := []
  reuse := false

/-- So many actions of one thread. -/
def run (slot : FleetSlot 2) (count : Nat) : List (FleetMove 2) :=
  List.replicate count (.run slot answers)

variable {config} {moves : List (FleetMove 2)} {s : FleetState 2}

theorem reachable (hgd : config.guardMode ≠ .quarantine)
    (hs : moves.foldlM (fleetMachine config).next (start config) = some s) :
    ((fleetMachine config).system fun _ _ => True).Reachable s :=
  .foldlM (fun _ _ _ hn => ⟨trivial, hn⟩) (.init (s := start config) ⟨initial hgd, rfl⟩) hs

/-- Moves that meet a condition. -/
def guarded (C : FleetMemory 2 → FleetMove 2 → Bool) (config : FleetConfig 2) :
    FleetState 2 → FleetMove 2 → Option (FleetState 2) :=
  TransitionSystem.guardNext (fun s => C s.memory) (fleetMachine config).next

theorem reachable_guarded {C : FleetMemory 2 → FleetMove 2 → Bool}
    (hgd : config.guardMode ≠ .quarantine)
    (hs : moves.foldlM (guarded C config) (start config) = some s) :
    ((fleetMachine config).system fun m move => C m move).Reachable s :=
  .foldlM_guard (fun _ _ _ hC hn => ⟨hC, hn⟩) (.init (s := start config) ⟨initial hgd, rfl⟩) hs

end SampleFleet
end Ramjet
