import Ramjet.KvWire

/-!
# Idle drain

The policy that releases replicas while the fleet is quiet. A tick reports nothing
drained that was warm before, and leaves the warm floor unfenced.
-/

namespace Ramjet
open Function List

inductive IdleDrainMode where
  | off | observe | drain
deriving DecidableEq

def IdleDrainMode.fencesRouting (mode : IdleDrainMode) : Bool := mode = .drain

def IdleDrainMode.enabled (mode : IdleDrainMode) : Bool := mode ≠ .off

inductive IdleDrainRelease where
  | fleetIdle | utilization
deriving DecidableEq

/-- Durations in milliseconds. -/
structure IdleDrainConfig where
  mode : IdleDrainMode
  release : IdleDrainRelease
  idleAfter : Nat
  minWarm : Nat
  cooldown : Nat
  drainGrace : Nat
  upstreamIdleAfter : Nat
  resumeLoadPerReplica : Nat

def IdleDrainConfig.effectiveMinWarm (config : IdleDrainConfig) : Nat := max config.minWarm 1

inductive UpstreamDrainState where
  | warm | draining | drained
deriving DecidableEq

def UpstreamDrainState.fenced : UpstreamDrainState → Bool
  | .warm => false
  | .draining | .drained => true

structure UpstreamObservation where
  healthy : Bool
  inflight : Nat

structure UpstreamIntent where
  state : UpstreamDrainState
  fenced : Bool
  desiredRunning : Bool
  safeToStop : Bool

def UpstreamIntent.warm : UpstreamIntent := ⟨.warm, false, true, false⟩

structure IdleDrainDecision (n : Nat) where
  loadPerServingReplica : Nat
  upstreams : Fin n → UpstreamIntent
  transitions : List (Fin n × UpstreamDrainState)
  idle : Bool

structure IdleDrainPolicy (n : Nat) where
  states : Fin n → UpstreamDrainState
  busySinceMs : Fin n → Nat
  idleSinceMs : Fin n → Nat
  lastActivityMs : Nat
  lastDrainTransitionMs : Option Nat

def observedInflight (observations : List UpstreamObservation) (index : Nat) : Nat :=
  observations[index]?.elim u64Max (·.inflight)

def observedHealthy (observations : List UpstreamObservation) (index : Nat) : Bool :=
  observations[index]?.any (·.healthy)

namespace IdleDrainPolicy
variable {n : Nat} (config : IdleDrainConfig) (p : IdleDrainPolicy n) (nowMs : Nat)
  (observations : List UpstreamObservation)

def new : IdleDrainPolicy n where
  states _ := .warm
  busySinceMs _ := nowMs
  idleSinceMs _ := nowMs
  lastActivityMs := nowMs
  lastDrainTransitionMs := none

def observeActivity : IdleDrainPolicy n :=
  { p with lastActivityMs := max p.lastActivityMs nowMs }

def resumeAll : IdleDrainPolicy n := { p with states := fun _ => .warm }

/-- Fences one more upstream. -/
def release (target : Fin n) : IdleDrainPolicy n :=
  { p with
    states := update p.states target .draining
    busySinceMs := update p.busySinceMs target nowMs
    lastDrainTransitionMs := some nowMs }

def recordUpstreamActivity : IdleDrainPolicy n :=
  { p with
    idleSinceMs := fun i =>
      if 0 < observedInflight observations i then nowMs else p.idleSinceMs i }

def serving (i : Fin n) : Bool := !(p.states i).fenced && observedHealthy observations i

def warmServingCount : Nat := (finRange n).countP (p.serving observations)

def servingInflight : Nat :=
  (((finRange n).filter fun i => !(p.states i).fenced).filterMap fun i =>
    observations[i.val]?.map (·.inflight)).sum

def loadPerServingReplica : Nat :=
  let serving := p.warmServingCount observations
  if serving = 0 then u64Max else divCeil (p.servingInflight observations) serving

def projectedLoadAfterRelease (warmServing : Nat) : Nat :=
  let remaining := warmServing - 1
  if remaining = 0 then u64Max else divCeil (p.servingInflight observations) remaining

/-- The later of equally quiet replicas wins. -/
def quieter (best : Option (Fin n × Nat)) (candidate : Fin n × Nat) : Option (Fin n × Nat) :=
  match best with
  | none => some candidate
  | some kept => if kept.2 ≤ candidate.2 then some candidate else some kept

def selectQuietest : Option (Fin n) :=
  let quiet := ((finRange n).filter fun i =>
    p.serving observations i && observations[i.val]?.any (·.inflight = 0)).map fun i =>
      (i, nowMs - p.idleSinceMs i)
  ((quiet.filter fun candidate => config.upstreamIdleAfter ≤ candidate.2).foldl quieter none).map
    (·.1)

def fleetIdle : Bool :=
  !(observations.any fun observation => 0 < observation.inflight) &&
    decide (config.idleAfter ≤ nowMs - p.lastActivityMs)

/-- Quiet for the grace period: no longer draining. -/
def promoteDrained : IdleDrainPolicy n :=
  { p with
    states := fun i =>
      if p.states i = .draining ∧ observedInflight observations i = 0 ∧
          config.drainGrace ≤ nowMs - p.busySinceMs i then
        .drained
      else p.states i
    busySinceMs := fun i =>
      if p.states i = .draining ∧ 0 < observedInflight observations i then nowMs
      else p.busySinceMs i }

def cooldownElapsed : Bool :=
  match p.lastDrainTransitionMs with
  | none => true
  | some last => config.cooldown ≤ nowMs - last

/-- The highest-indexed healthy warm replica. -/
def selectTarget : Option (Fin n) := (finRange n).reverse.find? (p.serving observations)

def advanceDrain : IdleDrainPolicy n :=
  let p := p.promoteDrained config nowMs observations
  if p.warmServingCount observations ≤ config.effectiveMinWarm then p
  else if !p.cooldownElapsed config nowMs then p
  else
    match p.selectTarget observations with
    | none => p
    | some target => p.release nowMs target

def advanceUtilization : IdleDrainPolicy n :=
  let p := p.promoteDrained config nowMs observations
  let warmServing := p.warmServingCount observations
  if config.resumeLoadPerReplica ≤ p.loadPerServingReplica observations then
    { p.resumeAll with lastDrainTransitionMs := some nowMs }
  else if warmServing ≤ config.effectiveMinWarm then p
  else if !p.cooldownElapsed config nowMs then p
  else if config.resumeLoadPerReplica ≤ p.projectedLoadAfterRelease observations warmServing then p
  else
    match p.selectQuietest config nowMs observations with
    | none => p
    | some target => p.release nowMs target

/-- The lowest-indexed healthy fenced replica. -/
def selectRestore : Option (Fin n) :=
  (finRange n).find? fun i => (p.states i).fenced && observedHealthy observations i

def restoreWarmFloorLoop : Nat → IdleDrainPolicy n → IdleDrainPolicy n
  | 0, p => p
  | rounds + 1, p =>
    if config.effectiveMinWarm ≤ p.warmServingCount observations then p
    else
      match p.selectRestore observations with
      | none => p
      | some restore =>
        restoreWarmFloorLoop rounds
          { p with
            states := update p.states restore .warm
            lastDrainTransitionMs := some nowMs }

def restoreWarmFloor : IdleDrainPolicy n := restoreWarmFloorLoop config nowMs observations n p

def intent (i : Fin n) : UpstreamIntent :=
  if p.states i = .warm then .warm
  else
    { state := p.states i
      fenced := config.mode.fencesRouting
      desiredRunning := false
      safeToStop := config.mode.fencesRouting && decide (p.states i = .drained) &&
        observations[i.val]?.any (·.inflight = 0) }

def decide (previous : Fin n → UpstreamDrainState) (idle : Bool) :
    IdleDrainPolicy n × IdleDrainDecision n :=
  ({ p with
      lastDrainTransitionMs :=
        if (finRange n).all (p.states · = .warm) then none else p.lastDrainTransitionMs },
    { loadPerServingReplica := p.loadPerServingReplica observations
      upstreams := p.intent config observations
      transitions := ((finRange n).filter fun i => previous i ≠ p.states i).map fun i =>
        (i, p.states i)
      idle })

/-- The states after release, resume and restoring the floor. -/
def advance : IdleDrainPolicy n :=
  let p := p.recordUpstreamActivity nowMs observations
  let p :=
    match config.release with
    | .fleetIdle =>
      if p.fleetIdle config nowMs observations then p.advanceDrain config nowMs observations
      else p.resumeAll
    | .utilization => p.advanceUtilization config nowMs observations
  p.restoreWarmFloor config nowMs observations

def tick : IdleDrainPolicy n × IdleDrainDecision n :=
  if config.mode.enabled then
    (p.advance config nowMs observations).decide config observations p.states
      ((p.recordUpstreamActivity nowMs observations).fleetIdle config nowMs observations)
  else p.resumeAll.decide config observations p.states false

variable {config} {p} {nowMs} {observations} {i : Fin n}

theorem fenced_iff {state : UpstreamDrainState} : state.fenced ↔ state ≠ .warm := by
  cases state <;> decide

@[simp] theorem tick_states : (p.tick config nowMs observations).1.states =
      if config.mode.enabled then (p.advance config nowMs observations).states
      else fun _ => .warm := by
  unfold tick
  split <;> rfl

def Settles (p p' : IdleDrainPolicy n) : Prop :=
  ∀ i, p'.states i = .drained → p.states i ≠ .warm

theorem Settles.trans_imp {p' p'' : IdleDrainPolicy n} (h : p.Settles p')
    (h' : ∀ i, p''.states i = .drained → p'.states i = .drained) : p.Settles p'' :=
  fun i hi => h i (h' i hi)

theorem settles_promoteDrained : p.Settles (p.promoteDrained config nowMs observations) := by
  intro i hi hw
  simp only [promoteDrained] at hi
  split at hi
  case isTrue h => cases h.1.symm.trans hw
  case isFalse => cases hi.symm.trans hw

theorem drained_release {target : Fin n} (h : (p.release nowMs target).states i = .drained) :
    p.states i = .drained := by
  simp only [release, update_apply] at h
  split at h
  · cases h
  · exact h

theorem settles_advanceDrain : p.Settles (p.advanceDrain config nowMs observations) := by
  have hp : p.Settles (p.promoteDrained config nowMs observations) := settles_promoteDrained
  unfold advanceDrain
  dsimp only
  split
  · exact hp
  split
  · exact hp
  split
  · exact hp
  · exact hp.trans_imp fun i => drained_release

theorem settles_advanceUtilization :
    p.Settles (p.advanceUtilization config nowMs observations) := by
  have hp : p.Settles (p.promoteDrained config nowMs observations) := settles_promoteDrained
  unfold advanceUtilization
  dsimp only
  split
  · -- Everything resumes.
    intro i hi
    cases hi
  split
  · exact hp
  split
  · exact hp
  split
  · exact hp
  split
  · exact hp
  · exact hp.trans_imp fun i => drained_release

theorem drained_restoreWarmFloorLoop {rounds : Nat}
    (h : (restoreWarmFloorLoop config nowMs observations rounds p).states i = .drained) :
    p.states i = .drained := by
  induction rounds generalizing p with
  | zero => exact h
  | succ rounds ih =>
    simp only [restoreWarmFloorLoop] at h
    split at h
    · exact h
    split at h
    · exact h
    have := ih h
    simp only [update_apply] at this
    split at this
    · cases this
    · exact this

theorem tick_drained (h : (p.tick config nowMs observations).1.states i = .drained) :
    p.states i ≠ .warm := by
  rw [tick_states] at h
  split at h
  · have h' := drained_restoreWarmFloorLoop h
    cases hr : config.release with
    | fleetIdle =>
      simp only [hr] at h'
      split at h'
      · exact settles_advanceDrain (p := p.recordUpstreamActivity nowMs observations) i h'
      · cases h'
    | utilization =>
      simp only [hr] at h'
      exact settles_advanceUtilization (p := p.recordUpstreamActivity nowMs observations) i h'
  · cases h

theorem tick_upstreams : (p.tick config nowMs observations).2.upstreams =
      (p.tick config nowMs observations).1.intent config observations := by
  unfold tick
  split <;> rfl

theorem intent_fenced : (p.intent config observations i).fenced ↔
      config.mode.fencesRouting ∧ p.states i ≠ .warm := by
  unfold intent
  split
  case isTrue h => simp [UpstreamIntent.warm, h]
  case isFalse h => simp [h]

theorem intent_safeToStop (h : (p.intent config observations i).safeToStop) :
    config.mode.fencesRouting ∧ p.states i = .drained ∧
      observations[i.val]?.any (·.inflight = 0) := by
  unfold intent at h
  split at h
  · cases h
  · simp only [Bool.and_eq_true, decide_eq_true_eq] at h
    exact ⟨h.1.1, h.1.2, h.2⟩

def healthyCount (n : Nat) (observations : List UpstreamObservation) : Nat :=
  (finRange n).countP fun i : Fin n => observedHealthy observations i

def fencedCount (p : IdleDrainPolicy n) : Nat :=
  (finRange n).countP fun i => (p.states i).fenced

theorem warmServingCount_resumeAll :
    p.resumeAll.warmServingCount observations = healthyCount n observations := by
  simp only [warmServingCount, healthyCount]
  congr 1

theorem healthyCount_le (h : p.selectRestore observations = none) :
    healthyCount n observations ≤ p.warmServingCount observations := by
  refine countP_mono_left fun i hi hh => ?_
  have hn := find?_eq_none.1 h i hi
  simp only [Bool.and_eq_true, not_and, Bool.not_eq_true] at hn
  have ha : (p.states i).fenced = false := by
    by_contra hf
    rw [Bool.not_eq_false] at hf
    rw [hn hf] at hh
    cases hh
  simp [serving, ha, hh]

theorem countP_update_lt {f : Fin n → UpstreamDrainState} {j : Fin n} (hj : (f j).fenced) :
    ((finRange n).countP fun i => (update f j .warm i).fenced) <
      (finRange n).countP fun i => (f i).fenced := by
  have hl : ∀ l : List (Fin n),
      (l.countP fun i => (update f j .warm i).fenced) ≤ l.countP fun i => (f i).fenced := by
    intro l
    refine countP_mono_left fun i _ hi => ?_
    rw [update_apply] at hi
    split at hi
    · cases hi
    · exact hi
  -- The element itself no longer counts.
  obtain ⟨before, after, hs⟩ := append_of_mem (mem_finRange j)
  rw [hs, countP_append, countP_append, countP_cons, countP_cons]
  have hw : UpstreamDrainState.warm.fenced = false := rfl
  simp only [update_self, hj, hw, if_true, Bool.false_eq_true, if_false]
  have hb := hl before
  have ha := hl after
  omega

theorem floor_restoreWarmFloorLoop {rounds : Nat} (h : p.fencedCount ≤ rounds) :
    min config.effectiveMinWarm (healthyCount n observations) ≤
      (restoreWarmFloorLoop config nowMs observations rounds p).warmServingCount observations := by
  induction rounds generalizing p with
  | zero =>
    rw [restoreWarmFloorLoop]
    refine (Nat.min_le_right _ _).trans (healthyCount_le ?_)
    have hn : ∀ i ∈ finRange n, ¬(p.states i).fenced :=
      countP_eq_zero.1 (Nat.le_zero.1 h)
    refine find?_eq_none.2 fun i hi => ?_
    simp [Bool.eq_false_of_not_eq_true (hn i hi)]
  | succ rounds ih =>
    simp only [restoreWarmFloorLoop]
    split
    case isTrue hf => exact (Nat.min_le_left _ _).trans hf
    case isFalse =>
      split
      case h_1 hn => exact (Nat.min_le_right _ _).trans (healthyCount_le hn)
      case h_2 restore hs =>
        have ha := find?_some hs
        simp only [Bool.and_eq_true] at ha
        refine ih (Nat.le_of_lt_succ (lt_of_lt_of_le ?_ h))
        exact countP_update_lt ha.1

theorem tick_floor : min config.effectiveMinWarm (healthyCount n observations) ≤
      (p.tick config nowMs observations).1.warmServingCount observations := by
  have hc : ∀ q : IdleDrainPolicy n, q.fencedCount ≤ n := fun q =>
    countP_le_length.trans (length_finRange).le
  unfold tick
  split
  · exact floor_restoreWarmFloorLoop (hc _)
  · refine (Nat.min_le_right _ _).trans ?_
    exact (warmServingCount_resumeAll (p := p)).ge

end IdleDrainPolicy
end Ramjet
