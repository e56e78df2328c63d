import Ramjet.Lib.Threads

/-!
# Adaptive controller

The topology controller of `adaptive.rs`: requests, the operations that stop one profile
and start another, the state file, crashes and starts, as threads.
-/

namespace Ramjet

structure AdaptiveEngine where
  upstream : Nat
  container : String
deriving DecidableEq

structure AdaptiveProfile where
  id : String
  engines : List AdaptiveEngine
deriving DecidableEq

def AdaptiveProfile.containers (profile : AdaptiveProfile) : List String :=
  profile.engines.map (·.container)

def AdaptiveProfile.upstreams (profile : AdaptiveProfile) : List Nat :=
  profile.engines.map (·.upstream)

structure AdaptiveTransition where
  source : String
  target : String
  allowDowntime : Bool

inductive AdaptiveMode where
  | off | manual | recommend | auto
deriving DecidableEq

/-- What `validate` accepts. -/
structure AdaptiveConfig where
  upstreams : Nat
  mode : AdaptiveMode
  activeProfile : String
  profiles : List AdaptiveProfile
  transitions : List AdaptiveTransition
  ids_nodup : (profiles.map (·.id)).Nodup
  engines_nonempty : ∀ profile ∈ profiles, profile.engines ≠ []
  upstreams_bounded : ∀ profile ∈ profiles, ∀ upstream ∈ profile.upstreams, upstream < upstreams
  upstreams_nodup : ∀ profile ∈ profiles, profile.upstreams.Nodup
  containers_nodup : (profiles.flatMap (·.containers)).Nodup
  active_exists : activeProfile ∈ profiles.map (·.id)
  transitions_exist : ∀ transition ∈ transitions, transition.source ∈ profiles.map (·.id) ∧
    transition.target ∈ profiles.map (·.id)
  transitions_move : ∀ transition ∈ transitions, transition.source ≠ transition.target
  transitions_nodup : (transitions.map fun t => (t.source, t.target)).Nodup

namespace AdaptiveConfig
variable (config : AdaptiveConfig)

def profile (id : String) : Option AdaptiveProfile := config.profiles.find? (·.id = id)

def transition (source target : String) : Option AdaptiveTransition :=
  config.transitions.find? fun t => t.source = source ∧ t.target = target

/-- Whether two profiles differ in their containers. -/
def requiresDowntime (transition : AdaptiveTransition) : Bool :=
  match config.profile transition.source, config.profile transition.target with
  | some source, some target =>
    !(source.containers.all (· ∈ target.containers) &&
      target.containers.all (· ∈ source.containers))
  | _, _ => true

end AdaptiveConfig

inductive AdaptivePhase where
  | idle | draining | stopping | starting | stabilizing | rollingBack | failed
deriving DecidableEq

/-- The pending transition leads away from the active profile. -/
structure PersistedTopology where
  mode : AdaptiveMode
  active : String
  pending : Option (String × AdaptivePhase)

inductive AdaptiveOperation where
  | transition (target : String)
  | rollback (target : String)
deriving DecidableEq

/-- A container as it is stopped, with the requests in flight on its upstream. -/
structure StopCall where
  container : String
  inflight : Nat

inductive RollbackStage where
  | none
  | starting (failed : String)
  | closed (failed : String)

structure AdaptiveMemory where
  up : Bool
  held : Bool
  mode : AdaptiveMode
  active : String
  phase : AdaptivePhase
  target : Option String
  disk : Option PersistedTopology
  running : String → Bool
  operation : Bool
  spawned : List AdaptiveOperation
  topology : List Nat
  reserved : List (Nat × Nat)
  handlers : List Nat
  rolling : RollbackStage
  stops : List StopCall

/-- How a call or a write ends. One that failed may have taken effect. -/
structure AdaptiveAnswers where
  ok : Bool
  effect : Bool

namespace AdaptiveMemory
variable (config : AdaptiveConfig) (m : AdaptiveMemory)

def inflight (upstream : Nat) : Nat :=
  m.reserved.countP fun reservation => reservation.2 = upstream

def totalInflight : Nat := m.reserved.length

def persistedState : PersistedTopology where
  mode := m.mode
  active := m.active
  pending := m.target.map fun target => (target, m.phase)

def write (state : PersistedTopology) (answers : AdaptiveAnswers) : AdaptiveMemory × Bool :=
  (if answers.ok || answers.effect then { m with disk := some state } else m, answers.ok)

def setPhase (phase : AdaptivePhase) : AdaptiveMemory := { m with phase }

def setTarget (target : Option String) : AdaptiveMemory := { m with target }

/-- The runtime without a transition. -/
def settle : AdaptiveMemory := { m with phase := .idle, target := none }

/-- The same by a thread that does not give the lock back. -/
def settleHolding : AdaptiveMemory := { m.settle with held := true }

def commit (target : String) : AdaptiveMemory :=
  { m with active := target, phase := .idle, target := none }

def uncommit (previous target : String) : AdaptiveMemory :=
  { m with active := previous, target := some target }

def setTopologyActive (active : List Nat) : AdaptiveMemory :=
  { m with topology := active, rolling := .none }

variable (engine : AdaptiveEngine)

def stop (answers : AdaptiveAnswers) : AdaptiveMemory × Bool :=
  ({ m with
      running :=
        if answers.ok || answers.effect then Function.update m.running engine.container false
        else m.running
      stops := ⟨engine.container, m.inflight engine.upstream⟩ :: m.stops }, answers.ok)

def start (answers : AdaptiveAnswers) : AdaptiveMemory × Bool :=
  ({ m with
      running :=
        if answers.ok || answers.effect then Function.update m.running engine.container true
        else m.running }, answers.ok)

/-- The checks of `begin_transition`. -/
def acceptsTransition (target : String) : Bool :=
  m.up && decide (m.phase = .idle) && m.target.isNone && decide (m.mode ≠ .off) &&
    decide (m.active ≠ target) &&
    match config.transition m.active target with
    | some transition => !config.requiresDowntime transition || transition.allowDowntime
    | none => false

variable (k : Nat)

def acceptTransition (target : String) : AdaptiveMemory × Bool :=
  if m.acceptsTransition config target then
    ({ m with phase := .draining, target := some target, handlers := k :: m.handlers }, true)
  else (m, false)

def acceptRollback : AdaptiveMemory × Option String :=
  match m.target with
  | some target =>
    if m.up && decide (m.phase = .failed) then
      ({ m with phase := .rollingBack, handlers := k :: m.handlers }, some target)
    else (m, none)
  | none => (m, none)

def leave : AdaptiveMemory := { m with handlers := m.handlers.filter (· ≠ k) }

/-- A request is through, and its operation is on its way. -/
def spawn (operation : AdaptiveOperation) : AdaptiveMemory :=
  { m with
    handlers := m.handlers.filter (· ≠ k)
    spawned := operation :: m.spawned }

def takeOperation (operation : AdaptiveOperation) : AdaptiveMemory :=
  { m with operation := true, spawned := m.spawned.erase operation }

def endOperation : AdaptiveMemory := { m with operation := false }

variable (failed : String)

def startRollback : AdaptiveMemory := { m with rolling := .starting failed }

def closeTopology : AdaptiveMemory :=
  { m with topology := [], rolling := .closed failed }

def acquire (k upstream : Nat) : AdaptiveMemory × Bool :=
  if upstream ∈ m.topology then ({ m with reserved := (k, upstream) :: m.reserved }, true)
  else (m, false)

def release : AdaptiveMemory :=
  { m with reserved := m.reserved.filter fun reservation => reservation.1 ≠ k }

end AdaptiveMemory

abbrev AdaptiveThread (α : Type) := Thread AdaptiveMemory AdaptiveAnswers α

namespace AdaptiveThread
open Thread
variable (config : AdaptiveConfig)

/-- An access to the runtime, which waits for its lock. -/
def runtime {α : Type} (f : AdaptiveAnswers → AdaptiveMemory → AdaptiveMemory × α) :
    AdaptiveThread α :=
  atomicWhen (fun m => !m.held) f

def updateRuntime (f : AdaptiveMemory → AdaptiveMemory) : AdaptiveThread Unit :=
  runtime fun _ m => (f m, ())

/-- A record names the active profile, so it reads the runtime. -/
def appendAudit : AdaptiveThread Bool := runtime fun answers m => (m, answers.ok)

def persist : AdaptiveThread Bool := do
  let state ← runtime fun _ m => (m, m.persistedState)
  atomic fun answers m => m.write state answers

def setPhase (phase : AdaptivePhase) : AdaptiveThread Bool := do
  updateRuntime (·.setPhase phase)
  persist

def failPending : AdaptiveThread Unit := do
  modify (·.setTopologyActive [])
  updateRuntime (·.setPhase .failed)
  let _ ← persist
  return ()

def stopEngines : List AdaptiveEngine → AdaptiveThread Bool
  | [] => return true
  | engine :: rest => do
    let stopped ← atomic fun answers m => m.stop engine answers
    if stopped then stopEngines rest else return false

def startEngines : List AdaptiveEngine → AdaptiveThread Bool
  | [] => return true
  | engine :: rest => do
    let started ← atomic fun answers m => m.start engine answers
    if started then startEngines rest else return false

/-- `wait_profile_ready`, then `set_topology_active` with the upstreams of the profile. -/
def activateProfile (profile : AdaptiveProfile) : AdaptiveThread Bool := do
  let ready ← ask (·.ok)
  if ready then do
    modify (·.setTopologyActive profile.upstreams)
    return true
  else return false

/-- Waits until nothing is in flight, or gives up. -/
def drain : AdaptiveThread Bool :=
  atomic fun answers m => (m, answers.ok && decide (m.totalInflight = 0))

def transitionBetween (source target : AdaptiveProfile) : AdaptiveThread Bool := do
  modify (·.setTopologyActive [])
  let drained ← drain
  if !drained then return false
  let stopping ← setPhase .stopping
  if !stopping then return false
  let stopped ← stopEngines source.engines
  if !stopped then return false
  let starting ← setPhase .starting
  if !starting then return false
  let started ← startEngines target.engines
  if !started then return false
  let stabilizing ← setPhase .stabilizing
  if !stabilizing then return false
  activateProfile target

def transitionOnce (source target : String) : AdaptiveThread Bool :=
  match config.profile source, config.profile target with
  | some source, some target => transitionBetween source target
  | _, _ => return false

def rollbackBetween (failed previous : AdaptiveProfile) : AdaptiveThread Bool := do
  let stopped ← stopEngines failed.engines
  if !stopped then return false
  let started ← startEngines previous.engines
  if !started then return false
  activateProfile previous

/-- The first action only notes where the rollback is. -/
def rollbackOnce (failed previous : String) : AdaptiveThread Bool := do
  modify (·.startRollback failed)
  modify (·.closeTopology failed)
  match config.profile failed, config.profile previous with
  | some failed, some previous => rollbackBetween failed previous
  | _, _ => return false

def commitTransition (previous target : String) : AdaptiveThread Unit := do
  updateRuntime (·.commit target)
  let saved ← persist
  if saved then return ()
  else do
    updateRuntime (·.uncommit previous target)
    failPending

def finishRollback (target : String) : AdaptiveThread Unit := do
  updateRuntime (·.settle)
  let saved ← persist
  if saved then return ()
  else do
    updateRuntime (·.setTarget (some target))
    failPending

def rollbackFailedTransition (previous target : String) : AdaptiveThread Unit := do
  let _ ← setPhase .rollingBack
  let rolledBack ← rollbackOnce config target previous
  if rolledBack then finishRollback target else failPending

/-- `locked`: the lock file of the deployment. -/
def executeTransition (target : String) : AdaptiveThread Unit := do
  let previous ← runtime fun _ m => (m, m.active)
  let locked ← ask (·.ok)
  if locked then do
    let completed ← transitionOnce config previous target
    if completed then commitTransition previous target
    else rollbackFailedTransition config previous target
  else failPending

def executeRollback (target : String) : AdaptiveThread Unit := do
  let previous ← runtime fun _ m => (m, m.active)
  let locked ← ask (·.ok)
  if locked then do
    let rolledBack ← rollbackOnce config target previous
    if rolledBack then finishRollback target else failPending
  else failPending

def execute (operation : AdaptiveOperation) : AdaptiveThread Unit := do
  await (fun m => !m.operation && decide (operation ∈ m.spawned)) (·.takeOperation operation)
  match operation with
  | .transition target => executeTransition config target
  | .rollback target => executeRollback config target
  modify (·.endOperation)

def announce (k : Nat) (operation : AdaptiveOperation) (undo : AdaptiveMemory → AdaptiveMemory)
    (unaudited : AdaptiveThread Unit) : AdaptiveThread Unit := do
  let saved ← persist
  if saved then do
    let audited ← appendAudit
    if audited then modify (·.spawn k operation)
    else do
      unaudited
      modify (·.leave k)
  else do
    updateRuntime undo
    modify (·.leave k)

-- The source still has the guard of the runtime when it persists without an audit record,
-- and `persist` takes the same lock: the request never returns and the lock stays taken.
def unauditedTransition : AdaptiveThread Unit := do
  updateRuntime (·.settleHolding)
  let _ ← persist
  return ()

def beginTransition (k : Nat) (target : String) : AdaptiveThread Unit := do
  let accepted ← runtime fun _ m => m.acceptTransition config k target
  if accepted then announce k (.transition target) (·.settle) unauditedTransition
  else return ()

-- A rollback gives the lock back first.
def unauditedRollback : AdaptiveThread Unit := do
  updateRuntime (·.setPhase .failed)
  let _ ← persist
  return ()

def beginRollback (k : Nat) : AdaptiveThread Unit := do
  let accepted ← runtime fun _ m => m.acceptRollback k
  match accepted with
  | some target => announce k (.rollback target) (·.setPhase .failed) unauditedRollback
  | none => return ()

def request (k upstream : Nat) : AdaptiveThread Unit := do
  let acquired ← atomic fun _ m => m.acquire k upstream
  if acquired then modify (·.release k) else return ()

end AdaptiveThread

inductive AdaptiveSlot where
  | handler (k : Nat)
  | operation
  | request (k : Nat)
deriving DecidableEq

/-- Manual and automatic transitions are begun alike. -/
inductive AdaptiveCode where
  | beginTransition (k : Nat) (target : String)
  | beginRollback (k : Nat)
  | execute (operation : AdaptiveOperation)
  | request (k upstream : Nat)

def AdaptiveCode.slot : AdaptiveCode → AdaptiveSlot
  | .beginTransition k _ | .beginRollback k => .handler k
  | .execute _ => .operation
  | .request k _ => .request k

def AdaptiveCode.thread (config : AdaptiveConfig) : AdaptiveCode → AdaptiveThread Unit
  | .beginTransition k target => AdaptiveThread.beginTransition config k target
  | .beginRollback k => AdaptiveThread.beginRollback k
  | .execute operation => AdaptiveThread.execute config operation
  | .request k upstream => AdaptiveThread.request k upstream

namespace AdaptiveMemory
variable (config : AdaptiveConfig) (m : AdaptiveMemory)

def Runs (running : String → Bool) (id : String) : Prop :=
  ∀ profile ∈ config.profiles, ∀ container ∈ profile.containers,
    running container → profile.id = id

instance (running : String → Bool) (id : String) : Decidable (Runs config running id) :=
  inferInstanceAs (Decidable (∀ _ ∈ _, ∀ _ ∈ _, _ → _))

/-- A process ends: what is left are the containers and the state file. -/
def crash : AdaptiveMemory :=
  { m with
    up := false, held := false, operation := false, spawned := [], topology := [], reserved := []
    handlers := [], rolling := .none }

def persistedActive : String :=
  match m.disk with
  | some state => state.active
  | none => config.activeProfile

def persistedMode : AdaptiveMode :=
  match m.disk with
  | some state => state.mode
  | none => config.mode

def persistedPending : Option (String × AdaptivePhase) := m.disk.bind (·.pending)

/-- What a start accepts of the state file. -/
def stateValid : Bool :=
  (config.profile (m.persistedActive config)).isSome && match m.persistedPending with
    | some (target, phase) =>
      (config.transition (m.persistedActive config) target).isSome && decide (phase ≠ .idle)
    | none => true

def reconciled : Bool :=
  config.profiles.all fun profile => profile.containers.all fun container =>
    m.running container = decide (profile.id = m.persistedActive config)

/-- The runtime of a process that starts. -/
def booted : AdaptiveMemory :=
  { m with
    mode := m.persistedMode config
    active := m.persistedActive config
    phase := if m.persistedPending.isSome then .failed else .idle
    target := m.persistedPending.map (·.1)
    topology :=
      if m.persistedPending.isSome then []
      else ((config.profile (m.persistedActive config)).map (·.upstreams)).getD [] }

def boot (answers : AdaptiveAnswers) (audited : Bool) : AdaptiveMemory :=
  if m.stateValid config && (m.persistedPending.isSome || m.reconciled config) then
    let (booted, saved) := (m.booted config).write (m.booted config).persistedState answers
    if saved && audited then { booted with up := true } else { m with disk := booted.disk }
  else m

structure Initial : Prop where
  up : m.up = false
  held : m.held = false
  runs : Runs config m.running (m.persistedActive config)
  operation : m.operation = false
  spawned : m.spawned = []
  topology : m.topology = []
  reserved : m.reserved = []
  handlers : m.handlers = []
  rolling : m.rolling = .none
  stops : m.stops = []

end AdaptiveMemory

def adaptiveMachine (config : AdaptiveConfig) :
    Machine AdaptiveMemory AdaptiveAnswers AdaptiveSlot AdaptiveCode where
  init := AdaptiveMemory.Initial config
  slot := AdaptiveCode.slot
  code := AdaptiveCode.thread config

abbrev AdaptiveMove := Machine.Move AdaptiveAnswers AdaptiveSlot AdaptiveCode

abbrev AdaptiveState := Machine.State AdaptiveMemory AdaptiveAnswers AdaptiveSlot

inductive ControllerMove where
  | move (move : AdaptiveMove)
  | crash
  | boot (answers : AdaptiveAnswers) (audited : Bool)

/-- A start finds nothing of the process before. -/
def controllerNext (config : AdaptiveConfig) (s : AdaptiveState) :
    ControllerMove → Option AdaptiveState
  | .move move => (adaptiveMachine config).next s move
  | .crash => some ⟨s.memory.crash, fun _ => .done ()⟩
  | .boot answers audited =>
    if s.memory.up then none
    else some ⟨s.memory.crash.boot config answers audited, fun _ => .done ()⟩

def ControllerMove.Meets (C : AdaptiveMemory → AdaptiveMove → Prop) (m : AdaptiveMemory) :
    ControllerMove → Prop
  | .move step => C m step
  | .crash | .boot .. => True

instance ControllerMove.Meets.decidable {C : AdaptiveMemory → AdaptiveMove → Prop}
    [∀ m move, Decidable (C m move)] (m : AdaptiveMemory) :
    (move : ControllerMove) → Decidable (move.Meets C m)
  | .move step => inferInstanceAs (Decidable (C m step))
  | .crash | .boot .. => inferInstanceAs (Decidable True)

/-- One process after the other, with a condition on the moves of each. -/
def adaptiveController (config : AdaptiveConfig) (C : AdaptiveMemory → AdaptiveMove → Prop) :
    TransitionSystem AdaptiveState ControllerMove where
  init := ((adaptiveMachine config).system C).init
  step s move s' := move.Meets C s.memory ∧ controllerNext config s move = some s'

theorem adaptiveController_holds {config : AdaptiveConfig}
    {C : AdaptiveMemory → AdaptiveMove → Prop} (spec : (adaptiveMachine config).Spec C)
    (hc : ∀ m, spec.inv m → spec.inv m.crash ∧ ∀ i, spec.idle i m.crash)
    (hb : ∀ m answers audited, spec.inv m → spec.inv (m.crash.boot config answers audited) ∧
      ∀ i, spec.idle i (m.crash.boot config answers audited)) {s : AdaptiveState}
    (h : (adaptiveController config C).Reachable s) : spec.Holds s := by
  have hi : ∀ s, (adaptiveController config C).init s → spec.Holds s := fun _ => spec.holds_init
  refine h.invariant hi fun s move s' hs hsp => ?_
  obtain ⟨hC, hn⟩ := hsp
  cases move with
  | move move => exact spec.holds_step hs ⟨hC, hn⟩
  | crash =>
    cases hn
    obtain ⟨hiv, hd⟩ := hc _ hs.1
    exact spec.holds_fresh hiv hd
  | boot answers audited =>
    simp only [controllerNext] at hn
    split at hn
    · cases hn
    cases hn
    obtain ⟨hiv, hd⟩ := hb _ answers audited hs.1
    exact spec.holds_fresh hiv hd

namespace SampleAdaptive

def threeProfiles : AdaptiveConfig where
  upstreams := 3
  mode := .manual
  activeProfile := "a"
  profiles := [⟨"a", [⟨0, "a0"⟩]⟩, ⟨"b", [⟨1, "b0"⟩]⟩, ⟨"c", [⟨2, "c0"⟩]⟩]
  transitions := [⟨"a", "b", true⟩, ⟨"b", "c", true⟩]
  ids_nodup := by decide
  engines_nonempty := by decide
  upstreams_bounded := by decide
  upstreams_nodup := by decide
  containers_nodup := by decide
  active_exists := by decide
  transitions_exist := by decide
  transitions_move := by decide
  transitions_nodup := by decide

def memory : AdaptiveMemory where
  up := false
  held := false
  mode := .manual
  active := "a"
  phase := .idle
  target := none
  disk := none
  running := fun container => container = "a0"
  operation := false
  spawned := []
  topology := []
  reserved := []
  handlers := []
  rolling := .none
  stops := []

def start : AdaptiveState := ⟨memory, fun _ => .done ()⟩

theorem initial : AdaptiveMemory.Initial threeProfiles memory where
  up := rfl
  held := rfl
  runs := by decide
  operation := rfl
  spawned := rfl
  topology := rfl
  reserved := rfl
  handlers := rfl
  rolling := rfl
  stops := rfl

theorem exists_reachable (C : AdaptiveMemory → AdaptiveMove → Prop)
    [∀ m move, Decidable (C m move)] (moves : List ControllerMove) (P : AdaptiveState → Prop)
    [DecidablePred P] (hu : (moves.foldlM (TransitionSystem.guardNext
      (fun s move => decide (move.Meets C s.memory)) (controllerNext threeProfiles)) start).any
        (fun s => decide (P s)) = true) :
    ∃ s, (adaptiveController threeProfiles C).Reachable s ∧ P s :=
  TransitionSystem.Reachable.exists_of_any moves P
    (fun _ _ _ hC hn => ⟨of_decide_eq_true hC, hn⟩) (.init (s := start) ⟨initial, rfl⟩) hu

def ok : AdaptiveAnswers := ⟨true, true⟩

/-- A call that fails without an effect. -/
def refused : AdaptiveAnswers := ⟨false, false⟩

def runs (slot : AdaptiveSlot) (n : Nat) : List ControllerMove :=
  List.replicate n (.move (.run slot ok))

def booting : ControllerMove := .boot ok true

/-- A request for a transition, up to the operation that it starts. -/
def requested (k : Nat) (target : String) : List ControllerMove :=
  .move (.start (.beginTransition k target)) :: runs (.handler k) 5

def committed (target : String) : List ControllerMove :=
  .move (.start (.execute (.transition target))) :: runs .operation 19

end SampleAdaptive
end Ramjet
