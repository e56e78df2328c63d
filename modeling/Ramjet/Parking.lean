import Ramjet.ParkActuation
import Ramjet.Lib.Threads

/-!
# Parking under traffic

The idle-drain round of `proxy.rs` as a thread beside requests, health, topology and its
calls.
-/

namespace Ramjet
variable {n : Nat}

/-- What the parser accepts. Several upstreams may be ranks of one engine. -/
structure ParkingConfig (n : Nat) where
  upstreams : Fin n → String
  dpRanks : Option (Fin n → Option Nat)
  idleDrain : IdleDrainConfig
  enginePark : EngineParkConfig
  nonempty : 0 < n
  dpRanks_bounded : ∀ ranks ∈ dpRanks, ∀ u, ∀ rank ∈ ranks u, rank ≤ 255
  dpRanks_distinct : ∀ ranks ∈ dpRanks, ∀ u v, upstreams u = upstreams v → ranks u = ranks v → u = v
  drain_upstreams : idleDrain.mode = .drain → 2 ≤ n
  minWarm_bounded : 0 < idleDrain.minWarm ∧ idleDrain.minWarm ≤ n
  maxParked_pos : 0 < enginePark.maxParked
  maxParked_bounded : idleDrain.mode = .drain → enginePark.maxParked < n
  idleAfter_bounded : 60000 ≤ idleDrain.idleAfter ∧ idleDrain.idleAfter ≤ 86400000
  cooldown_bounded : 1000 ≤ idleDrain.cooldown ∧ idleDrain.cooldown ≤ 86400000
  drainGrace_bounded : 1000 ≤ idleDrain.drainGrace ∧ idleDrain.drainGrace ≤ 86400000
  upstreamIdleAfter_bounded : 1000 ≤ idleDrain.upstreamIdleAfter ∧
    idleDrain.upstreamIdleAfter ≤ 86400000
  upstreamIdleAfter_utilization : idleDrain.release = .utilization →
    60000 ≤ idleDrain.upstreamIdleAfter
  resumeLoad_pos : 0 < idleDrain.resumeLoadPerReplica

/-- Whether the balancer sends sleep and wake calls. -/
def ParkingConfig.actuates (config : ParkingConfig n) : Bool :=
  config.enginePark.actuator.actuates && config.idleDrain.mode.fencesRouting

inductive AuthorityOwner where
  | drainer | topology
deriving DecidableEq

/-- A sleep as it was sent, with the requests in flight on every upstream. -/
structure SleepCall (n : Nat) where
  upstream : Fin n
  drained : Bool
  inflight : Fin n → Nat

structure SentRequest (n : Nat) where
  upstream : Fin n
  asleep : Bool

/-- Where a round is: before its decision or after it. -/
inductive RoundPhase where
  | idle | sampling | settling
deriving DecidableEq

structure ParkingMemory (n : Nat) where
  drained : Fin n → Bool
  healthy : Fin n → Bool
  reserved : List (Nat × Fin n)
  policy : IdleDrainPolicy n
  fenced : Fin n → Bool
  topologyActive : Fin n → Bool
  authority : Option AuthorityOwner
  samples : Fin n → UpstreamObservation
  intents : Fin n → UpstreamIntent
  nextTopology : Fin n → Bool
  drainedMask : Fin n → Bool
  actuation : ParkActuation n
  sleeps : List (SleepCall n)
  sent : List (SentRequest n)
  round : RoundPhase
  kept : Bool

namespace ParkingMemory
variable (config : ParkingConfig n) (m : ParkingMemory n) (u : Fin n)

def inflight : Nat := m.reserved.countP fun reservation => reservation.2 = u

/-- The state of one upstream in the router. -/
def sample : ParkingMemory n :=
  { m with samples := Function.update m.samples u ⟨m.healthy u, m.inflight u⟩ }

def tick (nowMs : Nat) : ParkingMemory n :=
  let (policy, decision) := m.policy.tick config.idleDrain nowMs (List.ofFn m.samples)
  { m with policy, intents := decision.upstreams, round := .settling }

def lock (owner : AuthorityOwner) : ParkingMemory n := { m with authority := some owner }

def unlock : ParkingMemory n := { m with authority := none }

def publishFenced : ParkingMemory n := { m with fenced := fun u => (m.intents u).fenced }

def parkState : ParkState := if config.actuates then m.actuation.park u else .awake

def routingFenced : Bool :=
  !m.topologyActive u || Ramjet.fenced (m.intents u) (m.parkState config u)

def routable : Nat := (List.finRange n).countP fun u => m.healthy u && !m.drained u

/-- The upstreams that could serve. -/
def serviceable : Nat :=
  (List.finRange n).countP fun u =>
    m.healthy u && m.topologyActive u && decide (m.parkState config u = .awake)

def keepsFloor : Bool :=
  decide (min config.idleDrain.minWarm (m.serviceable config) ≤ m.routable)

def startRound : ParkingMemory n := { m with round := .sampling }

def endRound : ParkingMemory n :=
  { m with round := .idle, kept := m.kept && m.keepsFloor config }

def setDrained : ParkingMemory n :=
  { m with drained := Function.update m.drained u (m.routingFenced config u) }

def plan : ParkingMemory n :=
  { m with actuation := m.actuation.planRound config.enginePark m.intents }

def mark : ParkingMemory n := { m with actuation := m.actuation.mark }

def collect : ParkingMemory n := { m with actuation := m.actuation.collect }

def send : ParkingMemory n :=
  { m with
    actuation := m.actuation.send config.upstreams u
    sleeps :=
      if m.actuation.actions u = some .sleep then ⟨u, m.drained u, m.inflight⟩ :: m.sleeps
      else m.sleeps }

def answer (ok : Bool) : ParkingMemory n :=
  { m with actuation := m.actuation.answer config.upstreams u ok }

def setNextTopology (active : Fin n → Bool) : ParkingMemory n := { m with nextTopology := active }

def setDrainedMask : ParkingMemory n :=
  { m with
    drainedMask := Function.update m.drainedMask u
      (!m.nextTopology u || m.fenced u || (m.parkState config u).mustFence) }

def applyDrainedMask : ParkingMemory n := { m with drained := m.drainedMask }

def applyTopology : ParkingMemory n := { m with topologyActive := m.nextTopology }

def acquire (k : Nat) (u : Fin n) (failingOpen : Bool) : ParkingMemory n × Bool :=
  if !m.drained u && (m.healthy u || failingOpen) then
    ({ m with reserved := (k, u) :: m.reserved }, true)
  else (m, false)

def sendRequest : ParkingMemory n :=
  { m with sent := ⟨u, m.actuation.asleep (config.upstreams u)⟩ :: m.sent }

def release (k : Nat) : ParkingMemory n :=
  { m with reserved := m.reserved.filter fun reservation => reservation.1 ≠ k }

end ParkingMemory

/-- The clock, and whether a call to an engine succeeded. -/
structure ParkingAnswers where
  nowMs : Nat
  ok : Bool

abbrev ParkingThread (n : Nat) (α : Type) := Thread (ParkingMemory n) ParkingAnswers α

namespace ParkingThread
open Thread
variable (config : ParkingConfig n)

def lock (owner : AuthorityOwner) : ParkingThread n Unit :=
  await (·.authority = none) (·.lock owner)

def unlock : ParkingThread n Unit := modify (·.unlock)

def setAllDrained : ParkingThread n Unit :=
  forEach (fun u => modify (·.setDrained config u)) (List.finRange n)

/-- The policy's fences, then the router's. -/
def publishFences : ParkingThread n Unit := do
  modify (·.publishFenced)
  (if config.idleDrain.mode.fencesRouting then setAllDrained config else .done ())

def publishIdleDrain : ParkingThread n Unit := do
  lock .drainer
  publishFences config
  unlock

def applyParkFences : ParkingThread n Unit := do
  lock .drainer
  setAllDrained config
  unlock

/-- With nothing to collect the round ends as it is. -/
def collectOutcomes : ParkingThread n Unit := do
  let pending ← read fun m => (List.finRange n).any fun u => (m.actuation.actions u).isSome
  (if pending then do
    await (·.actuation.collectable) (·.collect)
    applyParkFences config
  else await (·.actuation.collectable) (·.collect))

def convergeEngineParking : ParkingThread n Unit :=
  if config.actuates then do
    modify (·.plan config)
    modify (·.mark)
    applyParkFences config
    collectOutcomes config
  else .done ()

def idleDrainRound : ParkingThread n Unit :=
  if config.idleDrain.mode.enabled then do
    modify (·.startRound)
    forEach (fun u => modify (·.sample u)) (List.finRange n)
    atomic fun answers m => (m.tick config answers.nowMs, ())
    publishIdleDrain config
    convergeEngineParking config
    modify (·.endRound config)
  else .done ()

/-- One call of a round, beside the others. -/
def actuatePark (u : Fin n) : ParkingThread n Unit := do
  await (·.actuation.ready u) (·.send config u)
  atomic fun answers m => (m.answer config u answers.ok, ())

variable (active : List Nat)

/-- Indices out of range and duplicates are refused. -/
def topologyOf : Option (Fin n → Bool) :=
  if (∀ index ∈ active, index < n) ∧ active.Nodup then some fun u => decide (u.val ∈ active)
  else none

def setTopologyActive : ParkingThread n Unit := do
  lock .topology
  (match topologyOf active with
  | some next => do
    modify (·.setNextTopology next)
    forEach (fun u => modify (·.setDrainedMask config u)) (List.finRange n)
    modify (·.applyDrainedMask)
    modify (·.applyTopology)
  | none => .done ())
  unlock

def request (k : Nat) (u : Fin n) (failingOpen : Bool) : ParkingThread n Unit := do
  let acquired ← atomic fun _ m => m.acquire k u failingOpen
  (if acquired then do
    modify (·.sendRequest config u)
    modify (·.release k)
  else .done ())

end ParkingThread

inductive ParkingSlot (n : Nat) where
  | drainer
  | call (u : Fin n)
  | topology
  | request (k : Nat)
  | health
  | outside
deriving DecidableEq

/-- What may be started. `sleepTakesEffect` and `wakeTakesEffect` are engines that act on
a call whose answer did not arrive. -/
inductive ParkingCode (n : Nat) where
  | idleDrainRound
  | actuatePark (u : Fin n)
  | setTopologyActive (active : List Nat)
  | request (k : Nat) (u : Fin n) (failingOpen : Bool)
  | setHealthy (u : Fin n) (healthy : Bool)
  | observeActivity
  | sleepTakesEffect (u : Fin n)
  | wakeTakesEffect (u : Fin n)

abbrev ParkingMove (n : Nat) := Machine.Move ParkingAnswers (ParkingSlot n) (ParkingCode n)

def ParkingCode.slot : ParkingCode n → ParkingSlot n
  | .idleDrainRound => .drainer
  | .actuatePark u => .call u
  | .setTopologyActive _ => .topology
  | .request k _ _ => .request k
  | .setHealthy .. => .health
  | .observeActivity | .sleepTakesEffect _ | .wakeTakesEffect _ => .outside

/-- An event of the engines, if it can happen. -/
def ParkingMemory.engineEvent (config : ParkingConfig n) (event : ParkEvent n)
    (m : ParkingMemory n) : ParkingMemory n :=
  { m with
    actuation := (m.actuation.next config.enginePark config.upstreams event).getD m.actuation }

def ParkingCode.thread (config : ParkingConfig n) : ParkingCode n → ParkingThread n Unit
  | .idleDrainRound => ParkingThread.idleDrainRound config
  | .actuatePark u => ParkingThread.actuatePark config u
  | .setTopologyActive active => ParkingThread.setTopologyActive config active
  | .request k u failingOpen => ParkingThread.request config k u failingOpen
  | .setHealthy u healthy =>
    Thread.modify fun m => { m with healthy := Function.update m.healthy u healthy }
  | .observeActivity =>
    Thread.atomic fun answers m =>
      ({ m with policy := m.policy.observeActivity answers.nowMs }, ())
  | .sleepTakesEffect u => Thread.modify (·.engineEvent config (.sleepTakesEffect u))
  | .wakeTakesEffect u => Thread.modify (·.engineEvent config (.wakeTakesEffect u))

/-- A process that has just started. -/
structure ParkingMemory.Initial (m : ParkingMemory n) : Prop where
  drained : m.drained = fun _ => false
  reserved : m.reserved = []
  policy : m.policy = IdleDrainPolicy.new 0
  fenced : m.fenced = fun _ => false
  authority : m.authority = none
  actuation : m.actuation.Initial
  sleeps : m.sleeps = []
  sent : m.sent = []
  round : m.round = .idle
  kept : m.kept

/-- Processes over engines that meet a condition when they start. -/
def parkingMachine (config : ParkingConfig n) (start : ParkActuation n → Prop) :
    Machine (ParkingMemory n) ParkingAnswers (ParkingSlot n) (ParkingCode n) where
  init m := m.Initial ∧ start m.actuation
  slot := ParkingCode.slot
  code := ParkingCode.thread config

namespace SampleParking

scoped instance neZero : NeZero 2 := ⟨by decide⟩

/-- Ranks by index, so that several replicas may share an engine. -/
def fleet (upstreams : Fin n → String) (maxParked : Nat) (hn : 2 ≤ n ∧ n ≤ 256)
    (hp : 0 < maxParked ∧ maxParked < n) : ParkingConfig n where
  upstreams
  dpRanks := some fun u => some u.val
  idleDrain :=
    { mode := .drain
      release := .utilization
      idleAfter := 900000
      minWarm := 1
      cooldown := 1000
      drainGrace := 30000
      upstreamIdleAfter := 300000
      resumeLoadPerReplica := 4 }
  enginePark := ⟨.sleep, maxParked⟩
  nonempty := Nat.zero_lt_of_lt hn.1
  dpRanks_bounded := by
    rintro _ ⟨⟩ u rank ⟨⟩
    exact Nat.le_of_lt_succ (u.isLt.trans_le hn.2)
  dpRanks_distinct := by
    rintro _ ⟨⟩ u v - h
    exact Fin.ext (Option.some.inj h)
  drain_upstreams _ := hn.1
  minWarm_bounded := ⟨Nat.one_pos, Nat.zero_lt_of_lt hn.1⟩
  maxParked_pos := hp.1
  maxParked_bounded _ := hp.2
  idleAfter_bounded := by decide
  cooldown_bounded := by decide
  drainGrace_bounded := by decide
  upstreamIdleAfter_bounded := by decide
  upstreamIdleAfter_utilization _ := by decide
  resumeLoad_pos := by decide

def pair (shared : Bool) : ParkingConfig 2 :=
  fleet (fun u => if shared || u = 0 then "http://a:8000" else "http://b:8000") 1
    ⟨le_rfl, by decide⟩ ⟨Nat.one_pos, Nat.one_lt_two⟩

def memory : ParkingMemory n where
  drained _ := false
  healthy _ := true
  reserved := []
  policy := IdleDrainPolicy.new 0
  fenced _ := false
  topologyActive _ := true
  authority := none
  samples _ := ⟨true, 0⟩
  intents _ := .warm
  nextTopology _ := true
  drainedMask _ := false
  actuation :=
    { park := fun _ => .awake
      actions := fun _ => none
      calls := fun _ => .unsent
      stage := .idle
      asleep := fun _ => false
      sleepPending := fun _ => false
      wakePending := fun _ => false
      sleeping := fun _ => false
      slept := fun _ => false }
  sleeps := []
  sent := []
  round := .idle
  kept := true

theorem initial : (memory (n := n)).Initial :=
  ⟨rfl, rfl, rfl, rfl, rfl, ⟨rfl, rfl, rfl, rfl, rfl⟩, rfl, rfl, rfl, rfl⟩

theorem enginesAwake : (memory (n := n)).actuation.EnginesAwake := ⟨rfl, rfl⟩

abbrev State (n : Nat) := Machine.State (ParkingMemory n) ParkingAnswers (ParkingSlot n)

def start : State n := ⟨memory, fun _ => .done ()⟩

def round (nowMs actions : Nat) : List (ParkingMove n) :=
  .start .idleDrainRound :: List.replicate actions (.run .drainer ⟨nowMs, true⟩)

/-- A call of the round that waits for it. -/
def call (u : Fin n) (nowMs actions : Nat) : List (ParkingMove n) :=
  .start (.actuatePark u) :: List.replicate actions (.run (.call u) ⟨nowMs, true⟩)

def quietReplica : List (ParkingMove 2) :=
  [.start (.request 0 0 false), .run (.request 0) ⟨0, true⟩] ++ round 300000 18 ++
    round 330000 16 ++ call 1 330000 1

/-- The second engine goes to sleep. -/
def putToSleep : List (ParkingMove 2) := quietReplica ++ [.run (.call 1) ⟨330000, true⟩]

end SampleParking
end Ramjet
