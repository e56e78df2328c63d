import Ramjet.IdleDrain
import Ramjet.Lib.Runs

/-!
# Engine parking

Beliefs about the replicas' sleep states and one round of actions towards the policy's
intent: planned, marked, sent, answered, collected. A call that failed may have taken
effect, or may until a later call to the engine is answered.
-/

namespace Ramjet
open Finset Function List

inductive ParkActuator where
  | off | sleep
deriving DecidableEq

def ParkActuator.actuates (actuator : ParkActuator) : Bool := actuator = .sleep

structure EngineParkConfig where
  actuator : ParkActuator
  maxParked : Nat

inductive ParkState where
  | awake | parking | parked | waking | unknown
deriving DecidableEq

def ParkState.mustFence : ParkState → Bool
  | .awake => false
  | .parking | .parked | .waking | .unknown => true

def ParkState.occupiesParkSlot : ParkState → Bool
  | .parking | .parked => true
  | .awake | .waking | .unknown => false

inductive ParkAction where
  | sleep | wake | reconcile
deriving DecidableEq

/-- Whether routing withholds a replica. -/
def fenced (intent : UpstreamIntent) (park : ParkState) : Bool := intent.fenced || park.mustFence

theorem mustFence_iff {state : ParkState} : state.mustFence ↔ state ≠ .awake := by
  cases state <;> decide

section Plan
variable {n : Nat} (config : EngineParkConfig) (intents : Fin n → UpstreamIntent)
  (states : Fin n → ParkState)

def planResume (upstream : Fin n) : Option ParkAction :=
  if (intents upstream).desiredRunning then
    match states upstream with
    | .parked | .parking => some .wake
    | .unknown => some .reconcile
    | .awake | .waking => none
  else none

def planPark (plan : (Fin n → Option ParkAction) × Nat) (upstream : Fin n) :
    (Fin n → Option ParkAction) × Nat :=
  if (plan.1 upstream).isSome then plan
  else if (intents upstream).desiredRunning || !(intents upstream).safeToStop ||
      decide (states upstream ≠ .awake) then plan
  else if config.maxParked ≤ plan.2 then plan
  else (update plan.1 upstream (some .sleep), plan.2 + 1)

/-- Resuming before parking; parking within the cap. -/
def planParking : Fin n → Option ParkAction :=
  if config.actuator.actuates then
    ((finRange n).foldl (planPark config intents states)
      (planResume intents states, (finRange n).countP fun u => (states u).occupiesParkSlot)).1
  else fun _ => none

/-- What an action needs of its replica. -/
def Plannable (intent : UpstreamIntent) (state : ParkState) : ParkAction → Prop
  | .sleep => intent.safeToStop ∧ state = .awake
  | .wake => state = .parked ∨ state = .parking
  | .reconcile => state = .unknown

/-- The replicas that an action list puts to sleep. -/
def sleepers (actions : Fin n → Option ParkAction) : Finset (Fin n) :=
  univ.filter fun u => actions u = some .sleep

variable {action : ParkAction} {u : Fin n} {occupied : Nat}

theorem plannable_planResume {intents : Fin n → UpstreamIntent} {states : Fin n → ParkState}
    (h : planResume intents states u = some action) :
    Plannable (intents u) (states u) action ∧ action ≠ .sleep := by
  unfold planResume at h
  split at h
  · split at h
    case h_1 hs => cases h; exact ⟨.inl hs, by decide⟩
    case h_2 hs => cases h; exact ⟨.inr hs, by decide⟩
    case h_3 hs => cases h; exact ⟨hs, by decide⟩
    all_goals cases h
  · cases h

theorem planPark_cases (plan : (Fin n → Option ParkAction) × Nat) (u : Fin n) :
    planPark config intents states plan u = plan ∨
      (plan.1 u = none ∧ Plannable (intents u) (states u) .sleep ∧ plan.2 < config.maxParked ∧
        planPark config intents states plan u =
          (update plan.1 u (some .sleep), plan.2 + 1)) := by
  unfold planPark
  split
  · exact .inl rfl
  case isFalse hn =>
    split
    · exact .inl rfl
    case isFalse hs =>
      split
      · exact .inl rfl
      case isFalse hc =>
        simp only [Bool.or_eq_true, not_or, Bool.not_eq_true, Bool.not_eq_false',
          decide_eq_true_eq, not_not] at hs
        refine .inr ⟨?_, ⟨hs.1.2, hs.2⟩, Nat.lt_of_not_le hc, rfl⟩
        simpa only [Option.isSome_iff_ne_none, not_not] using hn

variable {config} {intents} {states}

structure Planned (config : EngineParkConfig) (intents : Fin n → UpstreamIntent)
    (states : Fin n → ParkState) (occupied : Nat) (plan : (Fin n → Option ParkAction) × Nat) :
    Prop where
  plannable : ∀ u action, plan.1 u = some action → Plannable (intents u) (states u) action
  count : plan.2 = occupied + (sleepers plan.1).card
  cap : plan.2 ≤ max occupied config.maxParked

theorem sleepers_update {actions : Fin n → Option ParkAction} (h : actions u = none) :
    (sleepers (update actions u (some .sleep))).card = (sleepers actions).card + 1 := by
  have hi : sleepers (update actions u (some .sleep)) = insert u (sleepers actions) := by
    ext v
    simp only [sleepers, mem_insert, update_apply]
    by_cases hv : v = u <;> simp [hv]
  have hn : u ∉ sleepers actions := by simp [sleepers, h]
  rw [hi, card_insert_of_notMem hn]

variable {plan : (Fin n → Option ParkAction) × Nat}

theorem Planned.planPark (h : Planned config intents states occupied plan) (u : Fin n) :
    Planned config intents states occupied (planPark config intents states plan u) := by
  rcases planPark_cases config intents states plan u with heq | ⟨hn, hf, hc, heq⟩
  · rw [heq]
    exact h
  rw [heq]
  refine ⟨fun v action hv => ?_, ?_, ?_⟩
  · simp only [update_apply] at hv
    split at hv
    case isTrue hu =>
      subst hu
      cases hv
      exact hf
    case isFalse => exact h.plannable v action hv
  · simp only [sleepers_update hn, h.count]
    omega
  · exact (Nat.succ_le_of_lt hc).trans (le_max_right _ _)

theorem planned_foldl (l : List (Fin n)) (h : Planned config intents states occupied plan) :
    Planned config intents states occupied (l.foldl (planPark config intents states) plan) := by
  induction l generalizing plan with
  | nil => exact h
  | cons u rest ih => exact ih (h.planPark u)

variable (intents) (states) in
theorem planned_planParking (ha : config.actuator.actuates) : ∃ slots, Planned config intents states
      ((finRange n).countP fun u => (states u).occupiesParkSlot)
      (planParking config intents states, slots) := by
  rw [planParking, if_pos ha]
  refine ⟨_, planned_foldl (finRange n) ⟨?_, ?_, le_max_left _ _⟩⟩
  · exact fun u action h => (plannable_planResume h).1
  have hn : sleepers (planResume intents states) = ∅ := by
    refine filter_eq_empty_iff.2 fun u _ h => ?_
    exact (plannable_planResume h).2 rfl
  simp [hn]

theorem plannable_planParking (h : planParking config intents states u = some action) :
    Plannable (intents u) (states u) action := by
  by_cases ha : config.actuator.actuates = true
  · obtain ⟨slots, hp⟩ := planned_planParking intents states ha
    exact hp.plannable u action h
  · rw [planParking, if_neg ha] at h
    cases h

variable (config) (intents) (states) in
theorem card_sleepers_planParking : ((finRange n).countP fun u => (states u).occupiesParkSlot) +
        (sleepers (planParking config intents states)).card ≤
      max ((finRange n).countP fun u => (states u).occupiesParkSlot) config.maxParked := by
  by_cases ha : config.actuator.actuates = true
  · obtain ⟨slots, hp⟩ := planned_planParking intents states ha
    exact hp.count ▸ hp.cap
  have hn : sleepers (planParking config intents states) = ∅ := by
    refine filter_eq_empty_iff.2 fun u _ h => ?_
    rw [planParking, if_neg ha] at h
    cases h
  rw [hn, card_empty, Nat.add_zero]
  exact le_max_left _ _

end Plan
end Ramjet
