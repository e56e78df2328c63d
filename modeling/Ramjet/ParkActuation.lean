import Ramjet.EnginePark
import Ramjet.Lib.Runs

/-!
# Park actuation

One round of sleep and wake calls after the other, over engines that replicas may share.
A replica whose last sleep nobody has undone is not believed awake.
-/

namespace Ramjet
open Function

inductive ParkCall (n : Nat) where
  | unsent
  | sent (before : Fin n → Bool)
  | answered (outcome : ParkState)

def ParkCall.isUnsent {n : Nat} : ParkCall n → Bool
  | .unsent => true
  | .sent _ | .answered _ => false

def ParkCall.isAnswered {n : Nat} : ParkCall n → Bool
  | .answered _ => true
  | .unsent | .sent _ => false

inductive ParkStage where
  | idle | planned | marked
deriving DecidableEq

/-- `park` is the belief. `asleep` are the engines, by URL, with the calls that may still
take effect. `sleeping` and `slept` are history: a sleep was sent, for the replica or for
its URL, and since then no wake succeeded and no `is_sleeping` answered false. -/
structure ParkActuation (n : Nat) where
  park : Fin n → ParkState
  actions : Fin n → Option ParkAction
  calls : Fin n → ParkCall n
  stage : ParkStage
  asleep : String → Bool
  sleepPending : Fin n → Bool
  wakePending : Fin n → Bool
  sleeping : Fin n → Bool
  slept : String → Bool

inductive ParkEvent (n : Nat) where
  | plan (intents : Fin n → UpstreamIntent)
  | mark
  | send (u : Fin n)
  | answer (u : Fin n) (ok : Bool)
  | collect
  | sleepTakesEffect (u : Fin n)
  | wakeTakesEffect (u : Fin n)

namespace ParkActuation
variable {n : Nat} (config : EngineParkConfig) (engine : Fin n → String) (a : ParkActuation n)

/-- The start of a process, over whatever the engines are in. -/
structure Initial : Prop where
  park : a.park = fun _ => .awake
  actions : a.actions = fun _ => none
  stage : a.stage = .idle
  sleeping : a.sleeping = fun _ => false
  slept : a.slept = fun _ => false

structure EnginesAwake : Prop where
  asleep : a.asleep = fun _ => false
  sleepPending : a.sleepPending = fun _ => false

def planRound (intents : Fin n → UpstreamIntent) : ParkActuation n :=
  { a with
    actions := planParking config intents a.park
    calls := fun _ => .unsent
    stage := .planned }

def markState (action : Option ParkAction) (state : ParkState) : ParkState :=
  match action with
  | some .sleep => .parking
  | some .wake => .waking
  | some .reconcile | none => state

/-- The in-flight state is published before anything is sent. -/
def mark : ParkActuation n :=
  { a with park := fun u => markState (a.actions u) (a.park u), stage := .marked }

def ready (u : Fin n) : Bool :=
  decide (a.stage = .marked) && (a.actions u).isSome && (a.calls u).isUnsent

def send (u : Fin n) : ParkActuation n :=
  let a := { a with calls := update a.calls u (.sent a.sleepPending) }
  match a.actions u with
  | some .sleep =>
    { a with
      sleepPending := update a.sleepPending u true
      sleeping := update a.sleeping u true
      slept := update a.slept (engine u) true }
  | some .wake => { a with wakePending := update a.wakePending u true }
  | some .reconcile | none => a

def finish (u : Fin n) (outcome : ParkState) : ParkActuation n :=
  { a with calls := update a.calls u (.answered outcome) }

def settle (u : Fin n) (before : Fin n → Bool) : ParkActuation n :=
  { a with
    sleepPending := fun v => a.sleepPending v && !(before v && decide (engine v = engine u)) }

/-- The replica and its URL were found awake. -/
def foundAwake (u : Fin n) : ParkActuation n :=
  { a with
    sleeping := update a.sleeping u false
    slept := update a.slept (engine u) false }

/-- A call that succeeded. -/
def succeed (u : Fin n) : ParkAction → ParkActuation n
  | .sleep =>
    { a with
      asleep := update a.asleep (engine u) true
      sleepPending := update a.sleepPending u false }.finish u .parked
  | .wake =>
    ({ a with
      asleep := update a.asleep (engine u) false
      wakePending := update a.wakePending u false }.foundAwake engine u).finish u .awake
  | .reconcile =>
    if a.asleep (engine u) then a.finish u .parked
    else (a.foundAwake engine u).finish u .awake

def answer (u : Fin n) (ok : Bool) : ParkActuation n :=
  match a.actions u, a.calls u with
  | some action, .sent before =>
    if ok then (a.settle engine u before).succeed engine u action else a.finish u .unknown
  | _, _ => a

def collectable : Bool :=
  (List.finRange n).all fun u => (a.actions u).isNone || (a.calls u).isAnswered

def outcome (u : Fin n) : ParkState :=
  match a.actions u, a.calls u with
  | some _, .answered outcome => outcome
  | _, _ => a.park u

def collect : ParkActuation n :=
  { a with
    park := a.outcome
    actions := fun _ => none
    calls := fun _ => .unsent
    stage := .idle }

def isSent (u : Fin n) : Bool :=
  match a.actions u, a.calls u with
  | some _, .sent _ => true
  | _, _ => false

def next : ParkEvent n → Option (ParkActuation n)
  | .plan intents => if a.stage = .idle then some (a.planRound config intents) else none
  | .mark => if a.stage = .planned then some a.mark else none
  | .send u => if a.ready u then some (a.send engine u) else none
  | .answer u ok =>
    if a.stage = .marked ∧ a.isSent u then some (a.answer engine u ok) else none
  | .collect => if a.stage = .marked ∧ a.collectable then some a.collect else none
  | .sleepTakesEffect u =>
    if a.sleepPending u then
      some { a with
        asleep := update a.asleep (engine u) true
        sleepPending := update a.sleepPending u false }
    else none
  | .wakeTakesEffect u =>
    if a.wakePending u then
      some { a with
        asleep := update a.asleep (engine u) false
        wakePending := update a.wakePending u false }
    else none

/-- The rounds all of whose marks meet a condition. -/
def system (start : ParkActuation n → Prop) (C : ParkActuation n → Prop) :
    TransitionSystem (ParkActuation n) (ParkEvent n) where
  init a := a.Initial ∧ start a
  step a event a' := (event = .mark → C a) ∧ a.next config engine event = some a'

/-- What each event does, and when it may happen. -/
inductive Acts : ParkEvent n → ParkActuation n → Prop
  | plan {intents} (hg : a.stage = .idle) : Acts (.plan intents) (a.planRound config intents)
  | mark (hg : a.stage = .planned) : Acts .mark a.mark
  | send {u} (hr : a.ready u) : Acts (.send u) (a.send engine u)
  | answer {u ok} (hg : a.stage = .marked) (hs : a.isSent u) :
    Acts (.answer u ok) (a.answer engine u ok)
  | collect (hg : a.stage = .marked) (ho : a.collectable) : Acts .collect a.collect
  | sleepTakesEffect {u} (hp : a.sleepPending u) : Acts (.sleepTakesEffect u)
      { a with
        asleep := update a.asleep (engine u) true
        sleepPending := update a.sleepPending u false }
  | wakeTakesEffect {u} (hp : a.wakePending u) : Acts (.wakeTakesEffect u)
      { a with
        asleep := update a.asleep (engine u) false
        wakePending := update a.wakePending u false }

variable {config} {engine} {a} {a' : ParkActuation n} {u v : Fin n}

theorem acts_of_next {event : ParkEvent n} (h : a.next config engine event = some a') :
    a.Acts config engine event a' := by
  cases event with
  | answer u ok =>
    obtain ⟨⟨hg, hs⟩, rfl⟩ := Guards.of_ite_some h
    exact .answer hg hs
  | collect =>
    obtain ⟨⟨hg, ho⟩, rfl⟩ := Guards.of_ite_some h
    exact .collect hg ho
  | _ =>
    obtain ⟨hg, rfl⟩ := Guards.of_ite_some h
    constructor
    exact hg

variable (engine) in
theorem answer_cases (h : a.isSent u) (ok : Bool) :
    ∃ action before, a.actions u = some action ∧ a.calls u = .sent before ∧
      (a.answer engine u ok = a.finish u .unknown ∨
        a.answer engine u ok = (a.settle engine u before).succeed engine u action) := by
  unfold isSent at h
  split at h
  case h_1 action before ha hc =>
    refine ⟨action, before, ha, hc, ?_⟩
    simp only [answer, ha, hc]
    cases ok
    · exact .inl rfl
    · exact .inr rfl
  case h_2 => cases h

theorem ready_iff : a.ready u ↔
    a.stage = .marked ∧ (∃ action, a.actions u = some action) ∧ a.calls u = .unsent := by
  have hc : (a.calls u).isUnsent ↔ a.calls u = .unsent := by
    cases a.calls u <;> simp [ParkCall.isUnsent]
  simp only [ready, Bool.and_eq_true, decide_eq_true_eq, Option.isSome_iff_exists, hc, and_assoc]

@[simp] theorem park_send : (a.send engine u).park = a.park := by
  unfold send
  dsimp only
  split <;> rfl

@[simp] theorem actions_send : (a.send engine u).actions = a.actions := by
  unfold send
  dsimp only
  split <;> rfl

@[simp] theorem stage_send : (a.send engine u).stage = a.stage := by
  unfold send
  dsimp only
  split <;> rfl

@[simp] theorem calls_send : (a.send engine u).calls = update a.calls u (.sent a.sleepPending) := by
  unfold send
  dsimp only
  split <;> rfl

theorem sleeping_send (h : (a.send engine u).sleeping v) :
    a.sleeping v ∨ v = u ∧ a.actions u = some .sleep := by
  unfold send at h
  dsimp only at h
  split at h
  case h_1 ha =>
    simp only [update_apply] at h
    split at h
    case isTrue hv => exact .inr ⟨hv, ha⟩
    case isFalse => exact .inl h
  all_goals exact .inl h

variable (engine) (a) (u) in
theorem succeed_frame (action : ParkAction) :
    (a.succeed engine u action).park = a.park ∧ (a.succeed engine u action).actions = a.actions ∧
      (a.succeed engine u action).stage = a.stage := by
  cases action with
  | sleep => exact ⟨rfl, rfl, rfl⟩
  | wake => exact ⟨rfl, rfl, rfl⟩
  | reconcile =>
    simp only [succeed]
    split <;> exact ⟨rfl, rfl, rfl⟩

variable (engine) (a) (u) in
theorem calls_succeed (action : ParkAction) :
    ∃ outcome, (a.succeed engine u action).calls = update a.calls u (.answered outcome) ∧
      (outcome = .awake → action ≠ .sleep ∧ (a.succeed engine u action).sleeping u = false ∧
        (a.succeed engine u action).slept (engine u) = false ∧
        (a.succeed engine u action).asleep (engine u) = false) := by
  cases action with
  | sleep => exact ⟨.parked, rfl, nofun⟩
  | wake =>
    refine ⟨.awake, rfl, fun _ => ⟨by decide, ?_, ?_, ?_⟩⟩
    all_goals exact update_self _ _ _
  | reconcile =>
    simp only [succeed]
    split
    case isTrue => exact ⟨.parked, rfl, nofun⟩
    case isFalse ha =>
      refine ⟨.awake, rfl, fun _ => ⟨by decide, ?_, ?_, ?_⟩⟩
      · exact update_self _ _ _
      · exact update_self _ _ _
      · exact Bool.eq_false_of_not_eq_true ha

theorem sleeping_succeed {action : ParkAction}
    (h : (a.succeed engine u action).sleeping v) : a.sleeping v := by
  have hf : ∀ b : ParkActuation n, (b.foundAwake engine u).sleeping v →
      b.sleeping v = true := by
    intro b hb
    simp only [foundAwake, update_apply] at hb
    split at hb
    · cases hb
    · exact hb
  cases action with
  | sleep => exact h
  | wake => exact hf _ h
  | reconcile =>
    simp only [succeed] at h
    split at h
    · exact h
    · exact hf a h

theorem update_false_le {f : Fin n → Bool} (h : update f u false v) : f v := by
  rw [update_apply] at h
  split at h
  · cases h
  · exact h

theorem isSent_update {call : ParkCall n} (h : v ≠ u) :
    { a with calls := update a.calls u call }.isSent v = a.isSent v := by
  simp only [isSent, update_of_ne h]

variable (engine) in
theorem answer_frame (h : a.isSent u) (ok : Bool) :
    (a.answer engine u ok).park = a.park ∧ (a.answer engine u ok).actions = a.actions ∧
      (a.answer engine u ok).stage = a.stage ∧
      ∀ v, v ≠ u → (a.answer engine u ok).isSent v = a.isSent v := by
  obtain ⟨action, before, -, -, heq | heq⟩ := answer_cases engine h ok
  · rw [heq]
    exact ⟨rfl, rfl, rfl, fun v hv => isSent_update hv⟩
  rw [heq]
  obtain ⟨hp, ha, hg⟩ := succeed_frame engine (a.settle engine u before) u action
  obtain ⟨outcome, hc, -⟩ := calls_succeed engine (a.settle engine u before) u action
  refine ⟨hp, ha, hg, fun v hv => ?_⟩
  simp only [isSent, ha, hc, update_of_ne hv]
  rfl

theorem isSent_send (h : v ≠ u) : (a.send engine u).isSent v = a.isSent v := by
  simp only [isSent, actions_send, calls_send, update_of_ne h]

theorem isSent_send_self (h : a.ready u) : (a.send engine u).isSent u := by
  obtain ⟨-, ⟨action, ha⟩, -⟩ := ready_iff.1 h
  simp only [isSent, actions_send, calls_send, ha, update_self]

theorem not_collectable_of_isSent (h : a.isSent u) : a.collectable = false := by
  by_contra hn
  rw [Bool.not_eq_false] at hn
  have hu := List.all_eq_true.1 hn u (List.mem_finRange u)
  unfold isSent at h
  split at h
  case h_1 ha hc =>
    rw [ha, hc] at hu
    cases hu
  case h_2 => cases h

/-- What holds of the belief at every moment. -/
structure Believes (a : ParkActuation n) : Prop where
  unsent : a.stage = .planned → ∀ u, a.calls u = .unsent
  planned : a.stage = .planned → ∀ u action, a.actions u = some action →
    a.park u = .awake → action = .sleep
  marked : a.stage = .marked → ∀ u action, a.actions u = some action → a.park u ≠ .awake
  sleeping : ∀ u, a.sleeping u → a.park u ≠ .awake
  found : a.stage = .marked → ∀ u, a.calls u = .answered .awake → a.sleeping u = false

theorem Initial.believes (h : a.Initial) : a.Believes where
  unsent hg := by
    rw [h.stage] at hg
    cases hg
  planned hg := by
    rw [h.stage] at hg
    cases hg
  marked hg := by
    rw [h.stage] at hg
    cases hg
  sleeping u hu := by
    rw [h.sleeping] at hu
    cases hu
  found hg := by
    rw [h.stage] at hg
    cases hg

theorem Believes.planRound (h : a.Believes) (intents : Fin n → UpstreamIntent) :
    (a.planRound config intents).Believes where
  unsent _ _ := rfl
  planned _ u action ha hw := by
    have hf := plannable_planParking ha
    cases action with
    | sleep => rfl
    | wake =>
      rcases hf with hf | hf <;> cases hf.symm.trans hw
    | reconcile => cases hf.symm.trans hw
  marked hg := by cases hg
  sleeping := h.sleeping
  found hg := by cases hg

theorem markState_ne_awake {action : Option ParkAction} {state : ParkState} (h : state ≠ .awake) :
    markState action state ≠ .awake := by
  unfold markState
  split
  · decide
  · decide
  · exact h
  · exact h

section
variable (h : a.Believes)
include h

theorem Believes.mark (hg : a.stage = .planned) : a.mark.Believes where
  unsent hm := by cases hm
  planned hm := by cases hm
  marked _ u action ha := by
    by_cases hw : a.park u = .awake
    · -- Only a sleep is planned for a replica that is awake.
      have := h.planned hg u action ha hw
      subst this
      have hp : a.mark.park u = markState (a.actions u) (a.park u) := rfl
      have hs : a.actions u = some .sleep := ha
      rw [hp, hs, markState]
      decide
    · exact markState_ne_awake hw
  sleeping u hu := markState_ne_awake (h.sleeping u hu)
  found _ u hu := by
    cases (h.unsent hg u).symm.trans hu

theorem Believes.send (hr : a.ready u) : (a.send engine u).Believes := by
  obtain ⟨hg, ⟨action, ha⟩, -⟩ := ready_iff.1 hr
  refine ⟨?_, ?_, ?_, ?_, ?_⟩
  · intro hp
    rw [stage_send, hg] at hp
    cases hp
  · simpa only [stage_send, actions_send, park_send] using h.planned
  · simpa only [stage_send, actions_send, park_send] using h.marked
  · intro v hv
    rw [park_send]
    rcases sleeping_send hv with hv | ⟨rfl, hl⟩
    · exact h.sleeping v hv
    · exact h.marked hg v _ hl
  · intro _ v hv
    rw [calls_send, update_apply] at hv
    split at hv
    · cases hv
    case isFalse hu =>
      have hf := h.found hg v hv
      by_contra hs
      rw [Bool.not_eq_false] at hs
      rcases sleeping_send hs with hv' | ⟨rfl, -⟩
      · rw [hf] at hv'
        cases hv'
      · exact hu rfl

theorem Believes.answer (hg : a.stage = .marked) (hs : a.isSent u)
    (ok : Bool) : (a.answer engine u ok).Believes := by
  obtain ⟨action, before, ha, he, heq | heq⟩ := answer_cases engine hs ok
  · rw [heq]
    refine ⟨fun hp => ?_, h.planned, h.marked, h.sleeping, fun _ v hv => ?_⟩
    · cases hg.symm.trans hp
    simp only [finish, update_apply] at hv
    split at hv
    · cases hv
    · exact h.found hg v hv
  · rw [heq]
    obtain ⟨hb, hc, hg'⟩ := succeed_frame engine (a.settle engine u before) u action
    obtain ⟨outcome, hd, hw⟩ := calls_succeed engine (a.settle engine u before) u action
    have hk : ∀ v, ((a.settle engine u before).succeed engine u action).sleeping v →
        a.sleeping v = true :=
      fun v => sleeping_succeed (a := a.settle engine u before)
    refine ⟨fun hp => ?_, ?_, ?_, ?_, fun _ v hv => ?_⟩
    · cases (hg'.trans hg).symm.trans hp
    · rw [hb, hc, hg']
      exact h.planned
    · rw [hb, hc, hg']
      exact h.marked
    · intro v hv
      rw [hb]
      exact h.sleeping v (hk v hv)
    · rw [hd, update_apply] at hv
      split at hv
      case isTrue hu =>
        subst hu
        injection hv with hv
        exact (hw hv).2.1
      case isFalse =>
        by_contra hl
        have hf : a.sleeping v = false := h.found hg v hv
        exact Bool.false_ne_true (hf.symm.trans (hk v (eq_true_of_ne_false hl)))

theorem Believes.collect (hg : a.stage = .marked) : a.collect.Believes where
  unsent hi := by cases hi
  planned hi := by cases hi
  marked hi := by cases hi
  sleeping u hu := by
    simp only [ParkActuation.collect, outcome]
    split
    case h_1 outcome _ hc =>
      -- An outcome of awake would have ended the sleep.
      rintro rfl
      exact Bool.false_ne_true ((h.found hg u hc).symm.trans hu)
    case h_2 => exact h.sleeping u hu
  found hi := by cases hi

end

theorem Believes.next {event : ParkEvent n} (h : a.Believes)
    (hn : a.next config engine event = some a') : a'.Believes := by
  cases acts_of_next hn with
  | plan _ => exact h.planRound _
  | mark hg => exact h.mark hg
  | send hr => exact h.send hr
  | answer hg hs => exact h.answer hg hs _
  | collect hg _ => exact h.collect hg
  | sleepTakesEffect _ => exact ⟨h.unsent, h.planned, h.marked, h.sleeping, h.found⟩
  | wakeTakesEffect _ => exact ⟨h.unsent, h.planned, h.marked, h.sleeping, h.found⟩

end ParkActuation
end Ramjet
