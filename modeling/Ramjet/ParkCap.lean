import Ramjet.ParkActuation

/-!
# Park cap

How many engines sleep, whatever becomes of the calls. A replica whose sleep timed out is
unknown and holds no slot.
-/

namespace Ramjet
open Function Finset Option
namespace ParkActuation
variable {n : Nat} {config : EngineParkConfig} {engine : Fin n → String} {a a' : ParkActuation n}
  {u v : Fin n}

structure Tracked (engine : Fin n → String) (a : ParkActuation n) : Prop where
  pending : ∀ u, a.sleepPending u → a.sleeping u
  sent : a.stage = .marked → ∀ u before, a.calls u = .sent before →
    (a.actions u = some .sleep → a.sleeping u) ∧
      (a.actions u ≠ some .sleep → a.sleepPending u → before u)
  asleep : ∀ e, a.asleep e → ∃ v, engine v = e ∧ a.sleeping v

theorem EnginesAwake.tracked (h : a.EnginesAwake) (hi : a.Initial) : a.Tracked engine where
  pending u hu := by
    rw [h.sleepPending] at hu
    cases hu
  sent hg := by
    rw [hi.stage] at hg
    cases hg
  asleep e he := by
    rw [h.asleep] at he
    cases he

section
variable (h : a.Tracked engine)
include h

theorem Tracked.send (hr : a.ready u) : (a.send engine u).Tracked engine := by
  obtain ⟨hg, ⟨action, ha⟩, -⟩ := ready_iff.1 hr
  unfold ParkActuation.send
  dsimp only
  cases action with
  | sleep =>
    simp only [ha]
    refine ⟨fun v hv => ?_, fun _ v before hc => ?_, fun e he => ?_⟩
    · simp only [update_apply] at hv ⊢
      split
      · rfl
      case isFalse hu => exact h.pending v (by simpa only [hu, if_false] using hv)
    · simp only [update_apply] at hc ⊢
      by_cases hu : v = u
      · subst hu
        exact ⟨fun _ => if_pos rfl, fun hn => absurd ha hn⟩
      · simp only [hu, if_false] at hc ⊢
        exact h.sent hg v before hc
    · obtain ⟨v, hv, hs⟩ := h.asleep e he
      refine ⟨v, hv, ?_⟩
      simp only [update_apply, hs, ite_self]
  | wake =>
    simp only [ha]
    refine ⟨h.pending, fun _ v before hc => ?_, h.asleep⟩
    exact sent_update h hg ha (by decide) hc
  | reconcile =>
    simp only [ha]
    refine ⟨h.pending, fun _ v before hc => ?_, h.asleep⟩
    exact sent_update h hg ha (by decide) hc
where
  /-- A call that is no sleep is sent after every sleep of its replica. -/
  sent_update {action : ParkAction} {before : Fin n → Bool} {v : Fin n} (h : a.Tracked engine)
      (hg : a.stage = .marked) (hac : a.actions u = some action) (hne : action ≠ .sleep)
      (hcl : update a.calls u (.sent a.sleepPending) v = .sent before) :
      (a.actions v = some .sleep → a.sleeping v = true) ∧
        (a.actions v ≠ some .sleep → a.sleepPending v = true → before v = true) := by
    rw [update_apply] at hcl
    split at hcl
    case isTrue hvu =>
      subst hvu
      injection hcl with hcl
      subst hcl
      refine ⟨fun hsl => ?_, fun _ hpd => hpd⟩
      rw [hac] at hsl
      exact absurd (Option.some.inj hsl) hne
    case isFalse => exact h.sent hg v before hcl

theorem Tracked.finish (u : Fin n) (outcome : ParkState) : (a.finish u outcome).Tracked engine := by
  refine ⟨h.pending, fun hg v before hc => ?_, h.asleep⟩
  simp only [ParkActuation.finish, update_apply] at hc
  split at hc
  · cases hc
  · exact h.sent hg v before hc

theorem Tracked.settle (u : Fin n) (before : Fin n → Bool) :
    (a.settle engine u before).Tracked engine := by
  have hl : ∀ v, (a.settle engine u before).sleepPending v → a.sleepPending v :=
    fun v hv => (Bool.and_eq_true_iff.1 hv).1
  refine ⟨fun v hv => h.pending v (hl v hv), fun hg v earlier hc => ?_, h.asleep⟩
  obtain ⟨hs, ho⟩ := h.sent hg v earlier hc
  exact ⟨hs, fun hn hv => ho hn (hl v hv)⟩

theorem Tracked.foundAwake (ha : a.asleep (engine u) = false) (hp : a.sleepPending u = false)
    (hc : ∀ before, a.calls u = .sent before → a.actions u ≠ some .sleep) :
    (a.foundAwake engine u).Tracked engine := by
  refine ⟨fun v hv => ?_, fun hg v before hc' => ?_, fun e he => ?_⟩
  · simp only [ParkActuation.foundAwake, update_apply]
    split
    case isTrue hu =>
      subst hu
      exact absurd hv (ne_true_of_eq_false hp)
    case isFalse => exact h.pending v hv
  · obtain ⟨hb, ho⟩ := h.sent hg v before hc'
    refine ⟨fun hs => ?_, ho⟩
    simp only [ParkActuation.foundAwake, update_apply]
    split
    case isTrue hu =>
      subst hu
      exact absurd hs (hc before hc')
    case isFalse => exact hb hs
  · obtain ⟨v, rfl, hl⟩ := h.asleep e he
    refine ⟨v, rfl, ?_⟩
    simp only [ParkActuation.foundAwake, update_apply]
    split
    case isTrue hu =>
      subst hu
      exact absurd he (ne_true_of_eq_false ha)
    case isFalse => exact hl

theorem Tracked.setAsleep {asleep : Bool} {sleepPending wakePending : Fin n → Bool}
    (ha : asleep → a.sleeping u) (hp : ∀ v, sleepPending v → a.sleepPending v) : { a with
      asleep := update a.asleep (engine u) asleep
      sleepPending
      wakePending }.Tracked engine := by
  refine ⟨fun v hv => h.pending v (hp v hv), fun hg v before hc => ?_, fun e he => ?_⟩
  · obtain ⟨hs, ho⟩ := h.sent hg v before hc
    exact ⟨hs, fun hn hv => ho hn (hp v hv)⟩
  simp only [update_apply] at he
  split at he
  case isTrue heq => exact ⟨u, heq.symm, ha he⟩
  case isFalse => exact h.asleep e he

theorem Tracked.answer (hg : a.stage = .marked)
    (hse : a.isSent u) (ok : Bool) : (a.answer engine u ok).Tracked engine := by
  obtain ⟨action, before, ha, hd, heq | heq⟩ := answer_cases engine hse ok
  · rw [heq]
    exact h.finish u .unknown
  rw [heq]
  obtain ⟨hl, hoths⟩ := h.sent hg u before hd
  have hs := h.settle u before
  -- What was under way for the replica itself is settled.
  have he : action ≠ .sleep → (a.settle engine u before).sleepPending u = false := by
    intro hn
    have hf := hoths (by rw [ha]; exact fun h => hn (some.inj h))
    simp only [ParkActuation.settle]
    cases hp : a.sleepPending u with
    | false => rfl
    | true => simp [hf hp]
  cases action with
  | sleep =>
    exact (hs.setAsleep (fun _ => hl ha) fun v => update_false_le).finish u .parked
  | wake =>
    refine (Tracked.foundAwake ?_ ?_ ?_ ?_).finish u .awake
    · exact hs.setAsleep nofun fun v => id
    · exact update_self _ _ _
    · exact he (by decide)
    · intro _ _ hb
      cases ha.symm.trans hb
  | reconcile =>
    simp only [succeed]
    split
    · exact hs.finish u .parked
    case isFalse hc =>
      refine (hs.foundAwake ?_ (he (by decide)) ?_).finish u .awake
      · exact Bool.eq_false_of_not_eq_true hc
      · intro _ _ hb
        cases ha.symm.trans hb

theorem Tracked.next {event : ParkEvent n} (hb : a.Believes)
    (hn : a.next config engine event = some a') : a'.Tracked engine := by
  cases acts_of_next hn with
  | plan _ => exact ⟨h.pending, nofun, h.asleep⟩
  | mark hg =>
    refine ⟨h.pending, fun _ u before hc => ?_, h.asleep⟩
    cases (hb.unsent hg u).symm.trans hc
  | send hr => exact h.send hr
  | answer hg hse => exact h.answer hg hse _
  | collect _ _ => exact ⟨h.pending, nofun, h.asleep⟩
  | sleepTakesEffect hp => exact h.setAsleep (fun _ => h.pending _ hp) fun v => update_false_le
  | wakeTakesEffect _ => exact h.setAsleep nofun fun v => id

end

/-- The replicas that are not believed awake. -/
def away (a : ParkActuation n) : Finset (Fin n) := univ.filter fun u => a.park u ≠ .awake

def asleepEngines (engine : Fin n → String) (a : ParkActuation n) : Finset String :=
  (univ.image engine).filter fun e => a.asleep e

theorem card_asleepEngines (h : a.Tracked engine) (hb : a.Believes) :
    (a.asleepEngines engine).card ≤ a.away.card := by
  have hs : a.asleepEngines engine ⊆ a.away.image engine := by
    intro e he
    obtain ⟨v, rfl, hv⟩ := h.asleep e (mem_filter.1 he).2
    refine mem_image_of_mem engine ?_
    exact mem_filter.2 ⟨mem_univ v, hb.sleeping v hv⟩
  exact (card_le_card hs).trans card_image_le

/-- No call to the replica is under way. -/
def Rests (state : ParkState) : Prop := state = .awake ∨ state = .parked ∨ state = .unknown

structure Capped (config : EngineParkConfig) (a : ParkActuation n) : Prop where
  planned : a.stage = .planned → ∃ intents, a.actions = planParking config intents a.park
  rests : ∀ u, (a.stage = .marked → a.actions u = none) → Rests (a.park u)
  answered : ∀ u outcome, a.calls u = .answered outcome → a.stage = .marked → Rests outcome
  cap : a.away.card ≤ config.maxParked

/-- No replica is unknown when a sleep is about to be sent. -/
def KnownBeforeSleep (a : ParkActuation n) : Prop :=
  (∃ u, a.actions u = some .sleep) → ∀ v, a.park v ≠ .unknown

instance (a : ParkActuation n) : Decidable a.KnownBeforeSleep :=
  inferInstanceAs (Decidable (_ → _))

theorem Initial.capped (h : a.Initial) : a.Capped config where
  planned hg := by
    rw [h.stage] at hg
    cases hg
  rests u _ := .inl (congrFun h.park u)
  answered _ _ _ hg := by
    rw [h.stage] at hg
    cases hg
  cap := by simp [away, h.park]

theorem away_mark (hb : a.Believes) (hg : a.stage = .planned) :
    a.mark.away ⊆ a.away ∪ sleepers a.actions := by
  intro u hu
  by_cases ha : a.park u = .awake
  · refine mem_union_right _ (mem_filter.2 ⟨mem_univ u, ?_⟩)
    have hm : markState (a.actions u) (a.park u) ≠ .awake := (mem_filter.1 hu).2
    cases hc : a.actions u with
    | none =>
      rw [hc, ha] at hm
      exact absurd rfl hm
    | some action => rw [hb.planned hg u action hc ha]
  · exact mem_union_left _ (mem_filter.2 ⟨mem_univ u, ha⟩)

theorem card_occupied (states : Fin n → ParkState) :
    ((List.finRange n).countP fun u => (states u).occupiesParkSlot) =
      (univ.filter fun u => (states u).occupiesParkSlot).card := by
  have hl : (univ.filter fun u => (states u).occupiesParkSlot) =
      ((List.finRange n).filter fun u => (states u).occupiesParkSlot).toFinset := by
    ext u
    simp
  rw [hl, List.toFinset_card_of_nodup ((List.nodup_finRange n).filter _),
    List.countP_eq_length_filter]

theorem card_away_eq (h : a.Capped config) (hg : a.stage = .planned)
    (hk : ∀ v, a.park v ≠ .unknown) :
    a.away.card = (List.finRange n).countP fun u => (a.park u).occupiesParkSlot := by
  rw [card_occupied, away]
  congr 1
  ext u
  have hr := h.rests u fun hm => by cases hg.symm.trans hm
  rcases hr with hp | hp | hp
  · simp only [mem_filter, mem_univ, true_and, hp]
    decide
  · simp only [mem_filter, mem_univ, true_and, hp]
    decide
  · exact absurd hp (hk u)

theorem Capped.mark (h : a.Capped config) (hb : a.Believes) (hg : a.stage = .planned)
    (hC : a.KnownBeforeSleep) : a.mark.Capped config where
  planned hm := by cases hm
  rests u hu := by
    have hn : a.actions u = none := hu rfl
    simp only [ParkActuation.mark, markState, hn]
    exact h.rests u fun _ => hn
  answered u outcome hl := by cases (hb.unsent hg u).symm.trans hl
  cap := by
    by_cases hs : ∃ u, a.actions u = some .sleep
    · obtain ⟨intents, ha⟩ := h.planned hg
      have hw := card_away_eq h hg (hC hs)
      have hp := card_sleepers_planParking config intents a.park
      rw [← hw, ← ha, max_eq_right h.cap] at hp
      calc a.mark.away.card ≤ (a.away ∪ sleepers a.actions).card :=
            card_le_card (away_mark hb hg)
        _ ≤ a.away.card + (sleepers a.actions).card := card_union_le _ _
        _ ≤ config.maxParked := hp
    · -- Nothing new goes to sleep.
      have hn : sleepers a.actions = ∅ :=
        filter_eq_empty_iff.2 fun u _ hu => hs ⟨u, hu⟩
      have hc := away_mark hb hg
      rw [hn, union_empty] at hc
      exact (card_le_card hc).trans h.cap

theorem rests_succeed {outcome : ParkState} {action : ParkAction}
    (h : ∀ v o, a.calls v = .answered o → Rests o)
    (hc : (a.succeed engine u action).calls v = .answered outcome) : Rests outcome := by
  have hf : ∀ (b : ParkActuation n) (o : ParkState), b.calls = a.calls → Rests o →
      (b.finish u o).calls v = .answered outcome → Rests outcome := by
    intro b o hb ho hv
    simp only [finish, update_apply, hb] at hv
    split at hv
    · injection hv with hv
      exact hv ▸ ho
    · exact h v outcome hv
  cases action with
  | sleep => exact hf _ .parked rfl (.inr (.inl rfl)) hc
  | wake => exact hf _ .awake rfl (.inl rfl) hc
  | reconcile =>
    simp only [succeed] at hc
    split at hc
    · exact hf a .parked rfl (.inr (.inl rfl)) hc
    · exact hf (a.foundAwake engine u) .awake rfl (.inl rfl) hc

theorem Capped.answer (h : a.Capped config) (hg : a.stage = .marked)
    (hse : a.isSent u) (ok : Bool) : (a.answer engine u ok).Capped config := by
  obtain ⟨action, before, -, -, heq | heq⟩ := answer_cases engine hse ok
  · rw [heq]
    refine ⟨h.planned, h.rests, fun v outcome hc _ => ?_, h.cap⟩
    simp only [finish, update_apply] at hc
    split at hc
    · injection hc with hc
      exact .inr (.inr hc.symm)
    · exact h.answered v outcome hc hg
  · rw [heq]
    obtain ⟨hp, ha, hg'⟩ := succeed_frame engine (a.settle engine u before) u action
    refine ⟨?_, ?_, fun v outcome hc _ => ?_, ?_⟩
    · rw [hp, ha, hg']
      exact h.planned
    · rw [hp, ha, hg']
      exact h.rests
    · exact rests_succeed (a := a.settle engine u before) (fun v o hv => h.answered v o hv hg) hc
    · rw [away, hp]
      exact h.cap

theorem outcome_cases (hc : a.collectable) (u : Fin n) :
    a.actions u = none ∧ a.outcome u = a.park u ∨
      ∃ action outcome, a.actions u = some action ∧ a.calls u = .answered outcome ∧
        a.outcome u = outcome := by
  have hu := List.all_eq_true.1 hc u (List.mem_finRange u)
  cases ha : a.actions u with
  | none => exact .inl ⟨rfl, by simp only [outcome, ha]⟩
  | some action =>
    simp only [ha, isNone_some, Bool.false_or] at hu
    cases hl : a.calls u with
    | unsent => rw [hl] at hu; cases hu
    | sent before => rw [hl] at hu; cases hu
    | answered outcome =>
      refine .inr ⟨action, outcome, rfl, rfl, ?_⟩
      simp only [ParkActuation.outcome, ha, hl]

theorem Capped.collect (h : a.Capped config) (hb : a.Believes) (hg : a.stage = .marked)
    (hc : a.collectable) : a.collect.Capped config where
  planned hi := by cases hi
  rests u _ := by
    show Rests (a.outcome u)
    rcases outcome_cases hc u with ⟨hn, hp⟩ | ⟨_, outcome, -, hl, hp⟩
    · rw [hp]
      exact h.rests u fun _ => hn
    · rw [hp]
      exact h.answered u outcome hl hg
  answered u outcome hl := by cases hl
  cap := by
    -- A replica that comes back awake was away; the others stay where they are.
    refine (card_le_card fun u hu => ?_).trans h.cap
    refine mem_filter.2 ⟨mem_univ u, ?_⟩
    rcases outcome_cases hc u with ⟨-, hp⟩ | ⟨action, _, ha, -, -⟩
    · exact hp ▸ (mem_filter.1 hu).2
    · exact hb.marked hg u action ha

theorem Capped.next {event : ParkEvent n} (h : a.Capped config) (hb : a.Believes)
    (hC : event = .mark → a.KnownBeforeSleep)
    (hn : a.next config engine event = some a') : a'.Capped config := by
  cases acts_of_next hn with
  | plan hg =>
    refine ⟨fun _ => ⟨_, rfl⟩, fun u _ => ?_, fun u outcome hc => ?_, h.cap⟩
    · exact h.rests u fun hm => by cases hg.symm.trans hm
    · cases hc
  | mark hg => exact h.mark hb hg (hC rfl)
  | send hr =>
    refine ⟨?_, ?_, fun v outcome hc hg => ?_, ?_⟩
    · simpa only [stage_send, actions_send, park_send] using h.planned
    · simpa only [stage_send, actions_send, park_send] using h.rests
    · rw [calls_send, update_apply] at hc
      rw [stage_send] at hg
      split at hc
      · cases hc
      · exact h.answered v outcome hc hg
    · rw [away, park_send]
      exact h.cap
  | answer hg hse => exact h.answer hg hse _
  | collect hg ho => exact h.collect hb hg ho
  | sleepTakesEffect _ => exact ⟨h.planned, h.rests, h.answered, h.cap⟩
  | wakeTakesEffect _ => exact ⟨h.planned, h.rests, h.answered, h.cap⟩

end ParkActuation

open ParkActuation TransitionSystem

/-- Over every run from awake engines in which no replica is unknown when a sleep is
about to be sent, at most as many engines sleep as the cap allows. -/
theorem asleep_within_cap {n : Nat} (config : EngineParkConfig) (engine : Fin n → String)
    {a : ParkActuation n}
    (h : (system config engine EnginesAwake KnownBeforeSleep).Reachable a) :
    (a.asleepEngines engine).card ≤ config.maxParked := by
  have hi : a.Believes ∧ a.Tracked engine ∧ a.Capped config := by
    refine h.invariant (P := fun a => a.Believes ∧ a.Tracked engine ∧ a.Capped config)
      (fun a ha => ?_) fun a event a' ha hstep => ?_
    · exact ⟨ha.1.believes, ha.2.tracked ha.1, ha.1.capped⟩
    · obtain ⟨hb, ht, hc⟩ := ha
      exact ⟨hb.next hstep.2, ht.next hb hstep.2, hc.next hb hstep.1 hstep.2⟩
  exact (card_asleepEngines hi.2.1 hi.1).trans hi.2.2.cap

namespace SamplePark

def engine (u : Fin 3) : String := ["http://a:8000", "http://b:8000", "http://c:8000"].getD u ""

def config : EngineParkConfig := ⟨.sleep, 1⟩

def start : ParkActuation 3 where
  park _ := .awake
  actions _ := none
  calls _ := .unsent
  stage := .idle
  asleep _ := false
  sleepPending _ := false
  wakePending _ := false
  sleeping _ := false
  slept _ := false

theorem initial : start.Initial ∧ start.EnginesAwake := ⟨⟨rfl, rfl, rfl, rfl, rfl⟩, ⟨rfl, rfl⟩⟩

/-- The replicas from an index on are drained and quiet. -/
def released (first : Nat) (u : Fin 3) : UpstreamIntent :=
  if first ≤ u.val then ⟨.drained, true, false, true⟩ else .warm

/-- The last replica goes to sleep. -/
def parked : List (ParkEvent 3) :=
  [.plan (released 2), .mark, .send 2, .answer 2 true, .collect]

/-- A mark only where no replica is unknown before a sleep. -/
def allowed (a : ParkActuation 3) : ParkEvent 3 → Bool
  | .mark => decide a.KnownBeforeSleep
  | _ => true

def timedOut : List (ParkEvent 3) :=
  [.plan (released 2), .mark, .send 2, .sleepTakesEffect 2, .answer 2 false, .collect,
    .plan (released 1), .mark, .send 1, .answer 1 true]

end SamplePark

open SamplePark

theorem asleep_within_cap_sample :
    ∃ a, (system config engine EnginesAwake KnownBeforeSleep).Reachable a ∧
      a.asleep "http://c:8000" ∧ (a.asleepEngines engine).card ≤ config.maxParked := by
  obtain ⟨a, hr, hs⟩ := Reachable.exists_of_any (C := allowed)
    (M := system config engine EnginesAwake KnownBeforeSleep) parked
    (fun a => a.asleep "http://c:8000")
    (fun _ _ _ hl h => ⟨by rintro rfl; exact of_decide_eq_true hl, h⟩) (.init initial)
    (by decide +kernel)
  exact ⟨a, hr, hs, asleep_within_cap config engine hr⟩

/-- A replica that is unknown holds no slot, so the next one is put to sleep too. -/
theorem asleep_past_cap :
    ∃ a, (system config engine EnginesAwake fun _ => True).Reachable a ∧
      config.maxParked < (a.asleepEngines engine).card :=
  Reachable.exists_of_any (C := fun _ _ => true) timedOut _ (fun _ _ _ _ h => ⟨fun _ => trivial, h⟩)
    (.init initial) (by decide +kernel)

end Ramjet
