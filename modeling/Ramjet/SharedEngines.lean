import Ramjet.SleepSafety

/-!
# Shared engines and restarts

A sleep stops an engine and every rank on its URL, while fences, samples and beliefs are
those of one upstream and of one process.
-/

namespace Ramjet
open Function TransitionSystem ParkActuation Option
variable {n : Nat}

namespace ParkActuation
variable {config : EngineParkConfig} {engine : Fin n → String} {a a' : ParkActuation n}
  {u v : Fin n}

def SparesSiblings (engine : Fin n → String) (a : ParkActuation n) : Prop :=
  ∀ u, a.actions u = some .sleep → ∀ v, engine v = engine u →
    a.actions v = some .sleep ∨ a.actions v = none ∧ a.park v ≠ .awake

/-- No replica of an engine that was put to sleep is believed awake. -/
structure Spares (engine : Fin n → String) (a : ParkActuation n) : Prop where
  siblings : a.stage = .marked → a.SparesSiblings engine
  slept : ∀ u, a.slept (engine u) → a.park u ≠ .awake
  found : a.stage = .marked → ∀ u, a.calls u = .answered .awake →
    a.slept (engine u) = false ∧ a.actions u ≠ some .sleep ∧ a.actions u ≠ none

theorem Initial.spares (h : a.Initial) : a.Spares engine where
  siblings hg := by
    rw [h.stage] at hg
    cases hg
  slept u hu := by
    rw [h.slept] at hu
    cases hu
  found hg := by
    rw [h.stage] at hg
    cases hg

theorem Spares.sibling (h : a.Spares engine) (hb : a.Believes) (hg : a.stage = .marked)
    (hu : a.actions u = some .sleep) (hv : engine v = engine u) : a.park v ≠ .awake := by
  rcases h.siblings hg u hu v hv with hs | ⟨-, hp⟩
  · exact hb.marked hg v _ hs
  · exact hp

theorem slept_send {e : String} (h : (a.send engine u).slept e) :
    a.slept e ∨ e = engine u ∧ a.actions u = some .sleep := by
  unfold send at h
  dsimp only at h
  split at h
  case h_1 ha =>
    simp only [update_apply] at h
    split at h
    case isTrue he => exact .inr ⟨he, ha⟩
    case isFalse => exact .inl h
  all_goals exact .inl h

theorem slept_succeed {e : String} {action : ParkAction}
    (h : (a.succeed engine u action).slept e) : a.slept e := by
  have hf : ∀ b : ParkActuation n, (b.foundAwake engine u).slept e → b.slept e := by
    intro b hb
    simp only [foundAwake, update_apply] at hb
    split at hb
    · cases hb
    · exact hb
  cases action with
  | sleep => exact h
  | wake => exact hf _ h
  | reconcile =>
    simp only [succeed] at h
    split at h
    · exact h
    · exact hf a h

section
variable (h : a.Spares engine)
include h

theorem Spares.mark (hb : a.Believes) (hg : a.stage = .planned)
    (hC : a.SparesSiblings engine) : a.mark.Spares engine where
  siblings _ u hu v hv := by
    rcases hC u hu v hv with hs | ⟨hn, hp⟩
    · exact .inl hs
    · exact .inr ⟨hn, markState_ne_awake hp⟩
  slept u hu := markState_ne_awake (h.slept u hu)
  found _ u hu := by cases (hb.unsent hg u).symm.trans hu

theorem Spares.send (hb : a.Believes) (hr : a.ready u) : (a.send engine u).Spares engine := by
  obtain ⟨hg, -, -⟩ := ready_iff.1 hr
  refine ⟨fun _ => ?_, fun v hv => ?_, fun _ v hv => ?_⟩
  · have hs := h.siblings hg
    simpa only [SparesSiblings, actions_send, park_send] using hs
  · rw [park_send]
    rcases slept_send hv with hv | ⟨he, hl⟩
    · exact h.slept v hv
    · exact h.sibling hb hg hl he
  · rw [calls_send, update_apply] at hv
    split at hv
    · cases hv
    obtain ⟨ht, ha, ho⟩ := h.found hg v hv
    rw [actions_send]
    refine ⟨by_contra fun hn => ?_, ha, ho⟩
    rcases slept_send (eq_true_of_ne_false hn) with hold | ⟨he, hl⟩
    · rw [ht] at hold
      cases hold
    -- A replica that was woken in this round has no sibling that goes to sleep in it.
    rcases h.siblings hg u hl v he with hv' | ⟨hv', -⟩
    · exact ha hv'
    · exact ho hv'

theorem Spares.answer (hg : a.stage = .marked)
    (hse : a.isSent u) (ok : Bool) : (a.answer engine u ok).Spares engine := by
  obtain ⟨action, before, ha, -, heq | heq⟩ := answer_cases engine hse ok
  · rw [heq]
    refine ⟨h.siblings, h.slept, fun _ v hv => ?_⟩
    simp only [finish, update_apply] at hv
    split at hv
    · cases hv
    · exact h.found hg v hv
  · rw [heq]
    obtain ⟨hp, hc, -⟩ := succeed_frame engine (a.settle engine u before) u action
    obtain ⟨outcome, hl, hw⟩ := calls_succeed engine (a.settle engine u before) u action
    have hk : ∀ e, ((a.settle engine u before).succeed engine u action).slept e →
        a.slept e = true :=
      fun e => slept_succeed (a := a.settle engine u before)
    refine ⟨fun _ => ?_, fun v hv => ?_, fun _ v hv => ?_⟩
    · have hs := h.siblings hg
      simp only [SparesSiblings, hc, hp]
      exact hs
    · rw [hp]
      exact h.slept v (hk _ hv)
    · rw [hc]
      rw [hl, update_apply] at hv
      split at hv
      case isTrue hu =>
        subst hu
        injection hv with hv
        have hn : a.actions v ≠ some .sleep := by
          rw [ha]
          exact fun h => (hw hv).1 (some.inj h)
        have ho : a.actions v ≠ none := by
          rw [ha]
          exact some_ne_none action
        exact ⟨(hw hv).2.2.1, hn, ho⟩
      case isFalse =>
        obtain ⟨ht, hn, ho⟩ := h.found hg v hv
        refine ⟨by_contra fun hfls => ?_, hn, ho⟩
        have hold := hk _ (eq_true_of_ne_false hfls)
        rw [ht] at hold
        cases hold

theorem Spares.collect (hg : a.stage = .marked) : a.collect.Spares engine where
  siblings hi := by cases hi
  slept u hu := by
    simp only [ParkActuation.collect, outcome]
    split
    case h_1 outcome _ hc =>
      rintro rfl
      have hfls := (h.found hg u hc).1
      exact Bool.false_ne_true (hfls.symm.trans hu)
    case h_2 => exact h.slept u hu
  found hi := by cases hi

end

theorem Spares.next {event : ParkEvent n} (h : a.Spares engine) (hb : a.Believes)
    (hC : event = .mark → a.SparesSiblings engine)
    (hn : a.next config engine event = some a') : a'.Spares engine := by
  cases acts_of_next hn with
  | plan _ => exact ⟨nofun, h.slept, nofun⟩
  | mark hg => exact h.mark hb hg (hC rfl)
  | send hr => exact h.send hb hr
  | answer hg hse => exact h.answer hg hse _
  | collect hg _ => exact h.collect hg
  | sleepTakesEffect _ => exact ⟨h.siblings, h.slept, h.found⟩
  | wakeTakesEffect _ => exact ⟨h.siblings, h.slept, h.found⟩

end ParkActuation

/-! ## Sibling ranks -/

section Siblings
variable (config : ParkingConfig n)

def SparesRounds (m : ParkingMemory n) : ParkingMove n → Prop
  | .run .drainer _ => m.actuation.stage = .planned → m.actuation.SparesSiblings config.upstreams
  | _ => True

/-- Nobody is served from an engine that was put to sleep. -/
structure SiblingsQuiet (m : ParkingMemory n) : Prop where
  spares : m.actuation.Spares config.upstreams
  sleeps : ∀ call ∈ m.sleeps, ∀ v, config.upstreams v = config.upstreams call.upstream →
    call.inflight v = 0

variable {config} {m m' : ParkingMemory n} {i : ParkingSlot n}

theorem parkingGuarantee_actuation (h : parkingGuarantee config i m m') :
    m'.actuation = m.actuation ∨ ∃ event : ParkEvent n,
      m.actuation.next config.enginePark config.upstreams event = some m'.actuation ∧
        (event = .mark → i = .drainer) := by
  cases i with
  | drainer =>
    have h : Drains config m m' := h
    rcases h.actuation with heq | ⟨-, event, -, hn⟩
    · exact .inl heq
    · exact .inr ⟨event, hn, fun _ => rfl⟩
  | call u =>
    rcases h with ⟨hr, rfl⟩ | ⟨hg, hse, ok, rfl⟩
    · exact .inr ⟨.send u, if_pos hr, nofun⟩
    · exact .inr ⟨.answer u ok, if_pos ⟨hg, hse⟩, nofun⟩
  | topology =>
    have h : Retopologizes m m' := h
    exact .inl (by rw [h.frame])
  | request k =>
    have h : Requests config k m m' := h
    exact .inl (by rw [h.frame])
  | health | outside =>
    rcases h with rfl | ⟨-, _, rfl⟩ | ⟨_, rfl⟩ | ⟨event, actuation, he, hn, rfl⟩
    · exact .inl rfl
    · exact .inl rfl
    · exact .inl rfl
    · refine .inr ⟨event, hn, fun hm => ?_⟩
      subst hm
      exact he.elim

theorem spares_step {answers : ParkingAnswers} (hs : m.Safe config)
    (h : m.actuation.Spares config.upstreams) (hC : SparesRounds config m (.run i answers))
    (hsp : parkingGuarantee config i m m') : m'.actuation.Spares config.upstreams := by
  rcases parkingGuarantee_actuation hsp with heq | ⟨event, hn, hm⟩
  · rw [heq]
    exact h
  refine h.next hs.believes (fun he => ?_) hn
  have hi := hm he
  subst hi
  subst he
  have ha := acts_of_next hn
  generalize m'.actuation = a at ha
  cases ha with
  | mark hg => exact hC hg

theorem sleeps_step {call : SleepCall n} (hsp : parkingGuarantee config i m m')
    (hc : call ∈ m'.sleeps) : call ∈ m.sleeps ∨ ∃ u, m.actuation.stage = .marked ∧
      m.actuation.actions u = some .sleep ∧ call = ⟨u, m.drained u, m.inflight⟩ := by
  cases i with
  | drainer =>
    have hsp : Drains config m m' := hsp
    rw [hsp.frame] at hc
    exact .inl hc
  | call u =>
    rcases hsp with ⟨hr, rfl⟩ | ⟨-, -, ok, rfl⟩
    · simp only [ParkingMemory.send] at hc
      split at hc
      case isTrue ha =>
        rcases List.mem_cons.1 hc with rfl | hc
        · exact .inr ⟨u, (ready_iff.1 hr).1, ha, rfl⟩
        · exact .inl hc
      case isFalse => exact .inl hc
    · exact .inl hc
  | topology =>
    have hsp : Retopologizes m m' := hsp
    rw [hsp.frame] at hc
    exact .inl hc
  | request k =>
    have hsp : Requests config k m m' := hsp
    rw [hsp.frame] at hc
    exact .inl hc
  | health | outside =>
    rw [(Happens.frame hsp).1] at hc
    exact .inl hc

theorem SiblingsQuiet.step {answers : ParkingAnswers} (hs : m.Safe config)
    (h : SiblingsQuiet config m) (hC : SparesRounds config m (.run i answers))
    (hsp : parkingGuarantee config i m m') : SiblingsQuiet config m' := by
  refine ⟨spares_step hs h.spares hC hsp, fun call hc v hv => ?_⟩
  rcases sleeps_step hsp hc with hc | ⟨u, hg, ha, rfl⟩
  · exact h.sleeps call hc v hv
  · exact (hs.parked v (h.spares.sibling hs.believes hg ha hv)).2

/-- Over every interleaving in which each round that puts an upstream to sleep spares its
siblings: no request was in flight on any of them when the sleep was sent, and none takes
requests until its engine was found awake. -/
theorem sleeps_spare_siblings (config : ParkingConfig n)
    {s : Machine.State (ParkingMemory n) ParkingAnswers (ParkingSlot n)}
    (h : ((parkingMachine config fun _ => True).system (SparesRounds config)).Reachable s) :
    (∀ call ∈ s.memory.sleeps, ∀ v, config.upstreams v = config.upstreams call.upstream →
        call.inflight v = 0) ∧
      ∀ v, s.memory.actuation.slept (config.upstreams v) → s.memory.drained v := by
  let spec := parkingSpec config (fun _ => True) (SparesRounds config)
  have hq : SiblingsQuiet config s.memory := by
    refine spec.also (fun m hm => ?_) (fun i e m m' hs hm hC hstep => ?_) h
    · refine ⟨hm.1.actuation.spares, fun call hc => ?_⟩
      rw [hm.1.sleeps] at hc
      cases hc
    · exact SiblingsQuiet.step hs hm hC hstep
  refine ⟨hq.sleeps, fun v hv => ?_⟩
  exact ((spec.inv_of_reachable h).parked v (hq.spares.slept v hv)).1

end Siblings

instance (config : ParkingConfig n) (m : ParkingMemory n) :
    (move : ParkingMove n) → Decidable (SparesRounds config m move)
  | .run .drainer _ => inferInstanceAs (Decidable (_ → ∀ _, _ → ∀ _, _ → _))
  | .run (.call _) _ | .run .topology _ | .run (.request _) _ | .run .health _
  | .run .outside _ | .start _ => inferInstanceAs (Decidable True)

namespace SampleParking

scoped instance neZeroRanks : NeZero 3 := ⟨by decide⟩

def ranks : ParkingConfig 3 :=
  fleet (fun u => if u = 0 then "http://a:8000" else "http://b:8000") 2 (by decide) (by decide)

def quietRanks : List (ParkingMove 3) :=
  round 300000 21 ++ round 301000 21 ++ round 332000 19 ++ call 1 332000 1 ++ call 2 332000 1

end SampleParking

open SampleParking in
theorem sleeps_spare_siblings_sample :
    ∃ s, ((parkingMachine ranks fun _ => True).system (SparesRounds ranks)).Reachable s ∧
      s.memory.sleeps.map (·.upstream) = [2, 1] ∧
      (∀ call ∈ s.memory.sleeps, ∀ v, ranks.upstreams v = ranks.upstreams call.upstream →
        call.inflight v = 0) ∧
      s.memory.drained 1 ∧ s.memory.drained 2 := by
  obtain ⟨s, hr, hc, hl⟩ := (parkingMachine ranks fun _ => True).exists_reachable
    (SparesRounds ranks) quietRanks (fun s => s.memory.sleeps.map (·.upstream) = [2, 1] ∧
      s.memory.actuation.slept "http://b:8000") ⟨SampleParking.initial, trivial⟩
    (by decide +kernel)
  obtain ⟨hq, hd⟩ := sleeps_spare_siblings _ hr
  exact ⟨s, hr, hc, hq, hd 1 hl, hd 2 hl⟩

open SampleParking in
/-- The quiet rank of an engine is put to sleep while its busy rank serves. -/
theorem sleep_stops_busy_sibling :
    ∃ s, ((parkingMachine (pair true) fun _ => True).system fun _ _ => True).Reachable s ∧
      (∃ call ∈ s.memory.sleeps, call.upstream = 1 ∧
        (pair true).upstreams 0 = (pair true).upstreams 1 ∧ call.inflight 0 = 1) ∧
      s.memory.actuation.slept ((pair true).upstreams 0) ∧
      s.memory.healthy 0 ∧ s.memory.drained 0 = false :=
  (parkingMachine (pair true) fun _ => True).exists_reachable (fun _ _ => True) quietReplica _
    ⟨SampleParking.initial, trivial⟩ (by decide +kernel)

/-! ## Restarts -/

namespace ParkActuation
variable {config : EngineParkConfig} {engine : Fin n → String} {a a' : ParkActuation n}
  {u v : Fin n}

structure Wakes (engine : Fin n → String) (a : ParkActuation n) : Prop where
  asleep : ∀ e, a.asleep e → a.slept e
  pending : ∀ u, a.sleepPending u → a.slept (engine u)
  sent : a.stage = .marked → ∀ u before, a.calls u = .sent before →
    (a.actions u = some .sleep → a.slept (engine u)) ∧
      (a.actions u ≠ some .sleep → a.actions u ≠ none ∧
        ∀ v, engine v = engine u → a.sleepPending v → before v)

theorem EnginesAwake.wakes (h : a.EnginesAwake) (hi : a.Initial) : a.Wakes engine where
  asleep e he := by
    rw [h.asleep] at he
    cases he
  pending u hu := by
    rw [h.sleepPending] at hu
    cases hu
  sent hg := by
    rw [hi.stage] at hg
    cases hg

variable (engine) (a) (u) in
theorem send_adds : (a.send engine u).asleep = a.asleep ∧
    (∀ e, a.slept e → (a.send engine u).slept e) ∧
    (∀ v, (a.send engine u).sleepPending v →
      a.sleepPending v ∨ v = u ∧ a.actions u = some .sleep) ∧
    (a.actions u = some .sleep → (a.send engine u).slept (engine u)) := by
  unfold send
  dsimp only
  split
  case h_1 ha =>
    refine ⟨rfl, fun e he => ?_, fun v hv => ?_, fun _ => update_self _ _ _⟩
    · simp only [update_apply, he, ite_self]
    simp only [update_apply] at hv
    split at hv
    case isTrue hu => exact .inr ⟨hu, ha⟩
    case isFalse => exact .inl hv
  case h_2 ha =>
    exact ⟨rfl, fun _ => id, fun _ => .inl, fun h => by cases ha.symm.trans h⟩
  case h_3 ha =>
    exact ⟨rfl, fun _ => id, fun _ => .inl, fun h => by cases ha.symm.trans h⟩
  case h_4 ha =>
    exact ⟨rfl, fun _ => id, fun _ => .inl, fun h => by cases ha.symm.trans h⟩

/-- Calls reach no other engine. -/
theorem asleep_next {event : ParkEvent n} (hn : a.next config engine event = some a') {e : String}
    (he : ∀ u, engine u ≠ e) : a'.asleep e = a.asleep e := by
  cases acts_of_next hn with
  | plan _ => rfl
  | mark _ => rfl
  | send _ => rw [(send_adds engine a _).1]
  | answer _ hse =>
    obtain ⟨action, before, -, -, heq | heq⟩ := answer_cases engine hse _
    · rw [heq]
      rfl
    rw [heq]
    cases action with
    | sleep => exact update_of_ne (he _).symm _ _
    | wake => exact update_of_ne (he _).symm _ _
    | reconcile =>
      simp only [succeed]
      split <;> rfl
  | collect _ _ => rfl
  | sleepTakesEffect _ => exact update_of_ne (he _).symm _ _
  | wakeTakesEffect _ => exact update_of_ne (he _).symm _ _

section
variable (h : a.Wakes engine)
include h

theorem Wakes.send (hb : a.Spares engine) (hr : a.ready u) : (a.send engine u).Wakes engine := by
  obtain ⟨hg, ⟨action, ha⟩, -⟩ := ready_iff.1 hr
  obtain ⟨hd, hs, hp, hj⟩ := send_adds engine a u
  refine ⟨fun e he => ?_, fun v hv => ?_, fun _ w before hc => ?_⟩
  · rw [hd] at he
    exact hs e (h.asleep e he)
  · rcases hp v hv with hv | ⟨rfl, hv⟩
    · exact hs _ (h.pending v hv)
    · exact hj hv
  · rw [calls_send, update_apply] at hc
    rw [actions_send]
    split at hc
    case isTrue hu =>
      subst hu
      injection hc with hc
      subst hc
      refine ⟨hj, fun hn => ⟨?_, fun v _ hv => ?_⟩⟩
      · rw [ha]
        exact some_ne_none action
      rcases hp v hv with hv | ⟨-, hv⟩
      · exact hv
      · exact absurd hv hn
    case isFalse hu =>
      obtain ⟨hs', hf⟩ := h.sent hg w before hc
      refine ⟨fun hw => hs _ (hs' hw), fun hn => ?_⟩
      obtain ⟨ho, hf⟩ := hf hn
      refine ⟨ho, fun v hv hi => ?_⟩
      rcases hp v hi with hi | ⟨rfl, hl⟩
      · exact hf v hv hi
      -- A replica that is woken has no sibling that goes to sleep in this round.
      rcases hb.siblings hg v hl w hv.symm with hw | ⟨hw, -⟩
      · exact absurd hw hn
      · exact absurd hw ho

theorem Wakes.finish (u : Fin n) (outcome : ParkState) : (a.finish u outcome).Wakes engine := by
  refine ⟨h.asleep, h.pending, fun hg v before hc => ?_⟩
  simp only [ParkActuation.finish, update_apply] at hc
  split at hc
  · cases hc
  · exact h.sent hg v before hc

theorem Wakes.setAsleep {asleep : Bool} {sleepPending wakePending : Fin n → Bool}
    (ha : asleep → a.slept (engine u)) (hp : ∀ v, sleepPending v → a.sleepPending v) : { a with
      asleep := update a.asleep (engine u) asleep
      sleepPending
      wakePending }.Wakes engine := by
  refine ⟨fun e he => ?_, fun v hv => h.pending v (hp v hv), fun hg v before hc => ?_⟩
  · simp only [update_apply] at he
    split at he
    case isTrue heq => exact heq ▸ ha he
    case isFalse => exact h.asleep e he
  · obtain ⟨hs, hb⟩ := h.sent hg v before hc
    refine ⟨hs, fun hn => ⟨(hb hn).1, fun w hw hd => ?_⟩⟩
    exact (hb hn).2 w hw (hp w hd)

theorem Wakes.foundAwake (ha : a.asleep (engine u) = false)
    (hp : ∀ v, engine v = engine u → a.sleepPending v = false)
    (hc : ∀ v before, engine v = engine u → a.calls v = .sent before →
      a.actions v ≠ some .sleep) : (a.foundAwake engine u).Wakes engine := by
  have ho : ∀ e, e ≠ engine u → a.slept e → (a.foundAwake engine u).slept e := by
    intro e he hs
    simpa only [ParkActuation.foundAwake, update_of_ne he] using hs
  refine ⟨fun e he => ho e ?_ (h.asleep e he), fun v hv => ho _ ?_ (h.pending v hv), ?_⟩
  · rintro rfl
    exact Bool.false_ne_true (ha.symm.trans he)
  · intro hn
    exact Bool.false_ne_true ((hp v hn).symm.trans hv)
  · intro hg v before hl
    obtain ⟨hs, hd⟩ := h.sent hg v before hl
    refine ⟨fun hb => ho _ (fun hn => ?_) (hs hb), hd⟩
    exact hc v before hn hl hb

theorem Wakes.answer (hd : a.Spares engine) (hg : a.stage = .marked) (hse : a.isSent u)
    (ok : Bool) : (a.answer engine u ok).Wakes engine := by
  obtain ⟨action, before, ha, hk, heq | heq⟩ := answer_cases engine hse ok
  · rw [heq]
    exact h.finish u .unknown
  rw [heq]
  obtain ⟨ht, hm⟩ := h.sent hg u before hk
  have hl : ∀ v, (a.settle engine u before).sleepPending v →
      a.sleepPending v = true := fun v hv => (Bool.and_eq_true_iff.1 hv).1
  have hs : (a.settle engine u before).Wakes engine := by
    refine ⟨h.asleep, fun v hv => h.pending v (hl v hv), fun hg v earlier hc => ?_⟩
    obtain ⟨ht, ho⟩ := h.sent hg v earlier hc
    exact ⟨ht, fun hn => ⟨(ho hn).1, fun w hw hp => (ho hn).2 w hw (hl w hp)⟩⟩
  -- Every sleep of the engine was sent before this call, and is settled.
  have he : action ≠ .sleep → ∀ v, engine v = engine u →
      (a.settle engine u before).sleepPending v = false := by
    intro hn v hv
    have hi := (hm (by rw [ha]; exact fun h => hn (some.inj h))).2 v hv
    simp only [settle]
    cases hf : a.sleepPending v with
    | false => rfl
    | true => simp [hi hf, hv]
  have hb : action ≠ .sleep → ∀ v before, engine v = engine u → a.calls v = .sent before →
      a.actions v ≠ some .sleep := by
    intro hn v _ hv _ hq
    rcases hd.siblings hg v hq u hv.symm with hu | ⟨hu, -⟩
    · rw [ha] at hu
      exact hn (some.inj hu)
    · cases ha.symm.trans hu
  cases action with
  | sleep =>
    refine (hs.setAsleep (fun _ => ht ha) fun v hv => ?_).finish u .parked
    exact update_false_le hv
  | wake =>
    refine (Wakes.foundAwake ?_ ?_ ?_ ?_).finish u .awake
    · exact hs.setAsleep nofun fun v => id
    · exact update_self _ _ _
    · exact he (by decide)
    · exact hb (by decide)
  | reconcile =>
    simp only [succeed]
    split
    · exact hs.finish u .parked
    case isFalse hj =>
      refine (hs.foundAwake ?_ (he (by decide)) (hb (by decide))).finish u .awake
      exact Bool.eq_false_of_not_eq_true hj

theorem Wakes.next {event : ParkEvent n} (hb : a.Believes)
    (hs : a.Spares engine) (hn : a.next config engine event = some a') : a'.Wakes engine := by
  cases acts_of_next hn with
  | plan _ => exact ⟨h.asleep, h.pending, nofun⟩
  | mark hg =>
    refine ⟨h.asleep, h.pending, fun _ u before hc => ?_⟩
    cases (hb.unsent hg u).symm.trans hc
  | send hr => exact h.send hs hr
  | answer hg hse => exact h.answer hs hg hse _
  | collect _ _ => exact ⟨h.asleep, h.pending, nofun⟩
  | sleepTakesEffect hp => exact h.setAsleep (fun _ => h.pending _ hp) fun v => update_false_le
  | wakeTakesEffect _ => exact h.setAsleep nofun fun v => id

end
end ParkActuation

section Restarts
variable (config : ParkingConfig n)

abbrev ParkingProcess (n : Nat) := Machine.State (ParkingMemory n) ParkingAnswers (ParkingSlot n)

/-- A process goes on, or another one is started over the same engines. -/
inductive ProcessMove (n : Nat) where
  | move (move : ParkingMove n)
  | restart

structure ParkActuation.SameEngines (a a' : ParkActuation n) : Prop where
  asleep : a'.asleep = a.asleep
  sleepPending : a'.sleepPending = a.sleepPending
  wakePending : a'.wakePending = a.wakePending

/-- One process after the other; `R` is a condition on what a process leaves behind. -/
def restartedFleet (C : ParkingMemory n → ParkingMove n → Prop) (R : ParkActuation n → Prop) :
    TransitionSystem (ParkingProcess n) (ProcessMove n) where
  init := ((parkingMachine config EnginesAwake).system C).init
  step s
    | .move move, s' =>
      ((parkingMachine config EnginesAwake).system C).step s move s'
    | .restart, s' => R s.memory.actuation ∧ s'.memory.Initial ∧
      s'.threads = (fun _ => .done ()) ∧ s.memory.actuation.SameEngines s'.memory.actuation

/-- No request went to an engine that slept. -/
structure SentAwake (m : ParkingMemory n) : Prop where
  spares : m.actuation.Spares config.upstreams
  wakes : m.actuation.Wakes config.upstreams
  sent : ∀ request ∈ m.sent, request.asleep = false

variable {config} {m m' : ParkingMemory n} {i : ParkingSlot n}

theorem wakes_step (hf : m.Safe config) (hs : m.actuation.Spares config.upstreams)
    (h : m.actuation.Wakes config.upstreams) (hsp : parkingGuarantee config i m m') :
    m'.actuation.Wakes config.upstreams := by
  rcases parkingGuarantee_actuation hsp with heq | ⟨event, hn, -⟩
  · rw [heq]
    exact h
  · exact h.next hf.believes hs hn

theorem sent_step {request : SentRequest n} (hsp : parkingGuarantee config i m m')
    (hr : request ∈ m'.sent) : request ∈ m.sent ∨ ∃ u, m.inflight u ≠ 0 ∧
      request = ⟨u, m.actuation.asleep (config.upstreams u)⟩ := by
  cases i with
  | drainer =>
    have hsp : Drains config m m' := hsp
    rw [hsp.frame] at hr
    exact .inl hr
  | call u =>
    rcases hsp with ⟨-, rfl⟩ | ⟨-, -, ok, rfl⟩
    · exact .inl hr
    · exact .inl hr
  | topology =>
    have hsp : Retopologizes m m' := hsp
    rw [hsp.frame] at hr
    exact .inl hr
  | request k =>
    rcases hsp with rfl | ⟨u, -, rfl⟩ | ⟨u, hu, rfl⟩ | rfl
    · exact .inl hr
    · exact .inl hr
    · rcases List.mem_cons.1 hr with rfl | hr
      · exact .inr ⟨u, inflight_pos hu, rfl⟩
      · exact .inl hr
    · exact .inl hr
  | health | outside =>
    rw [(Happens.frame hsp).1] at hr
    exact .inl hr

theorem SentAwake.parked (h : SentAwake config m) (hs : m.Safe config) {u : Fin n}
    (ha : m.actuation.asleep (config.upstreams u)) : m.drained u ∧ m.inflight u = 0 :=
  hs.parked u (h.spares.slept u (h.wakes.asleep _ ha))

theorem SentAwake.step {answers : ParkingAnswers} (hs : m.Safe config) (h : SentAwake config m)
    (hC : SparesRounds config m (.run i answers)) (hsp : parkingGuarantee config i m m') :
    SentAwake config m' := by
  refine ⟨spares_step hs h.spares hC hsp, wakes_step hs h.spares h.wakes hsp, ?_⟩
  intro request hr
  rcases sent_step hsp hr with hr | ⟨u, hi, rfl⟩
  · exact h.sent request hr
  · by_contra ha
    exact hi (h.parked hs (eq_true_of_ne_false ha)).2

theorem sentAwake_initial (hi : m.Initial) (ha : m.actuation.EnginesAwake) :
    SentAwake config m := by
  refine ⟨hi.actuation.spares, ha.wakes hi.actuation, fun request hr => ?_⟩
  rw [hi.sent] at hr
  cases hr

/-- Over every sequence of processes, each of which starts over engines that are awake and
spares the siblings of what it puts to sleep: no request goes to an engine that sleeps,
and no upstream of such an engine takes requests. -/
theorem sent_only_to_awake_engines (config : ParkingConfig n) {s : ParkingProcess n}
    (h : (restartedFleet config (SparesRounds config) EnginesAwake).Reachable s) :
    (∀ request ∈ s.memory.sent, request.asleep = false) ∧
      ∀ u, s.memory.actuation.asleep (config.upstreams u) → s.memory.drained u := by
  let spec := parkingSpec config EnginesAwake (SparesRounds config)
  have hn : spec.Holds s ∧ SentAwake config s.memory := by
    refine h.invariant (P := fun s => spec.Holds s ∧ SentAwake config s.memory)
      (fun s hs => ?_) fun s a s' hs hstep => ?_
    · exact ⟨spec.holds_init hs, sentAwake_initial hs.1.1 hs.1.2⟩
    cases a with
    | move move =>
      refine ⟨spec.holds_step hs.1 hstep, spec.also_step ?_ hs.1 hs.2 hstep⟩
      exact fun i e m m' hf hm hC hguar => SentAwake.step hf hm hC hguar
    | restart =>
      obtain ⟨ha, hi, ht, he⟩ := hstep
      have ha' : s'.memory.actuation.EnginesAwake :=
        ⟨he.asleep.trans ha.asleep, he.sleepPending.trans ha.sleepPending⟩
      exact ⟨spec.holds_init ⟨⟨hi, ha'⟩, ht⟩, sentAwake_initial hi ha'⟩
  exact ⟨hn.2.sent, fun u hu => (hn.2.parked hn.1.1 hu).1⟩

end Restarts

namespace SampleParking
variable (s : State 2)

/-- A new process over the engines of the last one. -/
def restarted : State 2 :=
  ⟨{ memory with
      actuation :=
        { memory.actuation with
          asleep := s.memory.actuation.asleep
          sleepPending := s.memory.actuation.sleepPending
          wakePending := s.memory.actuation.wakePending } }, fun _ => .done ()⟩

theorem restarted_initial : (restarted s).memory.Initial :=
  ⟨rfl, rfl, rfl, rfl, rfl, ⟨rfl, rfl, rfl, rfl, rfl⟩, rfl, rfl, rfl, rfl⟩

/-- A step that spares siblings, or a restart. -/
def nextProcess : ProcessMove 2 → Option (State 2)
  | .move move => if SparesRounds (pair false) s.memory move then
      (parkingMachine (pair false) EnginesAwake).next s move else none
  | .restart => some (restarted s)

theorem nextProcess_step {s s' : State 2} {a : ProcessMove 2} {R : ParkActuation 2 → Prop}
    (hR : a = .restart → R s.memory.actuation) (h : nextProcess s a = some s') :
    (restartedFleet (pair false) (SparesRounds (pair false)) R).step s a s' := by
  cases a with
  | move move =>
    simp only [nextProcess, ite_none_right_eq_some] at h
    exact h
  | restart =>
    cases h
    exact ⟨hR rfl, restarted_initial s, rfl, ⟨rfl, rfl, rfl⟩⟩

def sentTo (u : Fin 2) : List (ParkingMove 2) :=
  [.start (.request 1 u false), .run (.request 1) ⟨0, true⟩, .run (.request 1) ⟨0, true⟩]

/-- The first upstream fails, and the second is woken for it. -/
def wokenAgain : List (ParkingMove 2) :=
  putToSleep ++ List.replicate 6 (.run .drainer ⟨330000, true⟩) ++
    [.start (.setHealthy 0 false), .run .health ⟨331000, true⟩] ++ round 331000 16 ++
    call 1 331000 2

def leftAsleep : List (ProcessMove 2) :=
  putToSleep.map .move ++ [.restart] ++ (sentTo 1).map .move

end SampleParking

open SampleParking in
theorem sent_only_to_awake_engines_sample :
    ∃ s, (restartedFleet (pair false) (SparesRounds (pair false)) EnginesAwake).Reachable s ∧
      s.memory.sent.map (·.upstream) = [1] ∧
      ∀ request ∈ s.memory.sent, request.asleep = false := by
  let machine := parkingMachine (pair false) EnginesAwake
  let system := restartedFleet (pair false) (SparesRounds (pair false)) EnginesAwake
  let spares := fun (s : SampleParking.State 2) (move : ParkingMove 2) =>
    decide (SparesRounds (pair false) s.memory move)
  have hu : ((wokenAgain.foldlM (guardNext spares machine.next) SampleParking.start).bind fun s =>
      ((sentTo 1).foldlM (guardNext spares machine.next) (restarted s)).map (s, ·)).any (fun s =>
        decide (s.1.memory.sleeps.length = 1 ∧
          s.1.memory.actuation.sleepPending = (fun _ => false) ∧
          (∀ u, s.1.memory.actuation.asleep ((pair false).upstreams u) = false) ∧
          s.2.memory.sent.map (·.upstream) = [1])) = true := by
    decide +kernel
  obtain ⟨⟨s, s'⟩, hs, hf⟩ := (any_eq_true _ _).1 hu
  obtain ⟨-, hp, hb, hn⟩ := of_decide_eq_true hf
  obtain ⟨_, hw, hs⟩ := bind_eq_some_iff.1 hs
  obtain ⟨_, ht, ⟨⟩⟩ := map_eq_some_iff.1 hs
  have hr : (machine.system (SparesRounds (pair false))).Reachable s :=
    .foldlM_guard (fun _ _ _ hC h => ⟨of_decide_eq_true hC, h⟩)
      (.init ⟨⟨SampleParking.initial, SampleParking.enginesAwake⟩, rfl⟩) hw
  -- The woken engine is awake again, and no other one was ever asleep.
  have ha : s.memory.actuation.EnginesAwake := by
    refine ⟨funext fun e => ?_, hp⟩
    by_cases he : ∃ u, (pair false).upstreams u = e
    · obtain ⟨u, rfl⟩ := he
      exact hb u
    refine (parkingSpec (pair false) EnginesAwake (SparesRounds (pair false))).also
      (P := fun m => m.actuation.asleep e = false) (fun m hm => ?_)
      (fun i _ m m' _ hm _ hguar => ?_) hr
    · rw [hm.2.asleep]
    · rcases parkingGuarantee_actuation hguar with heq | ⟨event, hn, -⟩
      · rw [heq]
        exact hm
      · rw [asleep_next hn fun u hu => he ⟨u, hu⟩]
        exact hm
  have hl : system.Reachable s :=
    Reachable.invariant (M := machine.system (SparesRounds (pair false)))
      (P := system.Reachable) (fun _ h => .init h)
      (fun _ move _ h hsp => .step (a := .move move) h hsp) hr
  have ho : system.Reachable (restarted s) :=
    .step (a := .restart) hl ⟨ha, restarted_initial s, rfl, ⟨rfl, rfl, rfl⟩⟩
  -- What the new process does.
  let moved : TransitionSystem (SampleParking.State 2) (ParkingMove 2) :=
    ⟨system.Reachable, fun s move s' => system.step s (.move move) s'⟩
  have hv : moved.Reachable s' :=
    .foldlM_guard (fun _ _ _ hC h => ⟨of_decide_eq_true hC, h⟩) (.init ho) ht
  have he : system.Reachable s' :=
    Reachable.invariant (M := moved) (P := system.Reachable) (fun _ h => h)
      (fun _ move _ h hsp => .step (a := .move move) h hsp) hv
  exact ⟨s', he, hn, (sent_only_to_awake_engines _ he).1⟩

open SampleParking in
/-- A process believes every engine awake when it starts, and routes to one that sleeps. -/
theorem sent_to_engine_left_asleep :
    ∃ s, (restartedFleet (pair false) (SparesRounds (pair false)) fun _ => True).Reachable s ∧
      ∃ request ∈ s.memory.sent, request.asleep :=
  Reachable.exists_of_any (C := fun _ _ => true) leftAsleep _
    (fun _ _ _ _ h => nextProcess_step (fun _ => trivial) h)
    (.init (s := SampleParking.start) ⟨⟨SampleParking.initial, SampleParking.enginesAwake⟩, rfl⟩)
    (by decide +kernel)

end Ramjet
