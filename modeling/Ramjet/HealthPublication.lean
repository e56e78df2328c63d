import Ramjet.FleetRequests

/-!
# Publications of health

A publication writes warmup admission and the router's flag in separate lock sections.
When nobody else writes in between, the two agree at its end.
-/

namespace Ramjet
open Thread FleetThread FleetMemory Function
variable {n : Nat} {c : FleetConfig n}

/-- What a thread does to the health of the upstreams: it raises a flag in a publication
that it is in the middle of, or as the guard round of a replica whose last probe passed. -/
structure HealthGuar (c : FleetConfig n) (i : FleetSlot n) (m m' : FleetMemory n) : Prop where
  pending : ∀ j, j ≠ i → m'.history.pending j = m.history.pending j
  kept : ∀ u j, j ≠ i → m'.history.writer u = some j → m.history.writer u = some j ∧
    m'.routingReady c u = m.routingReady c u ∧ (m'.healthy u → m.healthy u)
  settled : ∀ u, m'.history.settled u → m'.healthy u → m'.routingReady c u ∨
    m'.routingReady c u = m.routingReady c u ∧
      (m.history.settled u ∧ m.healthy u ∨ i = .poll u ∧ m.probeHealthy u)
  healthy : ∀ u, m'.healthy u → m.healthy u ∨ i = .poll u ∧ m.probeHealthy u ∨
    m.history.pending i = some (u, true) ∧
      (i = .probe u → m.history.fresh u → m'.history.marked u = false)
  marked : ∀ u, m'.history.marked u → m.history.marked u ∨ m'.healthy u = false

structure HealthRely (c : FleetConfig n) (i : FleetSlot n) (m m' : FleetMemory n) : Prop where
  pending : m'.history.pending i = m.history.pending i
  kept : ∀ u, m'.history.writer u = some i → m.history.writer u = some i ∧
    m'.routingReady c u = m.routingReady c u ∧ (m'.healthy u → m.healthy u)

section Guarantees
variable {m m' : FleetMemory n} {i : FleetSlot n}

/-- Nothing that the history is about. -/
structure Unwritten (m m' : FleetMemory n) : Prop where
  history : m'.history = { m.history with fresh := m'.history.fresh }
  warmup : m'.warmup = m.warmup
  healthy : ∀ u, m'.healthy u = m.healthy u

theorem Unwritten.guar (h : Unwritten m m') : HealthGuar c i m m' := by
  have hr : ∀ u, m'.routingReady c u = m.routingReady c u :=
    fun u => by simp only [routingReady, h.warmup]
  refine ⟨fun j _ => by rw [h.history], fun u j _ hw => ?_, fun u hs hh => .inr ⟨hr u, .inl ?_⟩,
    fun u hh => .inl (h.healthy u ▸ hh), fun u hm => .inl ?_⟩
  · rw [h.history] at hw
    exact ⟨hw, hr u, fun hh => h.healthy u ▸ hh⟩
  · rw [h.history] at hs
    exact ⟨hs, h.healthy u ▸ hh⟩
  · rw [h.history] at hm
    exact hm

theorem Unwritten.of_dispatches (h : Dispatches m m') : Unwritten m m' := by
  refine ⟨?_, by rw [h.frame], h.healthy⟩
  rw [h.frame]

theorem Unwritten.of_examines {u : Fin n} (h : Examines u m m') : Unwritten m m' := by
  refine ⟨h.history, by rw [h.frame], fun v => ?_⟩
  rw [h.frame]
  rfl

structure Writing (c : FleetConfig n) (i : FleetSlot n) (u : Fin n) (b warm down : Bool)
    (m : FleetMemory n) : Prop where
  pending : m.history.pending i = some (u, b)
  warm : warm → m.history.writer u = some i → m.routingReady c u
  down : down → m.history.writer u = some i → m.healthy u = false

def Pending (i : FleetSlot n) (publication : Option (Fin n × Bool)) (m : FleetMemory n) : Prop :=
  m.history.pending i = publication

variable {publication : Option (Fin n × Bool)} {u : Fin n} {b warm down : Bool}

theorem stable_pending : Stable (HealthRely c i) (Pending i publication) :=
  fun _ _ hm hr => hr.pending.trans hm

theorem stable_writing : Stable (HealthRely c i) (Writing c i u b warm down) := by
  intro m m' hm hr
  refine ⟨hr.pending.trans hm.pending, fun h hw => ?_, fun h hw => ?_⟩
  · obtain ⟨hold, hready, -⟩ := hr.kept u hw
    exact hready.trans (hm.warm h hold)
  · obtain ⟨hold, -, hh⟩ := hr.kept u hw
    exact Bool.eq_false_of_not_eq_true fun hc =>
      Bool.eq_false_iff.1 (hm.down h hold) (hh hc)

theorem meets_unwritten {α : Type} {t : FleetThread n α} (h : t.Always Unwritten) :
    t.Meets (fun _ => True) (HealthRely c i) (HealthGuar c i) (Pending i publication)
      fun _ => Pending i publication := by
  refine h.keeps (fun _ _ _ hm => hm.guar) stable_pending fun m m' hm hk => ?_
  rw [Pending, hk.history]
  exact hm

/-- A write of the thread's publication of `u`. -/
structure WritesOwn (c : FleetConfig n) (i : FleetSlot n) (u : Fin n) (m m' : FleetMemory n) :
    Prop where
  pending : ∀ j, j ≠ i → m'.history.pending j = m.history.pending j
  elsewhere : ∀ v, v ≠ u → m'.history.writer v = m.history.writer v ∧
    m'.history.settled v = m.history.settled v ∧ m'.history.marked v = m.history.marked v ∧
    m'.warmup v = m.warmup v ∧ m'.healthy v = m.healthy v
  writer : ∀ j, j ≠ i → m'.history.writer u ≠ some j
  settled : m'.history.settled u → m'.healthy u → m'.routingReady c u
  marked : m'.history.marked u → m.history.marked u
  healthy : m'.healthy u → m.healthy u ∨ m.history.pending i = some (u, true) ∧
    (i = .probe u → m.history.fresh u → m'.history.marked u = false)

theorem WritesOwn.guar (h : WritesOwn c i u m m') : HealthGuar c i m m' := by
  have hr : ∀ v, v ≠ u → m'.routingReady c v = m.routingReady c v :=
    fun v hv => by simp only [routingReady, (h.elsewhere v hv).2.2.2.1]
  refine ⟨h.pending, fun v j hj hc => ?_, fun v hset hup => ?_, fun v hup => ?_, fun v hv => ?_⟩
  · have hv : v ≠ u := fun hv => h.writer j hj (hv ▸ hc)
    obtain ⟨hw, -, -, -, hhe⟩ := h.elsewhere v hv
    exact ⟨hw ▸ hc, hr v hv, fun hh => hhe ▸ hh⟩
  all_goals by_cases hu : v = u
  · subst hu
    exact .inl (h.settled hset hup)
  · obtain ⟨-, hse, -, -, hhe⟩ := h.elsewhere v hu
    exact .inr ⟨hr v hu, .inl ⟨hse ▸ hset, hhe ▸ hup⟩⟩
  · subst hu
    exact (h.healthy hup).imp_right .inr
  · exact .inl ((h.elsewhere v hu).2.2.2.2 ▸ hup)
  · subst hu
    exact .inl (h.marked hv)
  · exact .inl ((h.elsewhere v hu).2.2.1 ▸ hv)

end Guarantees

section Publications
variable {i : FleetSlot n} {u : Fin n} {b down : Bool}

theorem meets_announceHealth : (modify (·.announce i u b) : FleetThread n Unit).Meets
      (fun _ => True) (HealthRely c i) (HealthGuar c i) (Pending i none)
      fun _ => Writing c i u b false false := by
  refine .modify stable_writing fun m _ _ =>
    ⟨WritesOwn.guar (u := u) ⟨fun j hj => update_of_ne hj _ _, fun v hv => ?_, fun j hj hc => ?_,
      fun hs => ?_, id, .inl⟩, update_self .., by rintro ⟨⟩, by rintro ⟨⟩⟩
  · exact ⟨update_of_ne hv _ _, update_of_ne hv _ _, rfl, rfl, rfl⟩
  · cases (update_self ..).symm.trans hc
    exact hj rfl
  · cases (update_self ..).symm.trans hs

variable {m : FleetMemory n}

theorem writer_write {history : HealthHistory n} {j : FleetSlot n} (hj : j ≠ i) :
    (history.write i u).writer u ≠ some j := by
  simp only [HealthHistory.write, update_self]
  split
  · exact fun hc => hj (Option.some.inj hc).symm
  · rintro ⟨⟩

theorem writing_setWarmup {warm : Bool} (hm : Writing c i u b false down m)
    {replica : WarmupReplica} (hw : warm → replica.ready) :
    HealthGuar c i m (m.setWarmup i u replica) ∧
      Writing c i u b warm down (m.setWarmup i u replica) := by
  refine ⟨WritesOwn.guar (u := u) ⟨fun _ _ => rfl, fun v hv => ?_, fun j hj => writer_write hj,
    fun hs => ?_, id, .inl⟩, hm.pending, fun h _ => ?_, fun h hc => ?_⟩
  · exact ⟨update_of_ne hv _ _, update_of_ne hv _ _, rfl, update_of_ne hv _ _, rfl⟩
  · cases (update_self ..).symm.trans hs
  · simp only [routingReady, setWarmup, update_self]
    cases c.warmup with
    | none => rfl
    | some warmup => simp [hw h]
  · refine hm.down h ?_
    simp only [setWarmup, HealthHistory.write, update_self] at hc
    split at hc
    · assumption
    · cases hc

theorem meets_observeProbe (healthy : Bool) : (observeProbe c i u healthy).Meets
      (fun _ => True) (HealthRely c i) (HealthGuar c i)
      (Writing c i u b false down) fun _ => Writing c i u b false down := by
  unfold observeProbe
  split
  · exact .atomic (fun _ => stable_writing) fun _ m _ hm => writing_setWarmup hm (by rintro ⟨⟩)
  · exact fun _ _ hm => hm

theorem meets_observeServing : (observeServing c i u).Meets
      (fun _ => True) (HealthRely c i) (HealthGuar c i)
      (Writing c i u b false down) fun _ => Writing c i u b true down := by
  unfold observeServing
  split
  · exact .modify stable_writing fun m _ hm => writing_setWarmup hm fun _ => rfl
  next hn =>
    refine fun m _ hm => ⟨hm.pending, fun _ _ => ?_, hm.down⟩
    simp only [routingReady, hn, Option.all_none]

/-- The end of a publication, after a write of the flag. -/
theorem guar_settle {m' : FleetMemory n} (hh : m'.history = m.history) (hw : m'.warmup = m.warmup)
    (helse : ∀ v, v ≠ u → m'.healthy v = m.healthy v)
    (hr : m.history.writer u = some i → m'.healthy u → m'.routingReady c u)
    (hup : m'.healthy u → m.healthy u ∨ m.history.pending i = some (u, true) ∧ i ≠ .probe u) :
    HealthGuar c i m (m'.settle i u) ∧ Pending i none (m'.settle i u) := by
  refine ⟨WritesOwn.guar (u := u) ⟨fun j hj => ?_, fun v hv => ?_, fun j _ hc => ?_, fun hs => ?_,
    ?_, fun hu => ?_⟩, update_self ..⟩
  · exact (update_of_ne hj _ _).trans (by rw [hh])
  · refine ⟨(update_of_ne hv _ _).trans (by rw [hh]), (update_of_ne hv _ _).trans (by rw [hh]), ?_,
      by rw [← hw]; rfl, helse v hv⟩
    rw [← hh]
    rfl
  · cases (update_self ..).symm.trans hc
  · rw [← hh] at hr
    exact hr (of_decide_eq_true ((update_self ..).symm.trans hs))
  · rw [← hh]
    exact id
  · exact (hup hu).imp_right fun h => ⟨h.1, fun hc => absurd hc h.2⟩

theorem meets_publishUpstreamHealth (hi : b → i ≠ .probe u) :
    (publishUpstreamHealth c i u b).Meets (fun _ => True) (HealthRely c i)
      (HealthGuar c i) (Pending i none) fun _ => Pending i none := by
  refine meets_announceHealth.bind fun _ =>
    .bind (Q := fun _ => Writing c i u b b false) ?_ fun _ => ?_
  · cases b with
    | false => exact meets_observeProbe false
    | true => exact meets_observeServing
  refine .modify stable_pending fun m _ hm => ?_
  have hb : (m.publishProbeHealth u b).1.healthy u → b := by
    rw [healthy_publishProbeHealth, if_pos rfl]
    exact m.publishProbeHealth_le u b
  refine guar_settle rfl rfl (fun v hv => ?_) (fun hw hh => hm.warm (hb hh) hw) fun hh => .inr ?_
  · exact (m.healthy_publishProbeHealth u v b).trans (if_neg hv)
  · obtain rfl := hb hh
    exact ⟨hm.pending, hi rfl⟩

theorem meets_publishProbed (result : ProbeResult) :
    (publishProbedUpstreamHealth c u result).Meets (fun _ => True)
      (HealthRely c (.probe u)) (HealthGuar c (.probe u)) (Pending (.probe u) none)
      fun _ => Pending (.probe u) none := by
  refine meets_announceHealth.bind fun _ => .bind
    (Q := fun underlying => Writing c (.probe u) u result.passed false !underlying)
    (.atomic (fun _ => stable_writing) fun _ m _ hm => ?_) fun underlying =>
    (meets_observeProbe _).bind fun _ => .bind
      (Q := fun withheld => Pending (.probe u) (if withheld then some (u, result.passed) else none))
      (.atomic (fun _ => stable_pending) fun _ m _ hm => ?_) fun withheld => ?_
  · have hh := m.healthy_publishProbeHealth u u result.passed
    rw [if_pos rfl] at hh
    refine ⟨WritesOwn.guar (u := u) ⟨fun _ _ => rfl, fun v hv => ?_, fun j hj => writer_write hj,
      fun hs => ?_, fun hk => ?_, fun hu => .inr ?_⟩, hm.pending, by rintro ⟨⟩, fun hd _ => ?_⟩
    · refine ⟨update_of_ne hv _ _, update_of_ne hv _ _, update_of_ne hv _ _, rfl, ?_⟩
      exact (m.healthy_publishProbeHealth u v _).trans (if_neg hv)
    · cases (update_self ..).symm.trans hs
    · exact (Bool.and_eq_true_iff.1 ((update_self ..).symm.trans hk)).1
    · have hp := m.publishProbeHealth_le u _ (hh.symm.trans hu)
      refine ⟨hp ▸ hm.pending, fun _ hf => (update_self ..).trans ?_⟩
      change (m.history.marked u && !(result.passed && m.history.fresh u)) = false
      simp [hp, hf]
    · exact hh.trans (by simpa using hd)
  · dsimp only
    split
    · exact ⟨Unwritten.guar ⟨rfl, rfl, fun _ => rfl⟩, hm.pending⟩
    next hw =>
      refine guar_settle rfl rfl (fun _ _ => rfl) (fun hwr hh => ?_) .inl
      cases underlying with
      | true => simpa using hw
      | false => cases (hm.down rfl hwr).symm.trans hh
  · refine meets_when (fun hw => ?_) fun hw m _ hm => ?_
    · refine .modify stable_pending fun m _ _ => ?_
      have hn : ¬ (m.setHealthy u false).healthy u := by simp [healthy_setHealthy]
      refine guar_settle rfl rfl (fun v hv => ?_) (fun _ hh => absurd hh hn) fun hh => absurd hh hn
      exact (m.healthy_setHealthy u v false).trans (if_neg hv)
    · subst hw
      exact hm

theorem requestRule_health (k : Nat) : RequestRule c k (fun _ => True)
    (HealthRely c (.request k)) (HealthGuar c (.request k))
    (Pending (.request k) none) where
  aside h := meets_unwritten (h.mono fun _ _ => .of_dispatches)
  publish _ _ _ := meets_publishUpstreamHealth (by rintro _ ⟨⟩)

theorem probeRule_health (u : Fin n) : ProbeRule c u (fun _ => True)
    (HealthRely c (.probe u)) (HealthGuar c (.probe u)) (Pending (.probe u) none) where
  aside h := meets_unwritten (h.mono fun _ _ => .of_examines)
  withdraw := meets_publishUpstreamHealth (by rintro ⟨⟩)
  publish := meets_publishProbed

theorem guar_applyGuard (sample : Except ParseFailure DsparkCounters)
    (attested : Option (Bytes 32)) (io : Publication) :
    HealthGuar c (.poll u) m (m.applyGuard c u sample attested io) := by
  have hh := fun v => m.healthy_applyGuard u v c sample attested io
  refine ⟨fun _ _ => rfl, fun v j _ hw => ?_, fun v hs hup => .inr ⟨rfl, ?_⟩, fun v hup => ?_,
    fun _ => .inl⟩
  · have hv : v ≠ u := by
      rintro rfl
      cases (update_self ..).symm.trans hw
    exact ⟨(update_of_ne hv _ _).symm.trans hw, rfl, fun h =>
      (hh v h).resolve_right fun hc => hv hc.1⟩
  · rcases hh v hup with hold | ⟨rfl, hp⟩
    · exact .inl ⟨hs, hold⟩
    · exact .inr ⟨rfl, hp⟩
  · rcases hh v hup with hold | ⟨rfl, hp⟩
    · exact .inl hold
    · exact .inr (.inl ⟨rfl, hp⟩)

theorem meets_pollDsparkGuard : (pollDsparkGuard c u).Meets (fun _ => True)
      (HealthRely c (.poll u)) (HealthGuar c (.poll u)) (Pending (.poll u) none)
      fun _ => Pending (.poll u) none := by
  have hn : ∀ {α : Type} {f : FleetAnswers → FleetMemory n → α},
      Always Unwritten (atomic fun e m => (m, f e m) : FleetThread n α) :=
    .atomic fun _ _ => ⟨rfl, rfl, fun _ => rfl⟩
  refine (meets_unwritten hn).bind fun sample => (meets_unwritten hn).bind fun attested =>
    .bind (meets_unwritten ?_) fun commitment =>
    .atomic (fun _ => stable_pending) fun e m _ hm => ⟨guar_applyGuard _ _ _, hm⟩
  split
  · exact hn
  · trivial

end Publications

/-- The threads guarantee this under any condition. -/
def healthSpec (c : FleetConfig n) (C : FleetMemory n → FleetMove n → Prop) :
    (fleetMachine c).Spec C where
  inv _ := True
  rely := HealthRely c
  guar := HealthGuar c
  idle i := Pending i none
  init m hm := ⟨trivial, fun i => by rw [Pending, hm.history]; rfl⟩
  stable_idle _ := stable_pending
  inv_step _ _ _ _ _ _ _ := trivial
  compatible i j _ _ _ hij _ _ hguar :=
    ⟨hguar.pending j hij.symm, fun u => hguar.kept u j hij.symm⟩
  meets code := by
    cases code with
    | probe u fence => exact (probeRule_health u).probeWithAdmission fence
    | poll u => exact meets_pollDsparkGuard
    | request k r => exact (requestRule_health k).request r
    | markUpstreamUnavailable u =>
      refine .modify stable_pending fun m _ hm => ⟨?_, hm⟩
      have hh : ∀ v, (m.markUnavailable u).healthy v → m.healthy v := by
        intro v hv
        rw [show (m.markUnavailable u).healthy v = _ from m.healthy_setHealthy u v false] at hv
        split at hv
        · cases hv
        · exact hv
      refine ⟨fun _ _ => rfl, fun v _ _ hw => ⟨hw, rfl, hh v⟩,
        fun v hs hup => .inr ⟨rfl, .inl ⟨hs, hh v hup⟩⟩, fun v hup => .inl (hh v hup),
        fun v hv => ?_⟩
      by_cases heq : v = u
      · exact .inr ((m.healthy_setHealthy u v false).trans (if_pos heq))
      · exact .inl ((update_of_ne heq _ _).symm.trans hv)
    | setDrained u drained =>
      refine meets_unwritten (always_modify fun m => ⟨rfl, rfl, fun v => ?_⟩)
      simp only [healthy, Router.setDrained, Router.modify]
      split <;> rfl

/-- No guard round of a replica whose last probe passed while its warmup is pending. -/
def FleetMemory.roundsAdmitted (c : FleetConfig n) (m : FleetMemory n) : FleetMove n → Bool
  | .run (.poll u) _ => !m.probeHealthy u || m.routingReady c u
  | _ => true

/-- An upstream that is healthy in the router has been through warmup admission, whenever
nobody else has written its health since its last publication began and that has ended:
in every run that respects the condition on guard rounds. -/
theorem healthy_only_when_warmed_up {s : FleetState n}
    (h : ((fleetMachine c).system fun m move => m.roundsAdmitted c move).Reachable s)
    {u : Fin n} (hsettled : s.memory.history.settled u) (hhealthy : s.memory.healthy u) :
    s.memory.routingReady c u := by
  suffices hi : ∀ u, s.memory.history.settled u → s.memory.healthy u →
    s.memory.routingReady c u from hi u hsettled hhealthy
  refine (healthSpec c _).also (P := fun m => ∀ u, m.history.settled u → m.healthy u →
    m.routingReady c u) (fun m hm u _ _ => ?_) (fun i e m m' _ hP hC hguar u hs hh => ?_) h
  · simp [routingReady, hm.warmup, WarmupReplica.initial]
  rcases hguar.settled u hs hh with hr | ⟨heq, ⟨hold, hup⟩ | ⟨rfl, hprobe⟩⟩
  · exact hr
  · exact heq.trans (hP u hold hup)
  · exact heq.trans (by simpa [roundsAdmitted, hprobe] using hC)

namespace SampleWarmup
open SampleFleet

/-- Three passing probes over thirty seconds, and a guard that only observes. -/
def warmed : FleetConfig 2 :=
  config .http (some ⟨.enforce, 3, 30, Nat.le_add_left 1 2⟩) .observe (by decide) (by decide)

def probe (passed : Bool) (now actions : Nat) : List (FleetMove 2) :=
  .start (.probe 0 false) ::
    List.replicate actions (.run (.probe 0) { answers with advertised := passed, now })

def polled (u : Fin 2) : List (FleetMove 2) := .start (.poll u) :: run (.poll u) 3

def recovery : List (FleetMove 2) :=
  probe false 0 8 ++ probe true 15 9 ++ polled 1 ++ probe true 30 9 ++ probe true 45 8 ++ polled 0

end SampleWarmup

open SampleWarmup SampleFleet in
theorem healthy_only_when_warmed_up_sample :
    ∃ s, recovery.foldlM (guarded (·.roundsAdmitted warmed) warmed) (start warmed) = some s ∧
      s.memory.healthy 0 ∧ s.memory.routingReady warmed 0 := by
  have hu : (recovery.foldlM (guarded (·.roundsAdmitted warmed) warmed) (start warmed)).any
      (fun s => s.memory.history.settled 0 ∧ s.memory.healthy 0) = true := by decide +kernel
  obtain ⟨s, hs, hf⟩ := (Option.any_eq_true _ _).1 hu
  obtain ⟨hset, hh⟩ := of_decide_eq_true hf
  exact ⟨s, hs, hh, healthy_only_when_warmed_up (reachable_guarded (by decide) hs) hset hh⟩

open SampleWarmup SampleFleet in
/-- After one passing probe of the three it needs, a guard round makes the upstream healthy. -/
theorem guard_round_skips_warmup :
    ∃ s, ((fleetMachine warmed).system fun _ _ => True).Reachable s ∧
      s.memory.history.settled 0 ∧ s.memory.healthy 0 ∧
      s.memory.routingReady warmed 0 = false :=
  (fleetMachine warmed).exists_reachable _ (probe false 0 8 ++ probe true 15 9 ++ polled 0) _
    (initial (by decide)) (by decide +kernel)

/-- Nothing older than the mark is published of a marked upstream: no guard round while
its last probe result is a pass, and no pass but of a probe that started afterwards. -/
def FleetMemory.freshEvidence (m : FleetMemory n) : FleetMove n → Bool
  | .start _ => true
  | .run i _ => ∀ u, m.history.marked u → (i = .poll u → m.probeHealthy u = false) ∧
    (m.history.pending i = some (u, true) → i = .probe u ∧ m.history.fresh u)

/-- An upstream that the controller has marked stays unhealthy until a probe passes that
started afterwards: in every run that publishes nothing older than the mark. -/
theorem marked_stays_unavailable {s : FleetState n}
    (h : ((fleetMachine c).system fun m move => m.freshEvidence move).Reachable s)
    {u : Fin n} (hmarked : s.memory.history.marked u) : s.memory.healthy u = false := by
  suffices hi : ∀ u, s.memory.history.marked u → s.memory.healthy u = false from hi u hmarked
  refine (healthSpec c _).also (P := fun m => ∀ u, m.history.marked u → m.healthy u = false)
    (fun m hm u hu => ?_) (fun i e m m' _ hP hC hguar u hu => ?_) h
  · rw [hm.history] at hu
    cases hu
  have hC := of_decide_eq_true hC
  rcases hguar.marked u hu with hold | hdown
  · refine Bool.eq_false_of_not_eq_true fun hup => ?_
    rcases hguar.healthy u hup with hh | ⟨hi, hp⟩ | ⟨hp, hf⟩
    · cases (hP u hold).symm.trans hh
    · cases ((hC u hold).1 hi).symm.trans hp
    · obtain ⟨hi, hfresh⟩ := (hC u hold).2 hp
      cases (hf hi hfresh).symm.trans hu
  · exact hdown

namespace SampleMark
open SampleFleet SampleWarmup

def observed : FleetConfig 2 := config .http none .observe (by decide) (by decide)

def mark : List (FleetMove 2) := .start (.markUpstreamUnavailable 0) :: run .controller 1

def replaced : List (FleetMove 2) :=
  probe false 0 1 ++ mark ++ (probe false 0 6).tail ++ polled 0 ++ probe true 15 4

end SampleMark

open SampleMark SampleFleet in
theorem marked_stays_unavailable_sample :
    ∃ s, replaced.foldlM (guarded freshEvidence observed) (start observed) = some s ∧
      s.memory.history.marked 0 ∧ s.memory.healthy 0 = false := by
  have hu : (replaced.foldlM (guarded freshEvidence observed) (start observed)).any
      (fun s => s.memory.history.marked 0) = true := by decide +kernel
  obtain ⟨s, hs, hm⟩ := (Option.any_eq_true _ _).1 hu
  exact ⟨s, hs, hm, marked_stays_unavailable (reachable_guarded (by decide) hs) hm⟩

open SampleMark SampleWarmup SampleFleet in
/-- The upstream is healthy again though no probe of it has started. -/
theorem guard_round_revives_marked :
    ∃ s, ((fleetMachine observed).system fun _ _ => True).Reachable s ∧
      s.memory.history.marked 0 ∧ s.memory.healthy 0 :=
  (fleetMachine observed).exists_reachable _ (mark ++ polled 0) _ (initial (by decide))
    (by decide +kernel)

end Ramjet
