import Ramjet.AdaptiveController

/-!
# Drain before stop

A transition closes the topology, waits until nothing is in flight and then stops; a
rollback does not wait.
-/

namespace Ramjet
open Thread AdaptiveThread AdaptiveMemory TransitionSystem List
variable {c : AdaptiveConfig} {m m' : AdaptiveMemory}

def QuietProfile (config : AdaptiveConfig) (id : String) (m : AdaptiveMemory) : Prop :=
  ∀ profile, config.profile id = some profile → ∀ u ∈ profile.upstreams, m.inflight u = 0

/-- What holds at every moment. -/
structure Calm (config : AdaptiveConfig) (m : AdaptiveMemory) : Prop where
  stops : ∀ stop ∈ m.stops, stop.inflight = 0
  closed : ∀ failed, m.rolling = .closed failed → m.topology = [] ∧ QuietProfile config failed m

/-- A rollback begins when nothing is in flight on the profile that it will stop. -/
def RollsBackQuietly (config : AdaptiveConfig) (m : AdaptiveMemory) : AdaptiveMove → Prop
  | .run .operation _ => ∀ failed, m.rolling = .starting failed → QuietProfile config failed m
  | .run (.handler _) _ | .run (.request _) _ | .start _ => True

/-- A step that moves neither requests nor the topology. -/
structure SameTraffic (m m' : AdaptiveMemory) : Prop where
  topology : m'.topology = m.topology
  reserved : m'.reserved = m.reserved
  rolling : m'.rolling = m.rolling
  stops : m'.stops = m.stops

structure ServesRequest (m m' : AdaptiveMemory) : Prop where
  topology : m'.topology = m.topology
  rolling : m'.rolling = m.rolling
  stops : m'.stops = m.stops
  quiet : m.topology = [] → ∀ u, m.inflight u = 0 → m'.inflight u = 0

structure Operates (m m' : AdaptiveMemory) : Prop where
  reserved : m'.reserved = m.reserved
  stops : ∀ stop ∈ m'.stops, stop ∈ m.stops ∨ stop.inflight = 0
  rolling : ∀ failed, m'.rolling = .closed failed →
    m.rolling = .closed failed ∧ m'.topology = m.topology ∨
      m.rolling = .starting failed ∧ m'.topology = []

def trafficGuarantee : AdaptiveSlot → AdaptiveMemory → AdaptiveMemory → Prop
  | .handler _ => SameTraffic
  | .operation => Operates
  | .request _ => ServesRequest

def trafficRely : AdaptiveSlot → AdaptiveMemory → AdaptiveMemory → Prop
  | .operation => ServesRequest
  | .handler _ | .request _ => fun _ _ => True

theorem AdaptiveMemory.inflight_congr (h : m'.reserved = m.reserved) (u : Nat) :
    m'.inflight u = m.inflight u := by
  unfold inflight
  rw [h]

theorem SameTraffic.refl (m : AdaptiveMemory) : SameTraffic m m := ⟨rfl, rfl, rfl, rfl⟩

theorem SameTraffic.serves (h : SameTraffic m m') : ServesRequest m m' :=
  ⟨h.topology, h.rolling, h.stops, fun _ u hu => (inflight_congr h.reserved u).trans hu⟩

theorem SameTraffic.operates (h : SameTraffic m m') : Operates m m' where
  reserved := h.reserved
  stops _ hs := .inl (h.stops ▸ hs)
  rolling _ hc := .inl ⟨h.rolling ▸ hc, h.topology⟩

theorem Calm.serves (h : Calm c m) (hsp : ServesRequest m m') : Calm c m' where
  stops := hsp.stops ▸ h.stops
  closed failed hfa := by
    rw [hsp.rolling] at hfa
    obtain ⟨hc, hq⟩ := h.closed failed hfa
    refine ⟨hsp.topology.trans hc, fun profile hprof u hu => ?_⟩
    exact hsp.quiet hc u (hq profile hprof u hu)

theorem Calm.operates {e : AdaptiveAnswers} (h : Calm c m)
    (hC : RollsBackQuietly c m (.run .operation e)) (hsp : Operates m m') : Calm c m' where
  stops stop hs := (hsp.stops stop hs).elim (h.stops stop) id
  closed failed hfa := by
    have hk : QuietProfile c failed m → QuietProfile c failed m' := by
      intro hq profile hprof u hu
      rw [inflight_congr hsp.reserved]
      exact hq profile hprof u hu
    rcases hsp.rolling failed hfa with ⟨hc, ht⟩ | ⟨ha, ht⟩
    · obtain ⟨he, hq⟩ := h.closed failed hc
      exact ⟨ht.trans he, hk hq⟩
    · exact ⟨ht, hk (hC failed ha)⟩

theorem calm_step (i : AdaptiveSlot) (e : AdaptiveAnswers) (h : Calm c m)
    (hC : RollsBackQuietly c m (.run i e)) (hsp : trafficGuarantee i m m') : Calm c m' := by
  cases i with
  | handler k => exact h.serves (SameTraffic.serves hsp)
  | operation => exact h.operates hC hsp
  | request k => exact h.serves hsp

theorem traffic_compatible (i j : AdaptiveSlot) (hij : i ≠ j) (hsp : trafficGuarantee i m m') :
    trafficRely j m m' := by
  cases j with
  | handler k => trivial
  | request k => trivial
  | operation =>
    cases i with
    | handler k => exact SameTraffic.serves hsp
    | operation => exact absurd rfl hij
    | request k => exact hsp

theorem always_updateRuntime {f : AdaptiveMemory → AdaptiveMemory}
    (h : ∀ m, SameTraffic m (f m)) : (updateRuntime f).Always SameTraffic :=
  fun _ m => ⟨h m, trivial⟩

theorem operates_updateRuntime (f : AdaptiveMemory → AdaptiveMemory)
    (h : ∀ m, SameTraffic m (f m)) : (updateRuntime f).Always Operates :=
  (always_updateRuntime h).mono fun _ _ => SameTraffic.operates

theorem always_persist : persist.Always SameTraffic := by
  refine .bind (fun _ m => ⟨.refl m, trivial⟩) fun state => ?_
  refine .atomic fun answers m => ?_
  simp only [write]
  split
  · exact ⟨rfl, rfl, rfl, rfl⟩
  · exact .refl m

theorem always_setPhase (phase : AdaptivePhase) : (setPhase phase).Always SameTraffic :=
  .bind (always_updateRuntime fun _ => ⟨rfl, rfl, rfl, rfl⟩) fun _ => always_persist

theorem always_setTopologyActive (active : List Nat) :
    (modify (·.setTopologyActive active) : AdaptiveThread Unit).Always Operates :=
  .atomic fun _ _ => ⟨rfl, fun _ => .inl, nofun⟩

theorem always_failPending : failPending.Always Operates := by
  refine .bind (always_setTopologyActive []) fun _ => .bind ?_ fun _ => ?_
  · exact operates_updateRuntime _ fun _ => ⟨rfl, rfl, rfl, rfl⟩
  · exact .bind (always_persist.mono fun _ _ => SameTraffic.operates) fun _ => trivial

theorem always_startEngines (engines : List AdaptiveEngine) :
    (startEngines engines).Always SameTraffic := by
  induction engines with
  | nil => trivial
  | cons engine rest ih =>
    refine .bind (.atomic fun _ _ => ⟨rfl, rfl, rfl, rfl⟩) fun started => ?_
    split
    · exact ih
    · trivial

theorem always_activateProfile (profile : AdaptiveProfile) :
    (activateProfile profile).Always Operates := by
  refine .bind (.atomic fun _ m => (SameTraffic.refl m).operates) fun ready => ?_
  split
  · exact .bind (always_setTopologyActive _) fun _ => trivial
  · trivial

theorem always_persistOrFail {f g : AdaptiveMemory → AdaptiveMemory} (hf : ∀ m, SameTraffic m (f m))
    (hg : ∀ m, SameTraffic m (g m)) : (do
      updateRuntime f
      let saved ← persist
      if saved then return ()
      else do
        updateRuntime g
        failPending : AdaptiveThread Unit).Always Operates := by
  refine .bind (operates_updateRuntime f hf) fun _ => ?_
  refine .bind (always_persist.mono fun _ _ => SameTraffic.operates) fun saved => ?_
  split
  · trivial
  · exact .bind (operates_updateRuntime g hg) fun _ => always_failPending

theorem always_commitTransition (prev target : String) :
    (commitTransition prev target).Always Operates :=
  always_persistOrFail (fun _ => ⟨rfl, rfl, rfl, rfl⟩) fun _ => ⟨rfl, rfl, rfl, rfl⟩

theorem always_finishRollback (target : String) : (finishRollback target).Always Operates :=
  always_persistOrFail (fun _ => ⟨rfl, rfl, rfl, rfl⟩) fun _ => ⟨rfl, rfl, rfl, rfl⟩

theorem always_announce {k : Nat} {o : AdaptiveOperation} {undo : AdaptiveMemory → AdaptiveMemory}
    {unaudited : AdaptiveThread Unit} (hu : ∀ m, SameTraffic m (undo m))
    (hn : unaudited.Always SameTraffic) : (announce k o undo unaudited).Always SameTraffic := by
  have hl : (modify (·.leave k) : AdaptiveThread Unit).Always SameTraffic :=
    .atomic fun _ _ => ⟨rfl, rfl, rfl, rfl⟩
  refine .bind always_persist fun saved => ?_
  split
  · refine .bind (fun _ m => ⟨.refl m, trivial⟩) fun audited => ?_
    split
    · exact .atomic fun _ _ => ⟨rfl, rfl, rfl, rfl⟩
    · exact .bind hn fun _ => hl
  · exact .bind (always_updateRuntime hu) fun _ => hl

theorem always_beginTransition (k : Nat) (target : String) :
    (beginTransition c k target).Always SameTraffic := by
  refine .bind (fun _ m => ⟨?_, trivial⟩) fun accepted => ?_
  · simp only [acceptTransition]
    split
    · exact ⟨rfl, rfl, rfl, rfl⟩
    · exact .refl m
  · split
    · refine always_announce (fun _ => ⟨rfl, rfl, rfl, rfl⟩) ?_
      refine .bind (always_updateRuntime fun _ => ⟨rfl, rfl, rfl, rfl⟩) fun _ => ?_
      exact .bind always_persist fun _ => trivial
    · trivial

theorem always_beginRollback (k : Nat) : (beginRollback k).Always SameTraffic := by
  refine .bind (fun _ m => ⟨?_, trivial⟩) fun accepted => ?_
  · simp only [acceptRollback]
    split
    · split
      · exact ⟨rfl, rfl, rfl, rfl⟩
      · exact .refl m
    · exact .refl m
  · split
    · refine always_announce (fun _ => ⟨rfl, rfl, rfl, rfl⟩) ?_
      refine .bind (always_updateRuntime fun _ => ⟨rfl, rfl, rfl, rfl⟩) fun _ => ?_
      exact .bind always_persist fun _ => trivial
    · trivial

theorem serves_acquire (k u : Nat) : ServesRequest m (m.acquire k u).1 := by
  simp only [acquire]
  split
  case isTrue hm => exact ⟨rfl, rfl, rfl, fun he => by simp [he] at hm⟩
  case isFalse => exact (SameTraffic.refl m).serves

theorem serves_release (k : Nat) : ServesRequest m (m.release k) := by
  refine ⟨rfl, rfl, rfl, fun _ u hu => ?_⟩
  simp only [inflight, release, countP_eq_zero] at hu ⊢
  exact fun res hr => hu res (mem_of_mem_filter hr)

theorem always_serves (k u : Nat) : (request k u).Always ServesRequest := by
  refine .bind (.atomic fun _ m => serves_acquire k u) fun acquired => ?_
  split
  · exact .atomic fun _ m => serves_release k
  · trivial

abbrev TrafficMeets (config : AdaptiveConfig) {α : Type} (t : AdaptiveThread α)
    (P : AdaptiveMemory → Prop) (Q : α → AdaptiveMemory → Prop) : Prop :=
  t.Meets (Calm config) ServesRequest Operates P Q

variable {P : AdaptiveMemory → Prop}

theorem traffic_of_always {α : Type} {t : AdaptiveThread α}
    (h : t.Always Operates) : TrafficMeets c t P fun _ _ => True :=
  h.meets fun _ _ _ hsp => hsp

theorem meets_stopQuiet {engines : List AdaptiveEngine} (ht : Stable ServesRequest P)
    (hq : ∀ m, Calm c m → P m → ∀ engine ∈ engines, m.inflight engine.upstream = 0)
    (hs : ∀ m engine answers, P m → P (m.stop engine answers).1) :
    TrafficMeets c (stopEngines engines) P fun _ => P := by
  induction engines with
  | nil => exact fun _ _ h => h
  | cons engine rest ih =>
    refine .bind (Q := fun _ => P) ?_ fun stopped => ?_
    · refine .atomic (fun _ => ht) fun answers m hc h => ⟨?_, hs m _ _ h⟩
      refine ⟨rfl, fun stop hm => ?_, fun _ hl => .inl ⟨hl, rfl⟩⟩
      rcases mem_cons.1 hm with rfl | hm
      · exact .inr (hq m hc h engine mem_cons_self)
      · exact .inl hm
    · split
      · exact ih fun m hc h other ho =>
          hq m hc h other (mem_cons_of_mem _ ho)
      · exact fun _ _ h => h

/-- The topology is closed and nothing is in flight. -/
def Drained (m : AdaptiveMemory) : Prop := m.topology = [] ∧ ∀ u, m.inflight u = 0

theorem stable_drained : Stable ServesRequest Drained :=
  fun _ _ h hsp => ⟨hsp.topology.trans h.1, fun u => hsp.quiet h.1 u (h.2 u)⟩

theorem drained_of_totalInflight (h : m.totalInflight = 0) (u : Nat) : m.inflight u = 0 := by
  have he : m.reserved = [] := length_eq_zero_iff.1 h
  simp [inflight, he]

theorem meets_drain : TrafficMeets c drain (fun m => m.topology = [])
      fun drained m => drained → Drained m := by
  refine .atomic (fun _ m m' h hsp hd => stable_drained m m' (h hd) hsp) ?_
  intro answers m _ hc
  refine ⟨(SameTraffic.refl m).operates, fun hd => ⟨hc, ?_⟩⟩
  simp only [Bool.and_eq_true, decide_eq_true_eq] at hd
  exact drained_of_totalInflight hd.2

theorem traffic_transitionBetween (source target : AdaptiveProfile) :
    TrafficMeets c (transitionBetween source target) (fun _ => True) fun _ _ => True := by
  have hg : ∀ (completed : Bool) (P : AdaptiveMemory → Prop),
      TrafficMeets c (pure completed) P fun _ _ => True := fun _ _ _ _ _ => trivial
  unfold transitionBetween
  refine .bind (Q := fun _ m => m.topology = []) ?_ fun _ => ?_
  · refine .modify (fun _ _ h hsp => hsp.topology.trans h) fun _ _ _ => ⟨?_, rfl⟩
    exact ⟨rfl, fun _ => .inl, nofun⟩
  refine .bind meets_drain fun drained => ?_
  split
  · exact hg _ _
  case isFalse hd =>
  refine .mono_pre (P := Drained) ?_ fun m _ h => h (by simpa using hd)
  refine .bind (Q := fun _ => Drained) ?_ fun stopping => ?_
  · refine (always_setPhase .stopping).keeps (fun _ _ _ => SameTraffic.operates) stable_drained ?_
    exact fun _ _ h hsp => stable_drained _ _ h hsp.serves
  split
  · exact hg _ _
  refine .bind (meets_stopQuiet stable_drained (fun m _ h engine _ => h.2 _) ?_) fun stopped => ?_
  · exact fun m engine answers h => ⟨h.1, fun u => h.2 u⟩
  split
  · exact hg _ _
  refine traffic_of_always (.bind ?_ fun starting => ?_)
  · exact (always_setPhase .starting).mono fun _ _ => SameTraffic.operates
  split
  · trivial
  refine .bind ((always_startEngines _).mono fun _ _ => SameTraffic.operates) fun _ => ?_
  split
  · trivial
  refine .bind ((always_setPhase _).mono fun _ _ => SameTraffic.operates) fun _ => ?_
  split
  · trivial
  exact always_activateProfile target

theorem traffic_transitionOnce (source target : String) :
    TrafficMeets c (transitionOnce c source target) (fun _ => True) fun _ _ => True := by
  unfold transitionOnce
  split
  · exact traffic_transitionBetween _ _
  · exact fun _ _ _ => trivial

theorem traffic_rollbackBetween {failed prev : AdaptiveProfile} {id : String}
    (hfa : c.profile id = some failed) :
    TrafficMeets c (rollbackBetween failed prev) (fun m => m.rolling = .closed id)
      fun _ _ => True := by
  unfold rollbackBetween
  refine .bind (meets_stopQuiet (fun _ _ h hsp => hsp.rolling.trans h) ?_ ?_) fun stopped => ?_
  · intro m hc h engine he
    exact (hc.closed id h).2 failed hfa _ (mem_map_of_mem he)
  · exact fun m engine answers h => h
  split
  · exact fun _ _ _ => trivial
  refine traffic_of_always (.bind ?_ fun started => ?_)
  · exact (always_startEngines _).mono fun _ _ => SameTraffic.operates
  split
  · trivial
  exact always_activateProfile prev

theorem traffic_rollbackOnce (failed prev : String) :
    TrafficMeets c (rollbackOnce c failed prev) (fun _ => True) fun _ _ => True := by
  unfold rollbackOnce
  refine .bind (Q := fun _ m => m.rolling = .starting failed) ?_ fun _ => ?_
  · refine .modify (fun _ _ h hsp => hsp.rolling.trans h) fun _ _ _ => ⟨?_, rfl⟩
    exact ⟨rfl, fun _ => .inl, nofun⟩
  refine .bind (Q := fun _ m => m.rolling = .closed failed) ?_ fun _ => ?_
  · refine .modify (fun _ _ h hsp => hsp.rolling.trans h) fun m _ h => ⟨?_, rfl⟩
    refine ⟨rfl, fun _ => .inl, fun other hc => .inr ⟨?_, rfl⟩⟩
    cases hc
    exact h
  split
  case h_1 hfa _ => exact traffic_rollbackBetween hfa
  case h_2 => exact fun _ _ _ => trivial

theorem always_rolledBack (target : String) (completed : Bool) :
    (if completed then finishRollback target else failPending).Always Operates := by
  split
  · exact always_finishRollback target
  · exact always_failPending

theorem traffic_locked {body : String → AdaptiveThread Unit}
    (hb : ∀ prev, TrafficMeets c (body prev) (fun _ => True) fun _ _ => True) : TrafficMeets c (do
      let prev ← runtime fun _ m => (m, m.active)
      let locked ← ask (·.ok)
      if locked then body prev else failPending) (fun _ => True) fun _ _ => True := by
  refine .bind (Q := fun _ _ => True) ?_ fun prev => ?_
  · exact traffic_of_always fun _ m => ⟨(SameTraffic.refl m).operates, trivial⟩
  refine .bind (Q := fun _ _ => True) ?_ fun locked => ?_
  · exact traffic_of_always (.atomic fun _ m => (SameTraffic.refl m).operates)
  split
  · exact hb prev
  · exact traffic_of_always always_failPending

theorem traffic_executeTransition (target : String) :
    TrafficMeets c (executeTransition c target) (fun _ => True) fun _ _ => True := by
  refine traffic_locked fun prev => ?_
  refine .bind (traffic_transitionOnce prev target) fun completed => ?_
  split
  · exact traffic_of_always (always_commitTransition prev target)
  refine .bind (Q := fun _ _ => True) ?_ fun _ => ?_
  · exact traffic_of_always ((always_setPhase _).mono fun _ _ => SameTraffic.operates)
  exact .bind (traffic_rollbackOnce target prev) fun rolledBack =>
    traffic_of_always (always_rolledBack target rolledBack)

theorem traffic_executeRollback (target : String) :
    TrafficMeets c (executeRollback c target) (fun _ => True) fun _ _ => True := by
  refine traffic_locked fun prev => ?_
  exact .bind (traffic_rollbackOnce target prev) fun rolledBack =>
    traffic_of_always (always_rolledBack target rolledBack)

theorem traffic_execute (o : AdaptiveOperation) :
    TrafficMeets c (execute c o) (fun _ => True) fun _ _ => True := by
  refine .bind (Q := fun _ _ => True) ?_ fun _ => ?_
  · refine .await (fun _ _ _ _ => trivial) fun m _ _ _ => ⟨?_, trivial⟩
    exact SameTraffic.operates ⟨rfl, rfl, rfl, rfl⟩
  have he : TrafficMeets c (modify (·.endOperation)) (fun _ => True) fun _ _ => True :=
    traffic_of_always (.atomic fun _ _ => SameTraffic.operates ⟨rfl, rfl, rfl, rfl⟩)
  cases o with
  | transition target => exact .bind (traffic_executeTransition target) fun _ => he
  | rollback target => exact .bind (traffic_executeRollback target) fun _ => he

def trafficSpec (config : AdaptiveConfig) :
    (adaptiveMachine config).Spec (RollsBackQuietly config) where
  inv := Calm config
  rely := trafficRely
  guar := trafficGuarantee
  idle _ _ := True
  init m h := by
    refine ⟨⟨by simp [h.stops], fun failed hfa => ?_⟩, fun _ => trivial⟩
    simp [h.rolling] at hfa
  stable_idle _ _ _ _ _ := trivial
  inv_step i e _ _ h hC hsp := calm_step i e h hC hsp
  compatible i j _ _ _ hij _ _ hsp := traffic_compatible i j hij hsp
  meets code := by
    cases code with
    | beginTransition k target =>
      exact (always_beginTransition k target).meets fun _ _ _ hsp => hsp
    | beginRollback k => exact (always_beginRollback k).meets fun _ _ _ hsp => hsp
    | execute o => exact traffic_execute o
    | request k u => exact (always_serves k u).meets fun _ _ _ hsp => hsp

theorem calm_crash (h : Calm c m) : Calm c m.crash :=
  ⟨h.stops, nofun⟩

variable (c m) in
theorem boot_history (answers : AdaptiveAnswers) (audited : Bool) :
    (m.boot c answers audited).stops = m.stops ∧
      (m.boot c answers audited).rolling = m.rolling := by
  have hw : ∀ state, ((m.booted c).write state answers).1.stops = m.stops ∧
      ((m.booted c).write state answers).1.rolling = m.rolling := by
    intro state
    simp only [write]
    split <;> exact ⟨rfl, rfl⟩
  simp only [boot]
  split
  · split
    · exact hw _
    · exact ⟨rfl, rfl⟩
  · exact ⟨rfl, rfl⟩

theorem trafficSpec_holds {s : AdaptiveState}
    (h : (adaptiveController c (RollsBackQuietly c)).Reachable s) : (trafficSpec c).Holds s := by
  refine adaptiveController_holds (trafficSpec c) (fun m hm => ⟨calm_crash hm, fun _ => trivial⟩)
    (fun m answers audited hm => ?_) h
  obtain ⟨hs, hrol⟩ := boot_history c m.crash answers audited
  refine ⟨⟨hs ▸ hm.stops, fun failed hfa => ?_⟩, fun _ => trivial⟩
  rw [hrol] at hfa
  cases hfa

/-- If every rollback begins with nothing in flight on what it stops, so does every stop. -/
theorem stops_only_drained {s : AdaptiveState}
    (h : (adaptiveController config (RollsBackQuietly config)).Reachable s) :
    ∀ stop ∈ s.memory.stops, stop.inflight = 0 :=
  (trafficSpec_holds h).1.stops

instance (config : AdaptiveConfig) (id : String) (m : AdaptiveMemory) :
    Decidable (QuietProfile config id m) :=
  match hprof : config.profile id with
  | some profile => decidable_of_iff (∀ u ∈ profile.upstreams, m.inflight u = 0) <| by
      simp [QuietProfile, hprof]
  | none => .isTrue fun _ h => by simp [hprof] at h

instance (config : AdaptiveConfig) (m : AdaptiveMemory) :
    (move : AdaptiveMove) → Decidable (RollsBackQuietly config m move)
  | .run .operation _ =>
    match hrol : m.rolling with
    | .starting failed => decidable_of_iff (QuietProfile config failed m) <| by
        simp [RollsBackQuietly, hrol]
    | .none | .closed _ => .isTrue fun _ h => by simp [hrol] at h
  | .run (.handler _) _ | .run (.request _) _ | .start _ => inferInstanceAs (Decidable True)

open SampleAdaptive in
/-- A transition whose new profile does not become ready is rolled back, and both stops
find nothing in flight. -/
theorem stops_only_drained_sample : ∃ s, (adaptiveController threeProfiles
        (RollsBackQuietly threeProfiles)).Reachable s ∧
      s.memory.stops.map (·.container) = ["b0", "a0"] ∧
      ∀ stop ∈ s.memory.stops, stop.inflight = 0 := by
  obtain ⟨s, hr, ht⟩ := exists_reachable (RollsBackQuietly threeProfiles)
    (booting :: requested 0 "b" ++ .move (.start (.execute (.transition "b"))) ::
      runs .operation 16 ++ .move (.run .operation refused) :: runs .operation 6)
    (fun s => s.memory.stops.map (·.container) = ["b0", "a0"]) (by decide +kernel)
  exact ⟨s, hr, ht, stops_only_drained hr⟩

open SampleAdaptive in
/-- A transition opens the topology before its commit is written. When that fails, a
rollback stops the new container under the request that came in between. -/
theorem stops_under_request :
    ∃ s, (adaptiveController threeProfiles fun _ _ => True).Reachable s ∧
      ∃ stop ∈ s.memory.stops, stop.container = "b0" ∧ stop.inflight = 1 :=
  exists_reachable (fun _ _ => True)
    (booting :: requested 0 "b" ++ committed "b" ++
      .move (.start (.request 7 1)) :: runs (.request 7) 1 ++ runs .operation 1 ++
      .move (.run .operation refused) :: runs .operation 6 ++
      .move (.start (.beginRollback 1)) :: runs (.handler 1) 5 ++
      .move (.start (.execute (.rollback "b"))) :: runs .operation 6) _
    (by decide +kernel)

end Ramjet
