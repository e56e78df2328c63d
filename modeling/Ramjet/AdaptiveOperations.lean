import Ramjet.AdaptiveOrder

/-!
# Adaptive operations

At every moment of an operation what runs belongs to one of its two profiles and the disk
names both, so that a failure leaves what a rollback needs.
-/

namespace Ramjet
open Thread AdaptiveThread AdaptiveMemory AdaptiveConfig Function
variable {config : AdaptiveConfig} {m m' : AdaptiveMemory} {a b : String}

/-- On the way from one profile to another; `R` says what runs. -/
structure During (a b : String) (R : (String → Bool) → Prop) (m : AdaptiveMemory) : Prop where
  operation : m.operation
  active : m.active = a
  target : m.target = some b
  disk : DiskOn a b m.disk
  runs : R m.running

/-- Arrived at one of the two, or back. -/
structure Arrived (config : AdaptiveConfig) (a b id : String) (m : AdaptiveMemory) : Prop where
  operation : m.operation
  active : m.active = id
  phase : m.phase = .idle
  target : m.target = none
  disk : DiskOn a b m.disk
  runs : Runs config m.running id

/-- All but the end of an operation. -/
def Over (config : AdaptiveConfig) (m : AdaptiveMemory) : Prop :=
  m.operation ∧ AtRest config m

variable {R : (String → Bool) → Prop} {id : String}

theorem stable_during : Stable (adaptiveRely .operation) (During a b R) := by
  intro m m' h hr
  have hs := hr.1 h.operation
  exact ⟨hs.operation.trans h.operation, hs.active.trans h.active, hs.target.trans h.target,
    hs.disk ▸ h.disk, hs.running ▸ h.runs⟩

theorem stable_arrived : Stable (adaptiveRely .operation) (Arrived config a b id) := by
  intro m m' h hr
  have hs := hr.1 h.operation
  exact ⟨hs.operation.trans h.operation, hs.active.trans h.active, hs.phase.trans h.phase,
    hs.target.trans h.target, hs.disk ▸ h.disk, hs.running ▸ h.runs⟩

theorem operation_step (h : Orderly config m) (ho : m.operation) (ho' : m'.operation)
    (hh : m'.handlers = m.handlers) (hp : m'.spawned = m.spawned) (hd : DiskOn a b m'.disk)
    (hr : RunsEither config a b m'.running) : OperationSteps config m m' := by
  obtain ⟨hn, he⟩ := h.busy ho
  refine .inr ⟨hh, ?_, .inl ho⟩
  rw [hn] at hh
  rw [he] at hp
  exact {
    busy := fun _ => ⟨hh, hp⟩
    waiting := by simp [hp]
    single := by simp [hh]
    exclusive := hr.exclusive
    recoverable := Orderly.recoverable_of hd hr
    rest := fun _ hf => by simp [ho'] at hf
    prepared := by simp [hp] }

abbrev OperationMeets (config : AdaptiveConfig) {α : Type} (t : AdaptiveThread α)
    (P : AdaptiveMemory → Prop) (Q : α → AdaptiveMemory → Prop) : Prop :=
  t.Meets (Orderly config) (adaptiveRely .operation) (OperationSteps config) P Q

section
variable (hR : ∀ r, R r → RunsEither config a b r)
include hR

theorem During.step (h : Orderly config m) (ho : m.operation) (hm : During a b R m')
    (hh : m'.handlers = m.handlers) (hp : m'.spawned = m.spawned) : OperationSteps config m m' :=
  operation_step h ho hm.operation hh hp hm.disk (hR _ hm.runs)

theorem meets_persist_during :
    OperationMeets config persist (During a b R) fun _ => During a b R := by
  refine (meets_persist (a := a) (b := b) stable_during ?_ ?_ ?_).mono_post fun _ _ _ h => h.1
  · exact fun m m' h hr => (hr.1 h.operation).disk
  · intro m h state hs target phase hp
    cases hs
    simp only [persistedState, h.target, Option.map_some, Option.some.injEq, Prod.mk.injEq] at hp
    exact ⟨h.active, hp.1.symm⟩
  · intro m state ho h hg
    have h' : During a b R { m with disk := some state } :=
      ⟨h.operation, h.active, h.target, hg, h.runs⟩
    exact ⟨h'.step hR ho h.operation rfl rfl, h'⟩

end

theorem meets_persist_arrived (hi : id = a ∨ id = b) :
    OperationMeets config persist (Arrived config a b id) fun _ => Arrived config a b id := by
  refine (meets_persist (a := a) (b := b) stable_arrived ?_ ?_ ?_).mono_post fun _ _ _ h => h.1
  · exact fun m m' h hy => (hy.1 h.operation).disk
  · intro m h state hs target phase hp
    cases hs
    simp [persistedState, h.target] at hp
  · intro m state ho h hg
    have hr : RunsEither config a b m.running := by
      rcases hi with rfl | rfl
      · exact .inl h.runs
      · exact .inr h.runs
    refine ⟨operation_step ho h.operation h.operation rfl rfl hg hr, ?_⟩
    exact ⟨h.operation, h.active, h.phase, h.target, hg, h.runs⟩

section
variable (hR : ∀ r, R r → RunsEither config a b r)
include hR

theorem meets_modify_during {f : AdaptiveMemory → AdaptiveMemory}
    (hf : ∀ m, During a b R m → During a b R (f m) ∧ (f m).handlers = m.handlers ∧
      (f m).spawned = m.spawned) :
    OperationMeets config (modify f) (During a b R) fun _ => During a b R := by
  refine .modify stable_during fun m ho h => ?_
  obtain ⟨h', hh, hp⟩ := hf m h
  exact ⟨h'.step hR ho h.operation hh hp, h'⟩

theorem meets_setPhase (phase : AdaptivePhase) :
    OperationMeets config (setPhase phase) (During a b R) fun _ => During a b R := by
  refine .bind (Q := fun _ => During a b R) ?_ fun _ => meets_persist_during hR
  refine .atomicWhen (fun _ => stable_during) fun _ m ho h _ => ?_
  have h' : During a b R (m.setPhase phase) := ⟨h.operation, h.active, h.target, h.disk, h.runs⟩
  exact ⟨h'.step hR ho h.operation rfl rfl, h'⟩

theorem meets_setTopology (active : List Nat) :
    OperationMeets config (modify (·.setTopologyActive active)) (During a b R)
      fun _ => During a b R :=
  meets_modify_during hR fun _ h => ⟨⟨h.operation, h.active, h.target, h.disk, h.runs⟩, rfl, rfl⟩

theorem meets_failPending :
    OperationMeets config failPending (During a b R) fun _ => Over config := by
  refine .bind (meets_setTopology hR []) fun _ => ?_
  have ht : Stable (adaptiveRely .operation)
      fun m => During a b R m ∧ m.phase = .failed := by
    intro m m' h hr
    exact ⟨stable_during m m' h.1 hr, (hr.1 h.1.operation).phase.trans h.2⟩
  refine .bind (Q := fun _ m => During a b R m ∧ m.phase = .failed) ?_ fun _ => ?_
  · refine .atomicWhen (fun _ => ht) fun _ m ho h _ => ?_
    have h' : During a b R (m.setPhase .failed) :=
      ⟨h.operation, h.active, h.target, h.disk, h.runs⟩
    exact ⟨h'.step hR ho h.operation rfl rfl, h', rfl⟩
  refine .bind (Q := fun _ m => During a b R m ∧ m.phase = .failed) ?_ fun _ => ?_
  · refine (meets_persist (a := a) (b := b) ht ?_ ?_ ?_).mono_post fun _ _ _ h => h.1
    · exact fun m m' h hr => (hr.1 h.1.operation).disk
    · intro m h state hs target phase hp
      cases hs
      simp only [persistedState, h.1.target, Option.map_some, Option.some.injEq,
        Prod.mk.injEq] at hp
      exact ⟨h.1.active, hp.1.symm⟩
    · intro m state ho h hg
      have h' : During a b R { m with disk := some state } :=
        ⟨h.1.operation, h.1.active, h.1.target, hg, h.1.runs⟩
      exact ⟨h'.step hR ho h.1.operation rfl rfl, h', h.2⟩
  · rintro m - ⟨h, hh⟩
    refine ⟨h.operation, fun hi => ?_, fun _ target ha => ?_⟩
    · simp [hh] at hi
    rw [h.target] at ha
    cases ha
    rw [h.active]
    exact hR _ h.runs

end

variable {engines : List AdaptiveEngine}

theorem meets_stopEngines (hR : ∀ r, R r → RunsEither config a b r)
    (hs : ∀ r container, R r → R (update r container false)) :
    OperationMeets config (stopEngines engines) (During a b R) fun stopped =>
      During a b fun r => R r ∧
        (stopped → ∀ engine ∈ engines, r engine.container = false) := by
  induction engines generalizing R with
  | nil => exact fun m _ h => ⟨h.operation, h.active, h.target, h.disk, h.runs, by simp⟩
  | cons engine rest ih =>
    refine .bind (Q := fun stopped => During a b fun r =>
      R r ∧ (stopped = true → r engine.container = false)) ?_ fun stopped => ?_
    · refine .atomic (fun _ => stable_during) fun answers m ha h => ?_
      have h' : During a b (fun r => R r ∧ (answers.ok → r engine.container = false))
          (m.stop engine answers).1 := by
        refine ⟨h.operation, h.active, h.target, h.disk, ?_, fun hb => ?_⟩
        · simp only [stop]
          split
          · exact hs _ _ h.runs
          · exact h.runs
        · simp [stop, hb]
      exact ⟨h'.step (fun r hr => hR r hr.1) ha h.operation rfl rfl, h'⟩
    · split
      case isTrue hc =>
        -- A later stop starts nothing, so what was stopped stays so.
        have hk : ∀ r container, R r ∧ r engine.container = false → R (update r container false) ∧
              update r container false engine.container = false := by
          intro r container hr
          refine ⟨hs r container hr.1, ?_⟩
          rw [update_apply]
          split
          · rfl
          · exact hr.2
        refine ((ih (fun r hr => hR r hr.1) hk).mono_pre ?_).mono_post ?_
        · exact fun m _ h => ⟨h.operation, h.active, h.target, h.disk, h.runs.1, h.runs.2 hc⟩
        refine fun _ m _ h => ⟨h.operation, h.active, h.target, h.disk, h.runs.1.1, ?_⟩
        intro hd other ho
        rcases List.mem_cons.1 ho with rfl | ho
        · exact h.runs.1.2
        · exact h.runs.2 hd other ho
      · exact fun m _ h => ⟨h.operation, h.active, h.target, h.disk, h.runs.1, by simp⟩

theorem meets_startEngines {profile : AdaptiveProfile} (hi : profile.id = a ∨ profile.id = b)
    (hp : profile ∈ config.profiles) (hs : ∀ engine ∈ engines, engine ∈ profile.engines) :
    OperationMeets config (startEngines engines) (During a b fun r => Runs config r profile.id)
      fun _ => During a b fun r => Runs config r profile.id := by
  have hR : ∀ r, Runs config r profile.id → RunsEither config a b r := by
    intro r hr
    rcases hi with h | h
    · exact .inl (h ▸ hr)
    · exact .inr (h ▸ hr)
  induction engines with
  | nil => exact fun _ _ h => h
  | cons engine rest ih =>
    have he : engine.container ∈ profile.containers :=
      List.mem_map_of_mem (hs engine List.mem_cons_self)
    refine .bind (Q := fun _ => During a b fun r => Runs config r profile.id) ?_ ?_
    · refine .atomic (fun _ => stable_during) fun answers m ho h => ?_
      have h' : During a b (fun r => Runs config r profile.id) (m.start engine answers).1 := by
        refine ⟨h.operation, h.active, h.target, h.disk, ?_⟩
        simp only [start]
        split
        · exact h.runs.start hp he
        · exact h.runs
      exact ⟨h'.step hR ho h.operation rfl rfl, h'⟩
    · intro started
      split
      · exact ih fun other ht => hs other (List.mem_cons_of_mem _ ht)
      · exact fun _ _ h => h

theorem meets_activateProfile (hR : ∀ r, R r → RunsEither config a b r)
    (profile : AdaptiveProfile) :
    OperationMeets config (activateProfile profile) (During a b R) fun _ => During a b R := by
  refine .bind (Q := fun _ => During a b R) ?_ fun ready => ?_
  · refine .atomic (fun _ => stable_during) fun _ m _ h => ⟨.inl (SameCore.refl m), h⟩
  split
  · exact .bind (meets_setTopology hR _) fun _ _ _ h => h
  · exact fun _ _ h => h

theorem During.mono {R' : (String → Bool) → Prop} (h : During a b R m) (hR : ∀ r, R r → R' r) :
    During a b R' m :=
  ⟨h.operation, h.active, h.target, h.disk, hR _ h.runs⟩

/-- The target alone runs when all went well; else it may be either. -/
def EndsAt (config : AdaptiveConfig) (a b id : String) (completed : Bool)
    (running : String → Bool) : Prop :=
  RunsEither config a b running ∧ (completed → Runs config running id)

theorem meets_transitionBetween {source target : AdaptiveProfile} (hs : source ∈ config.profiles)
    (ht : target ∈ config.profiles) (ha : source.id = a) (hb : target.id = b) :
    OperationMeets config (transitionBetween source target) (During a b fun r => Runs config r a)
      fun completed => During a b (EndsAt config a b b completed) := by
  have hRa : ∀ r, Runs config r a → RunsEither config a b r := fun _ hr => .inl hr
  have hRb : ∀ r, Runs config r b → RunsEither config a b r := fun _ hr => .inr hr
  -- Where it gives up, the old profile or the new one is all that runs.
  have he : ∀ m, Orderly config m → (During a b fun r => Runs config r a) m →
      During a b (EndsAt config a b b false) m :=
    fun _ _ h => h.mono fun _ hr => ⟨.inl hr, by simp⟩
  have hl : ∀ m, Orderly config m → (During a b fun r => Runs config r b) m →
      During a b (EndsAt config a b b false) m :=
    fun _ _ h => h.mono fun _ hr => ⟨.inr hr, by simp⟩
  unfold transitionBetween
  refine .bind (meets_setTopology hRa []) fun _ => ?_
  refine .bind (Q := fun _ => During a b fun r => Runs config r a) ?_ fun drained => ?_
  · exact .atomic (fun _ => stable_during) fun _ m _ h => ⟨.inl (SameCore.refl m), h⟩
  split
  · exact he
  refine .bind (meets_setPhase hRa .stopping) fun stopping => ?_
  split
  · exact he
  refine .bind (meets_stopEngines hRa fun _ container hr => hr.stop container) fun stopped => ?_
  split
  · exact fun m ho h => he m ho (h.mono fun _ hr => hr.1)
  case isFalse hc =>
  -- All that ran has stopped, so that nothing runs.
  refine .mono_pre (P := During a b fun r => Runs config r b) ?_ fun m _ h =>
    h.mono fun r hr => ?_
  · refine .bind (meets_setPhase hRb .starting) fun starting => ?_
    split
    · exact hl
    refine .bind (Q := fun _ => During a b fun r => Runs config r b) ?_ fun started => ?_
    · exact hb ▸ meets_startEngines (.inr rfl) ht fun _ => id
    split
    · exact hl
    refine .bind (meets_setPhase hRb .stabilizing) fun stabilizing => ?_
    split
    · exact hl
    exact (meets_activateProfile hRb target).mono_post fun _ m _ h =>
      h.mono fun _ hr => ⟨.inr hr, fun _ => hr⟩
  · obtain ⟨hu, hd⟩ := hr
    rw [← ha] at hu
    exact hu.of_stopped hs (hd (by simpa using hc)) b

theorem meets_transitionOnce :
    OperationMeets config (transitionOnce config a b) (During a b fun r => Runs config r a)
      fun completed => During a b (EndsAt config a b b completed) := by
  unfold transitionOnce
  split
  case h_1 source target hc hg =>
    obtain ⟨hs, ha⟩ := mem_of_profile hc
    obtain ⟨ht, hb⟩ := mem_of_profile hg
    exact meets_transitionBetween hs ht ha hb
  case h_2 => exact fun _ _ h => h.mono fun _ hr => ⟨.inl hr, by simp⟩

theorem meets_rollbackBetween {failed previous : AdaptiveProfile} (hfa : failed ∈ config.profiles)
    (hp : previous ∈ config.profiles) (hb : failed.id = b) (ha : previous.id = a) :
    OperationMeets config (rollbackBetween failed previous) (During a b (RunsEither config a b))
      fun completed => During a b (EndsAt config a b a completed) := by
  have hRa : ∀ r, Runs config r a → RunsEither config a b r := fun _ hr => .inl hr
  have hl : ∀ m, Orderly config m → (During a b fun r => Runs config r a) m →
      During a b (EndsAt config a b a false) m :=
    fun _ _ h => h.mono fun _ hr => ⟨.inl hr, by simp⟩
  unfold rollbackBetween
  refine .bind (meets_stopEngines (fun _ => id) fun _ container hr => hr.stop container)
    fun stopped => ?_
  split
  · exact fun m _ h => h.mono fun _ hr => ⟨hr.1, by simp⟩
  case isFalse hs =>
  refine .mono_pre (P := During a b fun r => Runs config r a) ?_ fun m _ h =>
    h.mono fun r hr => ?_
  · refine .bind (Q := fun _ => During a b fun r => Runs config r a) ?_ fun started => ?_
    · exact ha ▸ meets_startEngines (.inl rfl) hp fun _ => id
    split
    · exact hl
    exact (meets_activateProfile hRa previous).mono_post fun _ m _ h =>
      h.mono fun _ hr => ⟨.inl hr, fun _ => hr⟩
  · obtain ⟨hu | hu, hc⟩ := hr
    · exact hu
    · rw [← hb] at hu
      exact hu.of_stopped hfa (hc (by simpa using hs)) a

theorem meets_rollbackOnce :
    OperationMeets config (rollbackOnce config b a) (During a b (RunsEither config a b))
      fun completed => During a b (EndsAt config a b a completed) := by
  unfold rollbackOnce
  refine .bind (meets_modify_during (fun _ => id) fun _ h =>
    ⟨⟨h.operation, h.active, h.target, h.disk, h.runs⟩, rfl, rfl⟩) fun _ => ?_
  refine .bind (meets_modify_during (fun _ => id) fun _ h =>
    ⟨⟨h.operation, h.active, h.target, h.disk, h.runs⟩, rfl, rfl⟩) fun _ => ?_
  split
  case h_1 failed previous hfa he =>
    obtain ⟨hf, hb⟩ := mem_of_profile hfa
    obtain ⟨hp, ha⟩ := mem_of_profile he
    exact meets_rollbackBetween hf hp hb ha
  case h_2 => exact fun _ _ h => h.mono fun _ hr => ⟨hr, by simp⟩

theorem Arrived.over (h : Arrived config a b id m) : Over config m := by
  refine ⟨h.operation, fun _ => ?_, fun hfa => ?_⟩
  · rw [h.active]
    exact h.runs
  · simp [h.phase] at hfa

theorem meets_commitTransition :
    OperationMeets config (commitTransition a b) (During a b fun r => Runs config r b)
      fun _ => Over config := by
  refine .bind (Q := fun _ => Arrived config a b b) ?_ fun _ => ?_
  · refine .atomicWhen (fun _ => stable_arrived) fun _ m ho h _ => ?_
    refine ⟨?_, h.operation, rfl, rfl, rfl, h.disk, h.runs⟩
    exact operation_step ho h.operation h.operation rfl rfl h.disk (.inr h.runs)
  refine .bind (meets_persist_arrived (.inr rfl)) fun saved => ?_
  split
  · exact fun _ _ h => h.over
  refine .bind (Q := fun _ => During a b fun r => Runs config r b) ?_ fun _ =>
    meets_failPending fun _ => .inr
  refine .atomicWhen (fun _ => stable_during) fun _ m ho h _ => ?_
  refine ⟨?_, h.operation, rfl, rfl, h.disk, h.runs⟩
  exact operation_step ho h.operation h.operation rfl rfl h.disk (.inr h.runs)

theorem meets_finishRollback :
    OperationMeets config (finishRollback b) (During a b fun r => Runs config r a)
      fun _ => Over config := by
  refine .bind (Q := fun _ => Arrived config a b a) ?_ fun _ => ?_
  · refine .atomicWhen (fun _ => stable_arrived) fun _ m ho h _ => ?_
    refine ⟨?_, h.operation, h.active, rfl, rfl, h.disk, h.runs⟩
    exact operation_step ho h.operation h.operation rfl rfl h.disk (.inl h.runs)
  refine .bind (meets_persist_arrived (.inl rfl)) fun saved => ?_
  split
  · exact fun _ _ h => h.over
  refine .bind (Q := fun _ => During a b fun r => Runs config r a) ?_ fun _ =>
    meets_failPending fun _ => .inl
  refine .atomicWhen (fun _ => stable_during) fun _ m ho h _ => ?_
  refine ⟨?_, h.operation, h.active, rfl, h.disk, h.runs⟩
  exact operation_step ho h.operation h.operation rfl rfl h.disk (.inl h.runs)

theorem meets_rolledBack (completed : Bool) :
    OperationMeets config (if completed then finishRollback b else failPending)
      (During a b (EndsAt config a b a completed)) fun _ => Over config := by
  split
  case isTrue hc =>
    exact meets_finishRollback.mono_pre fun _ _ h => h.mono fun _ hr => hr.2 hc
  · exact meets_failPending fun _ hr => hr.1

theorem meets_rollbackFailedTransition : OperationMeets config (rollbackFailedTransition config a b)
      (During a b (RunsEither config a b)) fun _ => Over config := by
  refine .bind (meets_setPhase (fun _ => id) .rollingBack) fun _ => ?_
  exact .bind meets_rollbackOnce meets_rolledBack

/-- What an operation may count on when it reads the active profile. -/
def Starts (b : String) (R : String → (String → Bool) → Prop) (m : AdaptiveMemory) : Prop :=
  ∃ a, During a b (R a) m

theorem stable_starts {R : String → (String → Bool) → Prop} :
    Stable (adaptiveRely .operation) (Starts b R) := by
  rintro m m' ⟨a, h⟩ hr
  exact ⟨a, stable_during m m' h hr⟩

theorem meets_readActive {R : String → (String → Bool) → Prop} :
    OperationMeets config (runtime fun _ m => (m, m.active)) (Starts b R)
      fun previous => During previous b (R previous) := by
  refine .atomicWhen (fun _ => stable_during) ?_
  rintro _ m - ⟨a, h⟩ -
  exact ⟨.inl (SameCore.refl m), h.active ▸ h⟩

theorem meets_deploymentLock :
    OperationMeets config (ask (·.ok)) (During a b R) fun _ => During a b R :=
  .atomic (fun _ => stable_during) fun _ m _ h => ⟨.inl (SameCore.refl m), h⟩

theorem meets_executeTransition : OperationMeets config (executeTransition config b)
      (Starts b fun a r => Runs config r a) fun _ => Over config := by
  refine .bind meets_readActive fun a => .bind meets_deploymentLock fun locked => ?_
  split
  · refine .bind meets_transitionOnce fun completed => ?_
    split
    case isTrue hc =>
      exact meets_commitTransition.mono_pre fun _ _ h => h.mono fun _ hr => hr.2 hc
    · exact meets_rollbackFailedTransition.mono_pre fun _ _ h => h.mono fun _ hr => hr.1
  · exact meets_failPending fun _ => .inl

theorem meets_executeRollback : OperationMeets config (executeRollback config b)
      (Starts b fun a => RunsEither config a b) fun _ => Over config := by
  refine .bind meets_readActive fun a => .bind meets_deploymentLock fun locked => ?_
  split
  · exact .bind meets_rollbackOnce meets_rolledBack
  · exact meets_failPending fun _ => id

def AdaptiveOperation.Entered (config : AdaptiveConfig) :
    AdaptiveOperation → AdaptiveMemory → Prop
  | .transition b => Starts b fun a r => Runs config r a
  | .rollback b => Starts b fun a => RunsEither config a b

theorem takeOperation_step {o : AdaptiveOperation} (h : Orderly config m) (ho : o ∈ m.spawned) :
    OperationSteps config m (m.takeOperation o) ∧ o.Entered config (m.takeOperation o) := by
  obtain ⟨hn, ha⟩ := h.waiting o ho
  have he : (m.takeOperation o).spawned = [] := by simp [takeOperation, ha]
  refine ⟨.inr ⟨rfl, ?_, .inr (List.ne_nil_of_mem ho)⟩, ?_⟩
  · exact {
      busy := fun _ => ⟨hn, he⟩
      waiting := by simp [he]
      single := h.single
      exclusive := h.exclusive
      recoverable := h.recoverable
      rest := fun _ hf => by simp [takeOperation] at hf
      prepared := by simp [he] }
  · have hp := h.prepared o ho
    cases o with
    | transition b => exact ⟨m.active, rfl, rfl, hp.1, hp.2.2, hp.2.1⟩
    | rollback b => exact ⟨m.active, rfl, rfl, hp.1, hp.2.2, hp.2.1⟩

theorem endOperation_step (h : Orderly config m) (hv : Over config m) :
    OperationSteps config m m.endOperation := by
  obtain ⟨hn, he⟩ := h.busy hv.1
  refine .inr ⟨rfl, ?_, .inl hv.1⟩
  exact {
    busy := fun hp => by simp [endOperation] at hp
    waiting := h.waiting
    single := h.single
    exclusive := h.exclusive
    recoverable := h.recoverable
    rest := fun _ _ _ _ => hv.2
    prepared := fun o ho => by simp [endOperation, he] at ho }

theorem meets_execute (o : AdaptiveOperation) :
    OperationMeets config (execute config o) (adaptiveIdle .operation)
      fun _ => adaptiveIdle .operation := by
  refine .bind (Q := fun _ => o.Entered config) ?_ fun _ => ?_
  · refine .await ?_ fun m h _ hgd => ?_
    · cases o <;> exact stable_starts
    · simp only [Bool.and_eq_true, decide_eq_true_eq] at hgd
      exact takeOperation_step h hgd.2
  have he : OperationMeets config (modify (·.endOperation)) (Over config)
      fun _ => adaptiveIdle .operation :=
    .modify (stable_adaptiveIdle .operation) fun m h ho =>
      ⟨endOperation_step h ho, rfl⟩
  cases o with
  | transition b => exact .bind meets_executeTransition fun _ => he
  | rollback b => exact .bind meets_executeRollback fun _ => he

end Ramjet
