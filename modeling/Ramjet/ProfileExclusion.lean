import Ramjet.AdaptiveOperations

/-!
# Profile exclusion

Containers of two profiles never run together when requests come one at a time, through
failures, crashes and starts.
-/

namespace Ramjet
open Thread AdaptiveThread AdaptiveMemory TransitionSystem Option
variable {cfg : AdaptiveConfig} {m m' : AdaptiveMemory} {a b : String}

/-- A request that was accepted; `R` says what runs. -/
structure Announcing (k : Nat) (a b : String) (R : (String → Bool) → Prop)
    (m : AdaptiveMemory) : Prop where
  handler : k ∈ m.handlers
  active : m.active = a
  target : m.target = some b
  runs : R m.running

/-- A request that was taken back. -/
structure Withdrawn (config : AdaptiveConfig) (k : Nat) (a b : String)
    (m : AdaptiveMemory) : Prop where
  handler : k ∈ m.handlers
  active : m.active = a
  target : ∀ target, m.target = some target → target = b
  rest : AtRest config m
  runs : RunsEither config a b m.running

variable {k : Nat} {R : (String → Bool) → Prop}

theorem stable_announcing : Stable (adaptiveRely (.handler k)) (Announcing k a b R) := by
  intro m m' h hr
  have hs := hr.1 h.handler
  exact ⟨hs.handlers ▸ h.handler, hs.active.trans h.active, hs.target.trans h.target,
    hs.running ▸ h.runs⟩

theorem stable_withdrawn : Stable (adaptiveRely (.handler k)) (Withdrawn cfg k a b) := by
  intro m m' h hr
  have hs := hr.1 h.handler
  exact ⟨hs.handlers ▸ h.handler, hs.active.trans h.active, hs.target ▸ h.target,
    hs.atRest h.rest, hs.running ▸ h.runs⟩

theorem handler_step (h : Orderly cfg m) (hk : k ∈ m.handlers)
    (hh : m'.handlers = m.handlers) (hp : m'.operation = m.operation)
    (hn : m'.spawned = m.spawned) (hr : m'.running = m.running)
    (hc : ∀ state, m'.disk = some state → ∀ target phase, state.pending = some (target, phase) →
        RunsEither cfg state.active target m'.running) : HandlerSteps cfg k m m' := by
  refine .inr ⟨fun j _ => by rw [hh], hp, .inl ⟨hk, ?_⟩⟩
  have he : m.spawned = [] := by
    by_contra ha
    obtain ⟨o, ho⟩ := List.exists_mem_of_ne_nil _ ha
    simp [(h.waiting o ho).1] at hk
  exact {
    busy := by rw [hp, hh, hn]; exact h.busy
    waiting := by rw [hh, hn]; exact h.waiting
    single := by rw [hh]; exact h.single
    exclusive := by rw [hr]; exact h.exclusive
    recoverable := hc
    rest := fun _ _ hb => by simp [hh ▸ hb] at hk
    prepared := by simp [hn, he] }

abbrev HandlerMeets (config : AdaptiveConfig) (k : Nat) {α : Type} (t : AdaptiveThread α)
    (P : AdaptiveMemory → Prop) (Q : α → AdaptiveMemory → Prop) : Prop :=
  t.Meets (Orderly config) (adaptiveRely (.handler k)) (HandlerSteps config k) P Q

theorem meets_persist_announcing (hR : ∀ r, R r → RunsEither cfg a b r) :
    HandlerMeets cfg k persist (Announcing k a b R)
      fun saved m => Announcing k a b R m ∧ (saved → DiskOn a b m.disk) := by
  refine meets_persist stable_announcing ?_ ?_ ?_
  · exact fun m m' h hr => (hr.1 h.handler).disk
  · intro m h state hs target phase hp
    cases hs
    simp only [persistedState, h.target, map_some, some.injEq, Prod.mk.injEq] at hp
    exact ⟨h.active, hp.1.symm⟩
  · intro m state ho h hg
    refine ⟨handler_step ho h.handler rfl rfl rfl rfl ?_, h.handler, h.active, h.target, h.runs⟩
    exact Orderly.recoverable_of (m := { m with disk := some state }) hg (hR _ h.runs)

theorem meets_persist_withdrawn :
    HandlerMeets cfg k persist (Withdrawn cfg k a b) fun _ => Withdrawn cfg k a b := by
  refine (meets_persist (a := a) (b := b) stable_withdrawn ?_ ?_ ?_).mono_post fun _ _ _ h => h.1
  · exact fun m m' h hr => (hr.1 h.handler).disk
  · intro m h state hs target phase hp
    cases hs
    simp only [persistedState, map_eq_some_iff, Prod.mk.injEq] at hp
    obtain ⟨_, ht, rfl, -⟩ := hp
    exact ⟨h.active, h.target _ ht⟩
  · intro m state ho h hg
    refine ⟨handler_step ho h.handler rfl rfl rfl rfl ?_,
      h.handler, h.active, h.target, h.rest, h.runs⟩
    exact Orderly.recoverable_of (m := { m with disk := some state }) hg h.runs

variable {undo : AdaptiveMemory → AdaptiveMemory}

theorem meets_withdraw (hu : ∀ m, Announcing k a b R m → Withdrawn cfg k a b (undo m) ∧
      (undo m).handlers = m.handlers ∧ (undo m).operation = m.operation ∧
      (undo m).spawned = m.spawned ∧ (undo m).running = m.running ∧ (undo m).disk = m.disk) :
    HandlerMeets cfg k (updateRuntime undo) (Announcing k a b R) fun _ => Withdrawn cfg k a b := by
  refine .atomicWhen (fun _ => stable_withdrawn) fun _ m ha h _ => ?_
  obtain ⟨h', hh, ho, hp, hr, hd⟩ := hu m h
  refine ⟨handler_step ha h.handler hh ho hp hr ?_, h'⟩
  rw [hd, hr]
  exact ha.recoverable

theorem mem_filter_ne {j : Nat} (l : List Nat) (hj : j ≠ k) : j ∈ l.filter (· ≠ k) ↔ j ∈ l := by
  simp [hj]

theorem meets_leave : HandlerMeets cfg k (modify (·.leave k)) (Withdrawn cfg k a b)
      fun _ => adaptiveIdle (.handler k) := by
  refine .modify (stable_adaptiveIdle (.handler k)) fun m hr h => ?_
  have hn : (m.leave k).handlers = [] := by
    simp [leave, hr.single k h.handler]
  refine ⟨.inr ⟨fun j hj => mem_filter_ne _ hj, rfl, .inl ⟨h.handler, ?_⟩⟩, ?_⟩
  · exact {
      busy := fun hp => ⟨hn, (hr.busy hp).2⟩
      waiting := fun o ho => ⟨hn, (hr.waiting o ho).2⟩
      single := by simp [hn]
      exclusive := hr.exclusive
      recoverable := hr.recoverable
      rest := fun _ _ _ _ => h.rest
      prepared := hr.prepared }
  · simp [adaptiveIdle, hn]

variable {o : AdaptiveOperation} {P : AdaptiveMemory → Prop}

theorem meets_spawn (hb : ∀ m, Announcing k a b R m → DiskOn a b m.disk → Prepared cfg m o) :
    HandlerMeets cfg k (modify (·.spawn k o))
      (fun m => Announcing k a b R m ∧ DiskOn a b m.disk) fun _ => adaptiveIdle (.handler k) := by
  refine .modify (stable_adaptiveIdle (.handler k)) fun m ho ⟨h, hd⟩ => ?_
  have hn : (m.spawn k o).handlers = [] := by
    simp [spawn, ho.single k h.handler]
  have he : m.spawned = [] := by
    by_contra hc
    obtain ⟨other, ht⟩ := List.exists_mem_of_ne_nil _ hc
    have hk := h.handler
    simp [(ho.waiting other ht).1] at hk
  have ha : (m.spawn k o).spawned = [o] := by simp [spawn, he]
  have hf : m.operation → False := by
    intro hp
    have hk := h.handler
    simp [(ho.busy hp).1] at hk
  have hr : Prepared cfg (m.spawn k o) o := by
    have := hb m h hd
    cases o <;> exact this
  refine ⟨.inr ⟨fun j hj => mem_filter_ne _ hj, rfl, .inl ⟨h.handler, ?_⟩⟩, ?_⟩
  · exact {
      busy := fun hp => (hf hp).elim
      waiting := by simp [ha, hn]
      single := by simp [hn]
      exclusive := ho.exclusive
      recoverable := ho.recoverable
      rest := fun _ _ _ hsp => by simp [ha] at hsp
      prepared := by simpa [ha] using hr }
  · simp [adaptiveIdle, hn]

theorem meets_announce {unaudited : AdaptiveThread Unit} (hR : ∀ r, R r → RunsEither cfg a b r)
    (hp : ∀ m, Announcing k a b R m → DiskOn a b m.disk → Prepared cfg m o)
    (hu : HandlerMeets cfg k (updateRuntime undo) (Announcing k a b R)
      fun _ => Withdrawn cfg k a b) (hn : HandlerMeets cfg k unaudited (Announcing k a b R)
      fun _ => Withdrawn cfg k a b) :
    HandlerMeets cfg k (announce k o undo unaudited) (Announcing k a b R)
      fun _ => adaptiveIdle (.handler k) := by
  refine .bind (meets_persist_announcing hR) fun saved => ?_
  split
  case isTrue hs =>
    refine .bind (Q := fun _ m => Announcing k a b R m ∧ DiskOn a b m.disk) ?_ ?_
    · refine .atomicWhen ?_ fun _ m _ h _ =>
        ⟨.inl (SameCore.refl m), h.1, h.2 hs⟩
      intro _ m m' h hr
      exact ⟨stable_announcing m m' h.1 hr, (hr.1 h.1.handler).disk ▸ h.2⟩
    intro audited
    split
    · exact meets_spawn hp
    · refine .bind (Q := fun _ => Withdrawn cfg k a b) ?_ fun _ => meets_leave
      exact hn.mono_pre fun _ _ h => h.1
  case isFalse =>
    refine .bind (Q := fun _ => Withdrawn cfg k a b) ?_ fun _ => meets_leave
    exact hu.mono_pre fun _ _ h => h.1

theorem withdrawn_settle (h : Announcing k a b (fun r => Runs cfg r a) m) :
    Withdrawn cfg k a b m.settle := by
  refine ⟨h.handler, h.active, fun target ht => ?_, ⟨fun _ => ?_, fun hf => ?_⟩, .inl h.runs⟩
  · simp [settle] at ht
  · exact h.active.symm ▸ h.runs
  · simp [settle] at hf

theorem withdrawn_failed (h : Announcing k a b (RunsEither cfg a b) m) :
    Withdrawn cfg k a b (m.setPhase .failed) := by
  refine ⟨h.handler, h.active, fun target ht => ?_, ⟨fun hi => ?_, fun _ target ht => ?_⟩, h.runs⟩
  · exact (some.inj (h.target.symm.trans ht)).symm
  · simp [AdaptiveMemory.setPhase] at hi
  · obtain rfl : b = target := some.inj (h.target.symm.trans ht)
    exact h.active.symm ▸ h.runs

def Accepted (k : Nat) (P : AdaptiveMemory → Prop) (m : AdaptiveMemory) : Prop :=
  k ∈ m.handlers ∧ (m.handlers = [k] → m.operation = false → m.spawned = [] → P m)

theorem Accepted.alone (h : Accepted k P m) (hr : Orderly cfg m) : P m := by
  refine h.2 (hr.single k h.1) ?_ ?_
  · by_contra hb
    have hk := h.1
    simp [(hr.busy (by simpa using hb)).1] at hk
  by_contra hn
  obtain ⟨o, ho⟩ := List.exists_mem_of_ne_nil _ hn
  have hk := h.1
  simp [(hr.waiting o ho).1] at hk

theorem stable_accepted (hP : ∀ m m', P m → SameCore m m' → P m') :
    Stable (adaptiveRely (.handler k)) (Accepted k P) := by
  rintro m m' ⟨hk, h⟩ hr
  have hs := hr.1 hk
  refine ⟨hs.handlers ▸ hk, fun hh ho hp => hP m m' ?_ hs⟩
  rw [hs.handlers] at hh
  rw [hs.operation] at ho
  rw [hs.spawned] at hp
  exact h hh ho hp

/-- An acceptance that finds nothing under way keeps the order. -/
theorem accept_step {phase : AdaptivePhase} {target : Option String} (h : Orderly cfg m)
    (hk : k ∉ m.handlers) (hp : m.phase = .idle ∨ m.phase = .failed) : HandlerSteps cfg k m
      { m with phase, target, handlers := k :: m.handlers } := by
  refine .inr ⟨fun j hj => by simp [hj], rfl, .inr ⟨hk, hp, fun hq => ?_⟩⟩
  obtain ⟨hn, ho, he⟩ := hq
  exact {
    busy := fun hb => by simp [ho] at hb
    waiting := by simp [he]
    single := by simp [hn]
    exclusive := h.exclusive
    recoverable := h.recoverable
    rest := fun _ _ hh => by simp at hh
    prepared := by simp [he] }

/-- `a` is the profile that was active when the request was accepted. -/
def AnnouncesFrom (k : Nat) (b : String) (R : String → (String → Bool) → Prop)
    (m : AdaptiveMemory) : Prop :=
  ∃ a, Announcing k a b (R a) m

theorem AnnouncesFrom.same {R : String → (String → Bool) → Prop} (h : AnnouncesFrom k b R m)
    (hs : SameCore m m') : AnnouncesFrom k b R m' := by
  obtain ⟨a, h⟩ := h
  exact ⟨a, hs.handlers ▸ h.handler, hs.active.trans h.active, hs.target.trans h.target,
    hs.running ▸ h.runs⟩

theorem meets_beginTransition (k : Nat) (b : String) :
    HandlerMeets cfg k (beginTransition cfg k b) (adaptiveIdle (.handler k))
      fun _ => adaptiveIdle (.handler k) := by
  refine .bind (Q := fun accepted m => if accepted = true then
    Accepted k (AnnouncesFrom k b fun a r => Runs cfg r a) m
    else adaptiveIdle (.handler k) m) ?_ fun accepted => ?_
  · refine .atomicWhen (fun accepted => ?_) fun _ m h hk _ => ?_
    · cases accepted with
      | true => exact stable_accepted fun _ _ h hs => h.same hs
      | false => exact stable_adaptiveIdle (.handler k)
    simp only [acceptTransition]
    split
    case isTrue ha =>
      simp only [acceptsTransition, Bool.and_eq_true, decide_eq_true_eq] at ha
      obtain ⟨⟨⟨⟨⟨hup, hi⟩, -⟩, -⟩, -⟩, -⟩ := ha
      refine ⟨accept_step h hk (.inl hi), List.mem_cons_self, fun hn ho he => ?_⟩
      have hb : m.handlers = [] := by simpa using hn
      have hr := h.rest hup ho hb he
      exact ⟨m.active, List.mem_cons_self, rfl, rfl, hr.1 hi⟩
    case isFalse => exact ⟨.inl (SameCore.refl m), hk⟩
  · cases accepted with
    | false => exact fun _ _ h => h
    | true =>
      refine .mono_pre (.of_exists fun a => ?_) fun m h hm => hm.alone h
      refine meets_announce (fun _ => .inl) ?_ ?_ ?_
      · exact fun m h hd => ⟨h.target, h.active.symm ▸ h.runs, h.active.symm ▸ hd⟩
      · exact meets_withdraw fun m h => ⟨withdrawn_settle h, rfl, rfl, rfl, rfl, rfl⟩
      · refine .bind (Q := fun _ => Withdrawn cfg k a b) ?_ fun _ =>
          .bind meets_persist_withdrawn fun _ _ _ h => h
        refine meets_withdraw fun m h => ⟨?_, rfl, rfl, rfl, rfl, rfl⟩
        obtain ⟨hh, hc, ht, hr, hu⟩ := withdrawn_settle h
        exact ⟨hh, hc, ht, hr, hu⟩

theorem meets_beginRollback (k : Nat) :
    HandlerMeets cfg k (beginRollback k) (adaptiveIdle (.handler k))
      fun _ => adaptiveIdle (.handler k) := by
  refine .bind (Q := fun accepted m => accepted.elim (adaptiveIdle (.handler k) m)
    fun b => Accepted k (AnnouncesFrom k b fun a => RunsEither cfg a b) m) ?_ fun accepted => ?_
  · refine .atomicWhen (fun accepted => ?_) fun _ m h hk _ => ?_
    · cases accepted with
      | some b => exact stable_accepted fun _ _ h hs => h.same hs
      | none => exact stable_adaptiveIdle (.handler k)
    simp only [acceptRollback]
    split
    case h_1 b ht =>
      split
      case isTrue ha =>
        simp only [Bool.and_eq_true, decide_eq_true_eq] at ha
        obtain ⟨hup, hf⟩ := ha
        refine ⟨accept_step h hk (.inr hf), List.mem_cons_self, fun hh ho he => ?_⟩
        have hn : m.handlers = [] := by simpa using hh
        have hr := h.rest hup ho hn he
        exact ⟨m.active, List.mem_cons_self, rfl, ht, hr.2 hf b ht⟩
      case isFalse => exact ⟨.inl (SameCore.refl m), hk⟩
    case h_2 => exact ⟨.inl (SameCore.refl m), hk⟩
  · cases accepted with
    | none => exact fun _ _ h => h
    | some b =>
      refine .mono_pre (.of_exists fun a => ?_) fun m h hm => hm.alone h
      have hu : HandlerMeets cfg k (updateRuntime (·.setPhase .failed))
          (Announcing k a b (RunsEither cfg a b)) fun _ => Withdrawn cfg k a b :=
        meets_withdraw fun m h => ⟨withdrawn_failed h, rfl, rfl, rfl, rfl, rfl⟩
      refine meets_announce (fun _ => id) ?_ hu ?_
      · exact fun m h hd => ⟨h.target, h.active.symm ▸ h.runs, h.active.symm ▸ hd⟩
      · exact .bind hu fun _ => .bind meets_persist_withdrawn fun _ _ _ h => h

theorem always_adaptiveRequest (k up : Nat) : (request k up).Always SameCore := by
  refine Always.bind (Always.atomic fun _ m => ?_) fun acquired => ?_
  · simp only [acquire]
    split
    · exact ⟨rfl, rfl, rfl, rfl, rfl, rfl, rfl, rfl, rfl⟩
    · exact SameCore.refl m
  · split
    · exact Always.atomic fun _ m => ⟨rfl, rfl, rfl, rfl, rfl, rfl, rfl, rfl, rfl⟩
    · trivial

theorem orderly_initial (h : Initial cfg m) : Orderly cfg m := by
  exact {
    busy := fun ho => by simp [h.operation] at ho
    waiting := by simp [h.spawned]
    single := by simp [h.handlers]
    exclusive := ⟨_, h.runs⟩
    recoverable := fun state hs _ _ _ => by
      have hr := h.runs
      simp only [persistedActive, hs] at hr
      exact .inl hr
    rest := fun hup => by simp [h.up] at hup
    prepared := by simp [h.spawned] }

def adaptiveSpec (config : AdaptiveConfig) : (adaptiveMachine config).Spec OneAtATime where
  inv := Orderly config
  rely := adaptiveRely
  guar := adaptiveGuarantee config
  idle := adaptiveIdle
  init m h := by
    refine ⟨orderly_initial h, fun i => ?_⟩
    cases i with
    | handler k =>
      show k ∉ m.handlers
      simp [h.handlers]
    | operation => exact h.operation
    | request k => trivial
  stable_idle := stable_adaptiveIdle
  inv_step i e _ _ h hC hstep := orderly_step i e h hC hstep
  compatible i j e _ _ hij h hC hstep := adaptive_compatible i j e hij h hC hstep
  meets code := by
    cases code with
    | beginTransition k b => exact meets_beginTransition k b
    | beginRollback k => exact meets_beginRollback k
    | execute o => exact meets_execute o
    | request k upstream =>
      exact (always_adaptiveRequest k upstream).meets fun _ _ _ hstep => hstep

theorem adaptiveIdle_of_lost (hh : m.handlers = []) (ho : m.operation = false)
    (i : AdaptiveSlot) : adaptiveIdle i m := by
  cases i with
  | handler k =>
    show k ∉ m.handlers
    simp [hh]
  | operation => exact ho
  | request k => trivial

theorem orderly_crash (h : Orderly cfg m) : Orderly cfg m.crash := by
  exact {
    busy := fun _ => ⟨rfl, rfl⟩
    waiting := by simp [crash]
    single := by simp [crash]
    exclusive := h.exclusive
    recoverable := h.recoverable
    rest := fun hup => by simp [crash] at hup
    prepared := by simp [crash] }

theorem orderly_boot (answers : AdaptiveAnswers) (audited : Bool) (h : Orderly cfg m)
    (hq : Quiet m) (hdown : m.up = false) :
    Orderly cfg (m.boot cfg answers audited) ∧ Quiet (m.boot cfg answers audited) := by
  obtain ⟨hh, ho, hn⟩ := hq
  -- Whatever a start wrote, it names what the file it read named.
  have hr : ∀ pending, m.persistedPending = some pending →
      RunsEither cfg (m.persistedActive cfg) pending.1 m.running := by
    intro pending hd
    obtain ⟨state, hs, hd⟩ := bind_eq_some_iff.1 hd
    simp only [persistedActive, hs]
    exact h.recoverable state hs pending.1 pending.2 hd
  have hw : ∀ state,
      ((m.booted cfg).write (m.booted cfg).persistedState answers).1.disk = some state →
        ∀ target phase, state.pending = some (target, phase) →
          RunsEither cfg state.active target m.running := by
    intro state hs target phase hd
    simp only [write] at hs
    split at hs
    · cases hs
      simp only [persistedState, booted, map_map, map_eq_some_iff,
        Function.comp_apply, Prod.mk.injEq] at hd
      obtain ⟨pending, hd, rfl, -⟩ := hd
      exact hr pending hd
    · exact h.recoverable state hs target phase hd
  have hfr : ∀ state, ((m.booted cfg).write state answers).1 =
      { m.booted cfg with disk := ((m.booted cfg).write state answers).1.disk } := by
    intro state
    simp only [write]
    split <;> rfl
  simp only [boot]
  split
  case isFalse => exact ⟨h, hh, ho, hn⟩
  case isTrue hv =>
  split
  case isFalse =>
    refine ⟨?_, hh, ho, hn⟩
    exact {
      busy := h.busy, waiting := h.waiting, single := h.single, exclusive := h.exclusive
      recoverable := hw
      rest := fun hup => by simp [hdown] at hup
      prepared := by simp [hn] }
  case isTrue =>
    rw [hfr]
    refine ⟨?_, hh, ho, hn⟩
    refine {
      busy := h.busy, waiting := h.waiting, single := h.single, exclusive := h.exclusive
      recoverable := hw
      rest := fun _ _ _ _ => ⟨fun hi => ?_, fun _ b hb => ?_⟩
      prepared := by simp [booted, hn] }
    · have he : m.persistedPending.isSome = false := by
        by_contra hf
        simp [booted, hf] at hi
      simp only [he, Bool.false_or, Bool.and_eq_true] at hv
      intro profile hp container hc hg
      have ha := hv.2
      simp only [reconciled, List.all_eq_true, decide_eq_true_eq] at ha
      have hu := ha profile hp container hc
      rw [show m.running container = true from hg] at hu
      show profile.id = m.persistedActive cfg
      simpa using hu.symm
    · obtain ⟨pending, hd, rfl⟩ := map_eq_some_iff.1 hb
      exact hr pending hd

theorem adaptiveSpec_holds {s : AdaptiveState}
    (h : (adaptiveController cfg OneAtATime).Reachable s) : (adaptiveSpec cfg).Holds s := by
  refine adaptiveController_holds (adaptiveSpec cfg)
    (fun m hm => ⟨orderly_crash hm, adaptiveIdle_of_lost rfl rfl⟩)
    (fun m answers audited hm => ?_) h
  obtain ⟨ho, hq⟩ := orderly_boot answers audited (orderly_crash hm) ⟨rfl, rfl, rfl⟩ rfl
  exact ⟨ho, adaptiveIdle_of_lost hq.1 hq.2.1⟩

def Exclusive (config : AdaptiveConfig) (running : String → Bool) : Prop :=
  ∀ p ∈ config.profiles, ∀ q ∈ config.profiles, ∀ c ∈ p.containers, ∀ d ∈ q.containers,
    running c → running d → p = q

/-- If requests are taken one at a time, the containers that run are of one profile. -/
theorem one_profile_runs {s : AdaptiveState}
    (h : (adaptiveController config OneAtATime).Reachable s) :
    Exclusive config s.memory.running := by
  obtain ⟨id, hi⟩ := (adaptiveSpec_holds h).1.exclusive
  intro p hp q hq c hc d hd hr hu
  apply AdaptiveConfig.eq_of_id hp hq
  rw [hi p hp c hc hr, hi q hq d hd hu]

instance (m : AdaptiveMemory) : Decidable (Quiet m) :=
  inferInstanceAs (Decidable (_ ∧ _ ∧ _))

instance (m : AdaptiveMemory) : (move : AdaptiveMove) → Decidable (OneAtATime m move)
  | .run (.handler _) _ => inferInstanceAs (Decidable (_ → _ → _))
  | .run .operation _ | .run (.request _) _ | .start _ => inferInstanceAs (Decidable True)

open SampleAdaptive in
/-- A crash after the new profile was started, and the start after it. -/
theorem one_profile_runs_sample :
    ∃ s, (adaptiveController threeProfiles OneAtATime).Reachable s ∧
      s.memory.phase = .failed ∧ s.memory.running "b0" ∧
      Exclusive threeProfiles s.memory.running := by
  obtain ⟨s, hr, hp, hu⟩ := exists_reachable OneAtATime
    (booting :: requested 0 "b" ++ committed "b" ++ [.crash, booting])
    (fun s => s.memory.phase = .failed ∧ s.memory.running "b0") (by decide +kernel)
  exact ⟨s, hr, hp, hu, one_profile_runs hr⟩

open SampleAdaptive in
/-- A request is accepted between the commit of a transition and the failure to persist
it. The operation that it starts then leads away from a profile that no longer runs. -/
theorem two_profiles_run :
    ∃ s, (adaptiveController threeProfiles fun _ _ => True).Reachable s ∧
      ¬ Exclusive threeProfiles s.memory.running := by
  obtain ⟨s, hr, hb⟩ := exists_reachable (fun _ _ => True)
    (booting :: requested 0 "b" ++ committed "b" ++ requested 1 "c" ++ runs .operation 1 ++
      [.move (.run .operation refused)] ++ runs .operation 6 ++
      .move (.start (.execute (.transition "c"))) :: runs .operation 13)
    (fun s => s.memory.running "b0" ∧ s.memory.running "c0") (by decide +kernel)
  refine ⟨s, hr, fun he => ?_⟩
  have heq := he ⟨"b", [⟨1, "b0"⟩]⟩ (by decide) ⟨"c", [⟨2, "c0"⟩]⟩ (by decide)
    "b0" (by decide) "c0" (by decide) hb.1 hb.2
  exact absurd heq (by decide)

end Ramjet
