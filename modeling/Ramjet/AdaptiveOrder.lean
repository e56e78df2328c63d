import Ramjet.AdaptiveController

/-!
# Order of adaptive operations

As long as requests come one at a time, one thread at a time may change the runtime, the
state file and the containers: the request accepted, or the operation it started.
-/

namespace Ramjet
open Thread AdaptiveThread AdaptiveMemory Function List
variable {cfg : AdaptiveConfig} {m m' : AdaptiveMemory} {a b : String} {running : String → Bool}

variable {profile : AdaptiveProfile} {id : String} {p q : AdaptiveProfile} {container : String}

theorem AdaptiveConfig.mem_of_profile (h : cfg.profile id = some profile) :
    profile ∈ cfg.profiles ∧ profile.id = id :=
  ⟨mem_of_find?_eq_some h, by simpa using find?_some h⟩

theorem AdaptiveConfig.eq_of_id (hp : p ∈ cfg.profiles)
    (hq : q ∈ cfg.profiles) (h : p.id = q.id) : p = q :=
  inj_on_of_nodup_map cfg.ids_nodup hp hq h

theorem AdaptiveConfig.eq_of_container (hp : p ∈ cfg.profiles) (hq : q ∈ cfg.profiles)
    (hc : container ∈ p.containers) (ha : container ∈ q.containers) : p = q := by
  by_contra hn
  have hd := (nodup_flatMap.1 cfg.containers_nodup).2
  have : Std.Symm (onFun Disjoint AdaptiveProfile.containers) :=
    ⟨fun _ _ h _ hx hy => h hy hx⟩
  exact hd.forall hp hq hn hc ha

theorem AdaptiveMemory.Runs.stop (h : Runs cfg running id) (container : String) :
    Runs cfg (update running container false) id := by
  intro profile hp other ho hr
  apply h profile hp other ho
  by_cases hn : other = container
  · simp [hn] at hr
  · rwa [update_of_ne hn] at hr

theorem AdaptiveMemory.Runs.start (h : Runs cfg running profile.id)
    (hp : profile ∈ cfg.profiles) (hc : container ∈ profile.containers) :
    Runs cfg (update running container true) profile.id := by
  intro other ho started hs hr
  by_cases hn : started = container
  · subst hn
    rw [AdaptiveConfig.eq_of_container ho hp hs hc]
  · rw [update_of_ne hn] at hr
    exact h other ho started hs hr

theorem AdaptiveMemory.Runs.of_stopped (h : Runs cfg running profile.id)
    (hp : profile ∈ cfg.profiles)
    (hs : ∀ engine ∈ profile.engines, running engine.container = false) (id : String) :
    Runs cfg running id := by
  intro other ho container hc hr
  have hi := h other ho container hc hr
  obtain rfl := AdaptiveConfig.eq_of_id ho hp hi
  obtain ⟨engine, he, rfl⟩ := mem_map.1 hc
  rw [hs engine he] at hr
  cases hr

variable (config : AdaptiveConfig)

/-- What runs belongs to one of two profiles. -/
def RunsEither (a b : String) (running : String → Bool) : Prop :=
  Runs config running a ∨ Runs config running b

theorem RunsEither.stop (h : RunsEither cfg a b running) (container : String) :
    RunsEither cfg a b (update running container false) :=
  h.imp (fun ha => ha.stop container) fun hb => hb.stop container

def DiskOn (a b : String) (disk : Option PersistedTopology) : Prop :=
  ∀ state, disk = some state → ∀ target phase, state.pending = some (target, phase) →
    state.active = a ∧ target = b

def AtRest (m : AdaptiveMemory) : Prop :=
  (m.phase = .idle → Runs config m.running m.active) ∧
    (m.phase = .failed → ∀ b, m.target = some b → RunsEither config m.active b m.running)

/-- What an operation finds when it starts. -/
def Prepared (m : AdaptiveMemory) : AdaptiveOperation → Prop
  | .transition b => m.target = some b ∧ Runs config m.running m.active ∧ DiskOn m.active b m.disk
  | .rollback b => m.target = some b ∧ RunsEither config m.active b m.running ∧
      DiskOn m.active b m.disk

structure Orderly (config : AdaptiveConfig) (m : AdaptiveMemory) : Prop where
  busy : m.operation → m.handlers = [] ∧ m.spawned = []
  waiting : ∀ o ∈ m.spawned, m.handlers = [] ∧ m.spawned = [o]
  single : ∀ k ∈ m.handlers, m.handlers = [k]
  exclusive : ∃ id, Runs config m.running id
  recoverable : ∀ state, m.disk = some state → ∀ target phase,
    state.pending = some (target, phase) → RunsEither config state.active target m.running
  rest : m.up → m.operation = false → m.handlers = [] → m.spawned = [] → AtRest config m
  prepared : ∀ o ∈ m.spawned, Prepared config m o

/-- A step that changes nothing of what the invariant reads. -/
structure SameCore (m m' : AdaptiveMemory) : Prop where
  up : m'.up = m.up
  active : m'.active = m.active
  phase : m'.phase = m.phase
  target : m'.target = m.target
  disk : m'.disk = m.disk
  running : m'.running = m.running
  operation : m'.operation = m.operation
  spawned : m'.spawned = m.spawned
  handlers : m'.handlers = m.handlers

theorem SameCore.refl (m : AdaptiveMemory) : SameCore m m :=
  ⟨rfl, rfl, rfl, rfl, rfl, rfl, rfl, rfl, rfl⟩

theorem SameCore.atRest (h : SameCore m m') (hr : AtRest cfg m) : AtRest cfg m' := by
  unfold AtRest
  rw [h.phase, h.running, h.active, h.target]
  exact hr

theorem SameCore.prepared {o : AdaptiveOperation} (h : SameCore m m')
    (hp : Prepared cfg m o) : Prepared cfg m' o := by
  cases o <;> unfold Prepared <;> rw [h.target, h.running, h.active, h.disk] <;> exact hp

theorem Orderly.same (h : Orderly cfg m) (hs : SameCore m m') : Orderly cfg m' where
  busy := by rw [hs.operation, hs.handlers, hs.spawned]; exact h.busy
  waiting := by rw [hs.handlers, hs.spawned]; exact h.waiting
  single := by rw [hs.handlers]; exact h.single
  exclusive := by rw [hs.running]; exact h.exclusive
  recoverable := by rw [hs.disk, hs.running]; exact h.recoverable
  rest hup hp hh hsp := by
    rw [hs.up] at hup
    rw [hs.operation] at hp
    rw [hs.handlers] at hh
    rw [hs.spawned] at hsp
    exact hs.atRest (h.rest hup hp hh hsp)
  prepared o ho := by
    rw [hs.spawned] at ho
    exact hs.prepared (h.prepared o ho)

theorem Orderly.recoverable_of (hd : DiskOn a b m.disk)
    (hr : RunsEither cfg a b m.running) : ∀ state, m.disk = some state → ∀ target phase,
      state.pending = some (target, phase) → RunsEither cfg state.active target m.running := by
  intro state hs target phase hp
  obtain ⟨rfl, rfl⟩ := hd state hs target phase hp
  exact hr

theorem RunsEither.exclusive (h : RunsEither cfg a b running) : ∃ id, Runs cfg running id :=
  h.elim (fun ha => ⟨a, ha⟩) fun hb => ⟨b, hb⟩

/-- Nothing is under way. -/
def Quiet (m : AdaptiveMemory) : Prop :=
  m.handlers = [] ∧ m.operation = false ∧ m.spawned = []

/-- What a request may do before it is accepted, and after. -/
def HandlerSteps (k : Nat) (m m' : AdaptiveMemory) : Prop :=
  SameCore m m' ∨ (∀ j, j ≠ k → (j ∈ m'.handlers ↔ j ∈ m.handlers)) ∧ m'.operation = m.operation ∧
      (k ∈ m.handlers ∧ Orderly config m' ∨
        k ∉ m.handlers ∧ (m.phase = .idle ∨ m.phase = .failed) ∧ (Quiet m → Orderly config m'))

def OperationSteps (m m' : AdaptiveMemory) : Prop :=
  SameCore m m' ∨
    m'.handlers = m.handlers ∧ Orderly config m' ∧ (m.operation ∨ m.spawned ≠ [])

def adaptiveGuarantee :
    AdaptiveSlot → AdaptiveMemory → AdaptiveMemory → Prop
  | .handler k => HandlerSteps config k
  | .operation => OperationSteps config
  | .request _ => SameCore

def adaptiveRely : AdaptiveSlot → AdaptiveMemory → AdaptiveMemory → Prop
  | .handler k => fun m m' => (k ∈ m.handlers → SameCore m m') ∧ (k ∉ m.handlers → k ∉ m'.handlers)
  | .operation => fun m m' => (m.operation → SameCore m m') ∧
      (m.operation = false → m'.operation = false)
  | .request _ => fun _ _ => True

def adaptiveIdle : AdaptiveSlot → AdaptiveMemory → Prop
  | .handler k => fun m => k ∉ m.handlers
  | .operation => fun m => m.operation = false
  | .request _ => fun _ => True

/-- A request that the runtime could accept comes when nothing is under way. -/
def OneAtATime (m : AdaptiveMemory) : AdaptiveMove → Prop
  | .run (.handler k) _ => k ∉ m.handlers → m.phase = .idle ∨ m.phase = .failed → Quiet m
  | .run .operation _ | .run (.request _) _ | .start _ => True

variable (i : AdaptiveSlot)

theorem guarantee_same (h : SameCore m m') : adaptiveGuarantee cfg i m m' := by
  cases i with
  | handler k => exact .inl h
  | operation => exact .inl h
  | request k => exact h

theorem stable_adaptiveIdle : Stable (adaptiveRely i) (adaptiveIdle i) := by
  cases i with
  | handler k => exact fun _ _ hi hr => hr.2 hi
  | operation => exact fun _ _ hi hr => hr.2 hi
  | request k => exact fun _ _ _ _ => trivial

theorem orderly_step (e : AdaptiveAnswers) (h : Orderly cfg m)
    (hC : OneAtATime m (.run i e)) (hstep : adaptiveGuarantee cfg i m m') : Orderly cfg m' := by
  cases i with
  | handler k =>
    rcases hstep with hs | ⟨-, -, ⟨-, ho⟩ | ⟨hk, hp, ho⟩⟩
    · exact h.same hs
    · exact ho
    · exact ho (hC hk hp)
  | operation =>
    rcases hstep with hs | ⟨-, ho, -⟩
    · exact h.same hs
    · exact ho
  | request k => exact h.same hstep

theorem SameCore.rely (j : AdaptiveSlot) (h : SameCore m m') : adaptiveRely j m m' := by
  cases j with
  | handler k => exact ⟨fun _ => h, fun hk => h.handlers ▸ hk⟩
  | operation => exact ⟨fun _ => h, fun ho => h.operation.trans ho⟩
  | request k => trivial

theorem adaptive_compatible (i j : AdaptiveSlot) (e : AdaptiveAnswers) (hij : i ≠ j)
    (h : Orderly cfg m) (hC : OneAtATime m (.run i e))
    (hstep : adaptiveGuarantee cfg i m m') : adaptiveRely j m m' := by
  cases i with
  | request k => exact SameCore.rely j hstep
  | handler k =>
    rcases hstep with hs | ⟨hoths, he, hw⟩
    · exact hs.rely j
    have hf : m.operation = false ∧ ∀ i ∈ m.handlers, i = k := by
      rcases hw with ⟨hk, -⟩ | ⟨hk, hh, -⟩
      · have hc : m.handlers = [k] := h.single k hk
        refine ⟨?_, fun i hi => by simpa [hc] using hi⟩
        by_contra hb
        simp [(h.busy (by simpa using hb)).1] at hk
      · obtain ⟨hn, hp, -⟩ := hC hk hh
        exact ⟨hp, fun i hi => by simp [hn] at hi⟩
    cases j with
    | handler i =>
      have ha : i ≠ k := fun heq => hij (by rw [heq])
      exact ⟨fun hi => absurd (hf.2 i hi) ha, fun hi => fun hi' => hi ((hoths i ha).1 hi')⟩
    | operation =>
      exact ⟨fun hp => by simp [hf.1] at hp, fun hp => he.trans hp⟩
    | request i => trivial
  | operation =>
    rcases hstep with hs | ⟨hd, -, hw⟩
    · exact hs.rely j
    have hn : m.handlers = [] := by
      rcases hw with hp | hg
      · exact (h.busy hp).1
      · obtain ⟨o, ho⟩ := exists_mem_of_ne_nil _ hg
        exact (h.waiting o ho).1
    cases j with
    | handler i => exact ⟨fun hi => by simp [hn] at hi, fun hi => hd ▸ hi⟩
    | operation => exact absurd rfl hij
    | request i => trivial

theorem meets_persist {i : AdaptiveSlot} {P : AdaptiveMemory → Prop}
    (ht : Stable (adaptiveRely i) P) (hd : ∀ m m', P m → adaptiveRely i m m' → m'.disk = m.disk)
    (ha : ∀ m, P m → DiskOn a b (some m.persistedState))
    (hw : ∀ m state, Orderly cfg m → P m → DiskOn a b (some state) →
      adaptiveGuarantee cfg i m { m with disk := some state } ∧
        P { m with disk := some state }) :
    persist.Meets (Orderly cfg) (adaptiveRely i) (adaptiveGuarantee cfg i) P
      fun saved m => P m ∧ (saved → DiskOn a b m.disk) := by
  refine Meets.bind (Q := fun state m => P m ∧ DiskOn a b (some state)) ?_ fun state => ?_
  · refine Meets.atomicWhen (fun _ _ _ h hr => ⟨ht _ _ h.1 hr, h.2⟩) ?_
    exact fun _ m _ hm _ => ⟨guarantee_same i (SameCore.refl m), hm, ha m hm⟩
  refine Meets.atomic (fun _ m m' h hr => ⟨ht m m' h.1 hr, fun hs => ?_⟩) ?_
  · rw [hd m m' h.1 hr]
    exact h.2 hs
  rintro answers m ho ⟨hm, hg⟩
  simp only [write]
  split
  · obtain ⟨hguar, hP⟩ := hw m state ho hm hg
    exact ⟨hguar, hP, fun _ => hg⟩
  case isFalse hn =>
    refine ⟨guarantee_same i (SameCore.refl m), hm, fun hs => ?_⟩
    simp [hs] at hn

end Ramjet
