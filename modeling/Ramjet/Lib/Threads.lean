import Ramjet.Lib.Runs

/-!
# Threads over a shared memory

A thread has finished or is about to do one atomic action on the shared memory, with an
answer of its surroundings. What it does is stated against a rely and a guarantee.
-/

inductive Thread (σ ε α : Type) where
  | done (result : α)
  | act (guard : σ → Bool) (write : ε → σ → σ) (next : ε → σ → Thread σ ε α)

namespace Thread
open List
variable {σ ε α β : Type}

def bind : Thread σ ε α → (α → Thread σ ε β) → Thread σ ε β
  | done a, k => k a
  | act guard write next, k => act guard write fun e s => (next e s).bind k

instance : Monad (Thread σ ε) where
  pure := done
  bind

/-- One action that reads and writes at once. -/
def atomic (f : ε → σ → σ × α) : Thread σ ε α :=
  act (fun _ => true) (fun e s => (f e s).1) fun e s => done (f e s).2

def atomicWhen (guard : σ → Bool) (f : ε → σ → σ × α) : Thread σ ε α :=
  act guard (fun e s => (f e s).1) fun e s => done (f e s).2

def modify (f : σ → σ) : Thread σ ε Unit := atomic fun _ s => (f s, ())

def read (f : σ → α) : Thread σ ε α := atomic fun _ s => (s, f s)

/-- What the surroundings answer. -/
def ask (f : ε → α) : Thread σ ε α := atomic fun e s => (s, f e)

/-- An action that waits for a condition. -/
def await (guard : σ → Bool) (f : σ → σ) : Thread σ ε Unit :=
  act guard (fun _ => f) fun _ _ => done ()

/-- One thread after the other for each element. -/
def forEach (f : β → Thread σ ε Unit) : List β → Thread σ ε Unit
  | [] => done ()
  | x :: xs => (f x).bind fun _ => forEach f xs

/-- A thread that nobody interrupts, with an answer for each of its actions. One that waits
does not return: nobody else makes its condition true. -/
def alone : Thread σ ε α → (Nat → ε) → σ → Option σ
  | done _, _, s => some s
  | act guard write next, answers, s =>
    if guard s then (next (answers 0) s).alone (fun n => answers (n + 1)) (write (answers 0) s)
    else none

def Stable (R : σ → σ → Prop) (P : σ → Prop) : Prop := ∀ s s', P s → R s s' → P s'

def Meets (I : σ → Prop) (R G : σ → σ → Prop) : Thread σ ε α → (σ → Prop) → (α → σ → Prop) → Prop
  | done a, P, Q => ∀ s, I s → P s → Q a s
  | act guard write next, P, Q => ∀ e s, I s → P s → guard s → G s (write e s) ∧
        ∃ P', Stable R P' ∧ P' (write e s) ∧ Meets I R G (next e s) P' Q

variable {I : σ → Prop} {R G : σ → σ → Prop} {P P' : σ → Prop} {Q Q' : α → σ → Prop}
  {t : Thread σ ε α}

theorem Meets.mono_pre (h : t.Meets I R G P Q) (hP : ∀ s, I s → P' s → P s) :
    t.Meets I R G P' Q := by
  cases t with
  | done a => exact fun s hI hs => h s hI (hP s hI hs)
  | act guard write next => exact fun e s hI hs => h e s hI (hP s hI hs)

/-- A value that the assertion leaves open. -/
theorem Meets.of_exists {P : β → σ → Prop} (h : ∀ b, t.Meets I R G (P b) Q) :
    t.Meets I R G (fun s => ∃ b, P b s) Q := by
  cases t with
  | done a => exact fun s hI ⟨b, hs⟩ => h b s hI hs
  | act guard write next => exact fun e s hI ⟨b, hs⟩ => h b e s hI hs

theorem Meets.mono_post (h : t.Meets I R G P Q) (hQ : ∀ a s, I s → Q a s → Q' a s) :
    t.Meets I R G P Q' := by
  induction t generalizing P with
  | done a => exact fun s hI hs => hQ a s hI (h s hI hs)
  | act guard write next ih =>
    intro e s hI hs hgd
    obtain ⟨hG, P', ht, hP', hn⟩ := h e s hI hs hgd
    exact ⟨hG, P', ht, hP', ih e s hn⟩

variable {I' : σ → Prop} {R' G' : σ → σ → Prop}

theorem Meets.mono (h : t.Meets I R G P Q) (hI : ∀ s, I' s → I s) (hR : ∀ s s', R' s s' → R s s')
    (hG : ∀ s s', G s s' → G' s s') : t.Meets I' R' G' P Q := by
  induction t generalizing P with
  | done a => exact fun s hs => h s (hI s hs)
  | act guard write next ih =>
    intro e s hs hP hgd
    obtain ⟨hg, A, ht, hA, hn⟩ := h e s (hI s hs) hP hgd
    exact ⟨hG _ _ hg, A, fun s s' ha hr => ht s s' ha (hR s s' hr), hA, ih e s hn⟩

/-- Two accounts of one thread. -/
theorem Meets.and (h : t.Meets I R G P Q) (h' : t.Meets I' R' G' P' Q') :
    t.Meets (fun s => I s ∧ I' s) (fun s s' => R s s' ∧ R' s s') (fun s s' => G s s' ∧ G' s s')
      (fun s => P s ∧ P' s) fun a s => Q a s ∧ Q' a s := by
  induction t generalizing P P' with
  | done a => exact fun s hI hs => ⟨h s hI.1 hs.1, h' s hI.2 hs.2⟩
  | act guard write next ih =>
    intro e s hI hs hgd
    obtain ⟨hg, A, ht, hA, hn⟩ := h e s hI.1 hs.1 hgd
    obtain ⟨hg', A', ht', hA', hn'⟩ := h' e s hI.2 hs.2 hgd
    refine ⟨⟨hg, hg'⟩, fun s => A s ∧ A' s, fun s s' ha hr => ?_, ⟨hA, hA'⟩, ih e s hn hn'⟩
    exact ⟨ht s s' ha.1 hr.1, ht' s s' ha.2 hr.2⟩

variable {k : α → Thread σ ε β} {guard : σ → Bool}

theorem Meets.bind {Q' : β → σ → Prop} (h : t.Meets I R G P Q)
    (hk : ∀ a, (k a).Meets I R G (Q a) Q') : (t.bind k).Meets I R G P Q' := by
  induction t generalizing P with
  | done a => exact (hk a).mono_pre h
  | act guard write next ih =>
    intro e s hI hs hgd
    obtain ⟨hG, P', ht, hP', hn⟩ := h e s hI hs hgd
    exact ⟨hG, P', ht, hP', ih e s hn⟩

variable {f : β → Thread σ ε Unit}

/-- A loop keeps what its body keeps. -/
theorem Meets.forEach {xs : List β} (h : ∀ x ∈ xs, (f x).Meets I R G P fun _ => P) :
    (forEach f xs).Meets I R G P fun _ => P := by
  induction xs with
  | nil => exact fun _ _ hs => hs
  | cons x xs ih =>
    refine Meets.bind (h x mem_cons_self) fun _ => ih fun y hy => ?_
    exact h y (mem_cons_of_mem x hy)

theorem Meets.forEach_all {D : β → σ → Prop}
    (h : ∀ done x, (f x).Meets I R G (fun s => P s ∧ ∀ y ∈ done, D y s) fun _ s =>
      P s ∧ ∀ y ∈ x :: done, D y s) (xs : List β) :
    (Thread.forEach f xs).Meets I R G P fun _ s => P s ∧ ∀ y ∈ xs, D y s := by
  suffices hd : ∀ done, (Thread.forEach f xs).Meets I R G (fun s => P s ∧ ∀ y ∈ done, D y s)
      fun _ s => P s ∧ ∀ y ∈ xs ++ done, D y s by
    refine ((hd []).mono_pre fun s _ hs => ⟨hs, nofun⟩).mono_post ?_
    exact fun _ s _ hs => ⟨hs.1, fun y hy => hs.2 y (mem_append_left _ hy)⟩
  induction xs with
  | nil => exact fun done _ _ hs => hs
  | cons x xs ih =>
    intro done
    refine Meets.bind (h done x) fun _ => (ih (x :: done)).mono_post fun _ s _ hs => ⟨hs.1, ?_⟩
    intro y hy
    refine hs.2 y ?_
    simp only [cons_append, mem_cons, mem_append] at hy ⊢
    tauto

theorem Meets.await {f : σ → σ} {P' : σ → Prop} (ht : Stable R P')
    (h : ∀ s, I s → P s → guard s → G s (f s) ∧ P' (f s)) :
    (Thread.await guard f : Thread σ ε Unit).Meets I R G P fun _ => P' := by
  intro e s hI hs hgd
  obtain ⟨hG, hP'⟩ := h s hI hs hgd
  exact ⟨hG, P', ht, hP', fun _ _ hp => hp⟩

theorem Meets.modify {f : σ → σ} {P' : σ → Prop} (ht : Stable R P')
    (h : ∀ s, I s → P s → G s (f s) ∧ P' (f s)) :
    (Thread.modify f : Thread σ ε Unit).Meets I R G P fun _ => P' :=
  Meets.await ht fun s hI hs _ => h s hI hs

/-- An action that waits, by what it leaves behind. -/
theorem Meets.atomicWhen {f : ε → σ → σ × α} (ht : ∀ a, Stable R (Q a))
    (h : ∀ e s, I s → P s → guard s → G s (f e s).1 ∧ Q (f e s).2 (f e s).1) :
    (Thread.atomicWhen guard f).Meets I R G P Q := by
  intro e s hI hs hgd
  obtain ⟨hG, hQ⟩ := h e s hI hs hgd
  exact ⟨hG, Q (f e s).2, ht _, hQ, fun _ _ hq => hq⟩

/-- An atomic action, by what it leaves behind. -/
theorem Meets.atomic {f : ε → σ → σ × α} (ht : ∀ a, Stable R (Q a))
    (h : ∀ e s, I s → P s → G s (f e s).1 ∧ Q (f e s).2 (f e s).1) :
    (Thread.atomic f).Meets I R G P Q := by
  intro e s hI hs _
  obtain ⟨hG, hQ⟩ := h e s hI hs
  exact ⟨hG, Q (f e s).2, ht _, hQ, fun _ _ hq => hq⟩

/-- Every action of a thread, wherever it starts. -/
def Always (G : σ → σ → Prop) : Thread σ ε α → Prop
  | done _ => True
  | act _ write next => ∀ e s, G s (write e s) ∧ Always G (next e s)

section
variable (h : t.Always G)
include h

theorem Always.keeps (hG : ∀ s s', I s → G s s' → G' s s') (hR : Stable R P)
    (hP : Stable G P) : t.Meets I R G' P fun _ => P := by
  induction t with
  | done a => exact fun _ _ hs => hs
  | act guard write next ih =>
    intro e s hI hs _
    exact ⟨hG _ _ hI (h e s).1, P, hR, hP _ _ hs (h e s).1, ih e s (h e s).2⟩

theorem Always.meets (hG : ∀ s s', I s → G s s' → G' s s') : t.Meets I R G' P fun _ _ => True :=
  (h.keeps hG (P := fun _ => True) (fun _ _ _ _ => trivial) fun _ _ _ _ => trivial).mono_pre
    fun _ _ _ => trivial

theorem Always.mono (hG : ∀ s s', G s s' → G' s s') : t.Always G' := by
  induction t with
  | done a => trivial
  | act guard write next ih => exact fun e s => ⟨hG _ _ (h e s).1, ih e s (h e s).2⟩

theorem Always.bind (hk : ∀ a, (k a).Always G) : (t.bind k).Always G := by
  induction t with
  | done a => exact hk a
  | act guard write next ih => exact fun e s => ⟨(h e s).1, ih e s (h e s).2⟩

end

theorem Always.atomic {f : ε → σ → σ × α} (h : ∀ e s, G s (f e s).1) : (atomic f).Always G :=
  fun e s => ⟨h e s, trivial⟩

end Thread

/-- Codes name the threads that may be started; each runs in its slot. -/
structure Machine (σ ε ι κ : Type) where
  init : σ → Prop
  slot : κ → ι
  code : κ → Thread σ ε Unit

namespace Machine
variable {σ ε ι κ : Type}

structure State (σ ε ι : Type) where
  memory : σ
  threads : ι → Thread σ ε Unit

inductive Move (ε ι κ : Type) where
  | start (k : κ)
  | run (i : ι) (e : ε)

variable [DecidableEq ι]

def next (m : Machine σ ε ι κ) (s : State σ ε ι) : Move ε ι κ → Option (State σ ε ι)
  | .start k =>
    match s.threads (m.slot k) with
    | .done _ => some { s with threads := Function.update s.threads (m.slot k) (m.code k) }
    | .act .. => none
  | .run i e =>
    match s.threads i with
    | .done _ => none
    | .act guard write next =>
      if guard s.memory then
        some ⟨write e s.memory, Function.update s.threads i (next e s.memory)⟩
      else none

/-- The interleavings all of whose moves meet a condition on the memory before. -/
def system (m : Machine σ ε ι κ) (C : σ → Move ε ι κ → Prop) :
    TransitionSystem (State σ ε ι) (Move ε ι κ) where
  init s := m.init s.memory ∧ s.threads = fun _ => .done ()
  step s a s' := C s.memory a ∧ m.next s a = some s'

theorem exists_reachable (m : Machine σ ε ι κ) (C : σ → Move ε ι κ → Prop)
    [∀ x a, Decidable (C x a)] (moves : List (Move ε ι κ)) (P : State σ ε ι → Prop)
    [DecidablePred P] {x : σ} (h : m.init x) (hu : (moves.foldlM (TransitionSystem.guardNext
      (fun s a => decide (C s.memory a)) m.next) ⟨x, fun _ => .done ()⟩).any
        (fun s => decide (P s)) = true) : ∃ s, (m.system C).Reachable s ∧ P s :=
  TransitionSystem.Reachable.exists_of_any moves P
    (fun _ _ _ hC hn => ⟨of_decide_eq_true hC, hn⟩) (.init ⟨h, rfl⟩) hu

/-- Rely and guarantee of every slot. -/
structure Spec (m : Machine σ ε ι κ) (C : σ → Move ε ι κ → Prop) where
  inv : σ → Prop
  rely : ι → σ → σ → Prop
  guar : ι → σ → σ → Prop
  idle : ι → σ → Prop
  init : ∀ s, m.init s → inv s ∧ ∀ i, idle i s
  stable_idle : ∀ i, Thread.Stable (rely i) (idle i)
  inv_step : ∀ i e s s', inv s → C s (.run i e) → guar i s s' → inv s'
  compatible : ∀ i j e s s', i ≠ j → inv s → C s (.run i e) → guar i s s' → rely j s s'
  meets : ∀ k, (m.code k).Meets inv (rely (m.slot k)) (guar (m.slot k)) (idle (m.slot k))
    fun _ => idle (m.slot k)

variable {m : Machine σ ε ι κ} {C : σ → Move ε ι κ → Prop} (spec : m.Spec C)

def Spec.Holds (s : State σ ε ι) : Prop :=
  spec.inv s.memory ∧ ∀ i, ∃ P, Thread.Stable (spec.rely i) P ∧ P s.memory ∧
    (s.threads i).Meets spec.inv (spec.rely i) (spec.guar i) P fun _ => spec.idle i

omit [DecidableEq ι] in
theorem Spec.holds_fresh {s : σ} (hiv : spec.inv s)
    (hi : ∀ i, spec.idle i s) : spec.Holds ⟨s, fun _ => .done ()⟩ :=
  ⟨hiv, fun i => ⟨spec.idle i, spec.stable_idle i, hi i, fun _ _ hs => hs⟩⟩

variable {s : State σ ε ι}

theorem Spec.holds_init (h : (m.system C).init s) : spec.Holds s := by
  obtain ⟨memory, threads⟩ := s
  obtain ⟨hi, ht⟩ := h
  obtain ⟨hiv, hd⟩ := spec.init memory hi
  obtain rfl : threads = fun _ => .done () := ht
  exact spec.holds_fresh hiv hd

theorem Spec.holds_start {k : κ} {u : Unit} (h : spec.Holds s)
    (hd : s.threads (m.slot k) = .done u) :
    spec.Holds { s with threads := Function.update s.threads (m.slot k) (m.code k) } := by
  refine ⟨h.1, fun i => ?_⟩
  by_cases hi : i = m.slot k
  · subst hi
    obtain ⟨P, -, hP, hm⟩ := h.2 (m.slot k)
    rw [hd] at hm
    have ha : spec.idle (m.slot k) s.memory := hm s.memory h.1 hP
    refine ⟨spec.idle (m.slot k), spec.stable_idle _, ha, ?_⟩
    simpa only [Function.update_self] using spec.meets k
  · simpa only [Function.update_of_ne hi] using h.2 i

theorem Spec.holds_run {i : ι} {e : ε} {guard : σ → Bool} {write : ε → σ → σ}
    {next : ε → σ → Thread σ ε Unit} (h : spec.Holds s) (ha : s.threads i = .act guard write next)
    (hgd : guard s.memory) (hC : C s.memory (.run i e)) :
    spec.Holds ⟨write e s.memory, Function.update s.threads i (next e s.memory)⟩ := by
  obtain ⟨hiv, ht⟩ := h
  obtain ⟨P, -, hP, hm⟩ := ht i
  rw [ha] at hm
  obtain ⟨hG, P', hb', hP', hn⟩ := hm e s.memory hiv hP hgd
  refine ⟨spec.inv_step i e _ _ hiv hC hG, fun j => ?_⟩
  by_cases hj : j = i
  · subst hj
    exact ⟨P', hb', hP', by simpa only [Function.update_self] using hn⟩
  -- The other threads rely on what this one guarantees.
  obtain ⟨Pj, hb, hPj, he⟩ := ht j
  have hr := spec.compatible i j e _ _ (Ne.symm hj) hiv hC hG
  refine ⟨Pj, hb, hb _ _ hPj hr, ?_⟩
  simpa only [Function.update_of_ne hj] using he

variable {s' : State σ ε ι} {a : Move ε ι κ}

theorem Spec.holds_step (hs : spec.Holds s) (hsp : (m.system C).step s a s') : spec.Holds s' := by
  obtain ⟨hC, hn⟩ := hsp
  cases a with
  | start k =>
    simp only [Machine.next] at hn
    split at hn
    · cases hn
      exact spec.holds_start hs ‹_›
    · cases hn
  | run i e =>
    simp only [Machine.next] at hn
    split at hn
    · cases hn
    split at hn
    · cases hn
      exact spec.holds_run hs ‹_› ‹_› hC
    · cases hn

theorem Spec.holds (h : (m.system C).Reachable s) : spec.Holds s :=
  h.invariant (fun _ => spec.holds_init) fun _ _ _ hs hsp => spec.holds_step hs hsp

theorem memory_of_start {k : κ} (hn : m.next s (.start k) = some s') : s'.memory = s.memory := by
  simp only [Machine.next] at hn
  split at hn
  · cases hn
    rfl
  · cases hn

theorem Spec.guar_of_run {i : ι} {e : ε} (h : spec.Holds s)
    (hn : m.next s (.run i e) = some s') : spec.guar i s.memory s'.memory := by
  simp only [Machine.next] at hn
  split at hn
  · cases hn
  case h_2 ha =>
    split at hn
    case isTrue hgd =>
      cases hn
      obtain ⟨P, -, hP, hm⟩ := h.2 i
      rw [ha] at hm
      exact (hm e s.memory h.1 hP hgd).1
    case isFalse => cases hn

theorem Spec.guar_of_step (h : spec.Holds s) (hsp : (m.system C).step s a s') :
    s'.memory = s.memory ∨ ∃ i e, C s.memory (.run i e) ∧ spec.guar i s.memory s'.memory := by
  obtain ⟨hC, hn⟩ := hsp
  cases a with
  | start k => exact .inl (memory_of_start hn)
  | run i e => exact .inr ⟨i, e, hC, spec.guar_of_run h hn⟩

/-- What every guarantee keeps, given the invariant. -/
theorem Spec.also_step {P : σ → Prop}
    (hsp : ∀ i e s s', spec.inv s → P s → C s (.run i e) → spec.guar i s s' → P s')
    (h : spec.Holds s) (hP : P s.memory) (hs : (m.system C).step s a s') : P s'.memory := by
  rcases spec.guar_of_step h hs with heq | ⟨i, e, hC, hguar⟩
  · rw [heq]
    exact hP
  · exact hsp i e _ _ h.1 hP hC hguar

theorem Spec.also {P : σ → Prop} (hi : ∀ s, m.init s → P s)
    (hsp : ∀ i e s s', spec.inv s → P s → C s (.run i e) → spec.guar i s s' → P s')
    (h : (m.system C).Reachable s) : P s.memory := by
  induction h with
  | init h => exact hi _ h.1
  | step h hs ih => exact spec.also_step hsp (spec.holds h) ih hs

omit [DecidableEq ι] in
/-- One slot keeps to more, and in return counts on more. -/
def Spec.strengthen (i : ι) (inv : σ → Prop) (rely guar : σ → σ → Prop)
    (init : ∀ s, m.init s → inv s)
    (step : ∀ j e s s', inv s → C s (.run j e) → spec.guar j s s' → (j = i → guar s s') → inv s')
    (compatible : ∀ j e s s', j ≠ i → C s (.run j e) → spec.guar j s s' → rely s s')
    (meets : ∀ k, m.slot k = i → (m.code k).Meets inv rely guar (fun _ => True) fun _ _ => True) :
    m.Spec C where
  inv s := spec.inv s ∧ inv s
  rely j s s' := spec.rely j s s' ∧ (j = i → rely s s')
  guar j s s' := spec.guar j s s' ∧ (j = i → guar s s')
  idle := spec.idle
  init s hs := ⟨⟨(spec.init s hs).1, init s hs⟩, (spec.init s hs).2⟩
  stable_idle j s s' hs hr := spec.stable_idle j s s' hs hr.1
  inv_step j e s s' hs hC hg :=
    ⟨spec.inv_step j e s s' hs.1 hC hg.1, step j e s s' hs.2 hC hg.1 hg.2⟩
  compatible j j' e s s' hj hs hC hg := by
    refine ⟨spec.compatible j j' e s s' hj hs.1 hC hg.1, ?_⟩
    rintro rfl
    exact compatible j e s s' hj hC hg.1
  meets k := by
    by_cases hk : m.slot k = i
    · refine ((((spec.meets k).and (meets k hk)).mono (fun _ h => h) (fun s s' hr => ?_)
        fun s s' hg => ?_).mono_pre fun _ _ hs => ⟨hs, trivial⟩).mono_post fun _ _ _ hs => hs.1
      · exact ⟨hr.1, hr.2 hk⟩
      · exact ⟨hg.1, fun _ => hg.2⟩
    · refine (spec.meets k).mono (fun _ h => h.1) (fun _ _ hr => hr.1) fun s s' hg => ?_
      exact ⟨hg, fun he => absurd he hk⟩

theorem Spec.inv_of_reachable (h : (m.system C).Reachable s) : spec.inv s.memory :=
  (spec.holds h).1

end Machine
