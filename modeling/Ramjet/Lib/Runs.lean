import Mathlib

/-!
# Runs of labelled transition systems

Invariants are proved once for the initial states and once for a step. Beside them what
steps are made of: fallible blocks, and a channel that keeps the last value.
-/

structure TransitionSystem (σ α : Type) where
  init : σ → Prop
  step : σ → α → σ → Prop

namespace TransitionSystem
open List
variable {σ α : Type}

inductive Reachable (M : TransitionSystem σ α) : σ → Prop
  | init {s : σ} (h : M.init s) : Reachable M s
  | step {s s' : σ} {a : α} (h : Reachable M s) (hsp : M.step s a s') : Reachable M s'

variable {M : TransitionSystem σ α} {s : σ} {P : σ → Prop} {actions : List α}
  {next : σ → α → Option σ} {a : Nat × α} {i : Nat} {l' : List σ} {C : σ → α → Bool}

theorem Reachable.invariant (hi : ∀ s, M.init s → P s)
    (hsp : ∀ s a s', P s → M.step s a s' → P s') (h : M.Reachable s) : P s := by
  induction h with
  | init h => exact hi _ h
  | step _ hs ih => exact hsp _ _ _ ih hs

variable {s' : σ}

/-- A run of a partial step function over a list of actions. -/
theorem Reachable.foldlM (hn : ∀ s a s', next s a = some s' → M.step s a s') (h : M.Reachable s)
    (hu : actions.foldlM next s = some s') : M.Reachable s' := by
  induction actions generalizing s with
  | nil =>
    cases hu
    exact h
  | cons action rest ih =>
    simp only [foldlM_cons, Option.bind_eq_bind, Option.bind_eq_some_iff] at hu
    obtain ⟨middle, hm, hr⟩ := hu
    exact ih (.step h (hn _ _ _ hm)) hr

/-- Finitely many steps, from any state. -/
inductive Steps (M : TransitionSystem σ α) (s : σ) : σ → Prop
  | refl : Steps M s s
  | tail {s' s'' : σ} {a : α} (h : Steps M s s') (hsp : M.step s' a s'') : Steps M s s''

theorem Reachable.steps (h : M.Reachable s) (ht : M.Steps s s') : M.Reachable s' := by
  induction ht with
  | refl => exact h
  | tail _ hs ih => exact .step ih hs

theorem Steps.trans {s'' : σ} (h : M.Steps s s') (h' : M.Steps s' s'') : M.Steps s s'' := by
  induction h' with
  | refl => exact h
  | tail _ hs ih => exact .tail ih hs

/-- States of a run that is looked at now and then. -/
theorem Steps.of_chain {view : Nat → σ} (h : ∀ k, M.Steps (view k) (view (k + 1))) {k l : Nat}
    (hk : k ≤ l) : M.Steps (view k) (view l) := by
  induction hk with
  | refl => exact .refl
  | step _ ih => exact ih.trans (h _)

theorem Steps.invariant (ht : M.Steps s s')
    (hsp : ∀ s a s', P s → M.step s a s' → P s') (h : P s) : P s' := by
  induction ht with
  | refl => exact h
  | tail _ hs ih => exact hsp _ _ _ ih hs

/-- A list of components, one of which moves at a time. -/
def pool (M : TransitionSystem σ α) : TransitionSystem (List σ) (Nat × α) where
  init l := ∀ s ∈ l, M.init s
  step l a l' := ∃ s s', l[a.1]? = some s ∧ M.step s a.2 s' ∧ l' = l.set a.1 s'

variable {l : List σ}

theorem pool_step_get (h : M.pool.step l a l')
    (hg : l[i]? = some s) : ∃ s', l'[i]? = some s' ∧ (s' = s ∨ ∃ b, M.step s b s') := by
  obtain ⟨t, t', ht, hsp, rfl⟩ := h
  by_cases hi : a.1 = i
  · subst hi
    rw [hg] at ht
    cases ht
    have hl := (List.getElem?_eq_some_iff.1 hg).1
    exact ⟨t', by rw [getElem?_set_self hl], .inr ⟨_, hsp⟩⟩
  · exact ⟨s, by rw [getElem?_set_ne hi, hg], .inl rfl⟩

/-- A run of the pool is a run of each component. -/
theorem pool_steps_get (h : M.pool.Steps l l') (hg : l[i]? = some s) :
    ∃ s', l'[i]? = some s' ∧ M.Steps s s' := by
  induction h with
  | refl => exact ⟨s, hg, .refl⟩
  | tail _ hsp ih =>
    obtain ⟨t, ht, hs⟩ := ih
    obtain ⟨t', ht', rfl | ⟨b, hb⟩⟩ := pool_step_get hsp ht
    · exact ⟨t', ht', hs⟩
    · exact ⟨t', ht', .tail hs hb⟩

theorem pool_step_length (h : M.pool.step l a l') : l'.length = l.length := by
  obtain ⟨t, t', -, -, rfl⟩ := h
  exact length_set

theorem pool_reachable_get (h : M.pool.Reachable l) (hg : l[i]? = some s) : M.Reachable s := by
  induction h generalizing s with
  | init hi => exact .init (hi s (mem_of_getElem? hg))
  | @step l l' a _ hsp ih =>
    have hl : i < l.length := by
      rw [← pool_step_length hsp]
      exact (List.getElem?_eq_some_iff.1 hg).1
    obtain ⟨s', hs', hm⟩ := pool_step_get hsp (getElem?_eq_getElem hl)
    rw [hg] at hs'
    cases hs'
    have hr := ih (getElem?_eq_getElem hl)
    rcases hm with heq | ⟨b, hb⟩
    · exact heq ▸ hr
    · exact .step hr hb

/-- The runs all of whose steps meet a condition. -/
def restrict (M : TransitionSystem σ α) (C : σ → α → Prop) : TransitionSystem σ α where
  init := M.init
  step s a s' := C s a ∧ M.step s a s'

theorem Reachable.of_restrict {C : σ → α → Prop} (h : (M.restrict C).Reachable s) :
    M.Reachable s := by
  induction h with
  | init h => exact .init h
  | step _ hs ih => exact .step ih hs.2

/-- A step function that refuses what does not meet a condition. -/
def guardNext (C : σ → α → Bool) (next : σ → α → Option σ) (s : σ) (a : α) : Option σ :=
  if C s a then next s a else none

theorem Reachable.foldlM_guard (hn : ∀ s a s', C s a → next s a = some s' → M.step s a s')
    (h : M.Reachable s) (hr : actions.foldlM (guardNext C next) s = some s') : M.Reachable s' := by
  refine h.foldlM (fun s a s' hsp => ?_) hr
  unfold guardNext at hsp
  split at hsp
  · exact hn s a s' ‹_› hsp
  · cases hsp

/-- A run that is computed, and what its last state shows. -/
theorem Reachable.exists_of_any (actions : List α) (P : σ → Prop) [DecidablePred P]
    (hn : ∀ s a s', C s a → next s a = some s' → M.step s a s') (h : M.Reachable s)
    (hu : (actions.foldlM (guardNext C next) s).any (fun s => decide (P s)) = true) :
    ∃ s, M.Reachable s ∧ P s := by
  obtain ⟨s', hs, hp⟩ := (Option.any_eq_true _ _).1 hu
  exact ⟨s', h.foldlM_guard hn hs, of_decide_eq_true hp⟩

theorem Reachable.foldlM_restrict (hn : ∀ s a s', next s a = some s' → M.step s a s')
    (h : (M.restrict fun s a => C s a).Reachable s)
    (hr : actions.foldlM (guardNext C next) s = some s') :
    (M.restrict fun s a => C s a).Reachable s' :=
  h.foldlM_guard (fun s a s' hC hs => ⟨hC, hn s a s' hs⟩) hr

end TransitionSystem

/-! How a block in `Except` succeeds: every check has passed, every binding has a value. -/

namespace Guards
variable {ε α β : Type} {a : α}

/-- A check that throws, then the rest of the block. -/
theorem of_guard {c : Prop} [Decidable c] {e : ε} {k : PUnit → Except ε α}
    (h : (if c then (throw e >>= k) else k ⟨⟩) = .ok a) : ¬ c ∧ k ⟨⟩ = .ok a := by
  split at h
  · cases h
  · exact ⟨‹_›, h⟩

theorem of_bind {x : Except ε β} {k : β → Except ε α} (h : (x >>= k) = .ok a) :
    ∃ b, x = .ok b ∧ k b = .ok a := by
  rcases x with e | b
  · cases h
  · exact ⟨b, rfl, h⟩

/-- A step that is taken only when its guard holds. -/
theorem of_ite_some {c : Prop} [Decidable c] {b : α}
    (h : (if c then some b else none) = some a) : c ∧ a = b := by
  split at h
  · exact ⟨‹_›, (Option.some.inj h).symm⟩
  · cases h

end Guards

structure Watch (ν : Type) where
  value : ν
  version : Nat
  seen : Nat

namespace Watch
variable {ν : Type} (channel : Watch ν)

def send (value : ν) : Watch ν :=
  { channel with value, version := channel.version + 1 }

def changed : Bool := channel.version ≠ channel.seen

def borrowAndUpdate : ν × Watch ν :=
  (channel.value, { channel with seen := channel.version })

/-- The receiver is never ahead of the sender. -/
def Sound : Prop := channel.seen ≤ channel.version

theorem Sound.send {channel : Watch ν} (h : channel.Sound) (value : ν) :
    (channel.send value).Sound := by
  show channel.seen ≤ channel.version + 1
  exact Nat.le_succ_of_le h

theorem Sound.borrowAndUpdate : channel.borrowAndUpdate.2.Sound :=
  Nat.le_refl _

theorem Sound.changed_send {channel : Watch ν} (h : channel.Sound) (value : ν) :
    (channel.send value).changed := by
  have hl : channel.seen < channel.version + 1 := Nat.lt_succ_of_le h
  exact decide_eq_true (Nat.ne_of_gt hl)

end Watch
