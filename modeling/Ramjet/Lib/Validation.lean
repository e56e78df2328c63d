import Ramjet.Lib.Runs

/-!
# Validated reads

A reader without a lock compares markers. If a marker that is gone never comes back, two
equal ones enclose an interval in which nothing was written.
-/

namespace TransitionSystem
variable {σ α μ γ : Type}

structure Validates (M : TransitionSystem σ α) (marker : σ → Option μ) (content : σ → γ)
    (Over : μ → σ → Prop) : Prop where
  hold : ∀ {s s' : σ} {a : α} {m : μ}, M.Reachable s → M.step s a s' → marker s = some m →
    (marker s' = some m ∧ content s' = content s) ∨ Over m s'
  stays_over : ∀ {s s' : σ} {a : α} {m : μ}, M.Reachable s → M.step s a s' → Over m s → Over m s'

variable {M : TransitionSystem σ α} {marker : σ → Option μ} {content : σ → γ}
  {Over : μ → σ → Prop} {s mid s' : σ} {m : μ}

section
variable (h : M.Validates marker content Over)
include h

theorem Validates.stays_over_of_steps (hs : M.Reachable s)
    (ht : M.Steps s s') (ho : Over m s) : Over m s' := by
  induction ht with
  | refl => exact ho
  | tail hp hsp ih => exact h.stays_over (hs.steps hp) hsp ih

theorem Validates.hold_of_steps (hs : M.Reachable s) (ht : M.Steps s s') (hk : marker s = some m) :
    (marker s' = some m ∧ content s' = content s) ∨ Over m s' := by
  induction ht with
  | refl => exact .inl ⟨hk, rfl⟩
  | tail hp hsp ih =>
    rcases ih with ⟨hm, hc⟩ | ho
    · rcases h.hold (hs.steps hp) hsp hm with ⟨hm', hc'⟩ | ho
      · exact .inl ⟨hm', hc'.trans hc⟩
      · exact .inr ho
    · exact .inr (h.stays_over (hs.steps hp) hsp ho)

theorem Validates.between (hs : M.Reachable s)
    (hf : M.Steps s mid) (he : M.Steps mid s') (hm : marker s = some m)
    (hl : ¬ Over m s') : marker mid = some m ∧ content mid = content s := by
  rcases h.hold_of_steps hs hf hm with hk | ho
  · exact hk
  · exact absurd (h.stays_over_of_steps (hs.steps hf) he ho) hl

end
end TransitionSystem
