import Mathlib

/-!
# Walks in edge-labelled trees

When every node has one way up, a walk from the root is determined by its end.
-/

namespace Walk
variable {ν κ : Type} {child child' : ν → κ → Option ν}

/-- Follow the labels from a node. -/
def walk (child : ν → κ → Option ν) : ν → List κ → Option ν
  | n, [] => some n
  | n, k :: ks => (child n k).bind fun i => walk child i ks

variable {n i : ν} {ks : List κ}

theorem walk_cons {k : κ} :
    walk child n (k :: ks) = some i ↔ ∃ m, child n k = some m ∧ walk child m ks = some i := by
  simp [walk, Option.bind_eq_some_iff]

theorem walk_append {ls : List κ} : walk child n (ks ++ ls) = some i ↔
      ∃ m, walk child n ks = some m ∧ walk child m ls = some i := by
  induction ks generalizing n with
  | nil => simp [walk]
  | cons k ks ih =>
    rw [List.cons_append, walk_cons]
    constructor
    · rintro ⟨a, ha, hr⟩
      obtain ⟨m, hm, hi⟩ := ih.1 hr
      exact ⟨m, walk_cons.2 ⟨a, ha, hm⟩, hi⟩
    rintro ⟨m, hm, hi⟩
    obtain ⟨a, ha, hr⟩ := walk_cons.1 hm
    exact ⟨a, ha, ih.2 ⟨m, hr, hi⟩⟩

theorem walk_snoc {k : κ} :
    walk child n (ks ++ [k]) = some i ↔ ∃ p, walk child n ks = some p ∧ child p k = some i := by
  rw [walk_append]
  simp [walk]

theorem walk_keep (dead : ν → Prop)
    (hk : ∀ p k i, child p k = some i → ¬ dead i → child' p k = some i)
    (hl : ∀ p k i, child p k = some i → ¬ dead p) (h : walk child n ks = some i) (hi : ¬ dead i)
    : walk child' n ks = some i := by
  induction ks using List.reverseRecOn generalizing i with
  | nil => exact h
  | append_singleton ks k ih =>
    obtain ⟨p, hp, he⟩ := walk_snoc.1 h
    exact walk_snoc.2 ⟨p, ih hp (hl p k i he), hk p k i he hi⟩

theorem walk_mono (hk : ∀ p k i, child p k = some i → child' p k = some i)
    (h : walk child n ks = some i) : walk child' n ks = some i :=
  walk_keep (fun _ => False) (fun p k i he _ => hk p k i he) (fun _ _ _ _ => id) h id

structure Rooted (child : ν → κ → Option ν) (root : ν) : Prop where
  top : ∀ p k, child p k ≠ some root
  one : ∀ p k p' k' i, child p k = some i → child p' k' = some i → p = p' ∧ k = k'

namespace Rooted
variable {root : ν}

/-- A walk that ends at a child passes through its parent. -/
theorem snoc_of_child (h : Rooted child root) {p i : ν} {k : κ} {ks : List κ}
    (hw : walk child root ks = some i) (he : child p k = some i) :
    ∃ ls, ks = ls ++ [k] ∧ walk child root ls = some p := by
  induction ks using List.reverseRecOn with
  | nil =>
    cases hw
    exact absurd he (h.top p k)
  | append_singleton ls k' _ =>
    obtain ⟨p', hp', he'⟩ := walk_snoc.1 hw
    obtain ⟨rfl, rfl⟩ := h.one _ _ _ _ _ he he'
    exact ⟨ls, rfl, hp'⟩

/-- The end of a walk determines it. -/
theorem walk_injective (h : Rooted child root) {ks ls : List κ} {i : ν}
    (hk : walk child root ks = some i) (hl : walk child root ls = some i) : ks = ls := by
  induction ks using List.reverseRecOn generalizing ls i with
  | nil =>
    cases hk
    induction ls using List.reverseRecOn with
    | nil => rfl
    | append_singleton ls k _ =>
      obtain ⟨p, -, he⟩ := walk_snoc.1 hl
      exact absurd he (h.top p k)
  | append_singleton ks k ih =>
    obtain ⟨p, hp, he⟩ := walk_snoc.1 hk
    obtain ⟨ls', rfl, hp'⟩ := h.snoc_of_child hl he
    rw [ih hp hp']

end Rooted
end Walk
