import Mathlib

/-!
# Slabs

A growable array of optional slots with a stack of vacant positions, reused before the
array grows.
-/

abbrev HashMap (κ ν : Type) := AList fun _ : κ => ν

namespace AList
open AList
variable {κ ν : Type} [DecidableEq κ]

theorem lookup_insert_eq (k a : κ) (v : ν) (m : HashMap κ ν) :
    (insert k v m).lookup a = if a = k then some v else m.lookup a := by
  by_cases h : a = k
  · subst h
    simp
  · simp [h, lookup_insert_ne h]

theorem lookup_erase_eq (k a : κ) (m : HashMap κ ν) :
    (m.erase k).lookup a = if a = k then none else m.lookup a := by
  by_cases h : a = k
  · subst h
    simp
  · simp [h, lookup_erase_ne h]

/-- Emptiness is visible through lookups alone. -/
theorem entries_isEmpty_iff (m : HashMap κ ν) : m.entries.isEmpty ↔ ∀ k, m.lookup k = none := by
  rw [List.isEmpty_iff]
  constructor
  · intro h k
    rw [lookup_eq_none, mem_keys]
    simp [keys, h]
  intro h
  rcases hm : m.entries with _ | ⟨e, rest⟩
  · rfl
  have he := h e.1
  rw [lookup_eq_none, mem_keys] at he
  simp [keys, hm] at he

end AList

structure Slab (α : Type) where
  slots : List (Option α)
  free : List Nat

namespace Slab
variable {α : Type} (a : α)

def singleton : Slab α := ⟨[some a], []⟩

def get? (s : Slab α) (i : Nat) : Option α := s.slots[i]?.join

def modify (s : Slab α) (i : Nat) (f : α → α) : Slab α :=
  { s with slots := s.slots.modify i (Option.map f) }

/-- Vacate a slot and remember its position. -/
def release (s : Slab α) (i : Nat) : Slab α :=
  { slots := s.slots.set i none, free := i :: s.free }

/-- Fill the most recently vacated slot, or grow. -/
def alloc (s : Slab α) (a : α) : Nat × Slab α :=
  match s.free with
  | i :: rest => (i, { slots := s.slots.set i (some a), free := rest })
  | [] => (s.slots.length, { s with slots := s.slots ++ [some a] })

/-- The free stack lists exactly the vacant positions, each once. -/
structure Wf (s : Slab α) : Prop where
  nodup : s.free.Nodup
  vacant : ∀ i, i ∈ s.free ↔ i < s.slots.length ∧ s.get? i = none

def Live (s : Slab α) (i : Nat) : Prop := (s.get? i).isSome

variable {s : Slab α} {i : Nat}

theorem live_iff : s.Live i ↔ ∃ a, s.get? i = some a :=
  Option.isSome_iff_exists

theorem get?_lt {a : α} (h : s.get? i = some a) : i < s.slots.length := by
  by_contra hn
  simp [get?, List.getElem?_eq_none (Nat.le_of_not_lt hn)] at h

@[simp] theorem get?_singleton (i : Nat) :
    (singleton a).get? i = if i = 0 then some a else none := by
  cases i <;> simp [singleton, get?]

@[simp] theorem get?_modify (s : Slab α) (i j : Nat) (f : α → α) :
    (s.modify i f).get? j = if i = j then (s.get? j).map f else s.get? j := by
  simp only [get?, modify, List.getElem?_modify]
  by_cases h : i = j
  · simp only [h, if_true]
    rcases s.slots[j]? with _ | _ | a <;> rfl
  · simp [h]

theorem modify_congr {f g : α → α} (h : ∀ a, s.get? i = some a → f a = g a) :
    s.modify i f = s.modify i g := by
  have hl : s.slots.modify i (Option.map f) = s.slots.modify i (Option.map g) := by
    apply List.ext_getElem?
    intro j
    rw [List.getElem?_modify, List.getElem?_modify]
    by_cases hj : i = j
    · subst hj
      simp only [get?] at h
      rcases hs : s.slots[i]? with _ | _ | a
      · rfl
      · rfl
      · simp [h a (by simp [hs])]
    · simp [hj]
  simp only [modify, hl]

theorem get?_release (s : Slab α) (i j : Nat) :
    (s.release i).get? j = if i = j then none else s.get? j := by
  simp only [get?, release, List.getElem?_set]
  by_cases h : i = j
  · subst h
    by_cases hl : i < s.slots.length <;> simp [hl]
  · simp [h]

@[simp] theorem free_modify (s : Slab α) (i : Nat) (f : α → α) : (s.modify i f).free = s.free := rfl

@[simp] theorem length_modify (s : Slab α) (i : Nat) (f : α → α) :
    (s.modify i f).slots.length = s.slots.length := by
  simp [modify]

@[simp] theorem length_release (s : Slab α) (i : Nat) :
    (s.release i).slots.length = s.slots.length := by
  simp [release]

theorem singleton_wf : (singleton a).Wf where
  nodup := List.nodup_nil
  vacant i := by
    cases i <;> simp [singleton, get?]

theorem modify_wf (h : s.Wf) (i : Nat) (f : α → α) : (s.modify i f).Wf where
  nodup := h.nodup
  vacant j := by
    rw [free_modify, length_modify, h.vacant, get?_modify]
    split <;> simp

theorem release_wf (h : s.Wf) (hi : s.Live i) : (s.release i).Wf where
  nodup := by
    refine List.nodup_cons.2 ⟨?_, h.nodup⟩
    intro hm
    have hn := ((h.vacant i).1 hm).2
    simp [Live, hn] at hi
  vacant j := by
    obtain ⟨a, ha⟩ := live_iff.1 hi
    have hl := get?_lt ha
    rw [length_release, get?_release]
    by_cases hj : i = j
    · subst hj
      simp [release, hl]
    · have hj' : j ≠ i := fun e => hj e.symm
      simp [release, hj, hj', h.vacant j]

/-- A position handed out by `alloc` was not in use. -/
theorem alloc_fresh (h : s.Wf) (a : α) : s.get? (s.alloc a).1 = none := by
  rcases hf : s.free with _ | ⟨i, rest⟩
  · simp [alloc, hf, get?]
  · simpa [alloc, hf] using ((h.vacant i).1 (by simp [hf])).2

theorem get?_alloc (h : s.Wf) (a : α) (j : Nat) :
    (s.alloc a).2.get? j = if (s.alloc a).1 = j then some a else s.get? j := by
  rcases hf : s.free with _ | ⟨i, rest⟩
  · simp only [alloc, hf, get?, List.getElem?_append]
    rcases Nat.lt_trichotomy j s.slots.length with hj | hj | hj
    · have h2 : s.slots.length ≠ j := by omega
      simp [hj, h2]
    · simp [hj]
    · have h1 : ¬ j < s.slots.length := by omega
      have h2 : s.slots.length ≠ j := by omega
      have h3 : j - s.slots.length ≠ 0 := by omega
      obtain ⟨m, hm⟩ := Nat.exists_eq_succ_of_ne_zero h3
      simp [h1, h2, hm]
  · have hi := ((h.vacant i).1 (by simp [hf])).1
    simp only [alloc, hf, get?, List.getElem?_set]
    by_cases hj : i = j
    · subst hj
      simp [hi]
    · simp [hj]

/-- Without vacant positions a slab grows by one. -/
theorem alloc_of_free_nil (h : s.free = []) (a : α) :
    (s.alloc a).1 = s.slots.length ∧ (s.alloc a).2.free = [] ∧
      (s.alloc a).2.slots.length = s.slots.length + 1 := by
  simp [alloc, h]

theorem alloc_wf (h : s.Wf) (a : α) : (s.alloc a).2.Wf := by
  have hg := get?_alloc h a
  rcases hf : s.free with _ | ⟨i, rest⟩
  · refine ⟨by simp [alloc, hf], fun j => ?_⟩
    rw [hg]
    have hv := h.vacant j
    simp only [hf, List.not_mem_nil, false_iff, not_and] at hv
    simp only [alloc, hf, List.not_mem_nil, List.length_append, List.length_singleton, false_iff,
      not_and]
    intro hj
    split
    · simp
    · exact hv (by omega)
  · have hn := h.nodup
    rw [hf, List.nodup_cons] at hn
    refine ⟨by simpa [alloc, hf] using hn.2, fun j => ?_⟩
    rw [hg]
    have hv := h.vacant j
    rw [hf, List.mem_cons] at hv
    simp only [alloc, hf, List.length_set]
    by_cases hj : i = j
    · subst hj
      simp [hn.1]
    · have hj' : j ≠ i := fun e => hj e.symm
      simpa [hj, hj'] using hv

section Total
variable (f : α → Nat)

def total (s : Slab α) : Nat := ∑ i ∈ Finset.range s.slots.length, (s.get? i).elim 0 f

theorem total_eq_sum_range (s : Slab α) {n : Nat} (hn : s.slots.length ≤ n) :
    s.total f = ∑ i ∈ Finset.range n, (s.get? i).elim 0 f := by
  apply Finset.sum_subset (Finset.range_subset_range.2 hn)
  intro i _ hi
  rw [Finset.mem_range, not_lt] at hi
  simp [get?, List.getElem?_eq_none hi]

variable {s : Slab α} {i : Nat}

theorem total_update {t : Slab α} (h : ∀ j, j ≠ i → t.get? j = s.get? j) :
    t.total f + (s.get? i).elim 0 f = s.total f + (t.get? i).elim 0 f := by
  have hn : s.slots.length ≤ s.slots.length + t.slots.length + (i + 1) := by omega
  have hn' : t.slots.length ≤ s.slots.length + t.slots.length + (i + 1) := by omega
  have hi : i ∈ Finset.range (s.slots.length + t.slots.length + (i + 1)) :=
    Finset.mem_range.2 (by omega)
  rw [total_eq_sum_range f s hn, total_eq_sum_range f t hn',
    ← Finset.add_sum_erase _ (fun j => (s.get? j).elim 0 f) hi,
    ← Finset.add_sum_erase _ (fun j => (t.get? j).elim 0 f) hi]
  have hr : ∀ j ∈ (Finset.range (s.slots.length + t.slots.length + (i + 1))).erase i,
      (t.get? j).elim 0 f = (s.get? j).elim 0 f := by
    intro j hj
    rw [h j (Finset.mem_erase.1 hj).1]
  rw [Finset.sum_congr rfl hr]
  omega

theorem total_singleton (a : α) : (singleton a).total f = f a := by
  simp [total, singleton, get?]

theorem total_modify {g : α → α} (h : ∀ a, s.get? i = some a → f (g a) = f a) :
    (s.modify i g).total f = s.total f := by
  have hu := total_update f (s := s) (t := s.modify i g) (i := i) (by
    intro j hj
    rw [get?_modify, if_neg (Ne.symm hj)])
  rw [get?_modify, if_pos rfl] at hu
  rcases ha : s.get? i with _ | a
  · simpa [ha] using hu
  have := h a ha
  simp only [ha, Option.map_some, Option.elim_some] at hu
  omega

theorem total_release {a : α} (h : s.get? i = some a) :
    (s.release i).total f + f a = s.total f := by
  have hu := total_update f (s := s) (t := s.release i) (i := i) (by
    intro j hj
    rw [get?_release, if_neg (Ne.symm hj)])
  simpa [get?_release, h] using hu

theorem le_total {a : α} (h : s.get? i = some a) : f a ≤ s.total f := by
  have := total_release f h
  omega

theorem total_one_le_length (s : Slab α) : (s.total fun _ => 1) ≤ s.slots.length := by
  have ho : ∀ i ∈ Finset.range s.slots.length, (s.get? i).elim 0 (fun _ => 1) ≤ 1 := by
    intro i _
    rcases s.get? i with _ | a <;> simp
  exact (Finset.sum_le_card_nsmul _ _ 1 ho).trans (by simp)

theorem total_alloc (h : s.Wf) (a : α) : (s.alloc a).2.total f = s.total f + f a := by
  have hu := total_update f (s := s) (t := (s.alloc a).2) (i := (s.alloc a).1) (by
    intro j hj
    rw [get?_alloc h, if_neg (Ne.symm hj)])
  simpa [get?_alloc h, alloc_fresh h] using hu

theorem get?_elim_eq_zero (hi : ¬ s.Live i) : (s.get? i).elim 0 f = 0 := by
  rcases ha : s.get? i with _ | a
  · rfl
  · exact absurd (live_iff.2 ⟨a, ha⟩) hi

/-- Positions that are not in use add nothing. -/
theorem sum_union_eq_total (s : Slab α) (ids : Finset Nat) :
    ∑ i ∈ ids ∪ Finset.range s.slots.length, (s.get? i).elim 0 f = s.total f := by
  symm
  apply Finset.sum_subset Finset.subset_union_right
  intro i _ hi
  apply get?_elim_eq_zero
  intro h
  obtain ⟨a, ha⟩ := live_iff.1 h
  exact hi (Finset.mem_range.2 (get?_lt ha))

variable {ids : List Nat}

/-- Distinct positions add up to no more than the total. -/
theorem sum_map_le_total (hn : ids.Nodup) :
    (ids.map fun i => (s.get? i).elim 0 f).sum ≤ s.total f := by
  calc (ids.map fun i => (s.get? i).elim 0 f).sum
      = ∑ i ∈ ids.toFinset, (s.get? i).elim 0 f := (List.sum_toFinset _ hn).symm
    _ ≤ ∑ i ∈ ids.toFinset ∪ Finset.range s.slots.length, (s.get? i).elim 0 f :=
        Finset.sum_le_sum_of_subset Finset.subset_union_left
    _ = s.total f := sum_union_eq_total f s _

theorem sum_ones (hl : ∀ i ∈ ids, s.Live i) :
    (ids.map fun i => (s.get? i).elim 0 fun _ => 1).sum = ids.length := by
  have ho : ids.map (fun i => (s.get? i).elim 0 fun _ => 1) = ids.map fun _ => 1 := by
    apply List.map_congr_left
    intro i hi
    obtain ⟨a, ha⟩ := live_iff.1 (hl i hi)
    simp [ha]
  rw [ho]
  simp

theorem length_le_total_one (hn : ids.Nodup) (hl : ∀ i ∈ ids, s.Live i) :
    ids.length ≤ s.total fun _ => 1 := by
  rw [← sum_ones hl]
  exact sum_map_le_total (fun _ => 1) hn

/-- The total from a list of the positions in use. -/
theorem sum_map_eq_total (hn : ids.Nodup) (hl : ∀ i, s.Live i → i ∈ ids) :
    (ids.map fun i => (s.get? i).elim 0 f).sum = s.total f := by
  calc (ids.map fun i => (s.get? i).elim 0 f).sum
      = ∑ i ∈ ids.toFinset, (s.get? i).elim 0 f := (List.sum_toFinset _ hn).symm
    _ = ∑ i ∈ ids.toFinset ∪ Finset.range s.slots.length, (s.get? i).elim 0 f := by
        apply Finset.sum_subset Finset.subset_union_left
        intro i _ hi
        exact get?_elim_eq_zero f fun h => hi (List.mem_toFinset.2 (hl i h))
    _ = s.total f := sum_union_eq_total f s _

end Total

variable {β : Type} {R : α → β → Prop} {s : Slab α} {t : Slab β}

/-- Two slabs with the same positions in use and related contents. -/
structure Rel (R : α → β → Prop) (s : Slab α) (t : Slab β) : Prop where
  free : s.free = t.free
  length : s.slots.length = t.slots.length
  get : ∀ i, Option.Rel R (s.get? i) (t.get? i)

theorem Rel.singleton {a : α} {b : β} (h : R a b) : Rel R (singleton a) (singleton b) where
  free := rfl
  length := rfl
  get i := by
    rw [get?_singleton, get?_singleton]
    split
    · exact .some h
    · exact .none

section
variable (h : Rel R s t)
include h

theorem Rel.getD {a : α} {b : β} (ha : R a b) (i : Nat) :
    R ((s.get? i).getD a) ((t.get? i).getD b) := by
  have hi := h.get i
  revert hi
  generalize s.get? i = x
  generalize t.get? i = y
  rintro (⟨h⟩ | -)
  · assumption
  · exact ha

theorem Rel.modify {f : α → α} {g : β → β}
    (hf : ∀ a b, s.get? i = some a → t.get? i = some b → R a b → R (f a) (g b)) :
    Rel R (s.modify i f) (t.modify i g) where
  free := h.free
  length := by simpa using h.length
  get j := by
    rw [get?_modify, get?_modify]
    by_cases hj : i = j
    · subst hj
      simp only [if_true]
      have hi := h.get i
      revert hi
      rcases hs : s.get? i with _ | a <;> rcases ht : t.get? i with _ | b <;> intro hi <;>
        cases hi
      · exact .none
      next ha =>
        exact .some (hf a b hs ht ha)
    · simpa [hj] using h.get j

theorem Rel.release (i : Nat) : Rel R (s.release i) (t.release i) where
  free := by simp [Slab.release, h.free]
  length := by simpa using h.length
  get j := by
    rw [get?_release, get?_release]
    split
    · exact .none
    · exact h.get j

theorem Rel.alloc {a : α} {b : β} (ha : R a b) :
    (s.alloc a).1 = (t.alloc b).1 ∧ Rel R (s.alloc a).2 (t.alloc b).2 := by
  have hf := h.free
  have hl := h.length
  rcases hs : s.free with _ | ⟨i, rest⟩ <;> rw [hs] at hf
  · refine ⟨by simp [Slab.alloc, hs, ← hf, hl], by simp [Slab.alloc, hs, ← hf],
      by simp [Slab.alloc, hs, ← hf, hl], fun j => ?_⟩
    have hj := h.get j
    simp only [Slab.alloc, hs, ← hf, get?, List.getElem?_append, hl] at hj ⊢
    split
    · exact hj
    rcases j - t.slots.length with _ | n
    · exact .some ha
    · exact .none
  · refine ⟨by simp [Slab.alloc, hs, ← hf], by simp [Slab.alloc, hs, ← hf],
      by simp [Slab.alloc, hs, ← hf, hl], fun j => ?_⟩
    have hj := h.get j
    simp only [Slab.alloc, hs, ← hf, get?, List.getElem?_set, hl] at hj ⊢
    split
    · split
      · exact .some ha
      · exact .none
    · exact hj

end
end Slab
