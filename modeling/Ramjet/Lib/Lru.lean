import Mathlib

/-!
# Caches that forget what was used longest ago
-/

/-- Entries in the order of their last use, the latest first. -/
structure Lru (κ ν : Type) where
  capacity : Nat
  entries : List (κ × ν)

namespace Lru
open List
variable {κ ν : Type} [DecidableEq κ]

/-- A look that is not a use. -/
def peek (cache : Lru κ ν) (key : κ) : Option ν := cache.entries.lookup key

def get (cache : Lru κ ν) (key : κ) : Option ν × Lru κ ν :=
  match cache.entries.lookup key with
  | none => (none, cache)
  | some value =>
    (some value,
      { cache with entries := (key, value) :: cache.entries.eraseP fun entry => entry.1 = key })

def pop (cache : Lru κ ν) (key : κ) : Lru κ ν :=
  { cache with entries := cache.entries.filter fun entry => entry.1 ≠ key }

/-- A new key takes the place of what was pushed longest ago. -/
def push (cache : Lru κ ν) (key : κ) (value : ν) : Lru κ ν :=
  if (cache.peek key).isSome then
    { cache with entries := (key, value) :: (cache.pop key).entries }
  else { cache with entries := ((key, value) :: cache.entries).take cache.capacity }

def fits (cache : Lru κ ν) (value : ν) : List κ → Bool
  | [] => true
  | key :: rest =>
    ((cache.peek key).isSome || cache.entries.length < cache.capacity) &&
      (cache.push key value).fits value rest

def keys (cache : Lru κ ν) : List κ := cache.entries.map Prod.fst

variable {cache : Lru κ ν} {key x : κ} {value : ν}

theorem isSome_peek : (cache.peek key).isSome ↔ key ∈ cache.keys := by
  unfold peek keys
  induction cache.entries with
  | nil => simp
  | cons entry rest ih =>
    rw [lookup_cons, map_cons, mem_cons]
    by_cases hk : key = entry.1
    · simp [hk]
    · rw [beq_false_of_ne hk, or_iff_right hk]
      exact ih

theorem capacity_push : (cache.push key value).capacity = cache.capacity := by
  unfold push
  split <;> rfl

theorem keys_push : (cache.push key value).keys =
    if key ∈ cache.keys then key :: cache.keys.filter (· ≠ key)
    else (key :: cache.keys).take cache.capacity := by
  simp only [push, isSome_peek]
  split
  · simp [keys, pop, filter_map, Function.comp_def]
  · simp [keys, map_take]

theorem mem_keys_of_push (h : x ∈ (cache.push key value).keys) (hx : x ≠ key) :
    x ∈ cache.keys := by
  rw [keys_push] at h
  split at h
  · exact mem_of_mem_filter ((mem_cons.1 h).resolve_left hx)
  · exact (mem_cons.1 (mem_of_mem_take h)).resolve_left hx

/-- What was used last stays, while there is room for it. -/
theorem recent_push {recent : List κ} (h : recent <+: cache.keys) (hk : key ∉ recent)
    (hc : recent.length < cache.capacity) : key :: recent <+: (cache.push key value).keys := by
  rw [keys_push]
  split
  · have hf : recent.filter (· ≠ key) = recent :=
      filter_eq_self.2 fun x hx => decide_eq_true fun e => hk (e ▸ hx)
    rw [cons_prefix_cons, ← hf]
    exact ⟨rfl, h.filter _⟩
  · exact prefix_take_iff.2 ⟨cons_prefix_cons.2 ⟨rfl, h⟩, hc⟩

theorem peek_pop : (cache.pop key).peek x = if x = key then none else cache.peek x := by
  unfold peek pop
  induction cache.entries with
  | nil => simp
  | cons entry rest ih =>
    obtain ⟨k, v⟩ := entry
    by_cases hk : k = key
    · rw [filter_cons_of_neg (by simpa using hk), ih]
      by_cases hx : x = key
      · rw [if_pos hx, if_pos hx]
      · rw [if_neg hx, if_neg hx, lookup_cons, beq_false_of_ne (hk ▸ hx)]
    · rw [filter_cons_of_pos (by simpa using hk), lookup_cons, lookup_cons, ih]
      by_cases hx : x = key
      · rw [if_pos hx, if_pos hx, beq_false_of_ne fun h => hk (h.symm.trans hx)]
      · rw [if_neg hx, if_neg hx]

theorem peek_push (h : (cache.peek key).isSome ∨ cache.entries.length < cache.capacity) :
    (cache.push key value).peek x = if x = key then some value else cache.peek x := by
  unfold push
  split
  · have hp := @peek_pop _ _ _ cache key x
    by_cases hx : x = key
    · simp [peek, hx]
    · rw [if_neg hx] at hp ⊢
      rw [← hp, peek, peek, lookup_cons, beq_false_of_ne hx]
  next hn =>
    rw [peek, take_of_length_le (h.resolve_left hn), lookup_cons]
    by_cases hx : x = key
    · simp [hx]
    · rw [if_neg hx, beq_false_of_ne hx, peek]

theorem peek_foldl_push {keys : List κ} (h : cache.fits value keys) :
    (keys.foldl (fun cache key => cache.push key value) cache).peek x =
      if x ∈ keys then some value else cache.peek x := by
  induction keys generalizing cache with
  | nil => simp
  | cons key rest ih =>
    simp only [fits, Bool.and_eq_true, Bool.or_eq_true, decide_eq_true_eq] at h
    rw [foldl_cons, ih h.2, peek_push h.1]
    by_cases hr : x ∈ rest <;> by_cases hx : x = key <;> simp [hr, hx]

end Lru
