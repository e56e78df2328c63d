import Mathlib

/-!
# Machine-view series

`Store::query` of `machineview.rs` merges the samples of a range into buckets of one width.
-/

namespace Ramjet.MachineView
open List

def maxSeriesPoints : Nat := 2000

structure Merging (α : Type) where
  merged : List α
  bucket : List α
  bucketIndex : Option Nat

structure SeriesQuery where
  nowMs : Nat
  rangeSeconds : Nat
  points : Nat

variable {α : Type} (merge : List α → α) (index t : α → Nat) (q : SeriesQuery) (samples : List α)

def Merging.push (m : Merging α) (sample : α) : Merging α :=
  if m.bucketIndex ≠ some (index sample) ∧ m.bucket ≠ [] then
    ⟨m.merged ++ [merge m.bucket], [sample], some (index sample)⟩
  else ⟨m.merged, m.bucket ++ [sample], some (index sample)⟩

def Merging.finish (m : Merging α) : List α :=
  if m.bucket ≠ [] then m.merged ++ [merge m.bucket] else m.merged

namespace SeriesQuery

def rangeMs : Nat := min (q.rangeSeconds * 1000) (2 ^ 64 - 1)

def start : Nat := q.nowMs - q.rangeMs

def selected : List α := samples.filter fun sample => q.start ≤ t sample

def clampedPoints : Nat := max 1 (min q.points maxSeriesPoints)

def bucketMs : Nat := max (max q.rangeMs 1 / q.clampedPoints) 1

def bucketOf (sample : α) : Nat := (t sample - q.start) / q.bucketMs

def query : List α :=
  let selected := q.selected t samples
  if selected.length ≤ q.clampedPoints then selected
  else (selected.foldl (Merging.push merge (q.bucketOf t)) ⟨[], [], none⟩).finish merge

end SeriesQuery

def bucketChanges : List α → Nat
  | sample :: next :: rest =>
    (if index sample = index next then 0 else 1) + bucketChanges (next :: rest)
  | _ => 0

/-- Groups of neighbours, one for each point. -/
structure Aggregates (selected result : List α) (groups : List (List α)) : Prop where
  flatten : groups.flatten = selected
  nonempty : ∀ group ∈ groups, group ≠ []
  points : result.Forall₂ (fun point group => group = [point] ∨ point = merge group) groups

theorem Merging.foldl_push (groups : List (List α)) (hg : ∀ group ∈ groups, group ≠ [])
    (front : List α) (last : α) (rest : List α) :
    ∃ all : List (List α), (rest.foldl (push merge index)
        ⟨groups.map merge, front ++ [last], some (index last)⟩).finish merge = all.map merge ∧
      all.flatten = groups.flatten ++ front ++ last :: rest ∧ (∀ group ∈ all, group ≠ []) ∧
      all.length = groups.length + 1 + bucketChanges index (last :: rest) := by
  induction rest generalizing groups front last with
  | nil =>
    refine ⟨groups ++ [front ++ [last]], by simp [finish], by simp, ?_, by simp [bucketChanges]⟩
    simpa [or_imp, forall_and] using hg
  | cons next rest ih =>
    rw [foldl_cons, push]
    by_cases hi : index last = index next
    · rw [if_neg (by simp [hi])]
      obtain ⟨all, hm, hf, hn, hl⟩ := ih groups hg (front ++ [last]) next
      exact ⟨all, hm, by simpa using hf, hn, by simpa [bucketChanges, hi] using hl⟩
    · rw [if_pos (by simpa using hi)]
      obtain ⟨all, hm, hf, hn, hl⟩ := ih (groups ++ [front ++ [last]])
        (by simpa [or_imp, forall_and] using hg) [] next
      refine ⟨all, by simpa using hm, by simpa using hf, hn, ?_⟩
      rw [hl, bucketChanges, if_neg hi, length_append, length_singleton]
      omega

/-- Buckets that only go up change less often than there are buckets. -/
theorem bucketChanges_lt {bound : Nat} {first : α} {rest : List α}
    (hs : (first :: rest).Pairwise fun a b => index a ≤ index b)
    (hb : ∀ sample ∈ first :: rest, index sample < bound) :
    index first + bucketChanges index (first :: rest) < bound := by
  induction rest generalizing first with
  | nil => exact hb first mem_cons_self
  | cons next rest ih =>
    obtain ⟨hf, hs⟩ := pairwise_cons.1 hs
    have hle := hf next mem_cons_self
    have hi := ih hs fun sample hm => hb sample (mem_cons_of_mem _ hm)
    rw [bucketChanges]
    split <;> omega

variable {q t} in
theorem bucketOf_lt {sample : α} (h : t sample < q.start + q.clampedPoints * q.bucketMs) :
    q.bucketOf t sample < q.clampedPoints := by
  apply Nat.div_lt_of_lt_mul
  have hp : 0 < q.clampedPoints := Nat.lt_of_lt_of_le Nat.one_pos (le_max_left ..)
  have hw : 0 < q.bucketMs := Nat.lt_of_lt_of_le Nat.one_pos (le_max_right ..)
  have hpos := Nat.mul_pos hp hw
  rw [Nat.mul_comm]
  omega

end Ramjet.MachineView
