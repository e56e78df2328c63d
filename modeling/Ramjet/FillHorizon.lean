import Mathlib

/-!
# Fill horizon

A replica's newest writes that fill its KV cache, and the age of the oldest
(`affinity_horizon.rs`).
-/

namespace Ramjet
open List

def maxFillSamples : Nat := 65536

/-- Samples are instants with the tokens written, the oldest first. -/
structure FillHorizon where
  capacityTokens : { capacity : Nat // 0 < capacity }
  samples : List (Nat × Nat)
  total : Nat

namespace FillHorizon

def new (capacityTokens : { capacity : Nat // 0 < capacity }) : FillHorizon :=
  ⟨capacityTokens, [], 0⟩

/-- Drops the oldest samples while the others fill the capacity. -/
def popFull (capacity : Nat) : List (Nat × Nat) → Nat → List (Nat × Nat) × Nat
  | [], total => ([], total)
  | front :: rest, total =>
    if capacity ≤ total - front.2 then popFull capacity rest (total - front.2)
    else (front :: rest, total)

def coalesce (front : Nat × Nat) : List (Nat × Nat) → List (Nat × Nat)
  | [] => [front]
  | next :: rest =>
    if maxFillSamples < rest.length + 2 then coalesce (next.1, next.2 + front.2) rest
    else front :: next :: rest

/-- The first loop of `record`. -/
def fill (h : FillHorizon) (tokens now : Nat) : FillHorizon :=
  let kept := popFull h.capacityTokens (h.samples ++ [(now, tokens)]) (h.total + tokens)
  { h with samples := kept.1, total := kept.2 }

-- the source adds with saturation: the same, while the sums are below 2 ^ 64
def record (h : FillHorizon) (tokens now : Nat) : FillHorizon :=
  if tokens = 0 then h
  else
    let filled := h.fill tokens now
    { filled with samples := match filled.samples with
      | [] => []
      | front :: rest => coalesce front rest }

def horizon (h : FillHorizon) (now : Nat) : Option Nat :=
  if h.total < h.capacityTokens then none else h.samples.head?.map fun front => now - front.1

def tokens (calls : List (Nat × Nat)) : Nat := (calls.map Prod.snd).sum

/-- A call and the older ones that were merged onto it. -/
structure Merged where
  older : List (Nat × Nat)
  newest : Nat × Nat

def Merged.calls (g : Merged) : List (Nat × Nat) := g.older ++ [g.newest]

def Merged.sample (g : Merged) : Nat × Nat := (g.newest.1, tokens g.calls)

structure Tracks (capacity : Nat) (calls dropped : List (Nat × Nat)) (groups : List Merged)
    (samples : List (Nat × Nat)) (total : Nat) : Prop where
  split : calls = dropped ++ groups.flatMap Merged.calls
  stand : samples = groups.map Merged.sample
  sum : total = tokens (groups.flatMap Merged.calls)
  full : dropped ≠ [] → capacity ≤ total

variable {calls dropped samples : List (Nat × Nat)} {groups : List Merged} {total capacity : Nat}

theorem tokens_append (l l' : List (Nat × Nat)) : tokens (l ++ l') = tokens l + tokens l' := by
  simp [tokens]

theorem tokens_drop_le {i j : Nat} (h : i ≤ j) : tokens (calls.drop j) ≤ tokens (calls.drop i) := by
  have hs := take_append_drop (j - i) (calls.drop i)
  rw [drop_drop, Nat.add_sub_cancel' h] at hs
  rw [← hs, tokens_append]
  exact Nat.le_add_left _ _

theorem Tracks.popFull (h : Tracks capacity calls dropped groups samples total)
    (hc : 0 < capacity) : ∃ dropped' groups', groups' <:+ groups ∧
      Tracks capacity calls dropped' groups' (popFull capacity samples total).1
        (FillHorizon.popFull capacity samples total).2 ∧
      tokens (groups'.tail.flatMap Merged.calls) < capacity := by
  induction groups generalizing dropped samples total with
  | nil =>
    obtain rfl := h.stand
    exact ⟨dropped, [], suffix_rfl, h, hc⟩
  | cons g rest ih =>
    obtain rfl := h.stand
    have ht := h.sum
    rw [flatMap_cons, tokens_append] at ht
    rw [map_cons, FillHorizon.popFull]
    have hr : total - g.sample.2 = tokens (rest.flatMap Merged.calls) := by
      rw [ht, Merged.sample, Nat.add_sub_cancel_left]
    split
    next hl =>
      have hp : Tracks capacity calls (dropped ++ g.calls) rest (rest.map Merged.sample)
          (total - g.sample.2) :=
        ⟨by rw [h.split, flatMap_cons, append_assoc], rfl, hr, fun _ => hl⟩
      obtain ⟨dropped', groups', hs, ha, hm⟩ := ih hp
      exact ⟨dropped', groups', hs.trans (suffix_cons g rest), ha, hm⟩
    · exact ⟨dropped, g :: rest, suffix_rfl, h, by rw [tail_cons, ← hr]; omega⟩

theorem Tracks.coalesce {g : Merged} {rest : List Merged}
    (h : Tracks capacity calls dropped (g :: rest) samples total)
    (hm : tokens (rest.flatMap Merged.calls) < capacity) :
    ∃ groups', Tracks capacity calls dropped groups' (coalesce g.sample (rest.map Merged.sample))
        total ∧ tokens (groups'.tail.flatMap Merged.calls) < capacity ∧
      (rest.length < maxFillSamples → groups' = g :: rest) := by
  obtain rfl := h.stand
  induction rest generalizing g with
  | nil => exact ⟨[g], h, hm, fun _ => rfl⟩
  | cons next rest ih =>
    rw [map_cons, FillHorizon.coalesce, length_map]
    split
    next hl =>
      have hj : (Merged.mk (g.calls ++ next.older) next.newest).calls = g.calls ++ next.calls :=
        append_assoc ..
      have ho : (next.sample.1, next.sample.2 + g.sample.2) =
          (Merged.mk (g.calls ++ next.older) next.newest).sample := by
        rw [Merged.sample, Merged.sample, Merged.sample, hj, tokens_append, Nat.add_comm]
      rw [ho]
      have hf : (g :: next :: rest).flatMap Merged.calls =
          (Merged.mk (g.calls ++ next.older) next.newest :: rest).flatMap Merged.calls := by
        rw [flatMap_cons, flatMap_cons, flatMap_cons, hj, append_assoc]
      rw [flatMap_cons, tokens_append] at hm
      obtain ⟨groups', ht, hm', -⟩ := ih (g := ⟨g.calls ++ next.older, next.newest⟩)
        (by omega) ⟨hf ▸ h.split, rfl, hf ▸ h.sum, h.full⟩
      exact ⟨groups', ht, hm', fun ha => by rw [length_cons] at ha; omega⟩
    · exact ⟨_, h, hm, fun _ => rfl⟩

theorem Tracks.record {h : FillHorizon} (ht : Tracks h.capacityTokens calls dropped groups
      h.samples h.total) {call : Nat × Nat} (hn : call.2 ≠ 0) :
    ∃ dropped' groups', Tracks h.capacityTokens (calls ++ [call]) dropped' groups'
        (h.record call.2 call.1).samples (h.record call.2 call.1).total ∧
      tokens (groups'.tail.flatMap Merged.calls) < h.capacityTokens ∧
      ((h.fill call.2 call.1).samples.length ≤ maxFillSamples →
        groups' <:+ groups ++ [⟨[], call⟩]) := by
  have hp : Tracks h.capacityTokens (calls ++ [call]) dropped (groups ++ [⟨[], call⟩])
      (h.samples ++ [(call.1, call.2)]) (h.total + call.2) := by
    refine ⟨?_, ?_, ?_, fun hn => Nat.le_trans (ht.full hn) (Nat.le_add_right ..)⟩
    · simp [ht.split, Merged.calls]
    · simp [ht.stand, Merged.sample, Merged.calls, tokens]
    · rw [ht.sum, flatMap_append, tokens_append]
      simp [Merged.calls, tokens]
  obtain ⟨dropped', groups', hs, ht', hm⟩ := hp.popFull h.capacityTokens.2
  have hl : (h.fill call.2 call.1).samples = groups'.map Merged.sample := ht'.stand
  simp only [FillHorizon.record, if_neg hn, hl]
  refine ⟨dropped', ?_⟩
  cases groups' with
  | nil => exact ⟨[], ⟨ht'.split, rfl, ht'.sum, ht'.full⟩, hm, fun _ => hs⟩
  | cons g rest =>
    obtain ⟨groups'', ht'', hm', hk⟩ := ht'.coalesce hm
    refine ⟨groups'', ht'', hm', fun he => ?_⟩
    rw [length_map, length_cons] at he
    rw [hk he]
    exact hs

variable (c : { capacity : Nat // 0 < capacity })

def recorded (calls : List (Nat × Nat)) : FillHorizon :=
  calls.foldl (fun h call => h.record call.2 call.1) (new c)

/-- The calls that write something. -/
def writes (calls : List (Nat × Nat)) : List (Nat × Nat) := calls.filter fun call => call.2 ≠ 0

/-- No call leaves more samples than are kept. -/
def NeverExceeds (calls : List (Nat × Nat)) : Prop :=
  ∀ before call after, calls = before ++ call :: after →
    ((recorded c before).fill call.2 call.1).samples.length ≤ maxFillSamples

theorem recorded_tracks (calls : List (Nat × Nat)) :
    (recorded c calls).capacityTokens = c ∧ ∃ dropped groups,
      Tracks (recorded c calls).capacityTokens (writes calls) dropped groups
        (recorded c calls).samples (recorded c calls).total ∧
      tokens (groups.tail.flatMap Merged.calls) < c ∧
      (NeverExceeds c calls → ∀ g ∈ groups, g.older = []) := by
  induction calls using reverseRecOn with
  | nil => exact ⟨rfl, [], [], ⟨rfl, rfl, rfl, fun h => absurd rfl h⟩, c.2, by simp⟩
  | append_singleton calls call ih =>
    obtain ⟨hc, dropped, groups, ht, hm, hs⟩ := ih
    have hn (h : NeverExceeds c (calls ++ [call])) : NeverExceeds c calls := by
      intro before c after heq
      exact h before c (after ++ [call]) (by rw [heq, append_assoc, cons_append])
    have hr : recorded c (calls ++ [call]) = (recorded c calls).record call.2 call.1 :=
      foldl_append
    rw [hr]
    by_cases hz : call.2 = 0
    · have hw : writes (calls ++ [call]) = writes calls := by simp [writes, hz]
      rw [record, if_pos hz, hw]
      exact ⟨hc, dropped, groups, ht, hm, fun h => hs (hn h)⟩
    have hw : writes (calls ++ [call]) = writes calls ++ [call] := by simp [writes, hz]
    have hc' : ((recorded c calls).record call.2 call.1).capacityTokens =
        (recorded c calls).capacityTokens := by rw [record, if_neg hz]; rfl
    obtain ⟨dropped', groups', ht', hm', hk⟩ := ht.record hz
    rw [hc', hw]
    refine ⟨hc, dropped', groups', ht', hc ▸ hm', fun h g hg => ?_⟩
    rcases mem_append.1 ((hk (h calls call [] rfl)).subset hg) with hg | hg
    · exact hs (hn h) g hg
    · rw [mem_singleton.1 hg]

/-- Without a write from which on the capacity is written there is no horizon; else it
is the age of the latest such write or a later one, of that write itself unless samples
were merged. -/
theorem horizon_exact (calls : List (Nat × Nat)) (now : Nat) :
    ((recorded c calls).horizon now = none ↔
      ∀ i < (writes calls).length, tokens ((writes calls).drop i) < c) ∧
    ∀ i < (writes calls).length, c ≤ tokens ((writes calls).drop i) →
      (∀ k < (writes calls).length, c ≤ tokens ((writes calls).drop k) → k ≤ i) →
      ∃ j call, i ≤ j ∧ (writes calls)[j]? = some call ∧
        (recorded c calls).horizon now = some (now - call.1) ∧
        (NeverExceeds c calls → j = i) := by
  obtain ⟨hc, dropped, groups, ht, hm, hs⟩ := recorded_tracks c calls
  rw [hc] at ht
  rw [horizon, hc]
  have hl : tokens ((writes calls).drop dropped.length) = (recorded c calls).total := by
    rw [ht.split, drop_left, ht.sum]
  split
  next he =>
    have hb : dropped = [] := by
      by_contra hj
      exact absurd (ht.full hj) (by omega)
    have ha : ∀ i, tokens ((writes calls).drop i) < c := by
      intro i
      have hf := @tokens_drop_le (writes calls) 0 i (Nat.zero_le i)
      rw [hb] at hl
      exact Nat.lt_of_le_of_lt (hl ▸ hf) he
    exact ⟨⟨fun _ i _ => ha i, fun _ => rfl⟩, fun i _ hi => absurd (ha i) (by omega)⟩
  next hk =>
    have hp := c.2
    cases groups with
    | nil =>
      have hz : (recorded c calls).total = 0 := ht.sum
      omega
    | cons g rest =>
      have hw : writes calls = (dropped ++ g.older) ++ g.newest :: rest.flatMap Merged.calls := by
        rw [ht.split, flatMap_cons, Merged.calls]
        simp
      have hg : dropped.length < (writes calls).length := by
        rw [hw]
        simp only [length_append, length_cons]
        omega
      rw [ht.stand]
      refine ⟨⟨nofun, fun h => absurd (h _ hg) (by omega)⟩,
        fun i hi hf hx => ?_⟩
      -- what comes after the front sample does not fill the capacity
      have hij : i ≤ (dropped ++ g.older).length := by
        by_contra he
        have hd := @tokens_drop_le (writes calls) ((dropped ++ g.older).length + 1) i (by omega)
        have hr : (writes calls).drop ((dropped ++ g.older).length + 1) =
            rest.flatMap Merged.calls := by
          rw [hw, ← drop_drop, drop_left]
          rfl
        rw [hr] at hd
        rw [tail_cons] at hm
        omega
      refine ⟨_, g.newest, hij, ?_, rfl, fun hn => ?_⟩
      · rw [hw, getElem?_append_right (Nat.le_refl _), Nat.sub_self]
        rfl
      · rw [hs hn g mem_cons_self, append_nil] at hij ⊢
        exact Nat.le_antisymm (hx _ hg (by omega)) hij

end FillHorizon
end Ramjet
