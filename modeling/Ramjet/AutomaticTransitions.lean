import Ramjet.AdaptiveController

/-!
# Automatic transitions

`auto_tick` of `adaptive.rs` requests a transition whose condition has held for long enough.
-/

namespace Ramjet

/-- A condition by the signals that match it. -/
structure AutoCondition (σ : Type) where
  holds : σ → Bool
  forSeconds : Nat

structure AutoTransition (σ : Type) where
  source : String
  target : String
  automatic : Bool
  condition : Option (AutoCondition σ)

/-- What a tick reads, at a time in nanoseconds. -/
structure AutoTick (σ : Type) where
  now : Nat
  mode : AdaptiveMode
  runtimeBlocked : Bool
  current : String
  signal : σ

namespace AutoTick
variable {σ : Type} (transitions : List (AutoTransition σ)) (tick : AutoTick σ)

def permitted : Bool := (tick.mode = .recommend || tick.mode = .auto) && !tick.runtimeBlocked

def matched : Option (AutoTransition σ) :=
  transitions.find? fun transition => transition.source = tick.current && transition.automatic &&
    transition.condition.any (·.holds tick.signal)

/-- The candidate with the time since when it is one, and the profile that is requested. -/
def autoTick (candidate : Option (String × Nat)) : Option (String × Nat) × Option String :=
  if !tick.permitted then (none, none)
  else
    match tick.matched transitions with
    | none => (none, none)
    | some transition =>
      let since := match candidate with
        | some (target, since) => if target = transition.target then since else tick.now
        | none => tick.now
      let ready := transition.condition.any fun condition =>
        condition.forSeconds * 10 ^ 9 ≤ tick.now - since
      (some (transition.target, since),
        if ready && tick.mode = .auto then some transition.target else none)

def candidateAfter (ticks : List (AutoTick σ)) : Option (String × Nat) :=
  ticks.foldl (fun candidate tick => (tick.autoTick transitions candidate).1) none

def Favours (target : String) : Prop :=
  tick.permitted ∧ (tick.matched transitions).map (·.target) = some target

variable {transitions tick} {candidate : Option (String × Nat)} {target : String} {since : Nat}

theorem autoTick_favours (h : (tick.autoTick transitions candidate).1 = some (target, since)) :
    tick.Favours transitions target ∧ (candidate = some (target, since) ∨ since = tick.now) := by
  unfold autoTick at h
  split at h
  · cases h
  next hp =>
  split at h
  · cases h
  next transition hm =>
  simp only [Option.some.injEq, Prod.mk.injEq] at h
  obtain ⟨rfl, rfl⟩ := h
  refine ⟨⟨by simpa using hp, by rw [hm]; rfl⟩, ?_⟩
  split
  · split
    next ht => exact .inl (ht ▸ rfl)
    · exact .inr rfl
  · exact .inr rfl

theorem candidateAfter_favours {ticks : List (AutoTick σ)}
    (h : candidateAfter transitions ticks = some (target, since)) :
    ∃ before first during, ticks = before ++ first :: during ∧ first.now = since ∧
      ∀ tick ∈ first :: during, tick.Favours transitions target := by
  induction ticks using List.reverseRecOn with
  | nil => cases h
  | append_singleton ticks tick ih =>
    rw [candidateAfter, List.foldl_append] at h
    obtain ⟨hf, hc | rfl⟩ := autoTick_favours h
    · obtain ⟨before, first, during, rfl, hs, hd⟩ := ih hc
      refine ⟨before, first, during ++ [tick], by simp, hs, ?_⟩
      simpa [or_imp, forall_and, hf] using hd
    · exact ⟨ticks, tick, [], rfl, rfl, by simpa using hf⟩

/-- A transition is requested only when its target has matched at every tick for as long as
its condition says. -/
theorem requested_after_hysteresis (ticks : List (AutoTick σ))
    (h : (tick.autoTick transitions (candidateAfter transitions ticks)).2 = some target) :
    ∃ before first during, ticks ++ [tick] = before ++ first :: during ∧
      (∀ tick ∈ first :: during, tick.Favours transitions target) ∧
      ∃ transition condition, tick.matched transitions = some transition ∧
        transition.condition = some condition ∧
        condition.forSeconds * 10 ^ 9 ≤ tick.now - first.now := by
  have hc : candidateAfter transitions (ticks ++ [tick]) =
      (tick.autoTick transitions (candidateAfter transitions ticks)).1 := by
    rw [candidateAfter, List.foldl_append]
    rfl
  unfold autoTick at h hc
  split at h
  · cases h
  next hp =>
  split at h
  · cases h
  next transition hm =>
  simp only [hp, hm] at h hc
  rw [Option.ite_none_right_eq_some, Bool.and_eq_true, Option.any_eq_true] at h
  obtain ⟨⟨⟨condition, hd, hr⟩, -⟩, ht⟩ := h
  cases ht
  obtain ⟨before, first, during, he, hs, hf⟩ := candidateAfter_favours hc
  exact ⟨before, first, during, he, hf, transition, condition, hm, hd, by simpa [hs] using hr⟩

def sampleTransitions : List (AutoTransition Unit) :=
  [⟨"a", "b", true, some ⟨fun _ => true, 1⟩⟩]

def sampleTick (now : Nat) : AutoTick Unit := ⟨now, .auto, false, "a", ()⟩

theorem requested_after_one_second :
    ∃ before first during, [sampleTick 0] ++ [sampleTick (10 ^ 9)] = before ++ first :: during ∧
      (∀ tick ∈ first :: during, tick.Favours sampleTransitions "b") ∧
      ∃ transition condition, (sampleTick (10 ^ 9)).matched sampleTransitions = some transition ∧
        transition.condition = some condition ∧
        condition.forSeconds * 10 ^ 9 ≤ 10 ^ 9 - first.now :=
  requested_after_hysteresis _ (by decide)

end AutoTick
end Ramjet
