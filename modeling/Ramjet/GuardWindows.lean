import Ramjet.DsparkGuard

/-!
# Windows of the detector

What the threshold of `dspark_guard.rs` says about the samples, and what ends a quarantine.
-/

namespace Ramjet
open List
variable (t : GuardThresholds)

/-- A window of drafted tokens without one that was accepted. -/
def ZeroWindow (previous sample : DsparkCounters) : Prop :=
  sample.acceptedPerPosition.length = t.expectedPositions ∧
    sample.seriesIdentity = previous.seriesIdentity ∧
    previous.draftSteps < sample.draftSteps ∧
    previous.proposedTokens + t.minimumProposedTokens ≤ sample.proposedTokens ∧
    sample.acceptedTokens = previous.acceptedTokens ∧
    ∀ position ∈ sample.acceptedPerPosition.zip previous.acceptedPerPosition,
      position.1 = position.2

instance (t : GuardThresholds) (previous sample : DsparkCounters) :
    Decidable (ZeroWindow t previous sample) := inferInstanceAs (Decidable (_ ∧ _))

variable {pairs : List (Nat × Nat)}

theorem positionDeltas_of_eq (h : ∀ pair ∈ pairs, pair.1 = pair.2) :
    positionDeltas pairs 0 = .ok (pairs.map fun _ => 0, 0) := by
  induction pairs with
  | nil => rfl
  | cons pair pairs ih =>
    rw [forall_mem_cons] at h
    simp [positionDeltas, checkedSub, ih h.2, h.1, Except.map]

theorem eq_of_positionDeltas {sum sum' : Nat} {deltas : List Nat}
    (h : positionDeltas pairs sum = .ok (deltas, sum')) (hz : deltas.all (· = 0)) :
    ∀ pair ∈ pairs, pair.1 = pair.2 := by
  induction pairs generalizing sum deltas with
  | nil => nofun
  | cons pair pairs ih =>
    simp only [positionDeltas, checkedSub, Except.map] at h
    grind

theorem zeroWindow_iff {t : GuardThresholds} {previous sample : DsparkCounters}
    (hs : sample.acceptedPerPosition.length = t.expectedPositions) :
    ZeroWindow t previous sample ↔ ∃ m, windowMeasurement previous sample = .ok m ∧
      ¬ (m.draftSteps = 0 ∨ m.proposedTokens < t.minimumProposedTokens) ∧
      ¬ (m.acceptedTokens ≠ 0 ∨ ¬ m.acceptedPerPosition.all (· = 0)) := by
  constructor
  · rintro ⟨-, hi, hd, hm, ha, hq⟩
    simp [windowMeasurement, hi, ha, positionDeltas_of_eq hq, checkedSub, hd.le,
      Nat.le_of_add_right_le hm]
    omega
  · rintro ⟨m, h, hw, ha⟩
    have hq := @eq_of_positionDeltas (sample.acceptedPerPosition.zip previous.acceptedPerPosition)
    simp only [windowMeasurement, checkedSub] at h
    grind [ZeroWindow]

/-- Some first positions, none of which decreased, sum up past `u64`. -/
def Overflows (pairs : List (Nat × Nat)) (sum : Nat) : Prop :=
  ∃ k < pairs.length + 1, (∀ pair ∈ pairs.take k, pair.2 ≤ pair.1) ∧
    2 ^ 64 ≤ sum + ((pairs.take k).map fun pair => pair.1 - pair.2).sum

theorem overflows_cons {pair : Nat × Nat} {sum : Nat} (hs : sum < 2 ^ 64) :
    Overflows (pair :: pairs) sum ↔ pair.2 ≤ pair.1 ∧
      (2 ^ 64 ≤ sum + (pair.1 - pair.2) ∨ Overflows pairs (sum + (pair.1 - pair.2))) := by
  constructor
  · rintro ⟨_ | k, hk, hd, ho⟩
    · simp at ho
      omega
    simp only [take_succ_cons, forall_mem_cons, map_cons, sum_cons, ← Nat.add_assoc] at hd ho
    exact ⟨hd.1, .inr ⟨k, Nat.lt_of_succ_lt_succ hk, hd.2, ho⟩⟩
  · rintro ⟨hp, ho | ⟨k, hk, hd, ho⟩⟩
    · exact ⟨1, by simp, by simpa using hp, by simpa using ho⟩
    · refine ⟨k + 1, Nat.succ_lt_succ hk, forall_mem_cons.2 ⟨hp, hd⟩, ?_⟩
      simpa [← Nat.add_assoc] using ho

/-- How the positions of a window add up. -/
theorem positionDeltas_cases (pairs : List (Nat × Nat)) {sum : Nat} (hs : sum < 2 ^ 64) :
    match positionDeltas pairs sum with
    | .error .inconsistent => Overflows pairs sum
    | .error .counterReset => ¬ Overflows pairs sum ∧ ¬ ∀ pair ∈ pairs, pair.2 ≤ pair.1
    | .ok (_, total) => ¬ Overflows pairs sum ∧ (∀ pair ∈ pairs, pair.2 ≤ pair.1) ∧
      total = sum + (pairs.map fun pair => pair.1 - pair.2).sum := by
  induction pairs generalizing sum with
  | nil => simpa [positionDeltas, Overflows] using hs
  | cons pair pairs ih =>
    simp only [positionDeltas, checkedSub, overflows_cons hs, forall_mem_cons, map_cons, sum_cons]
    by_cases hp : pair.2 ≤ pair.1
    · by_cases hl : sum + (pair.1 - pair.2) < 2 ^ 64
      · have hi := ih hl
        simp only [hp, hl, if_true, true_and, Nat.not_le.2 hl, false_or, ← Nat.add_assoc]
        rcases hd : positionDeltas pairs (sum + (pair.1 - pair.2)) with (_ | _) | r <;>
          simpa [Except.map, hd] using hi
      · simp only [hp, if_true, true_and]
        rw [if_neg hl]
        exact .inl (Nat.le_of_not_lt hl)
    · simp [hp]

def Inconsistent (previous sample : DsparkCounters) : Prop :=
  let pairs := sample.acceptedPerPosition.zip previous.acceptedPerPosition
  sample.seriesIdentity ≠ previous.seriesIdentity ∨
    (previous.draftSteps ≤ sample.draftSteps ∧ previous.proposedTokens ≤ sample.proposedTokens ∧
      previous.acceptedTokens ≤ sample.acceptedTokens) ∧
    (Overflows pairs 0 ∨ (∀ pair ∈ pairs, pair.2 ≤ pair.1) ∧
      (sample.proposedTokens - previous.proposedTokens <
          sample.acceptedTokens - previous.acceptedTokens ∨
        (pairs.map fun pair => pair.1 - pair.2).sum ≠
          sample.acceptedTokens - previous.acceptedTokens))

instance Inconsistent.decidable (previous sample : DsparkCounters) :
    Decidable (Inconsistent previous sample) := by
  unfold Inconsistent Overflows
  infer_instance

theorem inconsistent_iff (previous sample : DsparkCounters) :
    windowMeasurement previous sample = .error .inconsistent ↔ Inconsistent previous sample := by
  have hd := positionDeltas_cases
    (sample.acceptedPerPosition.zip previous.acceptedPerPosition) (Nat.two_pow_pos 64)
  simp only [windowMeasurement, Inconsistent, checkedSub]
  by_cases hi : sample.seriesIdentity = previous.seriesIdentity
  swap
  · simp [hi]
  by_cases hc : previous.draftSteps ≤ sample.draftSteps ∧
      previous.proposedTokens ≤ sample.proposedTokens ∧
      previous.acceptedTokens ≤ sample.acceptedTokens
  · simp only [hi, hc.1, hc.2.1, hc.2.2, ne_eq, not_true, if_false, if_true, false_or, true_and]
    rcases hp : positionDeltas (sample.acceptedPerPosition.zip previous.acceptedPerPosition) 0 with
      (_ | _) | r <;> simp only [hp] at hd
    · exact iff_of_false (by simp) fun h => h.elim hd.1 fun h => hd.2 h.1
    · exact iff_of_true rfl (.inl hd)
    obtain ⟨ho, hn, hs⟩ := hd
    simp only [hs, Nat.zero_add]
    split
    next hc => exact iff_of_true rfl (.inr ⟨hn, hc⟩)
    next hc => exact iff_of_false (by simp) fun h => h.elim ho fun h => hc h.2
  · grind

/-- A payload that the next one is measured against. -/
def accepts (previous : Option DsparkCounters) (sample : DsparkCounters) : Bool :=
  sample.acceptedPerPosition.length = t.expectedPositions &&
    previous.all fun previous => !decide (Inconsistent previous sample)

/-- Does a payload end a window that counts? -/
def countsWindow : Option DsparkCounters →
    Except ParseFailure DsparkCounters → Bool
  | some previous, .ok sample => ZeroWindow t previous sample
  | _, _ => false

theorem DsparkGuard.observe_cases (guard : DsparkGuard)
    (sample : Except ParseFailure DsparkCounters) : (guard.observe sample).1.previous =
        sample.toOption.filter (accepts guard.thresholds guard.previous) ∧
      ((countsWindow guard.thresholds guard.previous sample ∧
          ∃ s m, guard.observe sample = guard.countZeroWindow s m) ∨
        countsWindow guard.thresholds guard.previous sample = false ∧
          ∃ previous outcome m, guard.observe sample = guard.endStreak previous outcome m) := by
  cases sample with
  | error failure => exact ⟨rfl, .inr ⟨by cases guard.previous <;> rfl, _, _, _, rfl⟩⟩
  | ok s =>
    simp only [observe, accepts, Except.toOption, Option.filter_some]
    by_cases hl : s.acceptedPerPosition.length = guard.thresholds.expectedPositions
    swap
    · rw [if_pos hl]
      refine ⟨by simp [endStreak, hl], .inr ⟨?_, _, _, _, rfl⟩⟩
      cases guard.previous with
      | none => rfl
      | some previous => exact decide_eq_false fun hz => hl hz.1
    rw [if_neg (not_not.2 hl)]
    rcases guard.previous with _ | previous
    · exact ⟨by simp [endStreak, hl], .inr ⟨rfl, _, _, _, rfl⟩⟩
    have hin := inconsistent_iff previous s
    simp only [countsWindow, decide_eq_true_eq, decide_eq_false_iff_not, zeroWindow_iff hl]
    generalize windowMeasurement previous s = window at hin ⊢
    rcases window with (_ | _) | m
    · have hn : ¬ Inconsistent previous s := fun h => by cases hin.2 h
      exact ⟨by simp [endStreak, hl, hn], .inr ⟨nofun, _, _, _, rfl⟩⟩
    · exact ⟨by simp [endStreak, hin.1 rfl], .inr ⟨nofun, _, _, _, rfl⟩⟩
    have hn : ¬ Inconsistent previous s := fun h => by cases hin.2 h
    simp only [Except.ok.injEq, exists_eq_left']
    by_cases hi : m.draftSteps = 0 ∨ m.proposedTokens < guard.thresholds.minimumProposedTokens
    · rw [if_pos hi]
      exact ⟨by simp [endStreak, hl, hn], .inr ⟨fun hw => hw.1 hi, _, _, _, rfl⟩⟩
    rw [if_neg hi]
    by_cases hc : m.acceptedTokens ≠ 0 ∨ ¬ m.acceptedPerPosition.all (· = 0)
    · rw [if_pos hc]
      exact ⟨by simp [endStreak, hl, hn], .inr ⟨fun hw => hw.2 hc, _, _, _, rfl⟩⟩
    · rw [if_neg hc]
      exact ⟨by simp [countZeroWindow, hl, hn], .inl ⟨⟨hi, hc⟩, _, _, rfl⟩⟩

inductive GuardCall where
  | observe (sample : Except ParseFailure DsparkCounters)
  | attest (incarnation : Bytes 32)
  | quarantine

def baseline : List (Except ParseFailure DsparkCounters) → Option DsparkCounters
  | [] => none
  | payload :: log => payload.toOption.filter (accepts t (baseline log))

/-- How many of the latest payloads each end a window that counts. -/
def zeroWindows : List (Except ParseFailure DsparkCounters) → Nat
  | [] => 0
  | payload :: log => if countsWindow t (baseline t log) payload then zeroWindows log + 1 else 0

/-- A detector, and the payloads of the current incarnation, the latest first. -/
structure GuardRun where
  guard : DsparkGuard
  log : List (Except ParseFailure DsparkCounters)

namespace GuardRun

def step (r : GuardRun) : GuardCall → GuardRun
  | .observe sample => ⟨(r.guard.observe sample).1, sample :: r.log⟩
  | .attest incarnation => ⟨(r.guard.attestIncarnation incarnation).1,
      if r.guard.incarnation = some incarnation then r.log else []⟩
  | .quarantine => ⟨r.guard.quarantine.1, r.log⟩

variable (guard : DsparkGuard)

/-- A detector without a baseline, new or restored. -/
def start : GuardRun := ⟨{ guard.clearStreak with previous := none }, []⟩

structure Inv (r : GuardRun) : Prop where
  previous : r.guard.previous = baseline r.guard.thresholds r.log
  streak : r.guard.consecutiveZeroWindows =
    min (zeroWindows r.guard.thresholds r.log) r.guard.thresholds.requiredZeroWindows
  met : r.guard.thresholdMet =
    decide (r.guard.thresholds.requiredZeroWindows ≤ zeroWindows r.guard.thresholds r.log)

variable {r : GuardRun}

theorem Inv.start : (start guard).Inv := by
  refine ⟨rfl, (Nat.zero_min _).symm, (decide_eq_false fun h => ?_).symm⟩
  have hw := guard.thresholds.windows_ge
  exact absurd (hw.trans h) (Nat.not_succ_le_zero _)

theorem Inv.step (h : r.Inv) (call : GuardCall) : (r.step call).Inv := by
  cases call with
  | observe sample =>
    obtain ⟨hp, ho⟩ := r.guard.observe_cases sample
    rw [h.previous] at ho hp
    have hw := r.guard.thresholds.windows_ge
    have ht : (r.guard.observe sample).1.thresholds = r.guard.thresholds := by
      rcases ho with ⟨-, s, m, ho⟩ | ⟨-, p, o, m, ho⟩ <;> rw [ho] <;> rfl
    refine ⟨hp.trans (by rw [GuardRun.step, ht]; rfl), ?_, ?_⟩ <;>
      rcases ho with ⟨hc, s, m, ho⟩ | ⟨hc, p, o, m, ho⟩
    all_goals
      simp [GuardRun.step, ho, zeroWindows, DsparkGuard.countZeroWindow, DsparkGuard.endStreak,
        DsparkGuard.clearStreak, hc, h.streak]
      try omega
  | attest incarnation =>
    simp only [GuardRun.step, DsparkGuard.attestIncarnation]
    split
    next hi =>
      rw [hi, if_neg nofun]
      exact .start { r.guard with incarnation := some incarnation }
    rename_i previous hi
    rw [hi]
    by_cases he : previous = incarnation
    · rw [if_pos he, if_pos (congrArg some he)]
      exact h
    rw [if_neg he, if_neg fun hs => he (Option.some.inj hs)]
    split
    · exact .start { r.guard with incarnation := some incarnation, quarantined := false }
    · exact .start { r.guard with incarnation := some incarnation }
  | quarantine =>
    simp only [GuardRun.step, DsparkGuard.quarantine]
    split
    · exact h
    split
    · exact h
    split
    · exact h
    · exact ⟨h.previous, h.streak, h.met⟩

/-- The threshold is met when enough of the latest payloads each ended a window that counts
with the one before, and a quarantine ends with another incarnation only. -/
theorem detector_windows (guard : DsparkGuard) (calls : List GuardCall) :
    let r := calls.foldl step (start guard)
    (r.guard.thresholdMet = true ↔
      r.guard.thresholds.requiredZeroWindows ≤ zeroWindows r.guard.thresholds r.log) ∧
    ∀ call, r.guard.quarantined = true → (r.step call).guard.quarantined = false →
      ∃ previous incarnation, call = .attest incarnation ∧
        r.guard.incarnation = some previous ∧ previous ≠ incarnation := by
  intro r
  have h : r.Inv := foldlRecOn calls step (.start guard) fun _ h call _ => h.step call
  refine ⟨by rw [h.met, decide_eq_true_eq], fun call hq hn => ?_⟩
  cases call with
  | observe sample => cases hq.symm.trans ((DsparkGuard.observe_keeps sample).1.symm.trans hn)
  | quarantine => simp [GuardRun.step, DsparkGuard.quarantine, hq] at hn
  | attest incarnation =>
    simp only [GuardRun.step, DsparkGuard.attestIncarnation] at hn
    split at hn
    · cases hq.symm.trans hn
    rename_i previous hi
    split at hn
    · cases hq.symm.trans hn
    next hne =>
      exact ⟨previous, incarnation, rfl, hi, hne⟩

def twoWindows : DsparkGuard :=
  ⟨⟨1, 2, 1, sampleThresholds.positions_pos, sampleThresholds.positions_le, by decide, by decide⟩,
    none, 0, false, false, none⟩

def drafted (labels : List (String × String)) (tokens : Nat) : DsparkCounters :=
  ⟨tokens, tokens, 0, [0], [⟨.draftSteps, labels⟩]⟩

/-- The payload that changed its labels is no baseline for the next one. -/
theorem relabelled_window_skipped :
    let a := drafted [] 1
    let b := drafted [("engine", "1")]
    ZeroWindow twoWindows.thresholds (b 2) (b 3) ∧ ZeroWindow twoWindows.thresholds (b 3) (b 4) ∧
      (([a, b 2, b 3, b 4].map fun s => GuardCall.observe (.ok s)).foldl step
        (start twoWindows)).guard.thresholdMet = false := by
  decide

end GuardRun
end Ramjet
