import Ramjet.BlockDigest

/-!
# DSpark degeneration detector

The detector of `dspark_guard.rs` over cumulative counters, as naturals with the checks
of `u64`.
-/

namespace Ramjet

inductive MetricKind where
  | draftSteps | proposedTokens | acceptedTokens | acceptedPerPosition
  deriving DecidableEq

structure SeriesKey where
  kind : MetricKind
  labels : List (String × String)
  deriving DecidableEq

structure DsparkCounters where
  draftSteps : Nat
  proposedTokens : Nat
  acceptedTokens : Nat
  acceptedPerPosition : List Nat
  seriesIdentity : List SeriesKey

inductive ParseFailure where
  | oversized | invalidUtf8 | tooManyLines | lineTooLong | invalidExpectedPositions | malformed
  | missing | incomplete | nonFinite | duplicate | multipleSeries | mismatchedLabels
  | unexpectedPosition | capacity | overflow
  deriving DecidableEq

inductive WindowOutcome where
  | baseline
  | clean
  | zeroAcceptance
  | idle
  | counterReset
  | inconsistent
  | parse (failure : ParseFailure)
  deriving DecidableEq

structure WindowMeasurement where
  draftSteps : Nat
  proposedTokens : Nat
  acceptedTokens : Nat
  acceptedPerPosition : List Nat

structure Observation where
  outcome : WindowOutcome
  consecutiveZeroWindows : Nat
  thresholdMet : Bool
  newlyMet : Bool
  quarantined : Bool
  measurement : Option WindowMeasurement

inductive QuarantineOutcome where
  | entered | alreadyQuarantined | thresholdNotMet | incarnationUnavailable
  deriving DecidableEq

inductive IncarnationOutcome where
  | established | unchanged | changed | rearmed
  deriving DecidableEq

inductive GuardConfigError where
  | expectedPositions | consecutiveWindows | minimumProposedTokens
  deriving DecidableEq

def checkedSub (a b : Nat) : Option Nat := if b ≤ a then some (a - b) else none

inductive WindowRejection where
  | counterReset | inconsistent
  deriving DecidableEq

def positionDeltas : List (Nat × Nat) → Nat → Except WindowRejection (List Nat × Nat)
  | [], sum => .ok ([], sum)
  | (current, prior) :: rest, sum =>
    match checkedSub current prior with
    | none => .error .counterReset
    | some delta =>
      if sum + delta < 2 ^ 64 then
        (positionDeltas rest (sum + delta)).map fun r => (delta :: r.1, r.2)
      else .error .inconsistent

/-- The measurement of the window from `previous` to `sample`. -/
def windowMeasurement (previous sample : DsparkCounters) :
    Except WindowRejection WindowMeasurement :=
  if sample.seriesIdentity ≠ previous.seriesIdentity then .error .inconsistent
  else
    match checkedSub sample.draftSteps previous.draftSteps,
        checkedSub sample.proposedTokens previous.proposedTokens,
        checkedSub sample.acceptedTokens previous.acceptedTokens with
    | some draftSteps, some proposedTokens, some acceptedTokens =>
      match positionDeltas (sample.acceptedPerPosition.zip previous.acceptedPerPosition) 0 with
      | .error rejection => .error rejection
      | .ok (deltas, sum) =>
        if acceptedTokens > proposedTokens ∨ sum ≠ acceptedTokens then .error .inconsistent
        else .ok ⟨draftSteps, proposedTokens, acceptedTokens, deltas⟩
    | _, _, _ => .error .counterReset

def maxExpectedPositions : Nat := 64

structure GuardThresholds where
  expectedPositions : Nat
  requiredZeroWindows : Nat
  minimumProposedTokens : Nat
  positions_pos : 1 ≤ expectedPositions
  positions_le : expectedPositions ≤ maxExpectedPositions
  windows_ge : 2 ≤ requiredZeroWindows
  tokens_pos : minimumProposedTokens ≠ 0

def sampleThresholds : GuardThresholds := ⟨1, 3, 256, by decide, by decide, by decide, by decide⟩

structure DsparkGuard where
  thresholds : GuardThresholds
  previous : Option DsparkCounters
  consecutiveZeroWindows : Nat
  thresholdMet : Bool
  quarantined : Bool
  incarnation : Option (Bytes 32)

namespace DsparkGuard

def new (expectedPositions requiredZeroWindows minimumProposedTokens : Nat) :
    Except GuardConfigError DsparkGuard :=
  if hp : 1 ≤ expectedPositions ∧ expectedPositions ≤ maxExpectedPositions then
    if hw : requiredZeroWindows < 2 then .error .consecutiveWindows
    else if ht : minimumProposedTokens = 0 then .error .minimumProposedTokens
    else .ok
      { thresholds := ⟨expectedPositions, requiredZeroWindows, minimumProposedTokens, hp.1, hp.2,
          Nat.le_of_not_lt hw, ht⟩
        previous := none
        consecutiveZeroWindows := 0
        thresholdMet := false
        quarantined := false
        incarnation := none }
  else .error .expectedPositions

variable (guard : DsparkGuard)

def clearStreak : DsparkGuard :=
  { guard with consecutiveZeroWindows := 0, thresholdMet := false }

def observation (outcome : WindowOutcome) (newlyMet : Bool)
    (measurement : Option WindowMeasurement) : Observation where
  outcome
  consecutiveZeroWindows := guard.consecutiveZeroWindows
  thresholdMet := guard.thresholdMet
  newlyMet
  quarantined := guard.quarantined
  measurement

def endStreak (previous : Option DsparkCounters) (outcome : WindowOutcome)
    (measurement : Option WindowMeasurement) : DsparkGuard × Observation :=
  let guard := { guard.clearStreak with previous }
  (guard, guard.observation outcome false measurement)

/-- A window without one accepted token. -/
def countZeroWindow (sample : DsparkCounters) (measurement : WindowMeasurement) :
    DsparkGuard × Observation :=
  let windows := min (guard.consecutiveZeroWindows + 1) guard.thresholds.requiredZeroWindows
  let met := decide (windows = guard.thresholds.requiredZeroWindows)
  let newlyMet := !guard.thresholdMet && met
  let guard :=
    { guard with previous := some sample, consecutiveZeroWindows := windows, thresholdMet := met }
  (guard, guard.observation .zeroAcceptance newlyMet (some measurement))

variable (sample : Except ParseFailure DsparkCounters)

def observe : DsparkGuard × Observation :=
  match sample with
  | .error failure => guard.endStreak none (.parse failure) none
  | .ok sample =>
    if sample.acceptedPerPosition.length ≠ guard.thresholds.expectedPositions then
      guard.endStreak none (.parse .invalidExpectedPositions) none
    else
      match guard.previous with
      | none => guard.endStreak (some sample) .baseline none
      | some previous =>
        match windowMeasurement previous sample with
        | .error .counterReset => guard.endStreak (some sample) .counterReset none
        | .error .inconsistent => guard.endStreak none .inconsistent none
        | .ok measurement =>
          if measurement.draftSteps = 0 ∨
              measurement.proposedTokens < guard.thresholds.minimumProposedTokens then
            guard.endStreak (some sample) .idle (some measurement)
          else if measurement.acceptedTokens ≠ 0 ∨
              ¬ measurement.acceptedPerPosition.all (· = 0) then
            guard.endStreak (some sample) .clean (some measurement)
          else guard.countZeroWindow sample measurement

def quarantine : DsparkGuard × QuarantineOutcome :=
  if guard.quarantined then (guard, .alreadyQuarantined)
  else if !guard.thresholdMet then (guard, .thresholdNotMet)
  else if guard.incarnation.isNone then (guard, .incarnationUnavailable)
  else ({ guard with quarantined := true }, .entered)

variable (incarnation : Bytes 32)

def attestIncarnation : DsparkGuard × IncarnationOutcome :=
  match guard.incarnation with
  | none =>
    ({ guard.clearStreak with incarnation := some incarnation, previous := none }, .established)
  | some previous =>
    if previous = incarnation then (guard, .unchanged)
    else
      let changed :=
        { guard.clearStreak with incarnation := some incarnation, previous := none }
      if guard.quarantined then ({ changed with quarantined := false }, .rearmed)
      else (changed, .changed)

def restoreQuarantine : DsparkGuard :=
  { guard.clearStreak with incarnation := some incarnation, previous := none, quarantined := true }

variable {guard}

theorem observe_keeps : (guard.observe sample).1.quarantined = guard.quarantined ∧
      (guard.observe sample).1.incarnation = guard.incarnation := by
  unfold observe
  repeat' split
  all_goals exact ⟨rfl, rfl⟩

theorem attestIncarnation_spec (inc : Bytes 32) :
    (guard.attestIncarnation inc).1.incarnation = some inc ∧
      ((guard.attestIncarnation inc).1.quarantined → guard.quarantined ∧
          (guard.incarnation = none ∨ guard.incarnation = some inc)) := by
  unfold attestIncarnation
  split
  next h =>
    exact ⟨rfl, fun hq => ⟨hq, .inl h⟩⟩
  rename_i previous h
  split
  next heq =>
    exact ⟨heq ▸ h, fun hq => ⟨hq, .inr (heq ▸ h)⟩⟩
  dsimp only
  split
  · exact ⟨rfl, nofun⟩
  next hn =>
    exact ⟨rfl, fun hq => absurd hq hn⟩

end DsparkGuard
end Ramjet
