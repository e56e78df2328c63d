import Ramjet.KvWire

/-!
# Sequence fence

The state machine of `kv_fence.rs`: whether a batch is applied, and whether the index may
be trusted.
-/

namespace Ramjet

inductive IngestAction where
  | apply
  | resetAndApply
  | duplicate
  | observeOnly
  | replay (start through : Nat)
  | unrecoverableGap

inductive ReplayAction where
  | recovered | recoveredObserveOnly | invalid
  deriving DecidableEq

/-- `start` is the source's `from`. -/
structure PendingReplay where
  start : Nat
  through : Nat
  restoreTrust : Bool

structure KvEventFence where
  nextSequence : Option Nat
  -- the source's field `trusted`; the method `trusted()` also asks for no pending replay
  trustedFlag : Bool
  generation : Nat
  replayLimit : Nat
  pending : Option PendingReplay

namespace KvEventFence

def new (replayLimit : Nat) : KvEventFence where
  nextSequence := none
  trustedFlag := false
  generation := 0
  replayLimit
  pending := none

def trusted (fence : KvEventFence) : Bool := fence.trustedFlag && fence.pending.isNone

def fenceAfter (fence : KvEventFence) (sequence : Nat) : KvEventFence :=
  { fence with
    generation := saturatingAdd fence.generation 1
    nextSequence := some (saturatingAdd sequence 1)
    pending := none
    trustedFlag := false }

def ingest (fence : KvEventFence) (sequence : Nat) (clearsAll : Bool) :
    IngestAction × KvEventFence :=
  if clearsAll then
    (.resetAndApply,
      { fence with
        generation := saturatingAdd fence.generation 1
        nextSequence := some (saturatingAdd sequence 1)
        pending := none
        trustedFlag := true })
  else match fence.pending with
  | some pending =>
    if sequence ≤ pending.through then (.duplicate, fence)
    else if saturatingAdd (sequence - pending.start) 1 > fence.replayLimit then
      (.unrecoverableGap, fence.fenceAfter sequence)
    else
      (.replay pending.start sequence,
        { fence with
          pending := some { pending with through := sequence }
          nextSequence := some (saturatingAdd sequence 1) })
  | none =>
    match fence.nextSequence with
    | none =>
      let fence := { fence with nextSequence := some (saturatingAdd sequence 1) }
      -- the publisher starts at zero, so its first batch shows the whole generation
      if sequence = 0 then (.apply, { fence with trustedFlag := true })
      else if saturatingAdd sequence 1 ≤ fence.replayLimit then
        (.replay 0 sequence, { fence with pending := some ⟨0, sequence, true⟩ })
      else (.observeOnly, fence)
    | some expected =>
      if sequence < expected then (.duplicate, fence)
      else if sequence = expected then
        (if fence.trustedFlag then .apply else .observeOnly,
          { fence with nextSequence := some (saturatingAdd sequence 1) })
      else if saturatingAdd (sequence - expected) 1 > fence.replayLimit then
        (.unrecoverableGap, fence.fenceAfter sequence)
      else
        (.replay expected sequence,
          { fence with
            trustedFlag := false
            pending := some ⟨expected, sequence, fence.trustedFlag⟩
            nextSequence := some (saturatingAdd sequence 1) })

variable {fence : KvEventFence}

/-- A fence that asks for a replay holds it pending. -/
theorem pending_of_replay {fence' : KvEventFence} {sequence start through : Nat} {clearsAll : Bool}
    (h : fence.ingest sequence clearsAll = (.replay start through, fence')) :
    ∃ pending, fence'.pending = some pending ∧ pending.start = start ∧
      pending.through = through := by
  simp only [ingest] at h
  repeat' split at h
  all_goals cases h
  all_goals exact ⟨_, rfl, rfl, rfl⟩

def strictlyIncreasing : List Nat → Bool
  | a :: b :: rest => a < b && strictlyIncreasing (b :: rest)
  | _ => true

theorem strictlyIncreasing_of_pairwise {sequences : List Nat}
    (h : sequences.Pairwise (· < ·)) : strictlyIncreasing sequences := by
  induction sequences with
  | nil => rfl
  | cons first rest ih =>
    rw [List.pairwise_cons] at h
    rcases rest with _ | ⟨second, rest⟩
    · rfl
    · simp [strictlyIncreasing, h.1 second (by simp), ih h.2]

def acceptReplay (fence : KvEventFence) (sequences : List Nat) (establishesBoundary : Bool) :
    ReplayAction × KvEventFence :=
  match fence.pending with
  | none => (.invalid, fence)
  | some pending =>
    let validBounds := sequences.head?.any (pending.start ≤ ·) &&
      sequences.getLast? = some pending.through
    if !validBounds || !strictlyIncreasing sequences then
      (.invalid,
        { fence with
          pending := none
          generation := saturatingAdd fence.generation 1
          trustedFlag := false })
    else
      let trusted := pending.restoreTrust || establishesBoundary
      (if trusted then .recovered else .recoveredObserveOnly,
        { fence with
          pending := none
          generation :=
            if establishesBoundary then saturatingAdd fence.generation 1 else fence.generation
          trustedFlag := trusted })

theorem acceptReplay_cases {pending : PendingReplay} (hp : fence.pending = some pending)
    (sequences : List Nat) (boundary : Bool) :
    ∃ action fence', fence.acceptReplay sequences boundary = (action, fence') ∧
      fence'.pending = none ∧ fence'.nextSequence = fence.nextSequence ∧
      (action = .recovered ∧ fence'.trustedFlag ∧
          (pending.restoreTrust ∨ boundary) ∨
        action ≠ .recovered ∧ fence'.trustedFlag = false) := by
  simp only [acceptReplay, hp]
  split
  · exact ⟨_, _, rfl, rfl, rfl, .inr ⟨by simp, rfl⟩⟩
  refine ⟨_, _, rfl, rfl, rfl, ?_⟩
  rcases ht : pending.restoreTrust || boundary
  · exact .inr ⟨by simp, rfl⟩
  · exact .inl ⟨by simp, rfl, by simpa using ht⟩

theorem acceptReplay_of_trusted (h : fence.trusted) (sequences : List Nat) (boundary : Bool)
    : fence.acceptReplay sequences boundary = (.invalid, fence) := by
  simp only [trusted, Bool.and_eq_true, Option.isNone_iff_eq_none] at h
  simp [acceptReplay, h.2]

theorem acceptReplay_invalid (h : fence.trusted = false) {sequences : List Nat} {boundary : Bool}
    (hi : (fence.acceptReplay sequences boundary).1 = .invalid) :
    (fence.acceptReplay sequences boundary).2.trusted = false := by
  rcases hp : fence.pending with _ | pending
  · simpa [acceptReplay, hp] using h
  obtain ⟨action, fence', ha, hn, -, hc⟩ :=
    acceptReplay_cases hp sequences boundary
  rw [ha] at hi ⊢
  rcases hc with ⟨hr, -⟩ | ⟨-, hf⟩
  · rw [hr] at hi
    cases hi
  · simp [trusted, hf]

def generationChanged (fence : KvEventFence) : KvEventFence :=
  { fence with
    generation := saturatingAdd fence.generation 1
    nextSequence := none
    pending := none
    trustedFlag := false }

def canPrepareFullReplay (fence : KvEventFence) (through : Nat) : Bool :=
  through < u64Max && through + 1 ≤ fence.replayLimit

def prepareFullReplay (fence : KvEventFence) (through : Nat) : Bool × KvEventFence :=
  if !fence.canPrepareFullReplay through then (false, fence)
  else
    (true,
      { fence with
        nextSequence := some (through + 1)
        pending := some ⟨0, through, true⟩
        trustedFlag := false })

end KvEventFence
end Ramjet
