import Ramjet.KvFence
import Ramjet.ExactInventory
import Ramjet.Lib.Runs

/-!
# Fenced inventory

An exact inventory behind the sequence fence, with the stage of a full replay.
-/

namespace Ramjet

inductive LiveBatchOutcome where
  | applied (summary : BatchApplySummary)
  | observeOnly
  | duplicate
  | replay (start through : Nat)
  | fenced

inductive ReplayBatchOutcome where
  | applied (summary : BatchApplySummary)
  | observeOnly
  | invalid
  deriving DecidableEq

structure FullReplayStage where
  inventory : ExactKvInventory
  sequences : List Nat
  summary : BatchApplySummary
  establishesBoundary : Bool
  error : Option ExactIndexError

namespace FullReplayStage

def new (limits : ExactIndexLimits) : FullReplayStage where
  inventory := .new limits
  sequences := []
  summary := .zero
  establishesBoundary := false
  error := none

def ingest (stage : FullReplayStage) (sequence : Nat) (batch : KvEventBatch) : FullReplayStage :=
  let stage := { stage with
    sequences := stage.sequences ++ [sequence]
    establishesBoundary := stage.establishesBoundary || batch.clearsAll }
  if stage.error.isSome then stage
  else
    match stage.inventory.applyBatch batch with
    | (.ok applied, inventory) =>
      { stage with inventory, summary := mergeSummary stage.summary applied }
    | (.error error, inventory) => { stage with inventory, error := some error }

/-- A stage fed with a whole replay response. -/
def ingestAll (stage : FullReplayStage) : List (Nat × KvEventBatch) → FullReplayStage
  | [] => stage
  | (sequence, batch) :: rest => (stage.ingest sequence batch).ingestAll rest

end FullReplayStage

/-- The replay loop of `ingest_replay`, from a summary so far. -/
def ExactKvInventory.applyBatches (inventory : ExactKvInventory) (summary : BatchApplySummary) :
    List (Nat × KvEventBatch) → Except ExactIndexError BatchApplySummary × ExactKvInventory
  | [] => (.ok summary, inventory)
  | (_, batch) :: rest =>
    match inventory.applyBatch batch with
    | (.ok applied, inventory) => inventory.applyBatches (mergeSummary summary applied) rest
    | (.error error, inventory) => (.error error, inventory)

@[simp] theorem ExactKvInventory.limits_applyBatches (inventory : ExactKvInventory)
    (summary : BatchApplySummary) (batches : List (Nat × KvEventBatch)) :
    (inventory.applyBatches summary batches).2.index.limits = inventory.index.limits := by
  induction batches generalizing inventory summary with
  | nil => rfl
  | cons batch rest ih =>
    have hs := limits_applyBatch inventory batch.2
    rw [applyBatches]
    split <;> rename_i h <;> rw [h] at hs
    · rw [ih]
      exact hs
    · exact hs

namespace FullReplayStage

theorem error_ingestAll {stage : FullReplayStage} {batches : List (Nat × KvEventBatch)}
    (h : stage.error.isSome) : (stage.ingestAll batches).error.isSome := by
  induction batches generalizing stage with
  | nil => exact h
  | cons batch rest ih =>
    rw [ingestAll]
    refine ih ?_
    simp [ingest, h]

theorem applyBatches_of_ingestAll {stage : FullReplayStage} {batches : List (Nat × KvEventBatch)}
    (h : (stage.ingestAll batches).error = none) :
    stage.inventory.applyBatches stage.summary batches =
      (.ok (stage.ingestAll batches).summary, (stage.ingestAll batches).inventory) := by
  induction batches generalizing stage with
  | nil => rfl
  | cons entry rest ih =>
    obtain ⟨sequence, batch⟩ := entry
    have ho : ∀ {next : FullReplayStage}, next.error.isSome →
        (next.ingestAll rest).error ≠ none := by
      intro next hn hc
      have := @error_ingestAll next rest hn
      simp [hc] at this
    rw [ingestAll] at h
    have hg : stage.error.isSome = false := by
      by_contra hs
      rw [Bool.not_eq_false] at hs
      exact ho (by simp [ingest, hs]) h
    rw [ExactKvInventory.applyBatches, ingestAll]
    rcases ha : stage.inventory.applyBatch batch with ⟨error | applied, inventory⟩
    · exact absurd h (ho (by simp [ingest, hg, ha]))
    have hn := ih h
    simp only [ingest, hg, ha, Bool.false_eq_true, if_false] at hn ⊢
    exact hn

end FullReplayStage

structure FencedExactKvInventory where
  fence : KvEventFence
  inventory : ExactKvInventory
  revision : Nat

namespace FencedExactKvInventory

def new (replayLimit : Nat) (indexLimits : ExactIndexLimits) : FencedExactKvInventory where
  fence := .new replayLimit
  inventory := .new indexLimits
  revision := 0

def trusted (self : FencedExactKvInventory) : Bool := self.fence.trusted

def beginFullReplay (self : FencedExactKvInventory) : FullReplayStage :=
  .new self.inventory.index.limits

def bumpRevision (self : FencedExactKvInventory) : FencedExactKvInventory :=
  { self with revision := wrappingAdd self.revision 1 }

def applyAuthoritative (self : FencedExactKvInventory) (batch : KvEventBatch) :
    Except ExactIndexError BatchApplySummary × FencedExactKvInventory :=
  match self.inventory.applyBatch batch with
  | (.ok summary, inventory) => (.ok summary, { self with inventory })
  | (.error error, inventory) =>
    (.error error,
      { self with
        fence := self.fence.generationChanged
        inventory := inventory.resetGeneration })

def perform (self : FencedExactKvInventory) (batch : KvEventBatch) :
    IngestAction → Except ExactIndexError LiveBatchOutcome × FencedExactKvInventory
  | .apply =>
    let (result, self) := self.applyAuthoritative batch
    (result.map .applied, self)
  | .resetAndApply =>
    let self := { self with inventory := self.inventory.clear }
    let (result, self) := self.applyAuthoritative batch
    (result.map .applied, self)
  | .duplicate => (.ok .duplicate, self)
  | .observeOnly => (.ok .observeOnly, self)
  | .replay start through => (.ok (.replay start through), self)
  | .unrecoverableGap =>
    (.ok .fenced, { self with inventory := self.inventory.resetGeneration })

def ingestLive (self : FencedExactKvInventory) (sequence : Nat) (batch : KvEventBatch) :
    Except ExactIndexError LiveBatchOutcome × FencedExactKvInventory :=
  let (action, fence) := self.fence.ingest sequence batch.clearsAll
  let (outcome, self) := { self with fence }.perform batch action
  match outcome with
  | .ok (.applied _) | .ok .fenced | .error _ => (outcome, self.bumpRevision)
  | _ => (outcome, self)

variable {action : IngestAction} {batch : KvEventBatch} {self : FencedExactKvInventory}

theorem ingestLive_eq (self : FencedExactKvInventory) (sequence : Nat) (batch : KvEventBatch)
    {fence : KvEventFence} (h : self.fence.ingest sequence batch.clearsAll = (action, fence)) :
    (self.ingestLive sequence batch).1 = ({ self with fence }.perform batch action).1 ∧
    (self.ingestLive sequence batch).2.fence =
      ({ self with fence }.perform batch action).2.fence ∧
    (self.ingestLive sequence batch).2.inventory =
      ({ self with fence }.perform batch action).2.inventory := by
  simp only [ingestLive, h]
  split <;> exact ⟨rfl, rfl, rfl⟩

theorem action_of_replay {start through : Nat}
    (h : (self.perform batch action).1 = .ok (.replay start through)) :
    action = .replay start through := by
  cases action with
  | apply =>
    simp only [perform] at h
    cases hr : (self.applyAuthoritative batch).1 <;> simp [hr, Except.map] at h
  | resetAndApply =>
    simp only [perform] at h
    cases hr : ({ self with inventory := self.inventory.clear }.applyAuthoritative batch).1 <;>
      simp [hr, Except.map] at h
  | replay => simpa [perform] using h
  | duplicate => simp [perform] at h
  | observeOnly => simp [perform] at h
  | unrecoverableGap => simp [perform] at h

theorem pending_of_replay {sequence start through : Nat}
    (h : (self.ingestLive sequence batch).1 = .ok (.replay start through)) :
    ∃ pending, (self.ingestLive sequence batch).2.fence.pending = some pending ∧
      pending.start = start ∧ pending.through = through := by
  rcases hi : self.fence.ingest sequence batch.clearsAll with ⟨action, fence⟩
  obtain ⟨h1, h2, -⟩ := self.ingestLive_eq sequence batch hi
  rw [h1] at h
  obtain rfl := action_of_replay h
  rw [h2]
  exact KvEventFence.pending_of_replay hi

def ingestReplay (self : FencedExactKvInventory) (batches : List (Nat × KvEventBatch)) :
    Except ExactIndexError ReplayBatchOutcome × FencedExactKvInventory :=
  let establishesBoundary := batches.any fun batch => batch.2.clearsAll
  let (action, fence) := self.fence.acceptReplay (batches.map Prod.fst) establishesBoundary
  let self := { self with fence }
  match action with
  | .invalid =>
    (.ok .invalid,
      { self with inventory := self.inventory.resetGeneration }.bumpRevision)
  | .recoveredObserveOnly => (.ok .observeOnly, self)
  | .recovered =>
    match self.inventory.applyBatches .zero batches with
    | (.ok summary, inventory) =>
      (.ok (.applied summary), { self with inventory }.bumpRevision)
    | (.error error, inventory) =>
      (.error error,
        { self with
          fence := self.fence.generationChanged
          inventory := inventory.resetGeneration }.bumpRevision)

def commitFullReplay (self : FencedExactKvInventory) (stage : FullReplayStage) :
    Except ExactIndexError ReplayBatchOutcome × FencedExactKvInventory :=
  match stage.error with
  | some error =>
    (.error error,
      { self with
        fence := self.fence.generationChanged
        inventory := self.inventory.resetGeneration }.bumpRevision)
  | none =>
    let (action, fence) := self.fence.acceptReplay stage.sequences stage.establishesBoundary
    let self := { self with fence }
    match action with
    | .invalid =>
      (.ok .invalid,
        { self with inventory := self.inventory.resetGeneration }.bumpRevision)
    | .recoveredObserveOnly => (.ok .observeOnly, self)
    | .recovered =>
      (.ok (.applied stage.summary), { self with inventory := stage.inventory }.bumpRevision)

def generationChanged (self : FencedExactKvInventory) : FencedExactKvInventory :=
  { self with
    fence := self.fence.generationChanged
    inventory := self.inventory.resetGeneration }.bumpRevision

def prepareFullReplayRetry (self : FencedExactKvInventory) (through : Nat) :
    Bool × FencedExactKvInventory :=
  let self := self.generationChanged
  let (prepared, fence) := self.fence.prepareFullReplay through
  (prepared, { self with fence })

theorem pending_of_prepare {through : Nat} (h : (self.prepareFullReplayRetry through).1) :
    (self.prepareFullReplayRetry through).2.fence.pending = some ⟨0, through, true⟩ := by
  simp only [prepareFullReplayRetry, KvEventFence.prepareFullReplay] at h ⊢
  split at h
  · cases h
  next hcan =>
    simp [hcan]

def findLongest (self : FencedExactKvInventory) (tokenIds : List UInt32) :
    Except ExactIndexError (Option ExactMatch) :=
  if !self.fence.trusted then .ok none
  else (self.inventory.findLongest tokenIds).map some

end FencedExactKvInventory
end Ramjet
