import Ramjet.ReplayRuns

/-!
# Failed replays

A replay that fails resets the index, and withdraws trust unless it found a trusted fence
with nothing pending: then the empty index is still trusted.
-/

namespace Ramjet
open FencedExactKvInventory KvEventFence

/-- The public calls on a fenced inventory; a full replay is begun, fed and
committed (the stage reads nothing but the limits before its commit). -/
inductive FencedCall where
  | ingestLive (sequence : Nat) (batch : KvEventBatch)
  | ingestReplay (batches : List (Nat × KvEventBatch))
  | fullReplay (batches : List (Nat × KvEventBatch))
  | generationChanged
  | prepareFullReplayRetry (through : Nat)

namespace FencedCall

def stage (self : FencedExactKvInventory) (batches : List (Nat × KvEventBatch)) : FullReplayStage :=
  self.beginFullReplay.ingestAll batches

def next (self : FencedExactKvInventory) : FencedCall → FencedExactKvInventory
  | ingestLive sequence batch => (self.ingestLive sequence batch).2
  | ingestReplay batches => (self.ingestReplay batches).2
  | fullReplay batches => (self.commitFullReplay (stage self batches)).2
  | generationChanged => self.generationChanged
  | prepareFullReplayRetry through => (self.prepareFullReplayRetry through).2

def replayResult (self : FencedExactKvInventory) :
    FencedCall → Option (Except ExactIndexError ReplayBatchOutcome)
  | ingestReplay batches => some (self.ingestReplay batches).1
  | fullReplay batches => some (self.commitFullReplay (stage self batches)).1
  | _ => none

/-- A replay that returned `Invalid` or an error. -/
def failed (self : FencedExactKvInventory) (call : FencedCall) : Bool :=
  match call.replayResult self with
  | some (.ok .invalid) | some (.error _) => true
  | _ => false

/-- A replay is called on an untrusted inventory, or commits a stage that
carries an index error. -/
def Guarded (self : FencedExactKvInventory) : FencedCall → Prop
  | ingestReplay _ => self.trusted = false
  | fullReplay batches => self.trusted = false ∨ (stage self batches).error.isSome
  | _ => True

/-- Untrusted and empty. -/
def Closed (self : FencedExactKvInventory) (call : FencedCall) : Prop :=
  (call.next self).trusted = false ∧
    (call.next self).inventory.index = .new self.inventory.index.limits

end FencedCall

/-- A fenced inventory, and whether a failed replay has reset its index since
trust was last established. -/
structure AuditedInventory where
  inventory : FencedExactKvInventory
  resetByReplay : Bool

namespace AuditedInventory

def next (s : AuditedInventory) (call : FencedCall) : AuditedInventory where
  inventory := call.next s.inventory
  resetByReplay :=
    if call.failed s.inventory then true
    else if !s.inventory.trusted && (call.next s.inventory).trusted then false
    else s.resetByReplay

def system (replayLimit : Nat) (limits : ExactIndexLimits) :
    TransitionSystem AuditedInventory FencedCall where
  init s := s = ⟨.new replayLimit limits, false⟩
  step s call s' := s' = s.next call

end AuditedInventory

namespace FencedCall
variable {self : FencedExactKvInventory}

theorem not_closed_of_trusted_replay (h : self.trusted)
    (batches : List (Nat × KvEventBatch)) : ¬ Closed self (ingestReplay batches) := by
  rintro ⟨hc, -⟩
  have ht : self.fence.trusted := h
  simp only [next, FencedExactKvInventory.ingestReplay, acceptReplay_of_trusted ht] at hc
  exact absurd hc (by rw [Bool.not_eq_false]; exact h)

variable {batches : List (Nat × KvEventBatch)}

theorem not_closed_of_trusted_commit (h : self.trusted)
    (hg : (stage self batches).error = none) : ¬ Closed self (fullReplay batches) := by
  rintro ⟨hc, -⟩
  have ht : self.fence.trusted := h
  simp only [next, commitFullReplay, hg, acceptReplay_of_trusted ht] at hc
  exact absurd hc (by rw [Bool.not_eq_false]; exact h)

theorem closed_ingestReplay (h : self.trusted = false)
    (hf : failed self (ingestReplay batches)) : Closed self (ingestReplay batches) := by
  have hi := @acceptReplay_invalid _ h (batches.map Prod.fst)
    (batches.any fun batch => batch.2.clearsAll)
  simp only [failed, replayResult, FencedExactKvInventory.ingestReplay] at hf
  simp only [Closed, next, FencedExactKvInventory.ingestReplay]
  rcases ha : (self.fence.acceptReplay (batches.map Prod.fst)
    (batches.any fun batch => batch.2.clearsAll)).1
  · rw [ha] at hf
    rcases hap : self.inventory.applyBatches .zero batches with ⟨error | summary, inventory⟩
    · have hl := self.inventory.limits_applyBatches .zero batches
      rw [hap] at hl
      refine ⟨rfl, ?_⟩
      show inventory.index.clear = _
      rw [ExactKvIndex.clear_eq_new, hl]
    · simp [hap] at hf
  · simp [ha] at hf
  · exact ⟨hi ha, rfl⟩

theorem closed_fullReplay (h : self.trusted = false ∨ (stage self batches).error.isSome)
    (hf : failed self (fullReplay batches)) : Closed self (fullReplay batches) := by
  simp only [failed, replayResult, commitFullReplay] at hf
  simp only [Closed, next, commitFullReplay]
  rcases hg : (stage self batches).error with _ | error
  · have hu : self.fence.trusted = false := by
      rcases h with h | h
      · exact h
      · simp [hg] at h
    have hi := @acceptReplay_invalid _ hu
      (stage self batches).sequences (stage self batches).establishesBoundary
    rcases ha : (self.fence.acceptReplay (stage self batches).sequences
      (stage self batches).establishesBoundary).1
    · simp [hg, ha] at hf
    · simp [hg, ha] at hf
    · exact ⟨hi ha, rfl⟩
  · exact ⟨rfl, rfl⟩

/-- A failed replay fails closed exactly when it is guarded. -/
theorem closed_iff_guarded {call : FencedCall} (hf : call.failed self) :
    Closed self call ↔ Guarded self call := by
  cases call with
  | ingestReplay batches =>
    cases h : self.trusted with
    | false => simp [Guarded, h, closed_ingestReplay h hf]
    | true => simp [Guarded, h, not_closed_of_trusted_replay h]
  | fullReplay batches =>
    by_cases hgd : Guarded self (fullReplay batches)
    · simp [hgd, closed_fullReplay hgd hf]
    simp only [hgd, iff_false]
    simp only [Guarded, not_or, Bool.not_eq_false, Bool.not_eq_true,
      Option.isSome_eq_false_iff, Option.isNone_iff_eq_none] at hgd
    exact not_closed_of_trusted_commit hgd.1 hgd.2
  | ingestLive | generationChanged | prepareFullReplayRetry => simp [failed, replayResult] at hf

end FencedCall

namespace AuditedInventory

theorem not_reset_of_guarded {replayLimit : Nat} {limits : ExactIndexLimits}
    {s : AuditedInventory} (h : ((system replayLimit limits).restrict
      fun s call => call.Guarded s.inventory).Reachable s) (ht : s.inventory.trusted) :
    s.resetByReplay = false := by
  refine h.invariant (P := fun s => s.inventory.trusted = true → s.resetByReplay = false) ?_ ?_ ht
  · rintro s rfl _
    rfl
  rintro s call s' ih ⟨hgd, rfl⟩ ht
  simp only [next] at ht ⊢
  have hn : call.failed s.inventory = false := by
    by_contra hf
    rw [Bool.not_eq_false] at hf
    have hc := ((FencedCall.closed_iff_guarded hf).2 hgd).1
    rw [ht] at hc
    cases hc
  cases hb : s.inventory.trusted with
  | false => simp [hn, ht]
  | true => simpa [hn] using ih hb

/-- A failed replay leaves an empty, untrusted inventory exactly when it is
guarded, and in runs whose replays all are, no trusted index has been reset by
a failed replay since trust was established. -/
theorem replay_fails_closed_when_guarded (replayLimit : Nat) (limits : ExactIndexLimits) :
    (∀ (self : FencedExactKvInventory) (call : FencedCall), call.failed self →
      (call.Closed self ↔ call.Guarded self)) ∧
    ∀ s, ((system replayLimit limits).restrict fun s call => call.Guarded s.inventory).Reachable s →
      s.inventory.trusted → s.resetByReplay = false :=
  ⟨fun _ _ hf => FencedCall.closed_iff_guarded hf,
    fun _ hr ht => not_reset_of_guarded hr ht⟩

/-- After its first batch the inventory is trusted; a replay nobody asked for
returns `Invalid` and empties the index, and the inventory is still trusted. -/
theorem unrequested_replay_keeps_trust : ∃ s : AuditedInventory, (system 4 ⟨8, 8, 8⟩).Reachable s ∧
      s.inventory.findLongest [1, 2] = .ok (some ⟨1, 2⟩) ∧
      (FencedCall.ingestReplay []).replayResult s.inventory = some (.ok .invalid) ∧
      ((FencedCall.ingestReplay []).next s.inventory).trusted ∧
      ((FencedCall.ingestReplay []).next s.inventory).findLongest [1, 2] = .ok (some ⟨0, 0⟩) ∧
      (s.next (.ingestReplay [])).resetByReplay :=
  ⟨_, .step (a := .ingestLive 0 ⟨[.blockStored ReplayState.firstStore], none⟩) (.init rfl) rfl,
    by decide, by decide, by decide, by decide, by decide⟩

/-- After a gap the same replay is guarded and fails closed; a clear brings trust back. -/
theorem replay_fails_closed_when_guarded_gap : ∃ s t : AuditedInventory,
    (FencedCall.ingestReplay []).failed s.inventory ∧
      (FencedCall.ingestReplay []).Closed s.inventory ∧
      t = (s.next (.ingestReplay [])).next (.ingestLive 4 ⟨[.allBlocksCleared], none⟩) ∧
      ((system 4 ⟨8, 8, 8⟩).restrict fun s call => call.Guarded s.inventory).Reachable t ∧
      t.inventory.trusted ∧ t.resetByReplay = false := by
  have hn : ∀ call {s}, ((system 4 ⟨8, 8, 8⟩).restrict fun s call =>
      call.Guarded s.inventory).Reachable s → call.Guarded s.inventory →
      ((system 4 ⟨8, 8, 8⟩).restrict fun s call => call.Guarded s.inventory).Reachable
        (s.next call) := fun call _ hr hgd => hr.step (a := call) ⟨hgd, rfl⟩
  have hs := hn (.ingestLive 3 ⟨[], none⟩)
    (hn (.ingestLive 0 ⟨[.blockStored ReplayState.firstStore], none⟩) (.init rfl) trivial) trivial
  have ht := hn (.ingestLive 4 ⟨[.allBlocksCleared], none⟩)
    (hn (.ingestReplay []) hs rfl) trivial
  refine ⟨_, _, by decide, ?_, rfl, ht, by decide, ?_⟩
  · exact ((replay_fails_closed_when_guarded 4 ⟨8, 8, 8⟩).1 _ _ (by decide)).2 rfl
  · exact (replay_fails_closed_when_guarded 4 ⟨8, 8, 8⟩).2 _ ht (by decide)

end AuditedInventory
end Ramjet
