import Ramjet.FailClosedReplay

/-!
# Batches delivered again

A live batch below the watermark changes nothing, unless it clears all: the fence takes
it for a boundary before it compares sequence numbers.
-/

namespace Ramjet

/-- What one engine publishes: batches of one rank, in the order of their sequence
numbers, which are 64 bits wide. -/
structure PublishedLog where
  batches : List (Nat × KvEventBatch)
  rank : UInt32
  increasing : batches.Pairwise fun a b => a.1 < b.1
  one_rank : ∀ batch ∈ batches, batch.2.rank = rank
  sequence_le : ∀ batch ∈ batches, batch.1 ≤ u64Max

namespace KvEventFence
variable {fence : KvEventFence} {seq : Nat} {clearsAll : Bool}

/-- A pending replay ends right below the watermark. -/
def Watermarked (fence : KvEventFence) : Prop :=
  ∀ pending, fence.pending = some pending →
    fence.nextSequence = some (saturatingAdd pending.through 1)

/-- The watermark is kept or raised; one that was never set may be set. -/
def Advances (fence fence' : KvEventFence) : Prop :=
  ∀ n, fence.nextSequence = some n → ∃ n', fence'.nextSequence = some n' ∧ n ≤ n'

theorem Advances.refl (fence : KvEventFence) : Advances fence fence := fun n hn => ⟨n, hn, le_rfl⟩

variable {fence' : KvEventFence}

theorem Advances.trans {fence'' : KvEventFence} (h : Advances fence fence')
    (h' : Advances fence' fence'') : Advances fence fence'' := by
  intro n hn
  obtain ⟨n', hn', hl⟩ := h n hn
  obtain ⟨n'', hn'', hl'⟩ := h' n' hn'
  exact ⟨n'', hn'', hl.trans hl'⟩

theorem Advances.of_eq (h : fence'.nextSequence = fence.nextSequence) :
    Advances fence fence' := fun n hn => ⟨n, h.trans hn, le_rfl⟩

theorem Advances.of_le {n' : Nat} (h' : fence'.nextSequence = some n')
    (h : ∀ n, fence.nextSequence = some n → n ≤ n') : Advances fence fence' :=
  fun n hn => ⟨n', h', h n hn⟩

theorem saturatingAdd_one_mono {a b : Nat} (h : a ≤ b) : saturatingAdd a 1 ≤ saturatingAdd b 1 := by
  unfold saturatingAdd
  omega

theorem le_saturatingAdd_one {a : Nat} (h : a ≤ u64Max) : a ≤ saturatingAdd a 1 := by
  unfold saturatingAdd
  omega

theorem le_of_lt_saturatingAdd_one {a b : Nat} (h : a < saturatingAdd b 1) : a ≤ b := by
  unfold saturatingAdd at h
  omega

theorem ingest_below {n : Nat} (hm : fence.Watermarked) (hn : fence.nextSequence = some n)
    (hl : seq < n) : fence.ingest seq false = (.duplicate, fence) := by
  rcases hp : fence.pending with _ | pending
  · simp [ingest, hp, hn, hl]
  have ht : seq ≤ pending.through := by
    apply le_of_lt_saturatingAdd_one
    rw [← Option.some.inj (hn.symm.trans (hm pending hp))]
    exact hl
  simp [ingest, hp, ht]

theorem watermarked_of_none (h : fence.pending = none) : fence.Watermarked := by
  intro pending hp
  rw [h] at hp
  cases hp

theorem watermarked_ingest (hm : fence.Watermarked) :
    (fence.ingest seq clearsAll).2.Watermarked := by
  unfold ingest
  split
  · exact watermarked_of_none rfl
  split
  case h_1 pending hp =>
    split
    · exact hm
    split
    · exact watermarked_of_none rfl
    · rintro _ ⟨⟩
      rfl
  case h_2 hp =>
    split
    · dsimp only
      split
      · exact watermarked_of_none hp
      split
      · rintro _ ⟨⟩
        rfl
      · exact watermarked_of_none hp
    · split
      · exact hm
      split
      · exact watermarked_of_none hp
      split
      · exact watermarked_of_none rfl
      · rintro _ ⟨⟩
        rfl

theorem advances_ingest (hm : fence.Watermarked) (hl : seq ≤ u64Max)
    (hc : clearsAll → ∀ n, fence.nextSequence = some n → n ≤ seq) :
    Advances fence (fence.ingest seq clearsAll).2 := by
  have hs := le_saturatingAdd_one hl
  unfold ingest
  split
  case isTrue h => exact .of_le rfl fun n hn => (hc h n hn).trans hs
  split
  case h_1 pending hd =>
    -- What lies past the pending replay lies past the watermark.
    have hp : ¬ seq ≤ pending.through → ∀ n, fence.nextSequence = some n →
        n ≤ saturatingAdd seq 1 := by
      intro hg n hn
      rw [hm pending hd] at hn
      cases hn
      exact saturatingAdd_one_mono (by omega)
    split
    · exact .refl fence
    case isFalse hg =>
      split
      · exact .of_le rfl (hp hg)
      · exact .of_le rfl (hp hg)
  case h_2 =>
    split
    case h_1 ho =>
      intro n hn
      rw [ho] at hn
      cases hn
    case h_2 expected he =>
      split
      · exact .refl fence
      case isFalse ha =>
        have hp : ∀ n, fence.nextSequence = some n → n ≤ saturatingAdd seq 1 := by
          intro n hn
          rw [he] at hn
          cases hn
          omega
        split
        · exact .of_le rfl hp
        split
        · exact .of_le rfl hp
        · exact .of_le rfl hp

theorem nextSequence_acceptReplay (sequences : List Nat) (boundary : Bool) :
    (fence.acceptReplay sequences boundary).2.nextSequence = fence.nextSequence := by
  rcases hp : fence.pending with _ | pending
  · simp [acceptReplay, hp]
  obtain ⟨action, fence', ha, -, hn, -⟩ :=
    acceptReplay_cases hp sequences boundary
  rw [ha]
  exact hn

theorem watermarked_acceptReplay (hm : fence.Watermarked) (sequences : List Nat)
    (boundary : Bool) : (fence.acceptReplay sequences boundary).2.Watermarked := by
  rcases hp : fence.pending with _ | pending
  · simpa [acceptReplay, hp] using hm
  obtain ⟨action, fence', ha, hn, -, -⟩ :=
    acceptReplay_cases hp sequences boundary
  rw [ha]
  exact watermarked_of_none hn

theorem watermarked_prepareFullReplay (hm : fence.Watermarked) (through : Nat) :
    (fence.prepareFullReplay through).2.Watermarked := by
  unfold prepareFullReplay
  split
  · exact hm
  case isFalse hcan =>
    simp only [canPrepareFullReplay, Bool.not_eq_true, Bool.not_eq_false', Bool.and_eq_true,
      decide_eq_true_eq] at hcan
    rintro _ ⟨⟩
    exact congrArg some (saturatingAdd_of_lt (by omega)).symm

end KvEventFence

namespace FencedExactKvInventory
open KvEventFence
variable {self : FencedExactKvInventory} {seq : Nat} {batch : KvEventBatch}

theorem fence_perform (self : FencedExactKvInventory) (batch : KvEventBatch)
    (action : IngestAction) : (self.perform batch action).2.fence = self.fence ∨
      (self.perform batch action).1.isOk = false ∧
        (self.perform batch action).2.fence = self.fence.generationChanged := by
  have ha : ∀ self : FencedExactKvInventory, (self.applyAuthoritative batch).2.fence = self.fence ∨
        (self.applyAuthoritative batch).1.isOk = false ∧
          (self.applyAuthoritative batch).2.fence = self.fence.generationChanged := by
    intro self
    unfold applyAuthoritative
    split
    · exact .inl rfl
    · exact .inr ⟨rfl, rfl⟩
  have hm : ∀ result : Except ExactIndexError BatchApplySummary,
      (result.map LiveBatchOutcome.applied).isOk = result.isOk := by
    intro result
    cases result <;> rfl
  cases action with
  | apply =>
    rw [perform, hm]
    exact ha self
  | resetAndApply =>
    rw [perform, hm]
    exact ha { self with inventory := self.inventory.clear }
  | duplicate => exact .inl rfl
  | observeOnly => exact .inl rfl
  | replay start through => exact .inl rfl
  | unrecoverableGap => exact .inl rfl

theorem fence_ingestLive (self : FencedExactKvInventory) (seq : Nat) (batch : KvEventBatch) :
    let fence := (self.fence.ingest seq batch.clearsAll).2
    (self.ingestLive seq batch).2.fence = fence ∨ (self.ingestLive seq batch).1.isOk = false ∧
        (self.ingestLive seq batch).2.fence = fence.generationChanged := by
  rcases hi : self.fence.ingest seq batch.clearsAll with ⟨action, fence⟩
  obtain ⟨h1, h2, -⟩ := self.ingestLive_eq seq batch hi
  rw [h1, h2]
  exact fence_perform { self with fence } batch action

theorem fence_ingestReplay (self : FencedExactKvInventory) (batches : List (Nat × KvEventBatch)) :
    let fence := (self.fence.acceptReplay (batches.map Prod.fst)
      (batches.any fun batch => batch.2.clearsAll)).2
    (self.ingestReplay batches).2.fence = fence ∨ (self.ingestReplay batches).1.isOk = false ∧
        (self.ingestReplay batches).2.fence = fence.generationChanged := by
  unfold ingestReplay
  dsimp only
  split
  · exact .inl rfl
  · exact .inl rfl
  · split
    · exact .inl rfl
    · exact .inr ⟨rfl, rfl⟩

theorem fence_commitFullReplay (self : FencedExactKvInventory) (stage : FullReplayStage) :
    (self.commitFullReplay stage).2.fence =
        (self.fence.acceptReplay stage.sequences stage.establishesBoundary).2 ∨
      (self.commitFullReplay stage).1.isOk = false ∧
        (self.commitFullReplay stage).2.fence = self.fence.generationChanged := by
  unfold commitFullReplay
  split
  · exact .inr ⟨rfl, rfl⟩
  dsimp only
  split
  · exact .inl rfl
  · exact .inl rfl
  · exact .inl rfl

theorem ingestLive_below {n : Nat} (hm : self.fence.Watermarked)
    (hn : self.fence.nextSequence = some n) (hl : seq < n)
    (hc : batch.clearsAll = false) : (self.ingestLive seq batch).2 = self := by
  simp only [ingestLive, hc, ingest_below hm hn hl, perform]

end FencedExactKvInventory

namespace FencedCall
open KvEventFence FencedExactKvInventory
variable {log : PublishedLog} {self : FencedExactKvInventory} {call : FencedCall}

def FromLog (log : PublishedLog) : FencedCall → Prop
  | ingestLive sequence batch => (sequence, batch) ∈ log.batches
  | ingestReplay batches | fullReplay batches => ∀ batch ∈ batches, batch ∈ log.batches
  | generationChanged | prepareFullReplayRetry _ => True

def Forward (self : FencedExactKvInventory) : FencedCall → Prop
  | ingestLive sequence batch => batch.clearsAll →
      ∀ n, self.fence.nextSequence = some n → n ≤ sequence
  | ingestReplay _ | fullReplay _ | generationChanged | prepareFullReplayRetry _ => True

/-- The call is `generation_changed` or `prepare_full_replay_retry`, or it makes the fence
start over by itself, which it does when it returns an error. -/
def StartsOver (self : FencedExactKvInventory) : FencedCall → Prop
  | ingestLive sequence batch => (self.ingestLive sequence batch).1.isOk = false
  | ingestReplay batches => (self.ingestReplay batches).1.isOk = false
  | fullReplay batches => (self.commitFullReplay (stage self batches)).1.isOk = false
  | generationChanged | prepareFullReplayRetry _ => True

def runs (log : PublishedLog) (replayLimit : Nat) (limits : ExactIndexLimits) :
    TransitionSystem FencedExactKvInventory FencedCall where
  init self := self = .new replayLimit limits
  step self call self' := call.FromLog log ∧ self' = call.next self

theorem watermarked_generationChanged (fence : KvEventFence) :
    fence.generationChanged.Watermarked := watermarked_of_none rfl

theorem watermarked_next (hm : self.fence.Watermarked) (call : FencedCall) :
    (call.next self).fence.Watermarked := by
  cases call with
  | ingestLive seq batch =>
    rcases fence_ingestLive self seq batch with h | ⟨-, h⟩
    · rw [next, h]
      exact watermarked_ingest hm
    · rw [next, h]
      exact watermarked_generationChanged _
  | ingestReplay batches =>
    rcases fence_ingestReplay self batches with h | ⟨-, h⟩
    · rw [next, h]
      exact watermarked_acceptReplay hm _ _
    · rw [next, h]
      exact watermarked_generationChanged _
  | fullReplay batches =>
    rcases fence_commitFullReplay self (stage self batches) with h | ⟨-, h⟩
    · rw [next, h]
      exact watermarked_acceptReplay hm _ _
    · rw [next, h]
      exact watermarked_generationChanged _
  | generationChanged => exact watermarked_generationChanged _
  | prepareFullReplayRetry through =>
    exact watermarked_prepareFullReplay (watermarked_generationChanged _) through

theorem advances_next (hm : self.fence.Watermarked) (hl : call.FromLog log) (hf : call.Forward self)
    (hk : ¬ call.StartsOver self) : Advances self.fence (call.next self).fence := by
  cases call with
  | ingestLive seq batch =>
    rcases fence_ingestLive self seq batch with h | ⟨ho, -⟩
    · rw [next, h]
      exact advances_ingest hm (log.sequence_le _ hl) hf
    · exact absurd ho hk
  | ingestReplay batches =>
    rcases fence_ingestReplay self batches with h | ⟨ho, -⟩
    · rw [next, h]
      exact .of_eq (nextSequence_acceptReplay _ _)
    · exact absurd ho hk
  | fullReplay batches =>
    rcases fence_commitFullReplay self (stage self batches) with h | ⟨ho, -⟩
    · rw [next, h]
      exact .of_eq (nextSequence_acceptReplay _ _)
    · exact absurd ho hk
  | generationChanged => exact absurd trivial hk
  | prepareFullReplayRetry through => exact absurd trivial hk

variable {replayLimit : Nat} {limits : ExactIndexLimits}

theorem watermarked_of_reachable (h : (runs log replayLimit limits).Reachable self) :
    self.fence.Watermarked := by
  refine h.invariant (P := fun self => self.fence.Watermarked) ?_ fun _ call _ hm hs => ?_
  · rintro _ rfl
    exact watermarked_of_none rfl
  · rw [hs.2]
    exact watermarked_next hm call

theorem advances_of_steps {self' : FencedExactKvInventory} (hm : self.fence.Watermarked)
    (h : ((runs log replayLimit limits).restrict fun self call =>
      call.Forward self ∧ ¬ call.StartsOver self).Steps self self') :
    self'.fence.Watermarked ∧ Advances self.fence self'.fence := by
  induction h with
  | refl => exact ⟨hm, .refl _⟩
  | @tail middle _ call _ hs ih =>
    obtain ⟨⟨hf, hk⟩, hl, rfl⟩ := hs
    exact ⟨watermarked_next ih.1 call, ih.2.trans (advances_next ih.1 hl hf hk)⟩

/-- In every run in which no clear is delivered below the watermark, delivering a batch
again changes nothing, and the watermark does not go back. -/
theorem redelivery_harmless (log : PublishedLog) (replayLimit : Nat) (limits : ExactIndexLimits)
    {self : FencedExactKvInventory}
    (h : ((runs log replayLimit limits).restrict fun self call => call.Forward self).Reachable
      self) :
    (∀ sequence batch n, (sequence, batch) ∈ log.batches →
      self.fence.nextSequence = some n → sequence < n → Forward self (ingestLive sequence batch) →
      (self.ingestLive sequence batch).2.fence.nextSequence = self.fence.nextSequence ∧
      (self.ingestLive sequence batch).2.trusted = self.trusted ∧
      ∀ tokenIds, (self.ingestLive sequence batch).2.findLongest tokenIds =
        self.findLongest tokenIds) ∧
    ∀ self', ((runs log replayLimit limits).restrict fun self call =>
      call.Forward self ∧ ¬ call.StartsOver self).Steps self self' →
      Advances self.fence self'.fence := by
  have hm := watermarked_of_reachable h.of_restrict
  refine ⟨fun sequence batch n _ hn ht hf => ?_, fun self' hs => ?_⟩
  · have hl : batch.clearsAll = false := by
      by_contra hc
      have hg := hf (by simpa using hc) n hn
      omega
    rw [ingestLive_below hm hn ht hl]
    exact ⟨rfl, rfl, fun _ => rfl⟩
  · exact (advances_of_steps hm hs).2

def clearedLog : PublishedLog where
  batches := [(0, ⟨[.allBlocksCleared], none⟩), (1, ⟨[.blockStored ReplayState.firstStore], none⟩)]
  rank := 0
  increasing := by decide
  one_rank := by decide
  sequence_le := by decide

/-- Both batches have been delivered. -/
def delivered : FencedExactKvInventory :=
  next (next (.new 4 ⟨8, 8, 8⟩) (.ingestLive 0 ⟨[.allBlocksCleared], none⟩))
    (.ingestLive 1 ⟨[.blockStored ReplayState.firstStore], none⟩)

theorem delivered_forward :
    ((runs clearedLog 4 ⟨8, 8, 8⟩).restrict fun self call => call.Forward self).Reachable
      delivered := by
  refine .step (.step (.init rfl) ⟨?_, ?_, rfl⟩) ⟨?_, ?_, rfl⟩
  · exact nofun
  · exact List.mem_cons_self
  · exact nofun
  · exact List.mem_cons_of_mem _ List.mem_cons_self

theorem redelivery_harmless_delivered : delivered.fence.nextSequence = some 2 ∧
      (delivered.ingestLive 1 ⟨[.blockStored ReplayState.firstStore], none⟩).2.fence.nextSequence =
        some 2 ∧
      ∀ tokenIds, (delivered.ingestLive 1
        ⟨[.blockStored ReplayState.firstStore], none⟩).2.findLongest tokenIds =
          delivered.findLongest tokenIds := by
  have hn : delivered.fence.nextSequence = some 2 := by decide
  obtain ⟨hs, -, hf⟩ := (redelivery_harmless clearedLog 4 ⟨8, 8, 8⟩ delivered_forward).1
    1 ⟨[.blockStored ReplayState.firstStore], none⟩ 2 (by decide) hn (by decide)
    nofun
  exact ⟨hn, hs.trans hn, hf⟩

/-- The clear is delivered again: the watermark goes back to one and the block is gone,
while the inventory is still trusted. -/
theorem redelivered_clear_goes_back : (runs clearedLog 4 ⟨8, 8, 8⟩).Reachable delivered ∧
      (0, ⟨[.allBlocksCleared], none⟩) ∈ clearedLog.batches ∧
      delivered.fence.nextSequence = some 2 ∧
      delivered.findLongest [1, 2] = .ok (some ⟨1, 2⟩) ∧
      (delivered.ingestLive 0 ⟨[.allBlocksCleared], none⟩).2.fence.nextSequence = some 1 ∧
      (delivered.ingestLive 0 ⟨[.allBlocksCleared], none⟩).2.trusted ∧
      (delivered.ingestLive 0 ⟨[.allBlocksCleared], none⟩).2.findLongest [1, 2] =
        .ok (some ⟨0, 0⟩) := by
  refine ⟨delivered_forward.of_restrict, List.mem_cons_self, ?_⟩
  decide

end FencedCall
end Ramjet
