import Ramjet.ReplayAgreement

/-!
# Runs over one engine's log

Live batches arrive in any order, with losses and duplicates; replays are answered from
the log. Whenever the fence is trusted, the index is the one the log builds.
-/

namespace Ramjet
open FencedExactKvInventory List EngineLog
namespace EngineLog
variable {batches : List (Nat × KvEventBatch)} {start through : Nat} {batch : KvEventBatch}
  {seq : Nat} {act act' : ExactKvInventory} {past : List KvEvent}

theorem filter_lt_append {start stop : Nat} (hs : batches.Pairwise fun a b => a.1 < b.1)
    (he : start ≤ stop) : batches.filter (·.1 < stop) = batches.filter (·.1 < start) ++
      batches.filter (fun batch => start ≤ batch.1 ∧ batch.1 < stop) := by
  induction batches with
  | nil => rfl
  | cons batch rest ih =>
    rw [pairwise_cons] at hs
    have hi := ih hs.2
    by_cases hl : batch.1 < start
    · rw [filter_cons_of_pos (by simp only [decide_eq_true_eq]; omega),
        filter_cons_of_pos (by simpa using hl),
        filter_cons_of_neg (by simp only [decide_eq_true_eq]; omega), hi, cons_append]
    have hg : ∀ other ∈ batch :: rest, start ≤ other.1 := by
      intro other ho
      rcases mem_cons.1 ho with rfl | ho
      · omega
      · have := hs.1 other ho
        omega
    have hn : (batch :: rest).filter (·.1 < start) = [] := by
      rw [filter_eq_nil_iff]
      intro other ho
      simpa using hg other ho
    rw [hn, nil_append]
    refine filter_congr fun other ho => ?_
    simp [hg other ho]

theorem filter_eq_singleton {batch : Nat × KvEventBatch}
    (hs : batches.Pairwise fun a b => a.1 < b.1) (h : batch ∈ batches) :
    batches.filter (fun other => batch.1 ≤ other.1 ∧ other.1 ≤ batch.1) = [batch] := by
  induction batches with
  | nil => cases h
  | cons head rest ih =>
    rw [pairwise_cons] at hs
    rcases mem_cons.1 h with rfl | h
    · have hr : rest.filter (fun other => batch.1 ≤ other.1 ∧ other.1 ≤ batch.1) = [] := by
        rw [filter_eq_nil_iff]
        intro other ho
        have := hs.1 other ho
        simp only [decide_eq_true_eq]
        omega
      rw [filter_cons_of_pos (by simp), hr]
    · have hl := hs.1 _ h
      rw [filter_cons_of_neg (by simp only [decide_eq_true_eq]; omega)]
      exact ih hs.2 h

variable {log : EngineLog}

theorem before_zero (log : EngineLog) : log.before 0 = [] := by
  simp [before]

theorem before_append_range (log : EngineLog) (h : start ≤ through + 1) : log.before (through + 1) =
      log.before start ++ (log.range start through).flatMap (·.2.events) := by
  rw [before, before, range, filter_lt_append log.increasing h, flatMap_append]
  congr 3
  funext batch
  simp only [Nat.lt_succ_iff]

section
variable (h : (seq, batch) ∈ log.batches)
include h

theorem range_self : log.range seq seq = [(seq, batch)] :=
  filter_eq_singleton log.increasing h

theorem before_succ : log.before (seq + 1) = log.before seq ++ batch.events := by
  rw [before_append_range log (Nat.le_succ _), range_self h]
  simp

theorem has_of_mem : ∀ event ∈ batch.events, log.Has event :=
  fun _ he => ⟨(seq, batch), h, he⟩

end

theorem mem_of_range {batch : Nat × KvEventBatch}
    (h : batch ∈ log.range start through) : batch ∈ log.batches :=
  (mem_filter.1 h).1

theorem tracks_applyBatch {limits : ExactIndexLimits} {summary : BatchApplySummary}
    (hs : act.Sane limits) (hm : (seq, batch) ∈ log.batches)
    (h : act.applyBatch batch = (.ok summary, act')) :
    act'.Sane limits ∧ (log.Tracks limits act past ∨ batch.clearsAll →
      log.Tracks limits act' (past ++ batch.events)) := by
  rw [ExactKvInventory.applyBatch, log.one_rank _ hm] at h
  rw [KvEventBatch.clearsAll_iff]
  exact tracks_applyEvents hs (has_of_mem hm) h

theorem tracks_applyBatches {limits : ExactIndexLimits} {summary summary' : BatchApplySummary}
    (hs : act.Sane limits) (hm : ∀ batch ∈ batches, batch ∈ log.batches)
    (h : act.applyBatches summary batches = (.ok summary', act')) : act'.Sane limits ∧
      (log.Tracks limits act past ∨ (batches.any fun batch => batch.2.clearsAll) →
        log.Tracks limits act' (past ++ batches.flatMap (·.2.events))) := by
  induction batches generalizing act summary past with
  | nil =>
    cases h
    exact ⟨hs, by simp⟩
  | cons entry rest ih =>
    obtain ⟨seq, batch⟩ := entry
    simp only [forall_mem_cons] at hm
    rw [ExactKvInventory.applyBatches] at h
    rcases ha : act.applyBatch batch with ⟨error | applied, next⟩
    · rw [ha] at h
      cases h
    rw [ha] at h
    obtain ⟨hs', ht'⟩ := @tracks_applyBatch _ _ _ _ past _ _ _ hs hm.1 ha
    rw [flatMap_cons, ← append_assoc]
    refine ⟨(@ih _ past _ hs' hm.2 h).1, fun ht => (ih hs' hm.2 h).2 ?_⟩
    rw [any_cons, Bool.or_eq_true] at ht
    rcases ht with ht | ht | ht
    · exact .inl (ht' (.inl ht))
    · exact .inl (ht' (.inr ht))
    · exact .inr ht

end EngineLog

/-- A replay the run still has to answer, or may answer after a retry. -/
structure OwedReplay where
  start : Nat
  through : Nat
  required : Bool

structure ReplayState where
  inventory : FencedExactKvInventory
  owed : Option OwedReplay

inductive ReplayStep where
  | live (sequence : Nat) (batch : KvEventBatch)
  | answer
  | generationChanged
  | prepareRetry (through : Nat)

namespace ReplayState

def next (log : EngineLog) (s : ReplayState) : ReplayStep → Option ReplayState
  | .live sequence batch =>
    if (sequence, batch) ∈ log.batches ∧ s.owed.all (!·.required) then
      let (outcome, inventory) := s.inventory.ingestLive sequence batch
      some ⟨inventory, match outcome with
        | .ok (.replay start through) => some ⟨start, through, true⟩
        | _ => none⟩
    else none
  | .answer =>
    s.owed.map fun owed =>
      let batches := log.range owed.start owed.through
      if owed.start = 0 then
        -- the stage reads the limits only, so it may as well begin now
        ⟨(s.inventory.commitFullReplay (s.inventory.beginFullReplay.ingestAll batches)).2, none⟩
      else ⟨(s.inventory.ingestReplay batches).2, none⟩
  | .generationChanged => some ⟨s.inventory.generationChanged, none⟩
  | .prepareRetry through =>
    let (prepared, inventory) := s.inventory.prepareFullReplayRetry through
    some ⟨inventory, if prepared then some ⟨0, through, false⟩ else none⟩

def system (log : EngineLog) (replayLimit : Nat) (limits : ExactIndexLimits) :
    TransitionSystem ReplayState ReplayStep where
  init s := s = ⟨.new replayLimit limits, none⟩
  step s a s' := s.next log a = some s'

end ReplayState

open Option

/-- What the fence says about the inventory behind it. -/
structure FenceInvariant (log : EngineLog) (limits : ExactIndexLimits) (fence : KvEventFence)
    (inventory : ExactKvInventory) : Prop where
  sane : inventory.Sane limits
  fresh : fence.nextSequence = none →
    fence.trustedFlag = false ∧ fence.pending = none ∧ log.Tracks limits inventory []
  trusted : fence.trustedFlag → fence.pending = none ∧
    ∃ sequence, fence.nextSequence = some sequence ∧
      log.Tracks limits inventory (log.before sequence)
  pending : ∀ pending, fence.pending = some pending →
    fence.nextSequence = some (pending.through + 1) ∧ pending.start ≤ pending.through ∧
      (pending.restoreTrust → 0 < pending.start →
        log.Tracks limits inventory (log.before pending.start))

section Fence
variable {log : EngineLog} {limits : ExactIndexLimits} {fence : KvEventFence}
  {inventory : ExactKvInventory}

theorem sane_resetGeneration (h : inventory.index.limits = limits) :
    inventory.resetGeneration.Sane limits :=
  ⟨h, Nat.zero_le _⟩

theorem FenceInvariant.of_untrusted (hs : inventory.Sane limits)
    (hf : fence.trustedFlag = false) (hp : fence.pending = none)
    (hn : fence.nextSequence ≠ none) : FenceInvariant log limits fence inventory where
  sane := hs
  fresh h := absurd h hn
  trusted h := by simp [hf] at h
  pending _ h := by simp [hp] at h

variable {seq : Nat} {batch : KvEventBatch} {self : FencedExactKvInventory}
  {pending : PendingReplay}

theorem FenceInvariant.of_tracks (hs : inventory.Sane limits) (hp : fence.pending = none)
    (hn : fence.nextSequence = some seq) (ht : log.Tracks limits inventory (log.before seq)) :
    FenceInvariant log limits fence inventory where
  sane := hs
  fresh h := by simp [hn] at h
  trusted _ := ⟨hp, seq, hn, ht⟩
  pending _ h := by simp [hp] at h

theorem FenceInvariant.of_pending (hs : inventory.Sane limits) (hf : fence.trustedFlag = false)
    (hp : fence.pending = some pending) (hn : fence.nextSequence = some (pending.through + 1))
    (hl : pending.start ≤ pending.through)
    (ht : pending.restoreTrust → 0 < pending.start →
      log.Tracks limits inventory (log.before pending.start)) :
    FenceInvariant log limits fence inventory where
  sane := hs
  fresh h := by simp [hn] at h
  trusted h := by simp [hf] at h
  pending _ h := by
    cases hp.symm.trans h
    exact ⟨hn, hl, ht⟩

theorem FenceInvariant.reset (fence : KvEventFence) (h : inventory.index.limits = limits) :
    FenceInvariant log limits fence.generationChanged inventory.resetGeneration where
  sane := sane_resetGeneration h
  fresh _ := ⟨rfl, rfl, log.tracks_of_empty (by rw [← h]; rfl) rfl⟩
  trusted h := by simp [KvEventFence.generationChanged] at h
  pending _ h := by simp [KvEventFence.generationChanged] at h

theorem FenceInvariant.authoritative (hs : self.inventory.Sane limits)
    (hp : self.fence.pending = none) (hn : self.fence.nextSequence = some (seq + 1))
    (hm : (seq, batch) ∈ log.batches)
    (ht : log.Tracks limits self.inventory (log.before seq) ∨ batch.clearsAll) :
    FenceInvariant log limits (self.applyAuthoritative batch).2.fence
      (self.applyAuthoritative batch).2.inventory := by
  unfold applyAuthoritative
  rcases ha : self.inventory.applyBatch batch with ⟨error | summary, inventory⟩
  · have hl := self.inventory.limits_applyBatch batch
    rw [ha] at hl
    exact .reset _ (hl.trans hs.limits_eq)
  obtain ⟨hs', ht'⟩ := tracks_applyBatch hs hm ha
  refine .of_tracks hs' hp hn ?_
  rw [before_succ hm]
  exact ht' ht

theorem FenceInvariant.live (hi : FenceInvariant log limits self.fence self.inventory)
    (hm : (seq, batch) ∈ log.batches) :
    FenceInvariant log limits (self.ingestLive seq batch).2.fence
      (self.ingestLive seq batch).2.inventory := by
  have hb : saturatingAdd seq 1 = seq + 1 :=
    saturatingAdd_of_lt (Nat.succ_le_of_lt (log.below_max _ hm))
  rcases hg : self.fence.ingest seq batch.clearsAll with ⟨action, fence⟩
  obtain ⟨-, h2, h3⟩ := self.ingestLive_eq seq batch hg
  rw [h2, h3]
  clear h2 h3
  have hs := hi.sane
  -- a gap beyond the replay budget empties the inventory
  have ha : ∀ {fence : KvEventFence}, fence.trustedFlag = false → fence.pending = none →
      fence.nextSequence ≠ none →
      FenceInvariant log limits fence self.inventory.resetGeneration := fun h1 h2 h3 =>
    .of_untrusted (sane_resetGeneration hs.limits_eq) h1 h2 h3
  simp only [KvEventFence.ingest, hb] at hg
  split at hg
  · -- the batch establishes a boundary of its own
    rename_i hc
    cases hg
    exact .authoritative ⟨hs.limits_eq, hs.bounded⟩ rfl rfl hm (.inr hc)
  split at hg
  next pending hd =>
    obtain ⟨hx, hl, ht⟩ := hi.pending pending hd
    split at hg
    · cases hg
      exact hi
    split at hg
    · cases hg
      exact ha rfl rfl (some_ne_none _)
    cases hg
    have hf : self.fence.trustedFlag = false := by
      by_contra h
      have := (hi.trusted (by simpa using h)).1
      simp [hd] at this
    exact .of_pending hs hf rfl rfl (by dsimp only; omega) ht
  rename_i hd
  split at hg
  next hx =>
    obtain ⟨hf, -, ht⟩ := hi.fresh hx
    split at hg
    next hz =>
      cases hg
      subst hz
      refine .authoritative hs hd rfl hm (.inl ?_)
      rw [before_zero]
      exact ht
    split at hg
    · cases hg
      exact .of_pending hs hf rfl rfl (Nat.zero_le _) fun _ h => absurd h (Nat.lt_irrefl 0)
    · cases hg
      exact .of_untrusted hs hf hd (some_ne_none _)
  rename_i expected hx
  split at hg
  · cases hg
    exact hi
  split at hg
  next heq =>
    subst heq
    rcases hf : self.fence.trustedFlag
    · rw [hf] at hg
      cases hg
      exact .of_untrusted hs rfl hd (some_ne_none _)
    rw [hf] at hg
    cases hg
    obtain ⟨-, expected, he, ht⟩ := hi.trusted hf
    rw [hx, some.injEq] at he
    subst he
    exact .authoritative hs hd rfl hm (.inl ht)
  split at hg
  · cases hg
    exact ha rfl rfl (some_ne_none _)
  cases hg
  refine .of_pending hs rfl rfl rfl (by dsimp only; omega) fun hr _ => ?_
  obtain ⟨-, n, hn, ht⟩ := hi.trusted hr
  rw [hx, some.injEq] at hn
  subst hn
  exact ht

theorem FenceInvariant.replay (hi : FenceInvariant log limits self.fence self.inventory)
    (hp : self.fence.pending = some pending) (hc : 0 < pending.start) :
    FenceInvariant log limits (self.ingestReplay (log.range pending.start pending.through)).2.fence
      (self.ingestReplay (log.range pending.start pending.through)).2.inventory := by
  obtain ⟨hx, he, hk⟩ := hi.pending pending hp
  obtain ⟨action, fence, hd, hn, hm, hg⟩ :=
    KvEventFence.acceptReplay_cases hp ((log.range pending.start pending.through).map Prod.fst)
      ((log.range pending.start pending.through).any fun batch => batch.2.clearsAll)
  have hb : fence.nextSequence ≠ none := by simp [hm, hx]
  simp only [ingestReplay, hd]
  rcases hg with ⟨rfl, hf, hr⟩ | ⟨hj, hf⟩
  · rcases ha : self.inventory.applyBatches .zero
      (log.range pending.start pending.through) with ⟨error | summary, inventory⟩
    · have hl := self.inventory.limits_applyBatches .zero (log.range pending.start pending.through)
      rw [ha] at hl
      exact .reset _ (hl.trans hi.sane.limits_eq)
    obtain ⟨hs, ht⟩ := tracks_applyBatches hi.sane (fun _ => mem_of_range) ha
    refine .of_tracks hs hn (hm.trans hx) ?_
    rw [log.before_append_range (Nat.le_succ_of_le he)]
    exact ht (hr.imp_left fun h => hk h hc)
  · cases action with
    | recovered => exact absurd rfl hj
    | recoveredObserveOnly => exact .of_untrusted hi.sane hf hn hb
    | invalid =>
      exact .of_untrusted (sane_resetGeneration hi.sane.limits_eq) hf hn hb

theorem FenceInvariant.fullReplay (hi : FenceInvariant log limits self.fence self.inventory)
    (hp : self.fence.pending = some pending) : FenceInvariant log limits
      (self.commitFullReplay (self.beginFullReplay.ingestAll (log.range 0 pending.through))).2.fence
      (self.commitFullReplay
        (self.beginFullReplay.ingestAll (log.range 0 pending.through))).2.inventory := by
  obtain ⟨hx, -, -⟩ := hi.pending pending hp
  rcases he : (self.beginFullReplay.ingestAll (log.range 0 pending.through)).error with _ | error
  · obtain ⟨action, fence, hc, hn, hm, hd⟩ :=
      KvEventFence.acceptReplay_cases hp
        (self.beginFullReplay.ingestAll (log.range 0 pending.through)).sequences
        (self.beginFullReplay.ingestAll (log.range 0 pending.through)).establishesBoundary
    have hb : fence.nextSequence ≠ none := by simp [hm, hx]
    simp only [commitFullReplay, he, hc]
    rcases hd with ⟨rfl, hf, -⟩ | ⟨hg, hf⟩
    · have ha := FullReplayStage.applyBatches_of_ingestAll he
      have hs : (ExactKvInventory.new limits).Sane limits := ⟨rfl, Nat.zero_le _⟩
      simp only [beginFullReplay, FullReplayStage.new, hi.sane.limits_eq] at ha ⊢
      obtain ⟨hs, ht⟩ := tracks_applyBatches hs (fun _ => mem_of_range) ha
      refine .of_tracks hs hn (hm.trans hx) ?_
      rw [log.before_append_range (Nat.zero_le _), before_zero]
      exact ht (.inl (log.tracks_of_empty rfl rfl))
    · cases action with
      | recovered => exact absurd rfl hg
      | recoveredObserveOnly => exact .of_untrusted hi.sane hf hn hb
      | invalid =>
        exact .of_untrusted (sane_resetGeneration hi.sane.limits_eq) hf hn hb
  · simp only [commitFullReplay, he]
    exact .reset _ hi.sane.limits_eq

theorem FenceInvariant.prepareRetry (hi : FenceInvariant log limits self.fence self.inventory)
    (through : Nat) : FenceInvariant log limits (self.prepareFullReplayRetry through).2.fence
      (self.prepareFullReplayRetry through).2.inventory := by
  have hr : FenceInvariant log limits self.fence.generationChanged
      self.inventory.resetGeneration := .reset _ hi.sane.limits_eq
  simp only [prepareFullReplayRetry, KvEventFence.prepareFullReplay]
  split
  · exact hr
  exact .of_pending hr.sane rfl rfl rfl (Nat.zero_le _) fun _ h => absurd h (Nat.lt_irrefl 0)

end Fence

namespace ReplayState

structure Invariant (log : EngineLog) (limits : ExactIndexLimits) (s : ReplayState) : Prop where
  fence : FenceInvariant log limits s.inventory.fence s.inventory.inventory
  owed : ∀ owed, s.owed = some owed → ∃ pending, s.inventory.fence.pending = some pending ∧
    pending.start = owed.start ∧ pending.through = owed.through

theorem invariant_step {log : EngineLog} {limits : ExactIndexLimits} {s s' : ReplayState}
    {a : ReplayStep} (hi : Invariant log limits s) (h : s.next log a = some s') :
    Invariant log limits s' := by
  cases a with
  | live seq batch =>
    simp only [next] at h
    split at h
    next hm =>
      cases h
      refine ⟨hi.fence.live hm.1, fun owed ho => ?_⟩
      simp only at ho
      split at ho
      next hrp =>
        cases ho
        exact pending_of_replay hrp
      · cases ho
    · cases h
  | answer =>
    simp only [next, map_eq_some_iff] at h
    obtain ⟨owed, ho, h⟩ := h
    obtain ⟨pending, hp, ha, ht⟩ := hi.owed owed ho
    split at h
    next hz =>
      subst h
      refine ⟨?_, by simp⟩
      rw [hz, ← ht]
      exact hi.fence.fullReplay hp
    next hn =>
      subst h
      refine ⟨?_, by simp⟩
      rw [← ha, ← ht]
      exact hi.fence.replay hp (by omega)
  | generationChanged =>
    cases h
    exact ⟨.reset _ hi.fence.sane.limits_eq, by simp⟩
  | prepareRetry through =>
    simp only [next, some.injEq] at h
    subst h
    refine ⟨hi.fence.prepareRetry through, fun owed ho => ?_⟩
    simp only [ite_none_right_eq_some, some.injEq] at ho
    obtain ⟨hb, rfl⟩ := ho
    exact ⟨_, pending_of_prepare hb, rfl, rfl⟩

theorem invariant_of_reachable {log : EngineLog} {replayLimit : Nat} {limits : ExactIndexLimits}
    {s : ReplayState} (h : (system log replayLimit limits).Reachable s) :
    Invariant log limits s := by
  refine h.invariant ?_ fun s a s' hi hsp => invariant_step hi hsp
  rintro s rfl
  refine ⟨⟨⟨rfl, Nat.zero_le _⟩, fun _ => ⟨rfl, rfl, log.tracks_of_empty rfl rfl⟩, ?_, ?_⟩, ?_⟩
  · simp [new, KvEventFence.new]
  · simp [new, KvEventFence.new]
  · simp

/-- In every reachable trusted state, lookups answer as an inventory that was
fed, from empty, the log's events after the last clear below the watermark. -/
theorem trusted_matches_log (log : EngineLog) (replayLimit : Nat) (limits : ExactIndexLimits)
    {s : ReplayState} (hreach : (system log replayLimit limits).Reachable s)
    (htrusted : s.inventory.trusted) :
    ∃ next summary reference, s.inventory.fence.nextSequence = some next ∧
      (ExactKvInventory.new limits).applyEvents log.rank .zero
        (sinceClear (log.before next)) = (.ok summary, reference) ∧
      ∀ tokenIds, s.inventory.findLongest tokenIds = (reference.findLongest tokenIds).map some := by
  obtain ⟨hi, -⟩ := invariant_of_reachable hreach
  have hl : s.inventory.fence.trustedFlag := by
    simp only [trusted, KvEventFence.trusted, Bool.and_eq_true] at htrusted
    exact htrusted.1
  obtain ⟨-, next, hn, summary, reference, ha, hc, -⟩ := hi.trusted hl
  refine ⟨next, summary, reference, hn, ha, fun tokenIds => ?_⟩
  have hf : s.inventory.fence.trusted := htrusted
  simp [findLongest, hf, ExactKvInventory.findLongest, hc.index]

/-- A block of two tokens, the engine's first event. -/
def firstStore : BlockStored where
  blockHashes := [.unsigned 7]
  parentBlockHash := none
  tokenIds := [1, 2]
  blockSize := 2
  groupIdx := none
  kvCacheSpecKind := none
  medium := some "GPU"
  locality := none
  loraName := none
  cacheNamespace := none
  hasExtraKeys := false

def sampleBatches : List (Nat × KvEventBatch) :=
  [(0, ⟨[.blockStored firstStore], none⟩),
    (1, ⟨[.blockStored { firstStore with
      blockHashes := [.unsigned 8], parentBlockHash := some (.unsigned 7), tokenIds := [3, 4] }],
      none⟩),
    (2, ⟨[], none⟩), (3, ⟨[.allBlocksCleared, .blockStored firstStore], none⟩)]

def sampleLog : EngineLog where
  batches := sampleBatches
  rank := 0
  increasing := by decide
  below_max := by decide
  one_rank := by decide
  tagged := by simp [sampleBatches, firstStore]
  one_group := by simp [sampleBatches]

/-- A gap that a replay closes, and a clear. -/
def sampleSteps : List ReplayStep :=
  [.live 0 ⟨[.blockStored firstStore], none⟩, .live 2 ⟨[], none⟩, .answer,
    .live 3 ⟨[.allBlocksCleared, .blockStored firstStore], none⟩]

theorem trusted_matches_log_sample : ∃ s : ReplayState,
    sampleSteps.foldlM (next sampleLog) ⟨.new 4 ⟨8, 8, 8⟩, none⟩ = some s ∧
      s.inventory.trusted ∧ s.inventory.findLongest [1, 2, 3, 4] = .ok (some ⟨1, 2⟩) ∧
      ∃ next summary reference, s.inventory.fence.nextSequence = some next ∧
        (ExactKvInventory.new ⟨8, 8, 8⟩).applyEvents sampleLog.rank .zero
          (sinceClear (sampleLog.before next)) = (.ok summary, reference) ∧
        ∀ tokenIds, s.inventory.findLongest tokenIds =
          (reference.findLongest tokenIds).map some := by
  have hu : (sampleSteps.foldlM (next sampleLog) ⟨.new 4 ⟨8, 8, 8⟩, none⟩).any
      (fun s => s.inventory.trusted ∧
        s.inventory.findLongest [1, 2, 3, 4] = .ok (some ⟨1, 2⟩)) = true := by decide +kernel
  obtain ⟨s, hs, hp⟩ := (Option.any_eq_true _ _).1 hu
  obtain ⟨ht, hf⟩ := of_decide_eq_true hp
  refine ⟨s, hs, ht, hf, trusted_matches_log sampleLog 4 ⟨8, 8, 8⟩ ?_ ht⟩
  exact .foldlM (fun _ _ _ h => h) (.init rfl) hs

end ReplayState
end Ramjet
