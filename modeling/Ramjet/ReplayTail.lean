import Ramjet.CompanionOwner

/-!
# The tail of a full replay

Batches beyond the requested range pass the fence one by one. A skipped number opens a
gap until a batch clears all or the tail ends.
-/

namespace Ramjet

/-- The maximal runs of a tail without a clear: the first, and after each clear the number due
there with the run that follows. -/
def clearFreeRuns : List (Nat × Bool) → List Nat × List (Nat × List Nat)
  | [] => ([], [])
  | (sequence, clearsAll) :: tail =>
    let (first, later) := clearFreeRuns tail
    if clearsAll then ([], (sequence + 1, first) :: later) else (sequence :: first, later)

/-- Each number of a run lies fewer than `limit` positions after the first one skipped. -/
def WithinLimit (limit due : Nat) (run : List Nat) : Prop :=
  ∀ skipped, IsLeast {k | due ≤ k ∧ k ∉ run ∧ ∃ sequence ∈ run, k < sequence} skipped →
    ∀ sequence ∈ run, sequence < skipped + limit

variable {limit due sequence : Nat} {gap : Option Nat} {run : List Nat}

theorem withinLimit_cons_self :
    WithinLimit limit due (due :: run) ↔ WithinLimit limit (due + 1) run := by
  have hs : {k | due ≤ k ∧ k ∉ due :: run ∧ ∃ sequence ∈ due :: run, k < sequence} =
      {k | due + 1 ≤ k ∧ k ∉ run ∧ ∃ sequence ∈ run, k < sequence} := by
    ext k
    simp only [Set.mem_ofPred_eq, List.mem_cons, not_or, exists_eq_or_imp]
    constructor
    · rintro ⟨hd, ⟨hn, hm⟩, hk | hk⟩
      · omega
      · exact ⟨by omega, hm, hk⟩
    · rintro ⟨hd, hm, hk⟩
      exact ⟨by omega, ⟨by omega, hm⟩, .inr hk⟩
  unfold WithinLimit
  rw [hs]
  refine forall₂_congr fun skipped hk => ?_
  have hd : due + 1 ≤ skipped := hk.1.1
  rw [List.forall_mem_cons]
  exact and_iff_right (by omega)

theorem withinLimit_cons_skip (hd : due < sequence) (hr : ∀ s ∈ run, sequence < s) :
    WithinLimit limit due (sequence :: run) ↔ ∀ s ∈ sequence :: run, s < due + limit := by
  have hl : IsLeast {k | due ≤ k ∧ k ∉ sequence :: run ∧ ∃ s ∈ sequence :: run, k < s} due := by
    refine ⟨⟨le_rfl, ?_, sequence, by simp, hd⟩, fun k hk => hk.1⟩
    rw [List.mem_cons, not_or]
    refine ⟨by omega, fun hm => ?_⟩
    have := hr due hm
    omega
  constructor
  · intro h
    exact h due hl
  · intro h skipped hk
    rwa [hk.unique hl]

def gapAfter (due : Nat) (gap : Option Nat) (sequence : Nat) : Option Nat :=
  gap.or (if sequence = due then none else some due)

def RestWithin (limit due : Nat) : Option Nat → List Nat → Prop
  | none, run => WithinLimit limit due run
  | some start, run => ∀ sequence ∈ run, sequence < start + limit

theorem restWithin_nil : RestWithin limit due gap [] := by
  rcases gap with _ | start <;> simp [RestWithin, WithinLimit]

theorem restWithin_cons (hd : due ≤ sequence) (hr : ∀ s ∈ run, sequence < s) :
    RestWithin limit due gap (sequence :: run) ↔
      (∀ start ∈ gapAfter due gap sequence, sequence < start + limit) ∧
        RestWithin limit (sequence + 1) (gapAfter due gap sequence) run := by
  rcases gap with _ | start
  · by_cases he : sequence = due
    · subst he
      simp [RestWithin, gapAfter, withinLimit_cons_self]
    · have hd : due < sequence := by omega
      simp [RestWithin, gapAfter, withinLimit_cons_skip hd hr, he]
  · simp [RestWithin, gapAfter]

variable {fence : KvEventFence} {waiting : List Nat} {tail : List (Nat × Bool)}

def TailState (fence : KvEventFence) (waiting : List Nat) (due : Nat) : Option Nat → Prop
  | none => fence.trusted ∧ waiting = [] ∧ fence.nextSequence.getD 0 = due
  | some start => waiting.Pairwise (· < ·) ∧ (∀ s ∈ waiting, start ≤ s ∧ s < due) ∧
      fence.nextSequence = some due ∧ ∃ through, through + 1 = due ∧
        waiting.getLast? = some through ∧ fence.pending = some ⟨start, through, true⟩

section
variable (h : TailState fence waiting due gap)
include h

theorem TailState.finish : ∃ fence', acceptReplayTailFrom fence waiting [] = (true, fence') ∧
    fence'.trusted ∧ fence'.nextSequence.getD 0 = due := by
  rcases gap with _ | start
  · obtain ⟨ht, rfl, hd⟩ := h
    exact ⟨fence, rfl, ht, hd⟩
  · obtain ⟨hw, hs, hn, through, -, hl, hp⟩ := h
    rcases waiting with _ | ⟨first, rest⟩
    · cases hl
    have hf : start ≤ first := (hs first (by simp)).1
    simp [acceptReplayTailFrom, KvEventFence.acceptReplay, hp, hf, hl, hn,
      KvEventFence.strictlyIncreasing_of_pairwise hw, KvEventFence.trusted]

variable (hd : due ≤ sequence)
include hd

theorem TailState.ingest (hm : sequence < u64Max) :
    ∃ action fence', fence.ingest sequence false = (action, fence') ∧
      fence'.replayLimit = fence.replayLimit ∧ fence'.nextSequence = some (sequence + 1) ∧
      match gapAfter due gap sequence with
      | none => action = .apply ∧ fence'.trusted
      | some start => if sequence < start + fence.replayLimit then
          action = .replay start sequence ∧ fence'.pending = some ⟨start, sequence, true⟩
        else action = .unrecoverableGap ∨ action = .observeOnly := by
  have hs : saturatingAdd sequence 1 = sequence + 1 := saturatingAdd_of_lt hm
  have hc (k : Nat) : saturatingAdd (sequence - k) 1 = sequence - k + 1 :=
    saturatingAdd_of_lt (by omega)
  refine ⟨_, _, rfl, ?_⟩
  rcases gap with _ | start
  · obtain ⟨ht, -, hn⟩ := h
    grind [KvEventFence.ingest, KvEventFence.fenceAfter, KvEventFence.trusted, gapAfter]
  · obtain ⟨-, hb, -, through, rfl, hl, hp⟩ := h
    have hst : start ≤ through := (hb through (List.mem_of_getLast? hl)).1
    grind [KvEventFence.ingest, KvEventFence.fenceAfter, KvEventFence.trusted, gapAfter]

theorem TailState.behind {fence' : KvEventFence} {start : Nat}
    (hg : gapAfter due gap sequence = some start)
    (hp : fence'.pending = some ⟨start, sequence, true⟩)
    (hn : fence'.nextSequence = some (sequence + 1)) :
    TailState fence' (waiting ++ [sequence]) (sequence + 1) (some start) := by
  have hb : waiting.Pairwise (· < ·) ∧ start ≤ sequence ∧
      ∀ s ∈ waiting, start ≤ s ∧ s < sequence := by
    rcases gap with _ | start'
    · obtain ⟨-, rfl, -⟩ := h
      grind [gapAfter]
    · obtain ⟨hw, hb, -, through, rfl, hl, -⟩ := h
      have := hb through (List.mem_of_getLast? hl)
      grind [gapAfter]
  refine ⟨?_, ?_, hn, sequence, rfl, by simp, hp⟩
  · grind
  · grind

theorem TailState.step (hm : sequence < u64Max) :
    (∀ start ∈ gapAfter due gap sequence, sequence < start + fence.replayLimit) ∧
        (∃ fence' waiting', acceptReplayTailFrom fence waiting ((sequence, false) :: tail) =
            acceptReplayTailFrom fence' waiting' tail ∧ fence'.replayLimit = fence.replayLimit ∧
          TailState fence' waiting' (sequence + 1) (gapAfter due gap sequence)) ∨
      ¬(∀ start ∈ gapAfter due gap sequence, sequence < start + fence.replayLimit) ∧
        (acceptReplayTailFrom fence waiting ((sequence, false) :: tail)).1 = false := by
  obtain ⟨action, fence', hi, hl, hn, hc⟩ := h.ingest hd hm
  rw [acceptReplayTailFrom, hi]
  rcases hg : gapAfter due gap sequence with _ | start
  · rw [hg] at hc
    obtain ⟨rfl, ht⟩ := hc
    exact .inl ⟨by simp, fence', [], rfl, hl, ht, rfl, by simp [hn]⟩
  simp only [hg] at hc
  by_cases hf : sequence < start + fence.replayLimit
  · rw [if_pos hf] at hc
    obtain ⟨rfl, hp⟩ := hc
    exact .inl ⟨by simpa using hf, fence', _, rfl, hl, h.behind hd hg hp hn⟩
  · rw [if_neg hf] at hc
    refine .inr ⟨by simpa using hf, ?_⟩
    rcases hc with rfl | rfl
    · rfl
    · rfl

end

theorem mem_of_mem_clearFreeRuns (h : sequence ∈ (clearFreeRuns tail).1) :
    ∃ clearsAll, (sequence, clearsAll) ∈ tail := by
  induction tail with
  | nil => cases h
  | cons batch tail ih => grind [clearFreeRuns]

theorem TailState.accepts (h : TailState fence waiting due gap)
    (hi : tail.Pairwise (·.1 < ·.1)) (hm : ∀ batch ∈ tail, due ≤ batch.1 ∧ batch.1 < u64Max) :
    let (accepted, fence') := acceptReplayTailFrom fence waiting tail
    (accepted ↔ RestWithin fence.replayLimit due gap (clearFreeRuns tail).1 ∧
      ∀ run ∈ (clearFreeRuns tail).2, WithinLimit fence.replayLimit run.1 run.2) ∧
    (accepted → fence'.trusted ∧
      fence'.nextSequence.getD 0 = (tail.getLast?.map (·.1 + 1)).getD due) := by
  induction tail generalizing fence waiting due gap with
  | nil =>
    obtain ⟨fence', he, ht, hn⟩ := h.finish
    rw [he]
    exact ⟨by simp [clearFreeRuns, restWithin_nil], fun _ => ⟨ht, hn⟩⟩
  | cons batch tail ih =>
    obtain ⟨sequence, clearsAll⟩ := batch
    rw [List.pairwise_cons] at hi
    rw [List.forall_mem_cons] at hm
    obtain ⟨ha, hi⟩ := hi
    obtain ⟨⟨hd, hs⟩, ht⟩ := hm
    have hm : ∀ batch ∈ tail, sequence + 1 ≤ batch.1 ∧ batch.1 < u64Max :=
      fun batch hb => ⟨ha batch hb, (ht batch hb).2⟩
    have hl : (((sequence, clearsAll) :: tail).getLast?.map (·.1 + 1)).getD due =
        (tail.getLast?.map (·.1 + 1)).getD (sequence + 1) := by
      rw [List.getLast?_cons]
      cases tail.getLast? <;> rfl
    rw [hl]
    cases clearsAll with
    | true =>
      have hc : TailState (fence.ingest sequence true).2 [] (sequence + 1) none :=
        ⟨rfl, rfl, saturatingAdd_of_lt hs⟩
      simp only [clearFreeRuns, if_true, List.forall_mem_cons, restWithin_nil, true_and]
      exact ih hc hi hm
    | false =>
      have hr : ∀ s ∈ (clearFreeRuns tail).1, sequence < s := by
        intro s hm
        obtain ⟨clearsAll, hb⟩ := mem_of_mem_clearFreeRuns hm
        exact ha _ hb
      simp only [clearFreeRuns, Bool.false_eq_true, if_false, restWithin_cons hd hr]
      rcases h.step hd hs with ⟨hg, fence', waiting', he, hl, h'⟩ | ⟨hg, hf⟩
      · rw [he, ← hl]
        rw [← hl] at hg
        rw [and_assoc, and_iff_right hg]
        exact ih h' hi hm
      · simp only [hf, Bool.false_eq_true, false_iff, not_and, false_implies, and_true]
        exact fun h => absurd h.1 hg

/-- Exactly the tails whose gaps stay within the limit are accepted, and they leave a trusted
fence at the number after their last. A fence that has seen nothing is due at zero. -/
theorem acceptReplayTail_iff (h : fence.trusted) (hne : tail ≠ [])
    (hi : tail.Pairwise (·.1 < ·.1))
    (hm : ∀ batch ∈ tail, fence.nextSequence.getD 0 ≤ batch.1 ∧ batch.1 < u64Max) :
    let (accepted, fence') := acceptReplayTail fence tail
    let (first, later) := clearFreeRuns tail
    (accepted ↔ ∀ run ∈ (fence.nextSequence.getD 0, first) :: later,
      WithinLimit fence.replayLimit run.1 run.2) ∧
    (accepted → fence'.trusted ∧ fence'.pending = none ∧
      fence'.nextSequence = some ((tail.getLast hne).1 + 1)) := by
  have hs : TailState fence [] (fence.nextSequence.getD 0) none := ⟨h, rfl, rfl⟩
  obtain ⟨hr, hf⟩ := hs.accepts hi hm
  refine ⟨by simpa [RestWithin] using hr, fun ha => ?_⟩
  obtain ⟨ht, hn⟩ := hf ha
  have hp : (acceptReplayTail fence tail).2.pending = none := by
    simp only [KvEventFence.trusted, Bool.and_eq_true, Option.isNone_iff_eq_none] at ht
    exact ht.2
  refine ⟨ht, hp, ?_⟩
  rw [List.getLast?_eq_some_getLast hne, Option.map_some, Option.getD_some] at hn
  rcases hx : (acceptReplayTailFrom fence [] tail).2.nextSequence with _ | next
  · rw [hx] at hn
    cases hn
  · rw [hx] at hn
    exact congrArg some hn

theorem acceptReplayTail_sparse : let fence := ((KvEventFence.new 16).ingest 0 false).2
    (acceptReplayTail fence [(3, false), (5, false)]).2.nextSequence = some 6 :=
  ((acceptReplayTail_iff (by decide) (by decide) (by decide) (by decide)).2 (by decide)).2.2

end Ramjet
