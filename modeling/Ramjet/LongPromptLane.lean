import Ramjet.RouteDecision

/-!
# The long-prompt lane

`long_prompt_lane.rs`: very long prompts are confined to designated replicas, and an
exclusive lane keeps short ones off them while another replica serves.
-/

namespace Ramjet
open List

inductive LongPromptLaneSharing where
  | shared | exclusive
  deriving DecidableEq

inductive LongPromptLaneOutcome where
  | off | below | noLane | lane | fallback | excluded | excludedFallback
  deriving DecidableEq

namespace LongPromptLane

/-- Mark the candidates a test picks. -/
def mark (length : Nat) (candidates : List Nat) (pick : Nat → Bool) : List Bool :=
  candidates.foldl (fun mask upstream => if pick upstream then mask.set upstream true else mask)
    (List.replicate length false)

def select (promptBytes thresholdBytes : Nat) (members : List Bool)
    (sharing : LongPromptLaneSharing) (candidates : List Nat) (serving : Nat → Bool) :
    LongPromptLaneOutcome × Option (List Bool) :=
  let isMember := fun upstream => members.getD upstream false
  if thresholdBytes = 0 ∨ members = [] then (.off, none)
  else if promptBytes < thresholdBytes then
    if sharing = .shared ∨ !candidates.any isMember ∨ candidates.all isMember then (.below, none)
    else
      let pick := fun upstream => !isMember upstream && serving upstream
      if candidates.any pick then (.excluded, some (mark members.length candidates pick))
      else (.excludedFallback, none)
  else if !candidates.any isMember then (.noLane, none)
  else
    let pick := fun upstream => isMember upstream && serving upstream
    if candidates.any pick then (.lane, some (mark members.length candidates pick))
    else (.fallback, none)

def serving (d : Decision) (upstream : Nat) : Bool :=
  d.candidateState.any fun state => state.index = upstream && state.healthy

def confineWithFailover (d : Decision) (promptBytes thresholdBytes : Nat) (members : List Bool)
    (sharing : LongPromptLaneSharing) : LongPromptLaneOutcome × List Nat × Decision :=
  match select promptBytes thresholdBytes members sharing d.candidates (serving d) with
  | (outcome, none) => (outcome, [], d)
  | (outcome, some mask) =>
    let failover :=
      if outcome = .excluded then
        d.candidates.filter fun upstream => !mask.getD upstream false && serving d upstream
      else []
    match d.restrictTo mask with
    | (true, restricted) => (outcome, failover, restricted)
    | (false, left) =>
      (if outcome = .excluded then .excludedFallback else .fallback, [], left)

theorem getD_mark {length : Nat} {cands : List Nat} (pick : Nat → Bool)
    (h : ∀ cand ∈ cands, cand < length) (upstream : Nat) :
    (mark length cands pick).getD upstream false =
      (decide (upstream ∈ cands) && pick upstream) := by
  -- what the loop has marked so far, from any mask of this length
  have hl : ∀ mask : List Bool, mask.length = length → (cands.foldl (fun mask upstream =>
        if pick upstream then mask.set upstream true else mask) mask).getD upstream false =
        (mask.getD upstream false || (decide (upstream ∈ cands) && pick upstream)) := by
    induction cands with
    | nil => simp
    | cons cand cands ih =>
      intro mask hm
      have ht := h cand mem_cons_self
      rw [foldl_cons, ih (fun c hc => h c (mem_cons_of_mem _ hc)) _ (by
        split
        · simpa using hm
        · exact hm)]
      by_cases ha : upstream = cand
      · subst ha
        rcases hp : pick upstream with _ | _
        · simp
        · simp [getD_eq_getElem?_getD, hm, ht]
      · have hn : cand ≠ upstream := fun heq => ha heq.symm
        have hs : (if pick cand then mask.set cand true else mask).getD upstream
            false = mask.getD upstream false := by
          split
          · rw [getD_eq_getElem?_getD, getElem?_set_ne hn, ← getD_eq_getElem?_getD]
          · rfl
        rw [hs]
        simp [ha]
  rw [mark, hl _ (by simp)]
  have hb : (replicate length false).getD upstream false = false := by
    rw [getD_eq_getElem?_getD, getElem?_replicate]
    split
    · rfl
    · rfl
  rw [hb, Bool.false_or]

variable {n : Nat} {d : Decision}

theorem filter_mark (h : d.Wf n) (pick : Nat → Bool) : (d.candidates.filter fun cand =>
      (mark n d.candidates pick).getD cand false) = d.candidates.filter pick := by
  apply filter_congr
  intro cand hc
  rw [getD_mark pick (fun _ => h.candidate_lt)]
  simp [hc]

theorem serving_eq (h : d.Wf n) {state : CandidateState} (ht : state ∈ d.candidateState) :
    serving d state.index = state.healthy := by
  have hf := h.find?_index ht
  rcases hh : state.healthy with _ | _
  · rw [serving, any_eq_false]
    intro other ho hb
    obtain ⟨hx, hs⟩ := Bool.and_eq_true_iff.1 hb
    have ho' := h.find?_index ho
    simp only [of_decide_eq_true hx] at ho'
    rw [hf] at ho'
    rw [Option.some.inj ho', hs] at hh
    cases hh
  · rw [serving, any_eq_true]
    exact ⟨state, ht, by simp [hh]⟩

inductive Confined (n : Nat) (members : List Bool) (d : Decision) :
    LongPromptLaneOutcome × List Nat × Decision → Prop
  | kept (outcome : LongPromptLaneOutcome) (hlane : outcome ≠ .lane) (hsho : outcome ≠ .excluded) :
    Confined n members d (outcome, [], d)
  | lane (d' : Decision) (hwf : d'.Wf n) (hcan : d'.candidates = d.candidates.filter fun upstream =>
      members.getD upstream false && serving d upstream)
    (hserv : ∀ state ∈ d'.candidateState, state.index ∈ d'.candidates → state.healthy) :
    Confined n members d (.lane, [], d')
  | excluded (d' : Decision) (failover : List Nat) (hwf : d'.Wf n)
    (hcan : d'.candidates = d.candidates.filter fun upstream =>
      !members.getD upstream false && serving d upstream)
    (hserv : ∀ state ∈ d'.candidateState, state.index ∈ d'.candidates → state.healthy)
    (hfai : failover = d.candidates.filter fun upstream =>
      members.getD upstream false && serving d upstream) :
    Confined n members d (.excluded, failover, d')

variable {members : List Bool} {result : LongPromptLaneOutcome × List Nat × Decision}

theorem Confined.wf (hd : d.Wf n) (h : Confined n members d result) : result.2.2.Wf n := by
  cases h with
  | kept => exact hd
  | lane _ hwf => exact hwf
  | excluded _ _ hwf => exact hwf

theorem Confined.subset (h : Confined n members d result) {up : Nat}
    (hup : up ∈ result.2.2.candidates ∨ up ∈ result.2.1) : up ∈ d.candidates := by
  cases h with
  | kept => exact hup.resolve_right (by simp)
  | lane d' _ hcan _ =>
    have hm : up ∈ d'.candidates := hup.resolve_right (by simp)
    rw [hcan] at hm
    exact (mem_filter.1 hm).1
  | excluded d' failover _ hcan _ hfai =>
    rcases hup with hm | hm
    · have hm' : up ∈ d'.candidates := hm
      rw [hcan] at hm'
      exact (mem_filter.1 hm').1
    have hm' : up ∈ failover := hm
    rw [hfai] at hm'
    exact (mem_filter.1 hm').1

variable {d' : Decision} {failover : List Nat}

theorem Confined.inLane (h : Confined n members d (.lane, failover, d')) :
    failover = [] ∧ ∀ up ∈ d'.candidates, members.getD up false := by
  cases h with
  | kept _ hlane _ => exact absurd rfl hlane
  | lane _ _ hcan _ =>
    refine ⟨rfl, fun up hup => ?_⟩
    rw [hcan] at hup
    exact (Bool.and_eq_true_iff.1 (mem_filter.1 hup).2).1

theorem Confined.offLane (h : Confined n members d (.excluded, failover, d')) :
    (∀ up ∈ d'.candidates, members.getD up false = false) ∧
      ∀ up ∈ d.candidates, members.getD up false = false → serving d up →
        ∃ state ∈ d'.candidateState, state.index = up ∧ state.healthy := by
  cases h with
  | kept _ _ hsho => exact absurd rfl hsho
  | excluded _ _ hwf hcan hserv _ =>
    refine ⟨fun up hup => ?_, fun up hup he hs => ?_⟩
    · rw [hcan] at hup
      simpa using (Bool.and_eq_true_iff.1 (mem_filter.1 hup).2).1
    have hm : up ∈ d'.candidates := by
      rw [hcan]
      exact mem_filter.2 ⟨hup, by rw [he, hs]; rfl⟩
    obtain ⟨state, ht, rfl⟩ := mem_map.1 (hwf.leading.subset hm)
    exact ⟨state, ht, rfl, hserv state ht hm⟩

/-- A restriction to serving candidates that a test picks. -/
theorem restrictTo_mark (h : d.Wf n) {pick : Nat → Bool}
    (hi : ∀ up, pick up → serving d up) (hn : d.candidates.any pick) :
    ∃ d', d.restrictTo (mark n d.candidates pick) = (true, d') ∧ d'.Wf n ∧
      d'.candidates = d.candidates.filter pick ∧
      ∀ state ∈ d'.candidateState, state.index ∈ d'.candidates → state.healthy := by
  have hl : (mark n d.candidates pick).length = n := by
    have hf : ∀ (cands : List Nat) (mask : List Bool), (cands.foldl (fun mask up =>
          if pick up then mask.set up true else mask) mask).length = mask.length := by
      intro cands
      induction cands with
      | nil => exact fun _ => rfl
      | cons cand cands ih =>
        intro mask
        rw [foldl_cons, ih]
        split
        · exact length_set
        · rfl
    rw [mark, hf, length_replicate]
  obtain ⟨chosen, hb, hp⟩ := any_eq_true.1 hn
  rcases Decision.restrictTo_cases h (mark n d.candidates pick) with
    ⟨-, hd | ho⟩ | ⟨d', hr, hwf, -, hcan, ht⟩
  · exact absurd hl hd
  · rw [filter_mark h] at ho
    exact absurd hp (filter_eq_nil_iff.1 ho chosen hb)
  · rw [filter_mark h] at hcan
    refine ⟨d', hr, hwf, hcan, fun state he hc => ?_⟩
    rw [hcan] at hc
    obtain ⟨hm, hp⟩ := mem_filter.1 hc
    have ha := ht.mem_iff.1 (mem_map_of_mem he)
    obtain ⟨old, hold, heq⟩ := mem_map.1 ha
    obtain ⟨hx, hh⟩ := Prod.mk.inj heq
    have hs := hi _ hp
    rw [← hx, serving_eq h hold] at hs
    rw [← hh, hs, Bool.true_and, hx, getD_mark pick (fun _ => h.candidate_lt)]
    simp [hm, hp]

theorem confineWithFailover_cases (h : d.Wf n) (hm : members = [] ∨ members.length = n)
    (promptBytes thresholdBytes : Nat) (sharing : LongPromptLaneSharing) : Confined n members d
      (confineWithFailover d promptBytes thresholdBytes members sharing) := by
  unfold confineWithFailover select
  by_cases ho : thresholdBytes = 0 ∨ members = []
  · rw [if_pos ho]
    exact .kept .off (by decide) (by decide)
  rw [if_neg ho]
  rw [not_or] at ho
  obtain rfl : members.length = n := hm.resolve_left ho.2
  by_cases hsho : promptBytes < thresholdBytes
  · rw [if_pos hsho]
    dsimp only
    split_ifs with hb ha
    · exact .kept .below (by decide) (by decide)
    · obtain ⟨d', hr, hwf, hcan, hserv⟩ :=
        restrictTo_mark h (fun up hp => (Bool.and_eq_true_iff.1 hp).2) ha
      simp only [hr, if_true]
      refine .excluded d' _ hwf hcan hserv ?_
      apply filter_congr
      intro up hup
      rw [getD_mark _ (fun _ => h.candidate_lt)]
      rcases members.getD up false with _ | _
      · rcases serving d up with _ | _
        · simp
        · simp [hup]
      · simp
    · exact .kept .excludedFallback (by decide) (by decide)
  · rw [if_neg hsho]
    dsimp only
    split_ifs with hn ha
    · exact .kept .noLane (by decide) (by decide)
    · obtain ⟨d', hr, hwf, hcan, hserv⟩ :=
        restrictTo_mark h (fun up hp => (Bool.and_eq_true_iff.1 hp).2) ha
      simp only [hr, reduceCtorEq, if_false]
      exact .lane d' hwf hcan hserv
    · exact .kept .fallback (by decide) (by decide)

end LongPromptLane
end Ramjet
