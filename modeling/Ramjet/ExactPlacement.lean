import Ramjet.PreRoute
import Ramjet.Router

/-!
# Exact placement

`route_pre_route` of `exact_shadow.rs` and `tokenizer.rs`: what an exact comparison may
do to a decision.
-/

namespace Ramjet
open StableSort Decision List

structure ExactPlacementPolicy where
  minGainTokens : Nat
  maxLoadDelta : Nat

inductive ExactPlacementMode where
  | shadow | control | placement
  deriving DecidableEq

def ExactPlacementMode.applies (mode : ExactPlacementMode) : Bool := mode = .placement

inductive PlacementOutcome where
  | move (winner : Nat)
  | keptAgree
  | keptTie
  | keptAllZero
  | keptAmbiguous
  | keptGainGate
  | keptLoadGate
  | wouldBalance (deltaTokens : Nat)
  | keptBalanceDeltaGate
  | keptBalanceLoadGate
  | fallback

namespace Decision

def stateOf (d : Decision) (upstream : Nat) : Option CandidateState :=
  d.candidateState.find? fun state => state.index = upstream

end Decision

def evaluateColdBalance (d : Decision) (exact : PreRouteResult) (policy : ExactPlacementPolicy) :
    PlacementOutcome :=
  match d.candidates.head? with
  | none => .fallback
  | some selected =>
    match exact.residentTokens[selected]?.join with
    | none => .fallback
    | some selectedResident =>
      let eligible := byKey (fun entry : CandidateState × Nat => toLex (entry.2, entry.1.index))
        (eligibleCandidates d exact.residentTokens)
      match eligible.head? with
      | none => .fallback
      | some (winnerState, winnerResident) =>
        let deltaTokens := selectedResident - winnerResident
        if winnerState.index = selected then .keptAllZero
        else if deltaTokens < max exact.promptTokens 1 then .keptBalanceDeltaGate
        else
          match d.stateOf selected with
          | none => .fallback
          | some selectedState =>
            if selectedState.loadUnits + policy.maxLoadDelta < winnerState.loadUnits then
              .keptBalanceLoadGate
            else .wouldBalance deltaTokens

def evaluatePlacement (d : Decision) (exact : PreRouteResult) (policy : ExactPlacementPolicy) :
    PlacementOutcome :=
  match exact.shadow.outcome with
  | .allZero => evaluateColdBalance d exact policy
  | .agree => .keptAgree
  | .tie => .keptTie
  | .wouldMove =>
    match d.candidates.head?, exact.winner with
    | none, _ => .fallback
    | _, none => .keptAmbiguous
    | some selected, some winner =>
      let selectedTokens := exact.overlaps[selected]?.join.getD 0
      let winnerTokens := exact.overlaps[winner]?.join.getD 0
      if winner = selected then .keptAgree
      else if winnerTokens - selectedTokens < policy.minGainTokens then .keptGainGate
      else
        match d.stateOf selected, d.stateOf winner with
        | some selectedState, some winnerState =>
          if selectedState.loadUnits + policy.maxLoadDelta < winnerState.loadUnits then
            .keptLoadGate
          else .move winner
        | _, _ => .fallback
  | _ => .fallback

def recomputeExactReservations (requestBytes : Nat) (d : Decision) (exact : PreRouteResult)
    (estimator : RequestLoadEstimator) : Decision :=
  match d.candidates.head? with
  | none => d
  | some selected =>
    let updates := (d.candidateState.filter (·.healthy)).mapM fun state =>
      match exact.overlaps[state.index]?.join with
      | none => none
      | some overlapTokens =>
        (estimator.estimateExactTokens requestBytes overlapTokens exact.promptTokens).map
          fun units => (state.index, units)
    match updates with
    | none => d
    | some updates =>
      match updates.lookup selected with
      | none => d
      | some selectedUnits =>
        { d with
          candidateState := d.candidateState.map fun state =>
            match updates.lookup state.index with
            | some units => { state with requestLoadUnits := units }
            | none => state
          loadUnits := selectedUnits }

def exactState (exact : PreRouteResult) (promptTokens totalBlocks maxOverlapUnits : Nat)
    (state : CandidateState) : CandidateState :=
  let exactTokens := exact.overlaps[state.index]?.join.getD 0
  let overlapBlocks := overlapUnits exactTokens promptTokens totalBlocks
  { state with
    overlapBlocks
    affinityBlocks := min overlapBlocks maxOverlapUnits }

def placeFirst (winner promptTokens : Nat) (d : Decision) (exact : PreRouteResult)
    (maxOverlapUnits : Nat) : Decision :=
  let candidates := winner :: d.candidates.filter fun candidate => candidate ≠ winner
  let sorted := byKey (fun state => candidates.idxOf state.index) d.candidateState
  let states := (setRanks sorted).map
    (exactState exact promptTokens d.totalBlocks maxOverlapUnits)
  let placed : Decision :=
    { d with candidates, candidateState := states, outcome := .exact }
  (states.head?.map placed.describe).getD placed

def applyPlacement (winner requestBytes promptTokens : Nat) (d : Decision)
    (exact : PreRouteResult) (maxOverlapUnits : Nat) (estimator : RequestLoadEstimator) :
    Decision :=
  recomputeExactReservations requestBytes (placeFirst winner promptTokens d exact maxOverlapUnits)
    exact estimator

def placementReadyFor (count : Nat) (ready : Nat → Bool) (d : Decision) : Bool :=
  let indices := d.candidateState.map (·.index)
  decide (∀ index ∈ indices, index < count) && decide indices.Nodup &&
    (d.candidateState.filter (·.healthy)).all (fun state => ready state.index) &&
    d.candidateState.any (·.healthy) && (range count).all fun index => indices.contains index

/-- `route_pre_route` of the comparison itself. -/
def placeExact (requestBytes promptTokens : Nat) (d : Decision) (exact : PreRouteResult)
    (policy : ExactPlacementPolicy) (mode : ExactPlacementMode) (placementReady : Bool)
    (maxOverlapUnits : Nat) (estimator : RequestLoadEstimator) : Decision :=
  let mode := if mode.applies && !placementReady then .shadow else mode
  if mode.applies then
    match evaluatePlacement d exact policy with
    | .move winner =>
      applyPlacement winner requestBytes promptTokens d exact maxOverlapUnits estimator
    | _ => recomputeExactReservations requestBytes d exact estimator
  else d

inductive ExactRouteMode where
  | off | shadow | placement
  deriving DecidableEq

inductive CanaryAssignment where
  | notApplicable | disabled | treatment | control | missingSession | invalidSession
  deriving DecidableEq

def placementMode (mode : ExactRouteMode) (assignment : CanaryAssignment) : ExactPlacementMode :=
  match mode, assignment with
  | .placement, .treatment => .placement
  | .placement, .control => .control
  | _, _ => .shadow

structure ExactRouteConfig (α : Type) where
  mode : ExactRouteMode
  policy : ExactPlacementPolicy
  alpha : α
  maxOverlapUnits : Nat
  estimator : RequestLoadEstimator

structure ExactRouteView where
  stillReady : Bool
  inventories : Nat → List ExactRouteInventory
  placementReady : Nat → Bool

/-- `route_pre_route` of the tokenizer. -/
def routePreRoute {α : Type} [NatCast α] [Sub α] [Mul α] [Max α] [DecidableEq α]
    (config : ExactRouteConfig α) (view : ExactRouteView) (tokenIds : List UInt32)
    (requestBytes : Nat) (assignment : CanaryAssignment) (d : Decision) : Decision :=
  if !view.stillReady then d
  else
    let ready := placementReadyFor (view.inventories 0).length view.placementReady d
    let exact := evaluatePreRoute view.inventories config.alpha config.maxOverlapUnits tokenIds d
    placeExact requestBytes tokenIds.length d exact config.policy
      (placementMode config.mode assignment) ready config.maxOverlapUnits config.estimator

section Winner
variable {α : Type} [NatCast α] [Sub α] [Mul α] [Max α] [DecidableEq α]

theorem healthy_of_uniqueWinner {promptTokens : Nat} {overlaps : List (Option Nat)} {d : Decision}
    {alpha : α} {units winner : Nat}
    (h : uniqueWinner promptTokens overlaps d alpha units = some winner) :
    ∃ state ∈ d.candidateState, state.healthy ∧ state.index = winner := by
  simp only [uniqueWinner] at h
  split at h
  · cases h
  split at h
  next entry he =>
    cases h
    have hm : entry ∈ [entry] := mem_singleton_self _
    rw [← he] at hm
    have hl := (mem_filter.1 hm).1
    obtain ⟨state, hs, ho⟩ := mem_filterMap.1 hl
    obtain ⟨tokens, -, rfl⟩ := Option.map_eq_some_iff.1 ho
    obtain ⟨hs, hh⟩ := mem_filter.1 hs
    exact ⟨state, hs, hh, rfl⟩
  · cases h

theorem healthy_of_evaluatePreRoute {view : Nat → List ExactRouteInventory} {alpha : α}
    {units : Nat} {tokenIds : List UInt32} {d : Decision} {winner : Nat}
    (h : (evaluatePreRoute view alpha units tokenIds d).winner = some winner) :
    ∃ state ∈ d.candidateState, state.healthy ∧ state.index = winner := by
  simp only [evaluatePreRoute] at h
  split at h
  · cases h
  split at h
  · cases h
  split at h
  · cases h
  split at h
  · cases h
  split at h
  · cases h
  split at h
  · cases h
  · exact healthy_of_uniqueWinner h

end Winner

section Placement
variable {n : Nat} {d : Decision} {exact : PreRouteResult} {estimator : RequestLoadEstimator}

theorem Decision.Wf.map_states (h : d.Wf n) (d' : Decision) (f : CandidateState → CandidateState)
    (hx : ∀ state, (f state).index = state.index) (hr : ∀ state, (f state).rank = state.rank)
    (he : ∀ state, (f state).healthy = state.healthy) (hcan : d'.candidates = d.candidates)
    (ht : d'.candidateState = d.candidateState.map f)
    (hs : ∀ first, d'.candidateState.head? = some first →
      d'.overlapBlocks = first.overlapBlocks ∧ d'.affinityBlocks = first.affinityBlocks ∧
        d'.loadUnits = first.requestLoadUnits) : d'.Wf n ∧ Reorders d d' := by
  have hm : ∀ {β : Type} (g : CandidateState → β), (∀ state, g (f state) = g state) →
      d'.candidateState.map g = d.candidateState.map g := by
    intro β g hg
    rw [ht, map_map]
    exact map_congr_left fun state _ => hg state
  obtain ⟨first, rest, hc, hh, -⟩ := h.chosen
  refine ⟨⟨?_, ?_, ?_, ⟨f first, rest.map f, ?_, ?_, hs (f first) ?_⟩, ?_⟩, ?_, ?_⟩
  · rw [hm _ hx]
    exact h.upstreams
  · rw [hm _ hx, hcan]
    exact h.leading
  · rw [hm _ hr]
    exact h.ranks
  · rw [ht, hc, map_cons]
  · rw [hcan, hx]
    exact hh
  · rw [ht, hc, map_cons, head?_cons]
  · intro state ha hv
    rw [ht] at ha
    obtain ⟨old, hold, rfl⟩ := mem_map.1 ha
    rw [hcan, hx]
    exact h.serving old hold ((he old).symm.trans hv)
  · rw [hcan]
  · rw [hm _ fun state => Prod.ext (hx state) (he state)]

theorem recomputeExactReservations_keeps (h : d.Wf n) (requestBytes : Nat)
    (exact : PreRouteResult) (estimator : RequestLoadEstimator) :
    (recomputeExactReservations requestBytes d exact estimator).Wf n ∧
      Reorders d (recomputeExactReservations requestBytes d exact estimator) := by
  have hk : d.Wf n ∧ Reorders d d := ⟨h, .refl d⟩
  simp only [recomputeExactReservations]
  split
  · exact hk
  rename_i selected hs
  split
  · exact hk
  rename_i updates _
  split
  · exact hk
  rename_i units hu
  obtain ⟨first, rest, hc, hh, ho, ha, -⟩ := h.chosen
  obtain rfl : selected = first.index := Option.some.inj (hs.symm.trans hh)
  refine h.map_states _ (fun state => match updates.lookup state.index with
    | some units => { state with requestLoadUnits := units }
    | none => state) ?_ ?_ ?_ rfl rfl ?_
  · intro state
    split
    · rfl
    · rfl
  · intro state
    split
    · rfl
    · rfl
  · intro state
    split
    · rfl
    · rfl
  · intro head hf
    simp only [hc, map_cons, head?_cons, hu, Option.some.injEq] at hf
    subst hf
    exact ⟨ho, ha, rfl⟩

variable {winner : Nat}

theorem placeFirst_keeps (h : d.Wf n) (hw : winner ∈ d.candidates) (exact : PreRouteResult)
    (promptTokens units : Nat) : (placeFirst winner promptTokens d exact units).Wf n ∧
      Reorders d (placeFirst winner promptTokens d exact units) := by
  simp only [placeFirst]
  generalize hcan : winner :: d.candidates.filter (fun cand => cand ≠ winner) = candidates
  have hp : candidates.Perm d.candidates := by
    have hr : d.candidates.filter (fun cand => cand ≠ winner) =
        d.candidates.erase winner := by
      rw [h.nodup_candidates.erase_eq_filter]
      exact filter_congr fun cand _ => by simp [bne, Bool.beq_eq_decide_eq]
    rw [← hcan, hr]
    exact (perm_cons_erase hw).symm
  have he : candidates <+: (byKey (fun state => candidates.idxOf state.index)
      d.candidateState).map (·.index) :=
    byKey_idxOf (hp.nodup_iff.2 h.nodup_candidates) h.nodup_indices
      fun i hi => h.leading.subset (hp.mem_iff.1 hi)
  have hs := byKey_perm (fun state => candidates.idxOf state.index) d.candidateState
  generalize byKey (fun state => candidates.idxOf state.index) d.candidateState = sorted at *
  obtain ⟨first, rest, hc⟩ : ∃ first rest, setRanks sorted = first :: rest := by
    rcases ht : setRanks sorted with _ | ⟨first, rest⟩
    · have hl := hs.length_eq
      rw [← length_setRanks, ht, h.length_states, length_nil] at hl
      exact absurd (h.candidate_lt hw) (by omega)
    · exact ⟨first, rest, rfl⟩
  -- first the new order, under what its first state says
  have ha : ({ d with
      candidates
      candidateState := setRanks sorted
      overlapBlocks := first.overlapBlocks
      affinityBlocks := first.affinityBlocks
      loadUnits := first.requestLoadUnits } : Decision).Wf n := by
    refine Wf.of_order ((hs.map _).trans h.upstreams) he ?_ ?_ rfl ?_
    · rw [← hcan]
      exact cons_ne_nil _ _
    · intro state hb hd
      exact hp.mem_iff.2 (h.serving state (hs.mem_iff.1 hb) hd)
    · intro head hh
      have hh' : (setRanks sorted).head? = some head := hh
      rw [hc] at hh'
      cases hh'
      exact ⟨rfl, rfl, rfl⟩
  -- then the exact overlaps
  have ho : Reorders d { d with
      candidates
      candidateState := setRanks sorted
      overlapBlocks := first.overlapBlocks
      affinityBlocks := first.affinityBlocks
      loadUnits := first.requestLoadUnits } := by
    refine ⟨hp, ?_⟩
    rw [map_setRanks (fun state => (state.index, state.healthy)) (fun _ _ => rfl)]
    exact hs.map _
  have hh : ((setRanks sorted).map (exactState exact promptTokens d.totalBlocks units)).head? =
      some (exactState exact promptTokens d.totalBlocks units first) := by
    rw [hc, map_cons, head?_cons]
  rw [hh, Option.map_some, Option.getD_some]
  obtain ⟨hwf, hm⟩ := ha.map_states (describe { d with
        candidates
        candidateState := (setRanks sorted).map (exactState exact promptTokens d.totalBlocks units)
        outcome := .exact }
      (exactState exact promptTokens d.totalBlocks units first))
    (exactState exact promptTokens d.totalBlocks units)
    (fun _ => rfl) (fun _ => rfl) (fun _ => rfl) rfl rfl
    (fun other hf => by
      obtain rfl := Option.some.inj (hh.symm.trans hf)
      exact ⟨rfl, rfl, rfl⟩)
  exact ⟨hwf, ho.trans hm⟩

theorem applyPlacement_keeps (h : d.Wf n) (hw : winner ∈ d.candidates)
    (requestBytes promptTokens units : Nat) :
    (applyPlacement winner requestBytes promptTokens d exact units estimator).Wf n ∧
      Reorders d (applyPlacement winner requestBytes promptTokens d exact units
        estimator) := by
  obtain ⟨hp, hr⟩ := placeFirst_keeps h hw exact promptTokens units
  obtain ⟨hwf, hr'⟩ :=
    recomputeExactReservations_keeps hp requestBytes exact estimator
  exact ⟨hwf, hr.trans hr'⟩

theorem winner_of_move {policy : ExactPlacementPolicy}
    (h : evaluatePlacement d exact policy = .move winner) : exact.winner = some winner := by
  unfold evaluatePlacement at h
  split at h
  · -- a cold balance never moves
    simp only [evaluateColdBalance] at h
    repeat' split at h
    all_goals cases h
  · cases h
  · cases h
  · split at h
    · cases h
    · cases h
    next selected other hs hw =>
      simp only at h
      split at h
      · cases h
      split at h
      · cases h
      split at h
      · split at h
        · cases h
        · cases h
          exact hw
      · cases h
  · cases h

theorem placeExact_keeps (h : d.Wf n)
    (hw : ∀ winner, exact.winner = some winner → winner ∈ d.candidates)
    (requestBytes promptTokens : Nat) (policy : ExactPlacementPolicy) (mode : ExactPlacementMode)
    (placementReady : Bool) (units : Nat) :
    (placeExact requestBytes promptTokens d exact policy mode placementReady units
        estimator).Wf n ∧
      Reorders d (placeExact requestBytes promptTokens d exact policy mode placementReady
        units estimator) := by
  simp only [placeExact]
  generalize (if (mode.applies && !placementReady) = true then
    ExactPlacementMode.shadow else mode) =
    mode'
  split
  · split
    next winner hm =>
      refine applyPlacement_keeps h (hw winner ?_) requestBytes promptTokens units
      exact winner_of_move hm
    · exact recomputeExactReservations_keeps h requestBytes exact estimator
  · exact ⟨h, .refl d⟩

theorem routePreRoute_keeps {α : Type} [NatCast α] [Sub α] [Mul α] [Max α] [DecidableEq α]
    (h : d.Wf n) (config : ExactRouteConfig α) (view : ExactRouteView) (tokenIds : List UInt32)
    (requestBytes : Nat) (assignment : CanaryAssignment) :
    (routePreRoute config view tokenIds requestBytes assignment d).Wf n ∧
      Reorders d (routePreRoute config view tokenIds requestBytes assignment d) := by
  simp only [routePreRoute]
  split
  · exact ⟨h, .refl d⟩
  refine placeExact_keeps h (fun winner hw => ?_) _ _ _ _ _ _
  obtain ⟨state, hs, hh, rfl⟩ := healthy_of_evaluatePreRoute hw
  exact h.serving state hs hh

end Placement
end Ramjet
