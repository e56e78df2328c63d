import Ramjet.RouteInventory
import Ramjet.RouteDecision

/-!
# Exact comparison before routing

`evaluate_pre_route` of `exact_shadow.rs`: markers of all inventories, a lookup for every
healthy candidate, the markers again, each under its own lock.
-/

namespace Ramjet
open List TrackedInventory TransitionSystem

inductive ShadowOutcome where
  | agree | wouldMove | tie | allZero | single | noInventories | candidateMismatch | failover
  | missingCachedUsage | invalidCachedUsage | inventoryUntrusted | inventoryChanged | lookupError
  deriving DecidableEq

/-- The outcomes under which no comparison was made. -/
def ShadowOutcome.isFailure : ShadowOutcome → Bool
  | agree | wouldMove | tie | allZero | single => false
  | _ => true

structure ShadowResult where
  outcome : ShadowOutcome
  selectedTokens : Nat
  bestTokens : Nat

structure PreRouteResult where
  shadow : ShadowResult
  overlaps : List (Option Nat)
  residentTokens : List (Option Nat)
  promptTokens : Nat
  winner : Option Nat

def PreRouteResult.failure (outcome : ShadowOutcome) : PreRouteResult where
  shadow := ⟨outcome, 0, 0⟩
  overlaps := []
  residentTokens := []
  promptTokens := 0
  winner := none

def overlapUnits (tokens promptTokens totalUnits : Nat) : Nat :=
  if tokens = 0 ∨ promptTokens = 0 ∨ totalUnits = 0 then 0
  else min ((tokens * totalUnits + promptTokens - 1) / promptTokens) (2 ^ 64 - 1)

section Scores
variable {α : Type} [NatCast α] [Sub α] [Mul α] [Max α] [DecidableEq α]

def exactScore (candidate : CandidateState) (tokens promptTokens totalUnits : Nat) (alpha : α)
    (maxOverlapUnits : Nat) : α :=
  ((min (overlapUnits tokens promptTokens totalUnits) maxOverlapUnits : Nat) : α) -
    alpha * ((candidate.loadUnits : Nat) : α)

def eligibleCandidates (decision : Decision) (overlaps : List (Option Nat)) :
    List (CandidateState × Nat) :=
  (decision.candidateState.filter (·.healthy)).filterMap fun candidate =>
    overlaps[candidate.index]?.join.map (candidate, ·)

def classify (selected promptTokens : Nat) (overlaps : List (Option Nat)) (decision : Decision)
    (alpha : α) (maxOverlapUnits : Nat) : ShadowResult :=
  let eligible := eligibleCandidates decision overlaps
  let selectedTokens := overlaps[selected]?.join.getD 0
  let bestTokens := (eligible.map Prod.snd).max?.getD 0
  if eligible.length ≤ 1 then ⟨.single, selectedTokens, bestTokens⟩
  else if bestTokens = 0 then ⟨.allZero, selectedTokens, bestTokens⟩
  else
    let weighted := fun (candidate : CandidateState) (tokens : Nat) =>
      exactScore candidate tokens promptTokens decision.totalBlocks alpha maxOverlapUnits
    let bestScore := (eligible.map fun entry => weighted entry.1 entry.2).max?
    match eligible.find? fun entry => entry.1.index = selected with
    | none => ⟨.candidateMismatch, selectedTokens, bestTokens⟩
    | some (selectedCandidate, _) =>
      let tied := (eligible.filter fun entry => some (weighted entry.1 entry.2) = bestScore).length
      let outcome :=
        if some (weighted selectedCandidate selectedTokens) ≠ bestScore then .wouldMove
        else if 1 < tied then .tie
        else .agree
      ⟨outcome, selectedTokens, bestTokens⟩

def uniqueWinner (promptTokens : Nat) (overlaps : List (Option Nat)) (decision : Decision)
    (alpha : α) (maxOverlapUnits : Nat) : Option Nat :=
  let eligible := eligibleCandidates decision overlaps
  let score := fun (entry : CandidateState × Nat) =>
    exactScore entry.1 entry.2 promptTokens decision.totalBlocks alpha maxOverlapUnits
  let bestScore := (eligible.map score).max?
  match ((eligible.filter fun entry => some (score entry) = bestScore).map Prod.snd).max? with
  | none => none
  | some bestTokens =>
    match eligible.filter fun entry => some (score entry) = bestScore ∧ entry.2 = bestTokens with
    | [winner] => some winner.1.index
    | _ => none

end Scores

structure Scan where
  clock : Nat
  seen : List Bool
  overlaps : List (Option Nat)
  residentTokens : List (Option Nat)

section Evaluation

-- `view k` is the fleet as the `k`-th lock section of the call finds it
variable (view : Nat → List ExactRouteInventory)

/-- One lock section for each inventory, in order. -/
def readMarkers : List (Option ExactInventoryMarker) :=
  (range (view 0).length).map fun i => (view i)[i]?.bind ExactRouteInventory.marker

def lookupAt (clock index : Nat) (tokenIds : List UInt32) :
    Except ExactInventoryLookupError ExactInventoryLookup :=
  match (view clock)[index]? with
  | none => .error .untrusted
  | some inventory => inventory.lookup tokenIds

def scanCandidate (tokenIds : List UInt32) (markers : List (Option ExactInventoryMarker))
    (scan : Scan) (candidate : CandidateState) : Except ShadowOutcome Scan :=
  if markers.length ≤ candidate.index ∨ scan.seen[candidate.index]? = some true then
    .error .candidateMismatch
  else
    let scan := { scan with seen := scan.seen.set candidate.index true }
    if !candidate.healthy then .ok scan
    else
      match markers[candidate.index]?.join with
      | none => .error .inventoryUntrusted
      | some marker =>
        match lookupAt view scan.clock candidate.index tokenIds with
        | .error .untrusted => .error .inventoryUntrusted
        | .error .lookup => .error .lookupError
        | .ok lookup =>
          if lookup.marker ≠ marker then .error .inventoryChanged
          else .ok
            { scan with
              clock := scan.clock + 1
              overlaps := scan.overlaps.set candidate.index (some lookup.overlapTokens)
              residentTokens :=
                scan.residentTokens.set candidate.index (some lookup.residentTokens) }

/-- The second look at a candidate's marker. -/
def recheckCandidate (markers : List (Option ExactInventoryMarker)) (clock : Nat)
    (candidate : CandidateState) : Except ShadowOutcome Nat :=
  match markers[candidate.index]?.join with
  | none => .error .inventoryUntrusted
  | some marker =>
    if (view clock)[candidate.index]?.any (·.unchanged marker) then .ok (clock + 1)
    else .error .inventoryChanged

def evaluatePreRoute {α : Type} [NatCast α] [Sub α] [Mul α] [Max α] [DecidableEq α]
    (alpha : α) (maxOverlapUnits : Nat) (tokenIds : List UInt32) (decision : Decision) :
    PreRouteResult :=
  let count := (view 0).length
  if count = 0 then .failure .noInventories
  else
    match decision.candidates.head? with
    | none => .failure .candidateMismatch
    | some selected =>
      if decision.candidateState.length ≠ count then .failure .candidateMismatch
      else
        let markers := readMarkers view
        let start : Scan :=
          ⟨count, replicate count false, replicate count none, replicate count none⟩
        match decision.candidateState.foldlM (scanCandidate view tokenIds markers) start with
        | .error outcome => .failure outcome
        | .ok scan =>
          if scan.seen.any (!·) then .failure .candidateMismatch
          else
            match (decision.candidateState.filter (·.healthy)).foldlM
              (recheckCandidate view markers) scan.clock with
            | .error outcome => .failure outcome
            | .ok _ =>
              { shadow :=
                  classify selected tokenIds.length scan.overlaps decision alpha maxOverlapUnits
                overlaps := scan.overlaps
                residentTokens := scan.residentTokens
                promptTokens := tokenIds.length
                winner :=
                  uniqueWinner tokenIds.length scan.overlaps decision alpha maxOverlapUnits }

/-- The lock sections of a call that runs to its end. -/
def preRouteSections (decision : Decision) : Nat :=
  (view 0).length + 2 * (decision.candidateState.filter (·.healthy)).length

end Evaluation

section Instant
variable {view : Nat → List ExactRouteInventory} {toks : List UInt32}
  {markers : List (Option ExactInventoryMarker)}

def LookedUp (view : Nat → List ExactRouteInventory) (tokenIds : List UInt32)
    (markers : List (Option ExactInventoryMarker)) (scan : Scan) (index : Nat) : Prop :=
  ∃ clock inventory found, clock < scan.clock ∧ (view clock)[index]? = some inventory ∧
    inventory.lookup tokenIds = .ok found ∧ markers[index]?.join = some found.marker ∧
    scan.overlaps[index]? = some (some found.overlapTokens)

/-- The loop over the candidates, after those in `done`. -/
structure ScanInv (view : Nat → List ExactRouteInventory) (tokenIds : List UInt32)
    (markers : List (Option ExactInventoryMarker)) (first : Nat) (done : List CandidateState)
    (scan : Scan) : Prop where
  clock : scan.clock = first + (done.filter (·.healthy)).length
  lengths : scan.seen.length = markers.length ∧ scan.overlaps.length = markers.length
  seen : ∀ candidate ∈ done, scan.seen[candidate.index]? = some true
  found : ∀ candidate ∈ done, candidate.healthy →
    LookedUp view tokenIds markers scan candidate.index

variable {cand : CandidateState} {first : Nat} {scan scan' : Scan}

theorem ScanInv.step {done : List CandidateState} (h : ScanInv view toks markers first done scan)
    (hs : scanCandidate view toks markers scan cand = .ok scan') :
    ScanInv view toks markers first (done ++ [cand]) scan' := by
  simp only [scanCandidate] at hs
  split at hs
  · cases hs
  rename_i hgd
  rw [not_or, Nat.not_le] at hgd
  obtain ⟨hb, hf⟩ := hgd
  -- no cand before this one has its index
  have hn : ∀ other ∈ done, cand.index ≠ other.index := by
    intro other ht heq
    exact hf (heq ▸ h.seen other ht)
  have he : ∀ other ∈ done ++ [cand],
      (scan.seen.set cand.index true)[other.index]? = some true := by
    intro other ht
    rcases mem_append.1 ht with hold | hw
    · rw [getElem?_set_ne (hn other hold)]
      exact h.seen other hold
    · rw [mem_singleton.1 hw]
      exact getElem?_set_self (h.lengths.1 ▸ hb)
  split at hs
  next ha =>
    cases hs
    have hi : cand.healthy = false := by simpa using ha
    refine ⟨?_, ⟨by simpa using h.lengths.1, h.lengths.2⟩, he, ?_⟩
    · simp [h.clock, hi]
    intro other ht hh
    rcases mem_append.1 ht with hold | hw
    · exact h.found other hold hh
    · rw [mem_singleton.1 hw, hi] at hh
      cases hh
  next ha =>
    have hl : cand.healthy := by simpa using ha
    split at hs
    · cases hs
    rename_i marker hd
    split at hs
    · cases hs
    · cases hs
    rename_i lookup hk
    split at hs
    · cases hs
    rename_i hj
    cases hs
    refine ⟨?_, ⟨by simpa using h.lengths.1, by simpa using h.lengths.2⟩, he, ?_⟩
    · simp [h.clock, hl]
      omega
    intro other ht hh
    rcases mem_append.1 ht with hold | hw
    · obtain ⟨clock, inv, found, hc, hg, hu, hm, ho⟩ :=
        h.found other hold hh
      refine ⟨clock, inv, found, Nat.lt_succ_of_lt hc, hg, hu, hm, ?_⟩
      simp only
      rw [getElem?_set_ne (hn other hold)]
      exact ho
    · rw [mem_singleton.1 hw]
      simp only [lookupAt] at hk
      split at hk
      · cases hk
      rename_i inv hg
      refine ⟨scan.clock, inv, lookup, Nat.lt_succ_self _, hg, hk, ?_, ?_⟩
      · rw [hd, not_not.1 hj]
      · exact getElem?_set_self (h.lengths.2 ▸ hb)

theorem ScanInv.run {done rest : List CandidateState}
    (h : ScanInv view toks markers first done scan)
    (hr : rest.foldlM (scanCandidate view toks markers) scan = .ok scan') :
    ScanInv view toks markers first (done ++ rest) scan' := by
  induction rest generalizing done scan with
  | nil =>
    cases hr
    rw [append_nil]
    exact h
  | cons cand rest ih =>
    rw [foldlM_cons] at hr
    rcases hs : scanCandidate view toks markers scan cand with out | next
    · rw [hs] at hr
      cases hr
    rw [hs] at hr
    have hn := ih (h.step hs) hr
    rwa [append_assoc, singleton_append] at hn

variable {candidates : List CandidateState}

theorem recheck_run {first last : Nat}
    (hu : candidates.foldlM (recheckCandidate view markers) first = .ok last)
    (cand : CandidateState) (hm : cand ∈ candidates) :
    ∃ clock inv, first ≤ clock ∧ (view clock)[cand.index]? = some inv ∧
      ∃ marker, markers[cand.index]?.join = some marker ∧ inv.marker = some marker := by
  induction candidates generalizing first with
  | nil => cases hm
  | cons head rest ih =>
    rw [foldlM_cons] at hu
    rcases hs : recheckCandidate view markers first head with out | next
    · rw [hs] at hu
      cases hu
    rw [hs] at hu
    simp only [recheckCandidate] at hs
    split at hs
    · cases hs
    rename_i marker hk
    split at hs
    next hn =>
      cases hs
      rcases mem_cons.1 hm with rfl | hr
      · obtain ⟨inv, hg, ha⟩ := (Option.any_eq_true _ _).1 hn
        exact ⟨first, inv, Nat.le_refl _, hg, marker, hk, by
          simpa [ExactRouteInventory.unchanged] using ha⟩
      · obtain ⟨clock, inv, hl, hf⟩ := ih hu hr
        exact ⟨clock, inv, Nat.le_of_succ_le hl, hf⟩
    · cases hs

variable {out : ShadowOutcome}

theorem isFailure_scanCandidate {scan : Scan}
    (h : scanCandidate view toks markers scan cand = .error out) : out.isFailure := by
  simp only [scanCandidate] at h
  repeat' split at h
  all_goals cases h
  all_goals rfl

theorem isFailure_recheckCandidate {clock : Nat}
    (h : recheckCandidate view markers clock cand = .error out) : out.isFailure := by
  simp only [recheckCandidate] at h
  repeat' split at h
  all_goals cases h
  all_goals rfl

theorem isFailure_foldlM {σ : Type} {f : σ → CandidateState → Except ShadowOutcome σ}
    (hf : ∀ s cand out, f s cand = .error out → out.isFailure) {s : σ}
    (h : candidates.foldlM f s = .error out) : out.isFailure := by
  induction candidates generalizing s with
  | nil => cases h
  | cons cand rest ih =>
    rw [foldlM_cons] at h
    rcases hs : f s cand with out' | next
    · rw [hs] at h
      cases h
      exact hf s cand _ hs
    · rw [hs] at h
      exact ih h

theorem scanInv_start (view : Nat → List ExactRouteInventory) (toks : List UInt32)
    (markers : List (Option ExactInventoryMarker)) (count : Nat) (hlen : markers.length = count) :
    ScanInv view toks markers count [] ⟨count, replicate count false, replicate count none,
        replicate count none⟩ where
  clock := rfl
  lengths := by simp [hlen]
  seen := by simp
  found := by simp

theorem evaluatePreRoute_cases {α : Type} [NatCast α] [Sub α] [Mul α] [Max α] [DecidableEq α]
    (view : Nat → List ExactRouteInventory) (alpha : α) (units : Nat)
    (toks : List UInt32) (decision : Decision) : (∃ out : ShadowOutcome, out.isFailure ∧
      evaluatePreRoute view alpha units toks decision = .failure out) ∨
    ∃ scan, (evaluatePreRoute view alpha units toks decision).overlaps = scan.overlaps ∧
      0 < (view 0).length ∧
      ScanInv view toks (readMarkers view) (view 0).length decision.candidateState scan ∧
      ∃ last, (decision.candidateState.filter (·.healthy)).foldlM
        (recheckCandidate view (readMarkers view)) scan.clock = .ok last := by
  simp only [evaluatePreRoute]
  split
  · exact .inl ⟨.noInventories, rfl, rfl⟩
  rename_i hc
  split
  · exact .inl ⟨.candidateMismatch, rfl, rfl⟩
  split
  · exact .inl ⟨.candidateMismatch, rfl, rfl⟩
  split
  next hr =>
    exact .inl ⟨_, isFailure_foldlM (fun _ _ _ => isFailure_scanCandidate) hr, rfl⟩
  rename_i scan hr
  split
  · exact .inl ⟨.candidateMismatch, rfl, rfl⟩
  split
  next hk =>
    exact .inl ⟨_, isFailure_foldlM (fun _ _ _ => isFailure_recheckCandidate) hk, rfl⟩
  rename_i last hk
  have ht := scanInv_start view toks (readMarkers view) (view 0).length (by simp [readMarkers])
  exact .inr ⟨scan, rfl, Nat.pos_of_ne_zero hc, ht.run hr, last, hk⟩

end Instant

theorem reads_between {fleet : Nat → List TrackedInventory} (ht : system.pool.Reachable (fleet 0))
    (hu : ∀ k, system.pool.Steps (fleet k) (fleet (k + 1)))
    (hc : ∀ k, ∀ tracked ∈ fleet k, tracked.updates < 2 ^ 64) {index first mid last : Nat}
    (hs : first ≤ mid) (hl : mid ≤ last) {before after : TrackedInventory}
    {marker : ExactInventoryMarker} (hb : (fleet first)[index]? = some before)
    (ha : (fleet last)[index]? = some after) (hk : before.inventory.marker = some marker)
    (hg : after.inventory.marker = some marker) :
    ∃ tracked, (fleet mid)[index]? = some tracked ∧ tracked.inventory.marker = some marker ∧
      tracked.inventory.reads = before.inventory.reads := by
  have hr := ht.steps (Steps.of_chain hu (Nat.zero_le first))
  obtain ⟨tracked, hm, ho⟩ := pool_steps_get (Steps.of_chain hu hs) hb
  obtain ⟨after', ha', hf⟩ := pool_steps_get (Steps.of_chain hu hl) hm
  rw [ha] at ha'
  cases ha'
  have hv := not_over (hc last after (mem_of_getElem? ha)) hg
  exact ⟨tracked, hm, validates.between (pool_reachable_get hr hb) ho hf hk hv⟩

/-- The lookups of an evaluation all hold at one instant of the call, whatever
updates ran between its lock sections. -/
theorem pre_route_linearizable {α : Type} [NatCast α] [Sub α] [Mul α] [Max α] [DecidableEq α]
    (alpha : α) (maxOverlapUnits : Nat) (tokenIds : List UInt32) (decision : Decision)
    (fleet : Nat → List TrackedInventory)
    (hstart : system.pool.Reachable (fleet 0))
    (hupdates : ∀ k, system.pool.Steps (fleet k) (fleet (k + 1)))
    (hcount : ∀ k, ∀ tracked ∈ fleet k, tracked.updates < 2 ^ 64)
    (hresult : (evaluatePreRoute (fun k => (fleet k).map (·.inventory)) alpha maxOverlapUnits
      tokenIds decision).shadow.outcome.isFailure = false) :
    ∃ instant, instant < preRouteSections (fun k => (fleet k).map (·.inventory)) decision ∧
      ∀ candidate ∈ decision.candidateState, candidate.healthy →
        ∃ tracked overlap, (fleet instant)[candidate.index]? = some tracked ∧
          tracked.inventory.Answers tokenIds overlap ∧
          (evaluatePreRoute (fun k => (fleet k).map (·.inventory)) alpha maxOverlapUnits tokenIds
            decision).overlaps[candidate.index]? = some (some overlap) := by
  obtain ⟨outcome, hu, hf⟩ | ⟨scan, ho, hp, hs, last, hc⟩ :=
    evaluatePreRoute_cases (fun k => (fleet k).map (·.inventory)) alpha maxOverlapUnits tokenIds
      decision
  · rw [hf] at hresult
    exact absurd (hu.symm.trans hresult) Bool.noConfusion
  by_cases hh : decision.candidateState.filter (·.healthy) = []
  · -- with nobody to look up, every instant will do
    refine ⟨0, Nat.lt_of_lt_of_le hp (Nat.le_add_right _ _), ?_⟩
    intro candidate he hw
    have hn : candidate ∈ decision.candidateState.filter (·.healthy) :=
      mem_filter.2 ⟨he, hw⟩
    rw [hh] at hn
    cases hn
  have hy := length_pos_iff.2 hh
  -- the lookups are done and the second look has not begun
  refine ⟨scan.clock, ?_, ?_⟩
  · rw [hs.clock, preRouteSections]
    omega
  intro candidate he hw
  obtain ⟨clock, inventory, found, hb, hg, hl, hm, hv⟩ :=
    hs.found candidate he hw
  obtain ⟨clock', inventory', ha, hg', marker, hm', hi⟩ :=
    recheck_run hc candidate (mem_filter.2 ⟨he, hw⟩)
  rw [hm] at hm'
  cases hm'
  simp only [getElem?_map, Option.map_eq_some_iff] at hg hg'
  obtain ⟨tracked, ht, rfl⟩ := hg
  obtain ⟨tracked', ht', rfl⟩ := hg'
  obtain ⟨mid, hd, -, hr⟩ := reads_between hstart hupdates hcount (Nat.le_of_lt hb)
    ha ht ht' (ExactRouteInventory.marker_of_lookup hl) hi
  refine ⟨mid, found.overlapTokens, hd, ?_, ho ▸ hv⟩
  apply ExactRouteInventory.answers_of_lookup
  rw [← hl]
  exact congrFun (congrArg Prod.fst hr) tokenIds

def warmBatch : KvEventBatch := ⟨[.blockStored ReplayState.firstStore], none⟩

def sampleFleet : List TrackedInventory :=
  [.direct ((FencedExactKvInventory.new 4 ⟨8, 8, 8⟩).ingestLive 0 warmBatch).2 1,
    .direct ((FencedExactKvInventory.new 4 ⟨8, 8, 8⟩).ingestLive 0 ⟨[], none⟩).2 1]

def sampleFleetLater : List TrackedInventory :=
  sampleFleet.set 0 (.direct (((FencedExactKvInventory.new 4 ⟨8, 8, 8⟩).ingestLive 0
    warmBatch).2.ingestLive 0 warmBatch).2 2)

def sampleDecision : Decision where
  candidates := [1, 0]
  candidateState := [⟨1, 0, 0, 0, 0, 1, true⟩, ⟨0, 1, 0, 0, 0, 1, true⟩]
  overlapBlocks := 0
  totalBlocks := 4
  affinityBlocks := 0
  loadUnits := 1
  rotation := 0
  outcome := .load

theorem sampleFleet_reachable : system.pool.Reachable sampleFleet := by
  have hi : system.pool.Reachable
      [.direct (.new 4 ⟨8, 8, 8⟩) 0, .direct (.new 4 ⟨8, 8, 8⟩) 0] := by
    refine .init ?_
    intro tracked hm
    simp only [mem_cons, not_mem_nil, or_false, or_self] at hm
    subst hm
    exact ⟨rfl, 4, ⟨8, 8, 8⟩, rfl⟩
  have hw : system.pool.Reachable
      [.direct ((FencedExactKvInventory.new 4 ⟨8, 8, 8⟩).ingestLive 0 warmBatch).2 1,
        .direct (.new 4 ⟨8, 8, 8⟩) 0] :=
    hi.step (a := (0, .direct (.ingestLive 0 warmBatch))) ⟨_, _, rfl, rfl, rfl⟩
  exact hw.step (a := (1, .direct (.ingestLive 0 ⟨[], none⟩))) ⟨_, _, rfl, rfl, rfl⟩

theorem sampleFleet_steps (k : Nat) : system.pool.Steps
    (if k < 3 then sampleFleet else sampleFleetLater)
    (if k + 1 < 3 then sampleFleet else sampleFleetLater) := by
  by_cases hk : k < 3
  · by_cases hn : k + 1 < 3
    · rw [if_pos hk, if_pos hn]
      exact .refl
    rw [if_pos hk, if_neg hn]
    refine Steps.tail
      (a := (0, InventoryUpdate.direct (.ingestLive 0 warmBatch))) .refl ?_
    exact ⟨_, _, rfl, rfl, rfl⟩
  · rw [if_neg hk, if_neg (by omega)]
    exact .refl

theorem pre_route_linearizable_sample : ∃ instant, instant < 6 ∧
      ∀ candidate ∈ sampleDecision.candidateState, candidate.healthy → ∃ tracked overlap,
          (if instant < 3 then sampleFleet else sampleFleetLater)[candidate.index]? =
            some tracked ∧
          tracked.inventory.Answers [1, 2, 3] overlap ∧
          (evaluatePreRoute (fun k => (if k < 3 then sampleFleet else sampleFleetLater).map
            (·.inventory)) (1 : Int) 4 [1, 2, 3] sampleDecision).overlaps[candidate.index]? =
            some (some overlap) :=
  pre_route_linearizable (1 : Int) 4 [1, 2, 3] sampleDecision
    (fun k => if k < 3 then sampleFleet else sampleFleetLater) sampleFleet_reachable
    sampleFleet_steps (by
      intro k tracked hm
      split at hm
      · have ha : ∀ t ∈ sampleFleet, t.updates < 2 ^ 64 := by decide
        exact ha tracked hm
      · have ha : ∀ t ∈ sampleFleetLater, t.updates < 2 ^ 64 := by decide
        exact ha tracked hm) (by decide +kernel)

end Ramjet
