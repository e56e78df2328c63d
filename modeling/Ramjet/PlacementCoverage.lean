import Ramjet.ExactPlacement

/-!
# Coverage when a request is placed

`route_pre_route` of `exact_shadow.rs` with all its lock sections. An inventory may be
updated between the readiness of the candidates and the evaluation.
-/

namespace Ramjet
open Option List

/-- The lock sections of a readiness check that succeeds. -/
def readySections (d : Decision) : Nat := (d.candidateState.filter (·.healthy)).length

def readySection (d : Decision) (index : Nat) : Nat :=
  ((d.candidateState.takeWhile (·.index ≠ index)).filter (·.healthy)).length

/-- A check that fails ends earlier; what the evaluation reads after it changes nothing. -/
def exactRouteView (stillReady : Bool) (view : Nat → List ExactRouteInventory) (d : Decision) :
    ExactRouteView where
  stillReady
  inventories k := view (readySections d + k)
  placementReady index := (view (readySection d index))[index]?.any fun inventory =>
    inventory.supportsPlacement && inventory.placementReady

namespace ExactRouteInventory
variable {self : ExactRouteInventory}

theorem of_placementReady (h : self.placementReady) :
    self.supportsPlacement ∧ ∃ marker, self.marker = some marker := by
  cases self with
  | snapshot publication => cases h
  | direct inventory =>
    have ht : inventory.trusted := (Bool.and_eq_true_iff.1 h).1
    exact ⟨rfl, _, if_pos ht⟩

end ExactRouteInventory

section
variable {d : Decision}

theorem recomputeExactReservations_failure (requestBytes : Nat) (outcome : ShadowOutcome)
    (estimator : RequestLoadEstimator) :
    recomputeExactReservations requestBytes d (.failure outcome) estimator = d := by
  simp only [recomputeExactReservations, PreRouteResult.failure]
  split
  · rfl
  cases d.candidateState.filter (·.healthy) with
  | nil => rfl
  | cons first rest => simp

theorem evaluatePlacement_failure {outcome : ShadowOutcome} (h : outcome.isFailure)
    (policy : ExactPlacementPolicy) :
    evaluatePlacement d (.failure outcome) policy = .fallback := by
  cases outcome <;> first | rfl | cases h

theorem marker_of_readMarkers {view : Nat → List ExactRouteInventory} {index : Nat}
    {marker : ExactInventoryMarker} (h : (readMarkers view)[index]?.join = some marker) :
    index < (view 0).length ∧
      (view index)[index]?.bind ExactRouteInventory.marker = some marker := by
  simp only [readMarkers, getElem?_map, join_eq_some_iff, map_eq_some_iff] at h
  obtain ⟨k, hk, hm⟩ := h
  obtain ⟨hl, rfl⟩ := List.getElem?_eq_some_iff.1 hk
  rw [getElem_range] at hm
  exact ⟨by rwa [length_range] at hl, hm⟩

variable {α : Type} [NatCast α] [Sub α] [Mul α] [Max α] [DecidableEq α]

theorem placed_of_changed {config : ExactRouteConfig α} {view : ExactRouteView}
    {tokenIds : List UInt32} {requestBytes : Nat} {assignment : CanaryAssignment}
    (h : routePreRoute config view tokenIds requestBytes assignment d ≠ d) :
    placementReadyFor (view.inventories 0).length view.placementReady d ∧
      ∀ outcome : ShadowOutcome, outcome.isFailure →
        evaluatePreRoute view.inventories config.alpha config.maxOverlapUnits tokenIds d ≠
          .failure outcome := by
  refine ⟨by_contra fun hr => h ?_, fun outcome ho hfai => h ?_⟩
  · have hs : ExactPlacementMode.applies .shadow = false := rfl
    simp only [routePreRoute, placeExact, Bool.eq_false_of_not_eq_true hr, Bool.not_false,
      Bool.and_true]
    cases ha : (placementMode config.mode assignment).applies <;> simp [ha, hs]
  · simp only [routePreRoute, placeExact, hfai, evaluatePlacement_failure ho,
      recomputeExactReservations_failure, ite_self]

/-- Whatever updates run during the call: if no healthy candidate's inventory stops being
ready between the check of its readiness and the capture of its marker, then a
request is moved or its reservations are rewritten only with every healthy candidate
ready for placement at the instant its overlap holds. -/
theorem placement_covered (config : ExactRouteConfig α) (stillReady : Bool)
    (tokenIds : List UInt32) (requestBytes : Nat) (assignment : CanaryAssignment) (d : Decision)
    (fleet : Nat → List TrackedInventory)
    (hstart : TrackedInventory.system.pool.Reachable (fleet 0))
    (hupdates : ∀ k, TrackedInventory.system.pool.Steps (fleet k) (fleet (k + 1)))
    (hcount : ∀ k, ∀ tracked ∈ fleet k, tracked.updates < 2 ^ 64)
    (hsettled : ∀ candidate ∈ d.candidateState, candidate.healthy →
      (fleet (readySection d candidate.index))[candidate.index]?.any
        (·.inventory.placementReady) →
      (fleet (readySections d + candidate.index))[candidate.index]?.any
        (·.inventory.placementReady))
    (hchanged : routePreRoute config
      (exactRouteView stillReady (fun k => (fleet k).map (·.inventory)) d) tokenIds requestBytes
      assignment d ≠ d) :
    ∃ instant, ∀ candidate ∈ d.candidateState, candidate.healthy →
      ∃ tracked overlap, (fleet instant)[candidate.index]? = some tracked ∧
        tracked.inventory.supportsPlacement ∧ tracked.inventory.placementReady ∧
        tracked.inventory.Answers tokenIds overlap ∧
        (evaluatePreRoute (fun k => (fleet (readySections d + k)).map (·.inventory)) config.alpha
          config.maxOverlapUnits tokenIds d).overlaps[candidate.index]? = some (some overlap) := by
  obtain ⟨hr, hy⟩ := placed_of_changed hchanged
  obtain ⟨outcome, hx, hf⟩ | ⟨scan, ho, -, hs, last, hk⟩ :=
    evaluatePreRoute_cases (fun k => (fleet (readySections d + k)).map (·.inventory)) config.alpha
      config.maxOverlapUnits tokenIds d
  · exact absurd hf (hy outcome hx)
  -- the lookups are done and the second look has not begun
  refine ⟨readySections d + scan.clock, fun candidate hn hw => ?_⟩
  have hh : candidate ∈ d.candidateState.filter (·.healthy) := List.mem_filter.2 ⟨hn, hw⟩
  obtain ⟨clock, inventory, found, hb, hg, hl, hm, hv⟩ :=
    hs.found candidate hn hw
  obtain ⟨clock', inventory', ha, hg', marker, hm', hi⟩ :=
    recheck_run hk candidate hh
  rw [hm] at hm'
  cases hm'
  simp only [placementReadyFor, Bool.and_eq_true, List.all_eq_true] at hr
  obtain ⟨checked, hg₀, hr₀⟩ :=
    (Option.any_eq_true _ _).1 (hr.1.1.2 candidate hh)
  simp only [List.getElem?_map, Option.map_eq_some_iff] at hg hg' hg₀
  obtain ⟨tracked, ht, rfl⟩ := hg
  obtain ⟨tracked', ht', rfl⟩ := hg'
  obtain ⟨tracked₀, ht₀, rfl⟩ := hg₀
  -- what was ready when it was checked is ready when its marker is captured
  obtain ⟨captured, hc, hp⟩ := (Option.any_eq_true _ _).1 <| hsettled candidate hn hw <|
    (Option.any_eq_true _ _).2 ⟨tracked₀, ht₀, (Bool.and_eq_true_iff.1 hr₀).2⟩
  obtain ⟨hq, hu⟩ := marker_of_readMarkers hm
  rw [List.getElem?_map, hc] at hu
  obtain ⟨mid, hd, -, he⟩ := reads_between hstart hupdates hcount
    (Nat.add_le_add_left hb.le _) (Nat.add_le_add_left ha _) ht ht'
    (ExactRouteInventory.marker_of_lookup hl) hi
  obtain ⟨mid', hd', -, he'⟩ := reads_between hstart hupdates hcount
    (Nat.add_le_add_left (hq.le.trans (hs.clock ▸ Nat.le_add_right _ _)) _)
    (Nat.add_le_add_left ha _) hc ht' hu hi
  rw [hd] at hd'
  cases hd'
  have hp : mid.inventory.placementReady := (congrArg Prod.snd he').trans hp
  refine ⟨mid, found.overlapTokens, hd, (ExactRouteInventory.of_placementReady hp).1,
    hp, ?_, ho ▸ hv⟩
  apply ExactRouteInventory.answers_of_lookup
  rw [← hl]
  exact congrFun (congrArg Prod.fst he) tokenIds

end

namespace SamplePlacement

def hybridBatch : KvEventBatch :=
  ⟨[.blockStored ReplayState.firstStore, .blockStored
    { ReplayState.firstStore with groupIdx := some 1, kvCacheSpecKind := some "custom" }], none⟩

def cold : TrackedInventory :=
  .direct ((FencedExactKvInventory.new 4 ⟨8, 8, 8⟩).ingestLive 0 ⟨[], none⟩).2 1

def hybrid : TrackedInventory :=
  .direct (((FencedExactKvInventory.new 4 ⟨8, 8, 8⟩).ingestLive 0 ⟨[], none⟩).2.ingestLive 1
    hybridBatch).2 2

def warm : TrackedInventory :=
  .direct (((FencedExactKvInventory.new 4 ⟨8, 8, 8⟩).ingestLive 0 ⟨[], none⟩).2.ingestLive 1
    ⟨[.blockStored ReplayState.firstStore], none⟩).2 2

def decision : Decision where
  candidates := [0]
  candidateState := [⟨0, 0, 0, 0, 0, 1, true⟩]
  overlapBlocks := 0
  totalBlocks := 4
  affinityBlocks := 0
  loadUnits := 1
  rotation := 0
  outcome := .load

def config : ExactRouteConfig Int := ⟨.placement, ⟨1, 8⟩, 1, 4, ⟨2048, 32768, 8⟩⟩

def twoCandidates : Decision :=
  { decision with
    candidates := [0, 1]
    candidateState := [⟨0, 0, 0, 0, 0, 1, true⟩, ⟨1, 1, 0, 0, 0, 1, true⟩] }

def route (d : Decision) (fleet : Nat → List TrackedInventory) : Decision :=
  routePreRoute config (exactRouteView true (fun k => (fleet k).map (·.inventory)) d) [1, 2, 3]
    200000 .treatment d

/-- The batch is applied between the check and the capture of the marker. -/
def updated (k : Nat) : List TrackedInventory := if k < 1 then [cold] else [hybrid]

/-- The second inventory is updated before it is checked. -/
def stored (k : Nat) : List TrackedInventory := if k < 1 then [cold, cold] else [cold, warm]

theorem new_reachable (n : Nat) : TrackedInventory.system.pool.Reachable
    (replicate n (.direct (.new 4 ⟨8, 8, 8⟩) 0)) := by
  refine .init fun tracked hm => ?_
  rw [eq_of_mem_replicate hm]
  exact ⟨rfl, 4, ⟨8, 8, 8⟩, rfl⟩

theorem updated_steps (k : Nat) :
    TrackedInventory.system.pool.Steps (updated k) (updated (k + 1)) := by
  cases k with
  | zero =>
    exact .tail (a := (0, InventoryUpdate.direct (.ingestLive 1 hybridBatch))) .refl
      ⟨_, _, rfl, rfl, rfl⟩
  | succ k => exact .refl

theorem stored_steps (k : Nat) :
    TrackedInventory.system.pool.Steps (stored k) (stored (k + 1)) := by
  cases k with
  | zero =>
    exact .tail (a := (1, InventoryUpdate.direct
      (.ingestLive 1 ⟨[.blockStored ReplayState.firstStore], none⟩))) .refl ⟨_, _, rfl, rfl, rfl⟩
  | succ k => exact .refl

end SamplePlacement

open SamplePlacement in
/-- The inventory is ready before the batch and holds the overlap after it: the
reservations are rewritten, and at no instant were both true. -/
theorem placement_past_coverage : TrackedInventory.system.pool.Reachable (updated 0) ∧
      (∀ k, TrackedInventory.system.pool.Steps (updated k) (updated (k + 1))) ∧
      route decision updated ≠ decision ∧
      ∀ k tracked overlap, (updated k)[0]? = some tracked →
        (evaluatePreRoute (fun k => (updated (readySections decision + k)).map (·.inventory))
          config.alpha config.maxOverlapUnits [1, 2, 3] decision).overlaps[0]? =
            some (some overlap) →
        tracked.inventory.Answers [1, 2, 3] overlap → tracked.inventory.placementReady = false := by
  refine ⟨(new_reachable 1).step (a := (0, .direct (.ingestLive 0 ⟨[], none⟩)))
    ⟨_, _, rfl, rfl, rfl⟩, updated_steps, by decide +kernel, fun k tracked overlap hg ho => ?_⟩
  have hw : (evaluatePreRoute (fun k => (updated (readySections decision + k)).map (·.inventory))
      config.alpha config.maxOverlapUnits [1, 2, 3] decision).overlaps[0]? = some (some 2) := by
    decide +kernel
  obtain rfl : overlap = 2 := by simpa using ho.symm.trans hw
  cases k with
  | zero =>
    cases hg
    rintro ⟨-, found, hf, ht⟩
    have hz : (((FencedExactKvInventory.new 4 ⟨8, 8, 8⟩).ingestLive 0
        ⟨[], none⟩).2.inventory.findLongest [1, 2, 3]).toOption.map (·.tokenIds) = some 0 := by
      decide +kernel
    rw [hf] at hz
    cases ht.symm.trans (some.inj hz)
  | succ k =>
    cases hg
    exact fun _ => by decide +kernel

open SamplePlacement in
theorem placement_covered_sample : (route twoCandidates stored).candidates = [1, 0] ∧
      ∃ instant, ∀ candidate ∈ twoCandidates.candidateState, ∃ tracked overlap,
        (stored instant)[candidate.index]? = some tracked ∧ tracked.inventory.placementReady ∧
          tracked.inventory.Answers [1, 2, 3] overlap := by
  have hc : (route twoCandidates stored).candidates = [1, 0] := by decide +kernel
  have hf : TrackedInventory.system.pool.Reachable [cold, .direct (.new 4 ⟨8, 8, 8⟩) 0] :=
    (new_reachable 2).step (a := (0, .direct (.ingestLive 0 ⟨[], none⟩))) ⟨_, _, rfl, rfl, rfl⟩
  have hr : TrackedInventory.system.pool.Reachable (stored 0) :=
    hf.step (a := (1, .direct (.ingestLive 0 ⟨[], none⟩))) ⟨_, _, rfl, rfl, rfl⟩
  have hu : ∀ k, ∀ tracked ∈ stored k, tracked.updates < 2 ^ 64 := by
    intro k
    cases k with
    | zero => decide
    | succ k =>
      show ∀ tracked ∈ [cold, warm], _
      decide
  obtain ⟨instant, h⟩ := placement_covered config true [1, 2, 3] 200000 .treatment twoCandidates
    stored hr stored_steps hu (by decide +kernel) fun he => by
      rw [route, he] at hc
      cases hc
  refine ⟨hc, instant, fun candidate hm => ?_⟩
  have hh : ∀ candidate ∈ twoCandidates.candidateState, candidate.healthy := by decide
  obtain ⟨tracked, overlap, hg, -, hp, ha, -⟩ := h candidate hm (hh candidate hm)
  exact ⟨tracked, overlap, hg, hp, ha⟩

end Ramjet
