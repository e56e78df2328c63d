import Ramjet.Lib.Lru
import Ramjet.RouteDecision

/-!
# Routing

The scores of `router.rs`, by the prefix an upstream has served and its load, over any
linearly ordered arithmetic; their order is the decision.
-/

namespace Ramjet
open List

inductive SpeculationRouteMode where
  | off | shadow | prefer
  deriving DecidableEq

inductive SpeculationProfile where
  | standard | mtp
  deriving DecidableEq

inductive SpeculationPreference where
  | neutral | standard | mtp
  deriving DecidableEq

def SpeculationPreference.matches : SpeculationPreference → SpeculationProfile → Bool
  | .standard, .standard | .mtp, .mtp => true
  | _, _ => false

inductive SpeculationRouteOutcome where
  | off | neutral | matching | wouldMove | moved | scoreBlocked | unavailable
  deriving DecidableEq

inductive Affinity where
  | byPrefix | byLoad
  deriving DecidableEq

inductive AffinityBasis where
  | absolute | marginal | relative
  deriving DecidableEq

inductive AffinityHorizonMode where
  | off | observe | enforce
  deriving DecidableEq

inductive AffinityHorizonOutcome where
  | off | noOverlap | fresh | trimmed | wouldMove | moved
  deriving DecidableEq

structure RequestLoadEstimator where
  chunkBytes : Nat
  loadUnitBytes : Nat
  maxLoadUnits : Nat

namespace RequestLoadEstimator
variable (estimator : RequestLoadEstimator)

def estimateReusableBytes (bodyBytes reusableBytes : Nat) : Nat :=
  let fresh := bodyBytes - reusableBytes
  min (max ((fresh + estimator.loadUnitBytes - 1) / estimator.loadUnitBytes) 1)
    estimator.maxLoadUnits

def estimateBlocks (bodyBytes overlapBlocks : Nat) : Nat :=
  estimator.estimateReusableBytes bodyBytes (overlapBlocks * estimator.chunkBytes)

def estimateExactTokens (bodyBytes overlapTokens promptTokens : Nat) : Option Nat :=
  if promptTokens = 0 ∨ promptTokens < overlapTokens then none
  else some (estimator.estimateReusableBytes bodyBytes (bodyBytes * overlapTokens / promptTokens))

end RequestLoadEstimator

/-- A router's configuration, with what `Router::new` asserts of it. -/
structure RouterConfig (α : Type) (n : Nat) where
  alpha : α
  maxOverlapBlocks : Nat
  estimator : RequestLoadEstimator
  projectedLoad : Bool
  speculationMode : SpeculationRouteMode
  speculationProfiles : List SpeculationProfile
  affinity : Affinity
  horizonMode : AffinityHorizonMode
  affinityBasis : AffinityBasis
  affinityGroups : List Nat
  upstreams_pos : 0 < n
  profiles_length : speculationProfiles.length = n
  groups_length : affinityGroups = [] ∨ affinityGroups.length = n

/-- `lru` maps a fingerprint to the instant of its last successful response;
`horizon` is what the upstream's estimator answers at an instant. -/
structure UpstreamState where
  lru : Lru UInt64 Nat
  horizon : Nat → Option Nat
  inflight : Nat
  load : Nat
  healthy : Bool
  drained : Bool

def UpstreamState.serving (state : UpstreamState) : Bool := state.healthy && !state.drained

structure Router (n : Nat) where
  states : Fin n → UpstreamState
  rr : UInt64

structure Locality where
  rawOverlap : Nat
  freshOverlap : Nat

namespace Locality

def walk (lastServed : UInt64 → Option Nat) (horizon : Option Nat) (now : Nat)
    (freshDone : Bool) : List UInt64 → Locality
  | [] => ⟨0, 0⟩
  | fingerprint :: rest =>
    match lastServed fingerprint with
    | none => ⟨0, 0⟩
    | some seen =>
      let fresh := !freshDone && horizon.all fun horizon => now - seen ≤ horizon
      let walked := walk lastServed horizon now (!fresh) rest
      ⟨walked.rawOverlap + 1, walked.freshOverlap + if fresh then 1 else 0⟩

end Locality

structure Score (α : Type) where
  index : Nat
  overlap : Nat
  affinity : Nat
  load : Nat
  requestLoad : Nat
  weighted : α
  healthy : Bool

structure PeerOverlap where
  floor : Nat
  lead : Nat

/-- One pass over the fleet: the least and the greatest overlap of the serving
members of each group. -/
def peerOverlaps (states : List UpstreamState) (overlaps groups : List Nat) : List PeerOverlap :=
  let group := fun index => groups.getD index 0
  let perGroup := (states.zip overlaps).zipIdx.foldl
    (fun (perGroup : Nat → Option PeerOverlap) entry =>
      if entry.1.1.serving then
        let overlap := entry.1.2
        let known := match perGroup (group entry.2) with
          | none => ⟨overlap, overlap⟩
          | some known => ⟨min known.floor overlap, max known.lead overlap⟩
        Function.update perGroup (group entry.2) (some known)
      else perGroup)
    fun _ => none
  (range states.length).map fun index => (perGroup (group index)).getD ⟨0, 0⟩

def creditedAffinity (basis : AffinityBasis) (overlap : Nat) (peers : PeerOverlap) (cap : Nat) :
    Nat :=
  match basis with
  | .absolute => min overlap cap
  | .marginal => min (overlap - peers.floor) cap
  | .relative => min peers.lead cap - min (peers.lead - overlap) cap

section Scoring
variable {α : Type} [LinearOrder α]

def compareScores (left right : Score α) (rotation candidateCount : Nat)
    (preference : SpeculationPreference) (profiles : List SpeculationProfile)
    (profileTieBreak : Bool) : Ordering :=
  let preferred := fun (score : Score α) => profiles[score.index]?.any preference.matches
  (compare right.healthy left.healthy).then <|
    (compare right.weighted left.weighted).then <|
    (compare right.overlap left.overlap).then <|
    (if profileTieBreak then compare (preferred right) (preferred left) else .eq).then <|
    compare ((left.index + rotation) % candidateCount) ((right.index + rotation) % candidateCount)

def speculationRouteOutcome (scores : List (Score α)) (mode : SpeculationRouteMode)
    (profiles : List SpeculationProfile) (preference : SpeculationPreference) :
    SpeculationRouteOutcome :=
  let preferred := fun (score : Score α) => profiles[score.index]?.any preference.matches
  match mode, preference, scores.head? with
  | .off, _, _ => .off
  | _, .neutral, _ => .neutral
  -- the source indexes the first score
  | _, _, none => .unavailable
  | mode, _, some baseline =>
    if preferred baseline then .matching
    else if !scores.any fun score => score.healthy && preferred score then .unavailable
    else if !scores.any fun score => score.healthy && preferred score &&
        score.weighted = baseline.weighted && score.overlap = baseline.overlap then
      .scoreBlocked
    else if mode = .shadow then .wouldMove
    else .moved

def Score.candidateState (score : Score α) (rank : Nat) : CandidateState where
  index := score.index
  rank
  overlapBlocks := score.overlap
  affinityBlocks := score.affinity
  loadUnits := score.load
  requestLoadUnits := score.requestLoad
  healthy := score.healthy

def decisionFromScores (winner : Score α) (others : List (Score α)) (totalBlocks rotation : Nat) :
    Decision where
  candidates := (winner :: others).map (·.index)
  candidateState := (winner :: others).mapIdx fun rank score => score.candidateState rank
  overlapBlocks := winner.overlap
  totalBlocks
  affinityBlocks := winner.affinity
  loadUnits := winner.requestLoad
  rotation
  outcome :=
    if others = [] then .single
    else if 0 < winner.overlap then .overlap
    else if others.any fun score => score.weighted ≠ winner.weighted then .load
    else .roundRobin

end Scoring

namespace Router
variable {α : Type} [LinearOrder α] [NatCast α] [Sub α] [Mul α] {n : Nat}
  (config : RouterConfig α n) (router : Router n)

def localities (fingerprints : List UInt64) (now : Nat) : List Locality :=
  (ofFn router.states).map fun state =>
    match config.affinity with
    | .byPrefix => Locality.walk state.lru.peek (state.horizon now) now false fingerprints
    | .byLoad => ⟨0, 0⟩

/-- The scores of all upstreams, in their configured order. -/
def score (localities : List Locality)
    (bodyBytes loadFloor : Nat) (useFresh : Bool) : List (Score α) :=
  let states := ofFn router.states
  let overlaps := localities.map fun locality =>
    if useFresh then locality.freshOverlap else locality.rawOverlap
  let peers := match config.affinityBasis with
    | .absolute => []
    | .marginal | .relative => peerOverlaps states overlaps config.affinityGroups
  states.mapIdx fun index state =>
    let overlap := overlaps.getD index 0
    let affinity := creditedAffinity config.affinityBasis overlap (peers.getD index ⟨0, 0⟩)
      config.maxOverlapBlocks
    let requestLoad := max (config.estimator.estimateBlocks bodyBytes overlap)
      (min (max loadFloor 1) config.estimator.maxLoadUnits)
    let additionalLoad := if config.projectedLoad then requestLoad - 1 else 0
    { index
      overlap
      affinity
      load := state.load
      requestLoad
      weighted := (affinity : α) - config.alpha * ((state.load + additionalLoad : Nat) : α)
      healthy := state.serving }

def sortScores (rotation : Nat) (preference : SpeculationPreference)
    (profileTieBreak : Bool) (scores : List (Score α)) : List (Score α) :=
  scores.insertionSort fun left right =>
    compareScores left right rotation n preference config.speculationProfiles profileTieBreak ≠ .gt

def horizonOutcome (localities : List Locality)
    (scores alternative : List (Score α)) : AffinityHorizonOutcome :=
  let cap := config.maxOverlapBlocks
  if config.horizonMode = .off then .off
  else if localities.all fun locality => locality.rawOverlap = 0 then .noOverlap
  else if (scores.head?.map (·.index)) ≠ (alternative.head?.map (·.index)) then
    if config.horizonMode = .enforce then .moved else .wouldMove
  else if localities.any fun locality =>
      min locality.freshOverlap cap < min locality.rawOverlap cap then
    .trimmed
  else .fresh

/-- The scores in the order in which they are tried, and what the speculation
profile and the horizon did to it. -/
def routeScores (bodyBytes : Nat)
    (fingerprints : List UInt64) (loadFloor : Nat) (preference : SpeculationPreference)
    (rotation now : Nat) :
    List (Score α) × SpeculationRouteOutcome × AffinityHorizonOutcome :=
  let localities := router.localities config fingerprints now
  let enforce := config.horizonMode = .enforce
  let scores := sortScores config rotation preference false
    (router.score config localities bodyBytes loadFloor enforce)
  let alternative := sortScores config rotation preference false
    (router.score config localities bodyBytes loadFloor (!enforce))
  let outcome :=
    speculationRouteOutcome scores config.speculationMode config.speculationProfiles preference
  let resorted :=
    if config.speculationMode = .prefer ∧ outcome = .moved then
      sortScores config rotation preference true scores
    else scores
  (resorted, outcome, horizonOutcome config localities scores alternative)

/-- `none` only for a fleet without upstreams, which `Router::new` refuses. -/
def routeFingerprints (bodyBytes : Nat)
    (fingerprints : List UInt64) (loadFloor : Nat) (preference : SpeculationPreference)
    (advanceRotation : Bool) (now : Nat) :
    Option (Decision × SpeculationRouteOutcome × AffinityHorizonOutcome) × Router n :=
  let nextRotation := router.rr + 1
  let router' := if advanceRotation then { router with rr := nextRotation } else router
  let rotation := nextRotation.toNat % n
  match router'.routeScores config bodyBytes fingerprints loadFloor preference rotation now with
  | ([], _) => (none, router')
  | (winner :: others, outcome, horizon) =>
    (some (decisionFromScores winner others fingerprints.length rotation, outcome, horizon),
      router')

end Router

section Routed
variable {α : Type} [LinearOrder α] {n : Nat}

theorem decisionFromScores_wf {winner : Score α} {others : List (Score α)}
    (h : ((winner :: others).map (·.index)).Perm (range n)) (totalBlocks rotation : Nat) :
    (decisionFromScores winner others totalBlocks rotation).Wf n := by
  have ha : ∀ {β : Type} (f : CandidateState → β) (g : Score α → β),
      (∀ score rank, f (score.candidateState rank) = g score) →
      ((winner :: others).mapIdx fun rank score => score.candidateState rank).map f =
        (winner :: others).map g := by
    intro β f g hf
    apply ext_getElem?
    intro i
    simp only [getElem?_map, getElem?_mapIdx, Option.map_map]
    rcases (winner :: others)[i]? with _ | score
    · rfl
    · exact congrArg some (hf score i)
  have hx := ha (·.index) (·.index) fun _ _ => rfl
  have hl : (winner :: others).length = n := by simpa using h.length_eq
  refine ⟨?_, ?_, ?_, ⟨winner.candidateState 0, _, mapIdx_cons, rfl, rfl, rfl, rfl⟩, ?_⟩
  · rw [decisionFromScores, hx]
    exact h
  · exact ⟨[], (append_nil _).trans hx.symm⟩
  · apply ext_getElem?
    intro i
    simp only [decisionFromScores, getElem?_map, getElem?_mapIdx, Option.map_map]
    by_cases hi : i < n
    · rw [getElem?_range hi, getElem?_eq_getElem (hl ▸ hi)]
      rfl
    · rw [getElem?_eq_none (by omega), getElem?_eq_none (by simpa using hi)]
      rfl
  · intro state hs _
    have hm := mem_map_of_mem (f := (·.index)) hs
    rw [decisionFromScores, hx] at hm
    exact hm

variable [NatCast α] [Sub α] [Mul α]

omit [LinearOrder α] in
theorem Router.index_score (config : RouterConfig α n) (rt : Router n)
    (localities : List Locality) (bodyBytes loadFloor : Nat) (useFresh : Bool) :
    (rt.score config localities bodyBytes loadFloor useFresh).map (·.index) = range n := by
  apply ext_getElem?
  intro i
  simp only [Router.score, getElem?_map, getElem?_mapIdx, Option.map_map]
  by_cases hi : i < n
  · rw [getElem?_range hi, getElem?_eq_getElem (by simpa using hi)]
    rfl
  · rw [getElem?_eq_none (by simpa using hi), getElem?_eq_none (by simpa using hi)]
    rfl

theorem Router.routeScores_perm (config : RouterConfig α n) (rt : Router n) (bodyBytes : Nat)
    (fps : List UInt64) (loadFloor : Nat) (preference : SpeculationPreference)
    (rotation now : Nat) :
    ((rt.routeScores config bodyBytes fps loadFloor preference rotation now).1.map
      (·.index)).Perm (range n) := by
  have hs : ∀ useFresh, ((sortScores config rotation preference false (rt.score config
      (rt.localities config fps now) bodyBytes loadFloor useFresh)).map
      (·.index)).Perm (range n) := by
    intro useFresh
    rw [← rt.index_score config (rt.localities config fps now) bodyBytes loadFloor useFresh]
    exact (perm_insertionSort _ _).map _
  simp only [routeScores]
  split
  · exact ((perm_insertionSort _ _).map _).trans (hs _)
  · exact hs _

theorem Router.routeFingerprints_wf (config : RouterConfig α n) (rt : Router n)
    (bodyBytes : Nat) (fps : List UInt64) (loadFloor : Nat)
    (preference : SpeculationPreference) (advanceRotation : Bool) (now : Nat) :
    ∃ decision speculation horizon, (rt.routeFingerprints config bodyBytes fps
      loadFloor preference advanceRotation now).1 = some (decision, speculation, horizon) ∧
      decision.Wf n := by
  simp only [routeFingerprints]
  generalize (if advanceRotation = true then { rt with rr := rt.rr + 1 } else rt) =
    rt'
  have hp := rt'.routeScores_perm config bodyBytes fps loadFloor preference
    ((rt.rr + 1).toNat % n) now
  generalize rt'.routeScores config bodyBytes fps loadFloor preference
    ((rt.rr + 1).toNat % n) now = routed at hp ⊢
  obtain ⟨_ | ⟨winner, others⟩, outcome, horizon⟩ := routed
  · have hl := hp.length_eq
    rw [map_nil, length_nil, length_range] at hl
    exact absurd hl (Nat.ne_of_lt config.upstreams_pos)
  · exact ⟨_, _, _, rfl, decisionFromScores_wf hp _ _⟩

end Routed
end Ramjet
