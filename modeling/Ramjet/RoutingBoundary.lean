import Ramjet.Dispatch
import Ramjet.LongPromptLane
import Ramjet.RouteAffinity

/-!
# The routing boundary

A request through `proxy.rs`: no stage brings back a candidate that was removed, and a
decision says of its first candidate what that one's state says.
-/

namespace Ramjet
open List

inductive Endpoint where
  | chat | messages | responses | completions | systemOne | states | decisions | other
  deriving DecidableEq

inductive UpstreamApiProfile where
  | openAi | systemOne
  deriving DecidableEq

inductive RequestedModel where
  | missing
  | invalid
  | named (model : String)

/-- The routing part of the configuration, with what its parser makes sure of. -/
structure RoutingConfig (α : Type) (n : Nat) where
  router : RouterConfig α n
  upstreamApiProfiles : List UpstreamApiProfile
  upstreamModels : List String
  routeLongPromptBytes : Nat
  routeLongPromptUpstreams : List Bool
  routeLongPromptSharing : LongPromptLaneSharing
  longSession : LongSessionConfig
  exactRoute : ExactRouteConfig α
  singleFlight : PrefixSingleFlightConfig
  routeMaxAttempts : Option Nat
  placement : Placement
  profiles_length : upstreamApiProfiles.length = n
  models_length : upstreamModels = [] ∨ upstreamModels.length = n
  lane_length : routeLongPromptUpstreams = [] ∨ routeLongPromptUpstreams.length = n

/-- A request as it was prepared; `tokens` are there if it could be tokenized
before routing. -/
structure PreparedRequest where
  endpoint : Endpoint
  requestedModel : RequestedModel
  bodyBytes : Nat
  fingerprints : List UInt64
  decodeLoadUnits : Nat
  preference : SpeculationPreference
  tokens : Option (List UInt32)
  canaryAssignment : CanaryAssignment
  stateRequest : Option StateRequest

/-- What the stages of a request find, each at its own time. -/
structure RoutingView (n : Nat) where
  router : Router n
  routedAt : Nat
  longSessions : LongSessions
  placedAt : Nat
  exact : ExactRouteView
  flights : FlightTable
  stateAffinity : DecisionStateAffinity
  mayFailOpen : Nat → Bool

inductive LocalError where
  | modelRequired | modelNotFound | noUpstream
  deriving DecidableEq

structure RouteStages where
  routed : Decision
  restricted : Decision
  lane : LongPromptLaneOutcome
  laneFailover : List Nat
  confined : Decision
  placed : Decision
  exact : Decision
  floored : Decision
  flown : Decision
  served : Decision

def RouteStages.decisions (stages : RouteStages) : List Decision :=
  [stages.routed, stages.restricted, stages.confined, stages.placed, stages.exact, stages.floored,
    stages.flown, stages.served]

section Path
variable {α : Type} [LinearOrder α] [NatCast α] [Sub α] [Mul α] {n : Nat}

def requestedProfile (request : PreparedRequest) : UpstreamApiProfile :=
  if request.endpoint = .systemOne then .systemOne else .openAi

variable (config : RoutingConfig α n)

def eligibleUpstreams (request : PreparedRequest) :
    Except LocalError (List Bool) :=
  let eligible := config.upstreamApiProfiles.map fun profile =>
    decide (profile = requestedProfile request)
  if config.upstreamModels = [] then .ok eligible
  else
    match request.requestedModel with
    | .named model =>
      .ok (eligible.mapIdx fun index eligible =>
        match config.upstreamModels[index]? with
        | some configured => eligible && configured = model
        | none => eligible)
    | .missing | .invalid => .error .modelRequired

def routeRequest (request : PreparedRequest) (view : RoutingView n) :
    Except LocalError RouteStages :=
  match (view.router.routeFingerprints config.router request.bodyBytes request.fingerprints
    request.decodeLoadUnits request.preference true view.routedAt).1 with
  | none => .error .noUpstream
  | some (routed, _, _) =>
    match eligibleUpstreams config request with
    | .error error => .error error
    | .ok eligible =>
      match routed.restrictTo eligible with
      | (false, _) => .error .modelNotFound
      | (true, restricted) =>
        let confinement := LongPromptLane.confineWithFailover restricted request.bodyBytes
          config.routeLongPromptBytes config.routeLongPromptUpstreams config.routeLongPromptSharing
        let confined := confinement.2.2
        let placed :=
          if request.endpoint = .other then confined
          else (LongSessions.place config.longSession view.longSessions confined
            request.fingerprints view.placedAt).2.1
        let exact := match request.tokens with
          | none => placed
          | some tokenIds => routePreRoute config.exactRoute view.exact tokenIds request.bodyBytes
              request.canaryAssignment placed
        let floored := exact.applyRequestLoadFloor request.decodeLoadUnits
        let fingerprints := if request.endpoint = .other then [] else request.fingerprints
        let flown :=
          (PrefixSingleFlight.route config.singleFlight view.flights fingerprints floored).2.1
        let served := (view.stateAffinity.route request.stateRequest flown).1
        .ok ⟨routed, restricted, confinement.1, confinement.2.1, confined, placed, exact, floored,
          flown, served⟩

/-- What there is to try at the end of the path. -/
def RouteStages.plan (view : RoutingView n) (stages : RouteStages) :
    DispatchPlan :=
  stages.served.dispatchPlan stages.laneFailover view.mayFailOpen config.routeMaxAttempts

def RouteStages.attempts (request : PreparedRequest)
    (view : RoutingView n) (stages : RouteStages) (answers : Nat → AttemptAnswer) :
    List (Nat × AttemptAnswer) :=
  ((stages.plan config view).retry config.placement
    (request.stateRequest.any StateRequest.isReuse) answers).tried

def RoutingConfig.Owns (request : PreparedRequest) (upstream : Nat) :
    Prop :=
  config.upstreamApiProfiles[upstream]? = some (requestedProfile request) ∧
    (config.upstreamModels = [] ∨ ∃ model, request.requestedModel = .named model ∧
      config.upstreamModels[upstream]? = some model)

def RoutingConfig.inLane (upstream : Nat) : Bool :=
  config.routeLongPromptUpstreams.getD upstream false

end Path

/-- The candidates are the first states, each once; ranks are places; and what is
said of the first candidate is what its state says. -/
structure Decision.Consistent (d : Decision) : Prop where
  nodup : d.candidates.Nodup
  leading : d.candidates = (d.candidateState.map (·.index)).take d.candidates.length
  ranks : ∀ (place : Nat) (state : CandidateState), d.candidateState[place]? = some state →
    state.rank = place
  chosen : ∀ first, d.candidateState.head? = some first →
    d.overlapBlocks = first.overlapBlocks ∧ d.affinityBlocks = first.affinityBlocks ∧
      d.loadUnits = first.requestLoadUnits

theorem Decision.Wf.consistent {n : Nat} {d : Decision} (h : d.Wf n) : d.Consistent where
  nodup := h.nodup_candidates
  leading := by
    obtain ⟨rest, ha⟩ := h.leading
    rw [← ha, take_left]
  ranks := by
    intro place state hs
    have hr : (d.candidateState.map (·.rank))[place]? = some state.rank := by
      rw [getElem?_map, hs]
      rfl
    have hl : place < n := h.length_states ▸ (List.getElem?_eq_some_iff.1 hs).1
    rw [h.ranks, getElem?_range hl] at hr
    exact (Option.some.inj hr).symm
  chosen := by
    intro first hf
    obtain ⟨state, rest, hc, -, hh⟩ := h.chosen
    rw [hc] at hf
    cases hf
    exact hh

section Boundary
variable {α : Type} {n : Nat} {c : RoutingConfig α n} {request : PreparedRequest}

theorem eligibleUpstreams_owns
    {eligible : List Bool} (h : eligibleUpstreams c request = .ok eligible) {upstream : Nat}
    (hup : eligible.getD upstream false) : c.Owns request upstream := by
  have hprof : ∀ {flags : List Bool}, flags = c.upstreamApiProfiles.map (fun profile =>
      decide (profile = requestedProfile request)) → flags[upstream]? = some true →
      c.upstreamApiProfiles[upstream]? = some (requestedProfile request) := by
    rintro _ rfl hf
    rw [getElem?_map] at hf
    obtain ⟨profile, hprof, hd⟩ := Option.map_eq_some_iff.1 hf
    rw [hprof, of_decide_eq_true hd]
  rw [getD_eq_getElem?_getD] at hup
  have hf : eligible[upstream]? = some true := by
    rcases hg : eligible[upstream]? with _ | flag
    · rw [hg] at hup
      cases hup
    · rw [hg] at hup
      exact congrArg some hup
  simp only [eligibleUpstreams] at h
  split at h
  next ho =>
    cases h
    exact ⟨hprof rfl hf, .inl ho⟩
  rename_i ho
  split at h
  next model hn =>
    cases h
    rw [getElem?_mapIdx] at hf
    obtain ⟨flag, hg, hb⟩ := Option.map_eq_some_iff.1 hf
    have hl : upstream < c.upstreamModels.length := by
      rw [c.models_length.resolve_left ho, ← c.profiles_length]
      simpa using (List.getElem?_eq_some_iff.1 hg).1
    rw [getElem?_eq_getElem hl] at hb
    obtain ⟨rfl, hm⟩ := Bool.and_eq_true_iff.1 hb
    refine ⟨hprof rfl hg, .inr ⟨model, hn, ?_⟩⟩
    rw [getElem?_eq_getElem hl, of_decide_eq_true hm]
  · cases h
  · cases h

structure RouteStages.Kept (config : RoutingConfig α n) (request : PreparedRequest)
    (stages : RouteStages) : Prop where
  wf : ∀ d ∈ stages.decisions, d.Wf n
  owns : ∀ upstream ∈ stages.restricted.candidates, config.Owns request upstream
  confined : LongPromptLane.Confined n config.routeLongPromptUpstreams stages.restricted
    (stages.lane, stages.laneFailover, stages.confined)
  reorders : stages.confined.Reorders stages.served

variable [LinearOrder α] [NatCast α] [Sub α] [Mul α]

theorem kept_of_routeRequest {view : RoutingView n} {stages : RouteStages}
    (h : routeRequest c request view = .ok stages) : stages.Kept c request := by
  obtain ⟨routed, speculation, horizon, ho, hwf⟩ := view.router.routeFingerprints_wf
    c.router request.bodyBytes request.fingerprints request.decodeLoadUnits
    request.preference true view.routedAt
  simp only [routeRequest, ho] at h
  split at h
  · cases h
  rename_i eligible he
  rcases Decision.restrictTo_cases hwf eligible with
    ⟨hf, -⟩ | ⟨restricted, hr, hwf₁, -, hcan, -⟩
  · split at h
    · cases h
    rename_i restricted hr
    rw [hr] at hf
    cases hf
  rw [hr] at h
  dsimp only at h
  have hc := LongPromptLane.confineWithFailover_cases hwf₁ c.lane_length
    request.bodyBytes c.routeLongPromptBytes c.routeLongPromptSharing
  generalize LongPromptLane.confineWithFailover restricted request.bodyBytes
    c.routeLongPromptBytes c.routeLongPromptUpstreams c.routeLongPromptSharing =
    confinement at h hc
  obtain ⟨outcome, failover, confined⟩ := confinement
  have hwf₂ : confined.Wf n := hc.wf hwf₁
  -- every stage from here on only reorders
  generalize hp : (if request.endpoint = .other then confined else
    (LongSessions.place c.longSession view.longSessions confined request.fingerprints
      view.placedAt).2.1) = placed at h
  have hk₃ : placed.Wf n ∧ confined.Reorders placed := by
    rw [← hp]
    split
    · exact ⟨hwf₂, .refl _⟩
    · exact LongSessions.place_keeps hwf₂ _ _ _ _
  generalize hx : (match request.tokens with
    | none => placed
    | some tokenIds => routePreRoute c.exactRoute view.exact tokenIds request.bodyBytes
        request.canaryAssignment placed) = exact at h
  have hk₄ : exact.Wf n ∧ placed.Reorders exact := by
    rw [← hx]
    split
    · exact ⟨hk₃.1, .refl _⟩
    · exact routePreRoute_keeps hk₃.1 _ _ _ _ _
  have hk₅ := Decision.applyRequestLoadFloor_keeps hk₄.1 request.decodeLoadUnits
  have hk₆ := PrefixSingleFlight.route_keeps hk₅.1 c.singleFlight view.flights
    (if request.endpoint = .other then [] else request.fingerprints)
  have hk₇ := DecisionStateAffinity.route_keeps hk₆.1 view.stateAffinity request.stateRequest
  cases h
  refine ⟨?_, ?_, hc, ?_⟩
  · simp only [RouteStages.decisions, forall_mem_cons]
    exact ⟨hwf, hwf₁, hwf₂, hk₃.1, hk₄.1, hk₅.1, hk₆.1, hk₇.1, forall_mem_nil _⟩
  · intro up hup
    rw [hcan] at hup
    exact eligibleUpstreams_owns he (mem_filter.1 hup).2
  · exact hk₃.2.trans (hk₄.2.trans (hk₅.2.trans (hk₆.2.trans hk₇.2)))

/-- Through all stages of a request: every decision is consistent; an upstream is
only sent a request for a model and API profile it owns; a request confined to the
lane goes to the lane only; and one kept off it reaches a member of the lane only
after every serving candidate off it, within the limit. -/
theorem routing_boundary (config : RoutingConfig α n) (request : PreparedRequest)
    (view : RoutingView n) {stages : RouteStages}
    (h : routeRequest config request view = .ok stages) (answers : Nat → AttemptAnswer) :
    (∀ d ∈ stages.decisions, d.Consistent) ∧
    (stages.attempts config request view answers).length ≤
      (stages.plan config view).attemptLimit ∧
    (∀ upstream answer, (upstream, answer) ∈ stages.attempts config request view answers →
      config.Owns request upstream ∧
        (stages.lane = .lane → config.inLane upstream)) ∧
    (stages.lane = .excluded → ∀ (k upstream : Nat) (answer : AttemptAnswer),
      (stages.attempts config request view answers)[k]? = some (upstream, answer) →
      config.inLane upstream →
      ∀ other ∈ stages.restricted.candidates, config.inLane other = false →
        LongPromptLane.serving stages.restricted other →
          ∃ j earlier, j < k ∧
            (stages.attempts config request view answers)[j]? = some (other, earlier)) := by
  have he := kept_of_routeRequest h
  have hv : stages.served.Wf n := he.wf _ (by simp [RouteStages.decisions])
  obtain ⟨routed, tail, ha, hf, hroutedMem, htailMem, hr⟩ :=
    stages.served.dispatchPlan_parts stages.laneFailover view.mayFailOpen config.routeMaxAttempts
  have hg : ((stages.plan config view).retry config.placement
      (request.stateRequest.any StateRequest.isReuse) answers).Inv routed tail :=
    (RetryState.Inv.start ha).run hf answers _
  -- what there is to try was left by the lane's rule
  have hr' : ∀ upstream ∈ routed.map Prod.fst, upstream ∈ stages.confined.candidates :=
    fun upstream hu => he.reorders.candidates.mem_iff.1 (hroutedMem upstream hu)
  refine ⟨fun d hd => (he.wf d hd).consistent, ?_, ?_, ?_⟩
  · have hl := RetryState.length_tried_run config.placement (stages.plan config view)
      (request.stateRequest.any StateRequest.isReuse) (.start (stages.plan config view)) answers
      (stages.plan config view).attemptLimit
    exact hl.trans (by simp [RetryState.start])
  · intro upstream answer hi
    rcases hg.mem hi with hm | hm
    · refine ⟨he.owns _ (he.confined.subset (.inl (hr' _ hm))), fun hlane => ?_⟩
      have hc := he.confined
      rw [hlane] at hc
      exact hc.inLane.2 _ (hr' _ hm)
    · refine ⟨he.owns _ (he.confined.subset (.inr (htailMem _ hm))), fun hlane => ?_⟩
      have hc := he.confined
      rw [hlane] at hc
      have hn := htailMem _ hm
      rw [hc.inLane.1] at hn
      cases hn
  · intro hx k upstream answer hk hu other ho hotherLane hotherServing
    have hc := he.confined
    rw [hx] at hc
    obtain ⟨hw, hp⟩ := hc.offLane
    -- the other candidate still serves at the end of the path
    obtain ⟨state, ht, hb, hh⟩ := hp other ho hotherLane hotherServing
    have hj : (other, true) ∈
        stages.served.candidateState.map fun state => (state.index, state.healthy) := by
      refine he.reorders.states.mem_iff.2 (mem_map.2 ⟨state, ht, ?_⟩)
      rw [hb, hh]
    obtain ⟨state', ht', heq⟩ := mem_map.1 hj
    obtain ⟨rfl, hh'⟩ := Prod.mk.inj heq
    have hs := hv.servingCandidates ht' hh'
    have hq : stages.served.servingCandidates ≠ [] := by
      intro hy
      rw [hy] at hs
      cases hs
    refine hg.routed_first hk (fun hm => ?_) (hr hq ▸ hs)
    have hlane := hw _ (hr' _ hm)
    rw [RoutingConfig.inLane, hlane] at hu
    cases hu

end Boundary

namespace SampleRouting

theorem ungrouped : ([] : List Nat) = [] ∨ ([] : List Nat).length = 3 := .inl rfl

def config : RoutingConfig ℤ 3 where
  router :=
    { alpha := 4
      maxOverlapBlocks := 32
      estimator := ⟨2048, 32768, 8⟩
      projectedLoad := false
      speculationMode := .off
      speculationProfiles := [.standard, .standard, .standard]
      affinity := .byPrefix
      horizonMode := .off
      affinityBasis := .absolute
      affinityGroups := []
      upstreams_pos := by decide
      profiles_length := rfl
      groups_length := ungrouped }
  upstreamApiProfiles := [.openAi, .openAi, .openAi]
  upstreamModels := ["glm-5.3-flash", "glm-5.3-flash", "qwen3.8-flash-next"]
  routeLongPromptBytes := 600000
  routeLongPromptUpstreams := [false, true, false]
  routeLongPromptSharing := .exclusive
  longSession := ⟨0, [], 0⟩
  exactRoute := ⟨.off, ⟨0, 0⟩, 4, 32, ⟨2048, 32768, 8⟩⟩
  singleFlight := ⟨.off, 8, 1024, 1, by decide, by decide⟩
  routeMaxAttempts := none
  placement := ⟨3, fun _ => "node-a", fun upstream => s!"http://engine-{upstream}:8000"⟩
  profiles_length := rfl
  models_length := .inr rfl
  lane_length := .inr rfl

/-- A short prompt for the model that has a lane. -/
def request : PreparedRequest where
  endpoint := .chat
  requestedModel := .named "glm-5.3-flash"
  bodyBytes := 4096
  fingerprints := []
  decodeLoadUnits := 1
  preference := .neutral
  tokens := none
  canaryAssignment := .notApplicable
  stateRequest := none

def view : RoutingView 3 where
  router := ⟨fun _ => ⟨⟨1024, []⟩, fun _ => none, 0, 0, true, false⟩, 0⟩
  routedAt := 0
  longSessions := ⟨[[], [], []], 512⟩
  placedAt := 0
  exact := ⟨false, fun _ => [], fun _ => false⟩
  flights := ⟨[], 0⟩
  stateAffinity := ⟨⟨1024, []⟩⟩
  mayFailOpen := fun _ => false

/-- The first upstream is overloaded, the next one answers. -/
def answers (attempt : Nat) : AttemptAnswer := .responded (if attempt = 0 then 503 else 200)

end SampleRouting

open SampleRouting in
theorem routing_boundary_sample :
    ∃ stages, routeRequest config request view = .ok stages ∧ stages.lane = .excluded ∧
      stages.attempts config request view answers =
        [(0, .responded 503), (1, .responded 200)] ∧
      config.Owns request 0 ∧ config.Owns request 1 ∧ stages.served.Consistent := by
  have hu : (routeRequest config request view).toOption.any (fun stages =>
      stages.lane = .excluded && stages.attempts config request view answers =
        [(0, .responded 503), (1, .responded 200)]) = true := by
    decide +kernel
  obtain ⟨stages, hs, hp⟩ := (Option.any_eq_true _ _).1 hu
  obtain ⟨hlane, ha⟩ := Bool.and_eq_true_iff.1 hp
  have hk : routeRequest config request view = .ok stages := by
    rcases hr : routeRequest config request view with error | stages'
    · rw [hr] at hs
      cases hs
    rw [hr] at hs
    cases hs
    rfl
  obtain ⟨hc, -, ho, -⟩ := routing_boundary config request view hk answers
  rw [of_decide_eq_true ha] at ho
  exact ⟨stages, hk, of_decide_eq_true hlane, of_decide_eq_true ha,
    (ho 0 _ mem_cons_self).1,
    (ho 1 _ (mem_cons_of_mem _ mem_cons_self)).1,
    hc _ (by simp [RouteStages.decisions])⟩

end Ramjet
