import Ramjet.BlockDigest
import Ramjet.Lib.Lru
import Ramjet.RouteDecision

/-!
# Placement by session, flight and state

Three stages that may bring another candidate to the front: `long_session.rs`,
`prefix_single_flight.rs` and `decision_state.rs`.
-/

namespace Ramjet
open StableSort

structure Resident where
  fingerprints : List UInt64
  tokens : Nat
  lastServed : Nat

/-- A later turn shares at least half of a recorded chain. -/
def Resident.continuedBy (resident : Resident) (fingerprints : List UInt64) : Bool :=
  let shared := ((resident.fingerprints.zip fingerprints).takeWhile fun pair =>
    pair.1 = pair.2).length
  !resident.fingerprints.isEmpty && resident.fingerprints.length ≤ shared * 2

structure LongSessionConfig where
  thresholdTokens : Nat
  capacityTokens : List (Option Nat)
  ttl : Nat

inductive LongSessionOutcome where
  | off | below | fits | moved | allCrowded
  deriving DecidableEq

structure LongSessions where
  residents : List (List Resident)
  tokensPerBlock : ℚ

namespace LongSessions
variable (config : LongSessionConfig) (sessions : LongSessions)

def expire (now : Nat) : LongSessions :=
  { sessions with
    residents := sessions.residents.map fun residents =>
      residents.filter fun resident => now - resident.lastServed ≤ config.ttl }

def estimate (fingerprints : List UInt64) : Nat :=
  let recorded := (sessions.residents.flatten.filter fun resident =>
    resident.continuedBy fingerprints).map (·.tokens)
  max (recorded.max?.getD 0)
    (min ((fingerprints.length : ℚ) * sessions.tokensPerBlock).floor.toNat (2 ^ 64 - 1))

def fits (fingerprints : List UInt64) (estimated upstream : Nat) : Bool :=
  match config.capacityTokens[upstream]?.join with
  | none => true
  | some capacity =>
    let others := (sessions.residents.getD upstream []).filter fun resident =>
      !resident.continuedBy fingerprints
    (others.map (·.tokens)).sum + estimated ≤ capacity

def place (d : Decision) (fingerprints : List UInt64) (now : Nat) :
    (LongSessionOutcome × Nat) × Decision × LongSessions :=
  if config.thresholdTokens = 0 ∨ fingerprints = [] then ((.off, 0), d, sessions)
  else
    let sessions := sessions.expire config now
    let estimated := sessions.estimate fingerprints
    if estimated < config.thresholdTokens then ((.below, estimated), d, sessions)
    else
      let fits := sessions.fits config fingerprints estimated
      match d.candidates.head? with
      | none => ((.fits, estimated), d, sessions)
      | some chosen =>
        if fits chosen then ((.fits, estimated), d, sessions)
        else
          let serving := fun upstream =>
            d.candidateState.any fun state => state.index = upstream && state.healthy
          match (d.candidateState.map (·.index)).find? fun upstream =>
            upstream ≠ chosen && d.candidates.contains upstream && serving upstream &&
              fits upstream with
          | none => ((.allCrowded, estimated), d, sessions)
          | some upstream =>
            match d.promote upstream with
            | (true, moved) => ((.moved, estimated), moved, sessions)
            | (false, left) => ((.allCrowded, estimated), left, sessions)

theorem place_keeps {n : Nat} {d : Decision} (h : d.Wf n) (config : LongSessionConfig)
    (sessions : LongSessions) (fingerprints : List UInt64) (now : Nat) :
    (place config sessions d fingerprints now).2.1.Wf n ∧
      Decision.Reorders d (place config sessions d fingerprints now).2.1 := by
  have hk : d.Wf n ∧ Decision.Reorders d d := ⟨h, .refl d⟩
  simp only [place]
  split
  · exact hk
  split
  · exact hk
  split
  · exact hk
  split
  · exact hk
  split
  · exact hk
  rename_i up _
  have hp := Decision.promote_keeps h up
  split
  next moved hm =>
    rw [hm] at hp
    exact hp
  rename_i left hl
  rw [hl] at hp
  exact hp

end LongSessions

inductive PrefixSingleFlightMode where
  | off | shadow | prefer
  deriving DecidableEq

structure PrefixSingleFlightConfig where
  mode : PrefixSingleFlightMode
  minBlocks : Nat
  capacity : Nat
  maxLoadDelta : Nat
  minBlocks_pos : 0 < minBlocks
  capacity_pos : 0 < capacity

structure FlightKey where
  prefixBlocks : Nat
  fingerprint : UInt64
  deriving DecidableEq

structure Flight where
  generation : UInt64
  target : Nat
  requests : Nat

/-- `flights` has one entry for each key. -/
structure FlightTable where
  flights : List (FlightKey × Flight)
  generation : UInt64

inductive SingleFlightOutcome where
  | off | short | exactBlocked | warm | unavailable | capacity | leader | alreadyHome | loadBlocked
  | wouldMove | moved
  deriving DecidableEq

structure PrefixSingleFlightGuard where
  key : FlightKey
  generation : UInt64
  retargetAllowed : Bool

namespace PrefixSingleFlight

def moveToFront (d : Decision) (target : Nat) : Decision :=
  match d.candidates.findIdx? fun candidate => candidate = target with
  | none => d
  | some position =>
    let d := { d with candidates := moveFront d.candidates position }
    match d.candidateState.findIdx? fun state => state.index = target with
    | none => d
    | some position =>
      let states := Decision.setRanks (moveFront d.candidateState position)
      let moved := { d with candidateState := states }
      (states.head?.map moved.describe).getD moved

variable (config : PrefixSingleFlightConfig) (table : FlightTable)

/-- Join the flight of a key, or lead a new one if there is room. -/
def join (key : FlightKey) (leader : Nat) : Option ((Nat × UInt64 × Bool) × FlightTable) :=
  match table.flights.lookup key with
  | some flight =>
    let joined := { flight with requests := flight.requests + 1 }
    some ((flight.target, flight.generation, false),
      { table with flights := table.flights.map fun entry =>
          if entry.1 = key then (key, joined) else entry })
  | none =>
    if config.capacity ≤ table.flights.length then none
    else
      let generation := max (table.generation + 1) 1
      some ((leader, generation, true),
        ⟨(key, ⟨generation, leader, 1⟩) :: table.flights, generation⟩)

def route (fingerprints : List UInt64) (d : Decision) :
    (SingleFlightOutcome × Option PrefixSingleFlightGuard) × Decision × FlightTable :=
  if config.mode = .off then ((.off, none), d, table)
  else if fingerprints.length < config.minBlocks then ((.short, none), d, table)
  else if d.outcome = .exact then ((.exactBlocked, none), d, table)
  else if config.minBlocks ≤ d.overlapBlocks then ((.warm, none), d, table)
  else
    match d.candidates.head? with
    | none => ((.unavailable, none), d, table)
    | some leader =>
      let key : FlightKey := ⟨config.minBlocks, fingerprints.getD (config.minBlocks - 1) 0⟩
      match join config table key leader with
      | none => ((.capacity, none), d, table)
      | some ((target, generation, leaderRequest), table) =>
        let guard := fun retargetAllowed =>
          some (⟨key, generation, retargetAllowed⟩ : PrefixSingleFlightGuard)
        if leaderRequest then ((.leader, guard true), d, table)
        else if target = leader then ((.alreadyHome, guard true), d, table)
        else
          match d.candidateState.head?,
            d.candidateState.find? fun state => state.index = target && state.healthy with
          | some winner, some targetState =>
            if winner.loadUnits + config.maxLoadDelta < targetState.loadUnits then
              ((.loadBlocked, guard false), d, table)
            else if config.mode = .shadow then ((.wouldMove, guard false), d, table)
            else ((.moved, guard true), moveToFront d target, table)
          | _, _ => ((.unavailable, guard false), d, table)

variable {n : Nat} {d : Decision}

theorem moveToFront_keeps (h : d.Wf n) (target : Nat) :
    (moveToFront d target).Wf n ∧ Decision.Reorders d (moveToFront d target) := by
  unfold moveToFront
  split
  · exact ⟨h, .refl d⟩
  rename_i i hc
  dsimp only
  obtain ⟨hi, hf, -⟩ := List.findIdx?_eq_some_iff_getElem.1 hc
  split
  · -- a candidate has a state
    rename_i ha
    have hm := h.leading.subset (List.getElem_mem hi)
    obtain ⟨state, hs, hx⟩ := List.mem_map.1 hm
    have hn := List.findIdx?_eq_none_iff.1 ha state hs
    rw [hx, hf] at hn
    cases hn
  rename_i j hs
  obtain ⟨rfl, -⟩ := h.position (fun state hp => of_decide_eq_true hp) hc hs
  refine h.front (fun l => moveFront l i) (fun f l => map_moveFront f l i)
    (fun l => moveFront_perm l i) (moveFront_isPrefix h.leading hi) ?_ ?_ ?_
  all_goals rcases hh : (Decision.setRanks (moveFront d.candidateState i)).head? with _ | first
  · rfl
  · rfl
  · rfl
  · rfl
  · intro first hb
    exact absurd (hh.symm.trans hb) (by simp)
  · intro other ho
    obtain rfl : first = other := Option.some.inj (hh.symm.trans ho)
    exact ⟨rfl, rfl, rfl⟩

theorem route_keeps (h : d.Wf n) (config : PrefixSingleFlightConfig) (table : FlightTable)
    (fingerprints : List UInt64) : (route config table fingerprints d).2.1.Wf n ∧
      Decision.Reorders d (route config table fingerprints d).2.1 := by
  have hk : d.Wf n ∧ Decision.Reorders d d := ⟨h, .refl d⟩
  simp only [route]
  split
  · exact hk
  split
  · exact hk
  split
  · exact hk
  split
  · exact hk
  split
  · exact hk
  split
  · exact hk
  split
  · exact hk
  split
  · exact hk
  split
  · split
    · exact hk
    split
    · exact hk
    · exact moveToFront_keeps h _
  · exact hk

end PrefixSingleFlight

inductive StateRequest where
  | create
  | reuse (key : Bytes 32)

def StateRequest.isReuse : StateRequest → Bool
  | .create => false
  | .reuse _ => true

structure DecisionStateAffinity where
  owners : Lru (Bytes 32) Nat

namespace DecisionStateAffinity

/-- Prefer the owner that was learned, if it may serve. -/
def route (affinity : DecisionStateAffinity) (request : Option StateRequest) (d : Decision) :
    Decision × DecisionStateAffinity :=
  match request with
  | some (.reuse key) =>
    match affinity.owners.get key with
    | (some owner, owners) => ((d.preferUpstream owner).2, ⟨owners⟩)
    | (none, owners) => (d, ⟨owners⟩)
  | _ => (d, affinity)

theorem route_keeps {n : Nat} {d : Decision} (h : d.Wf n) (affinity : DecisionStateAffinity)
    (request : Option StateRequest) :
    (affinity.route request d).1.Wf n ∧ Decision.Reorders d (affinity.route request d).1 := by
  unfold route
  split
  · split
    · exact Decision.preferUpstream_keeps h _
    · exact ⟨h, .refl d⟩
  · exact ⟨h, .refl d⟩

end DecisionStateAffinity
end Ramjet
