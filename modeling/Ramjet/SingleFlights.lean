import Ramjet.RouteAffinity

/-!
# Lifetimes of single flights

A guard of `prefix_single_flight.rs` outlives the request that joined a flight: it may move
the flight's target, and leaves the flight when it is dropped, each under the table's lock.
-/

namespace Ramjet

open List

namespace PrefixSingleFlightGuard

variable (guard : PrefixSingleFlightGuard) (table : FlightTable)

def holds (entry : FlightKey × Flight) : Bool :=
  entry.1 = guard.key && entry.2.generation = guard.generation

def retarget (upstream : Nat) : FlightTable :=
  if guard.retargetAllowed then
    { table with flights := table.flights.map fun entry =>
        if guard.holds entry then (entry.1, { entry.2 with target := upstream }) else entry }
  else table

def drop : FlightTable :=
  { table with flights := table.flights.filterMap fun entry =>
      if !guard.holds entry then some entry
      else if entry.2.requests - 1 = 0 then none
      else some (entry.1, { entry.2 with requests := entry.2.requests - 1 }) }

end PrefixSingleFlightGuard

structure FlightRun where
  table : FlightTable
  guards : List PrefixSingleFlightGuard

/-- A guard is named by its place among those alive. -/
inductive FlightEvent where
  | route (fingerprints : List UInt64) (d : Decision)
  | retarget (guard upstream : Nat)
  | drop (guard : Nat)

namespace FlightRun

def next (config : PrefixSingleFlightConfig) (s : FlightRun) : FlightEvent → FlightRun
  | .route fingerprints d =>
    let routed := PrefixSingleFlight.route config s.table fingerprints d
    ⟨routed.2.2, routed.1.2.toList ++ s.guards⟩
  | .retarget i upstream =>
    s.guards[i]?.elim s fun guard => { s with table := guard.retarget s.table upstream }
  | .drop i => s.guards[i]?.elim s fun guard => ⟨guard.drop s.table, s.guards.eraseIdx i⟩

def Counts (guards : List PrefixSingleFlightGuard) (entry : FlightKey × Flight) : Prop :=
  0 < entry.2.requests ∧ entry.2.requests = guards.countP (·.key = entry.1) ∧
    ∀ guard ∈ guards, guard.key = entry.1 → guard.generation = entry.2.generation

structure Counted (config : PrefixSingleFlightConfig) (s : FlightRun) : Prop where
  keys : (s.table.flights.map (·.1)).Nodup
  capacity : s.table.flights.length ≤ config.capacity
  counts : ∀ entry ∈ s.table.flights, Counts s.guards entry
  held : ∀ guard ∈ s.guards, guard.key ∈ s.table.flights.map (·.1)

variable {config : PrefixSingleFlightConfig} {s : FlightRun} {guard : PrefixSingleFlightGuard}

theorem Counted.update (h : s.Counted config) {guards : List PrefixSingleFlightGuard}
    {f : FlightKey × Flight → Option (FlightKey × Flight)}
    (hk : ∀ entry entry', f entry = some entry' → entry'.1 = entry.1)
    (hc : ∀ entry ∈ s.table.flights, ∀ entry', f entry = some entry' → Counts guards entry')
    (hh : ∀ guard ∈ guards, ∃ entry ∈ s.table.flights, entry.1 = guard.key ∧ f entry ≠ none) :
    Counted config ⟨{ s.table with flights := s.table.flights.filterMap f }, guards⟩ where
  keys := by
    refine pairwise_map.2 (Pairwise.filterMap f ?_ (pairwise_map.1 h.keys))
    intro a b hn a' ha b' hb
    rw [hk a a' ha, hk b b' hb]
    exact hn
  capacity := (length_filterMap_le f _).trans h.capacity
  counts := by grind
  held := by
    intro guard hg
    obtain ⟨entry, hm, hd, hs⟩ := hh guard hg
    obtain ⟨entry', he⟩ := Option.ne_none_iff_exists'.1 hs
    exact mem_map.2 ⟨entry', mem_filterMap.2 ⟨entry, hm, he⟩, (hk _ _ he).trans hd⟩

theorem Counted.retarget (h : s.Counted config) (upstream : Nat) :
    Counted config { s with table := guard.retarget s.table upstream } := by
  unfold PrefixSingleFlightGuard.retarget
  split
  · rw [← filterMap_eq_map]
    have := h.counts
    have := h.held
    refine h.update ?_ ?_ ?_
    · grind
    · grind [Counts]
    · grind
  · exact h

theorem Counted.drop (h : s.Counted config) {i : Nat} (hi : s.guards[i]? = some guard) :
    Counted config ⟨guard.drop s.table, s.guards.eraseIdx i⟩ := by
  obtain ⟨hl, rfl⟩ := List.getElem?_eq_some_iff.1 hi
  have hp := getElem_cons_eraseIdx_perm hl
  have hg : ∀ guard ∈ s.guards.eraseIdx i, guard ∈ s.guards := fun _ => mem_of_mem_eraseIdx
  -- the guard's own flight has one guard fewer, the others as many as before
  have hc : ∀ entry ∈ s.table.flights, entry.2.requests =
      (s.guards.eraseIdx i).countP (·.key = entry.1) +
        if s.guards[i].holds entry then 1 else 0 := by
    intro entry hm
    obtain ⟨-, hn, hk⟩ := h.counts entry hm
    have := hk _ (getElem_mem hl)
    rw [hn, ← hp.countP_eq, countP_cons]
    grind [PrefixSingleFlightGuard.holds]
  refine h.update ?_ ?_ ?_
  · grind
  · intro entry hm entry' he
    obtain ⟨hz, -, hk⟩ := h.counts entry hm
    have := hc entry hm
    grind [Counts]
  · intro guard hm
    obtain ⟨entry, he, hk⟩ := mem_map.1 (h.held guard (hg guard hm))
    have hz : 0 < (s.guards.eraseIdx i).countP (·.key = entry.1) :=
      countP_pos_iff.2 ⟨guard, hm, by simp [hk]⟩
    have := hc entry he
    grind

theorem Counted.join (h : s.Counted config) {key : FlightKey} {leader : Nat}
    {joined : (Nat × UInt64 × Bool) × FlightTable}
    (hj : PrefixSingleFlight.join config s.table key leader = some joined) (allowed : Bool) :
    Counted config ⟨joined.2, ⟨key, joined.1.2.1, allowed⟩ :: s.guards⟩ := by
  unfold PrefixSingleFlight.join at hj
  split at hj
  next flight hl =>
    cases hj
    have hm : (key, flight) ∈ s.table.flights := by
      obtain ⟨l, l', he, -⟩ := lookup_eq_some_iff.1 hl
      simp [he]
    have hu : ∀ entry ∈ s.table.flights, entry.1 = key → entry = (key, flight) :=
      fun entry he hk => inj_on_of_nodup_map h.keys he hm hk
    dsimp only
    rw [← filterMap_eq_map]
    have := h.held
    refine h.update ?_ ?_ ?_
    · grind
    · intro entry he entry' hs
      have := h.counts entry he
      grind [Counts]
    · grind
  next hl =>
    split at hj
    · cases hj
    next hf =>
      cases hj
      have hn : ∀ entry ∈ s.table.flights, entry.1 ≠ key := by
        intro entry he hk
        have ha := lookup_eq_none_iff.1 hl entry he
        simp [hk] at ha
      have hz : s.guards.countP (·.key = key) = 0 := by
        have := h.held
        grind
      have := h.held
      refine ⟨?_, by simpa using hf, ?_, ?_⟩
      · have := h.keys
        grind
      · intro entry he
        rcases mem_cons.1 he with rfl | he
        · grind [Counts]
        · have := h.counts entry he
          grind [Counts]
      · grind

theorem route_joins (config : PrefixSingleFlightConfig) (table : FlightTable)
    (fingerprints : List UInt64) (d : Decision) :
    let routed := PrefixSingleFlight.route config table fingerprints d
    routed.1.2 = none ∧ routed.2.2 = table ∨ ∃ key leader joined allowed,
      PrefixSingleFlight.join config table key leader = some joined ∧
        routed.1.2 = some ⟨key, joined.1.2.1, allowed⟩ ∧ routed.2.2 = joined.2 := by
  dsimp only
  generalize hr : PrefixSingleFlight.route config table fingerprints d = routed
  simp only [PrefixSingleFlight.route] at hr
  repeat' split at hr
  all_goals
    subst hr
    first
    | exact .inl ⟨rfl, rfl⟩
    | exact .inr ⟨_, _, _, _, by assumption, rfl, rfl⟩

theorem Counted.next (h : s.Counted config) (event : FlightEvent) :
    (s.next config event).Counted config := by
  cases event with
  | route fingerprints d =>
    dsimp only [FlightRun.next]
    obtain ⟨hg, ht⟩ | ⟨key, leader, joined, allowed, hj, hg, ht⟩ :=
      route_joins config s.table fingerprints d
    · rw [hg, ht]
      exact h
    · rw [hg, ht]
      exact h.join hj allowed
  | retarget i upstream =>
    dsimp only [FlightRun.next]
    cases s.guards[i]? with
    | none => exact h
    | some guard => exact h.retarget upstream
  | drop i =>
    dsimp only [FlightRun.next]
    cases hi : s.guards[i]? with
    | none => exact h
    | some guard => exact h.drop hi

/-- In every order of requests, retargets and drops the table has one flight for each key
of a guard alive and at most `capacity` of them. Each counts the guards of its key, and
these carry its generation: none of an earlier flight is left that could change it. -/
theorem flights_count_guards (config : PrefixSingleFlightConfig) (events : List FlightEvent) :
    (events.foldl (FlightRun.next config) ⟨⟨[], 0⟩, []⟩).Counted config := by
  refine foldlRecOn (motive := Counted config) events _ ?_ fun s h event _ => h.next event
  exact ⟨nodup_nil, Nat.zero_le _, by simp, by simp⟩

end FlightRun

end Ramjet
