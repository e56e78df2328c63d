import Ramjet.Lib.StableSort

/-!
# Routing decisions

`Decision` and `CandidateState` of `router.rs`, and how a stage may change a decision.
-/

namespace Ramjet

inductive Outcome where
  | overlap | load | roundRobin | single | exact | stateAffinity
  deriving DecidableEq

structure CandidateState where
  index : Nat
  rank : Nat
  overlapBlocks : Nat
  affinityBlocks : Nat
  loadUnits : Nat
  requestLoadUnits : Nat
  healthy : Bool
  deriving DecidableEq

structure Decision where
  candidates : List Nat
  candidateState : List CandidateState
  overlapBlocks : Nat
  totalBlocks : Nat
  affinityBlocks : Nat
  loadUnits : Nat
  rotation : Nat
  outcome : Outcome
  deriving DecidableEq

namespace Decision
open StableSort List

/-- Number the candidates in their order. -/
def setRanks (states : List CandidateState) : List CandidateState :=
  states.mapIdx fun rank state => { state with rank }

def describe (d : Decision) (winner : CandidateState) : Decision :=
  { d with
    overlapBlocks := winner.overlapBlocks
    affinityBlocks := winner.affinityBlocks
    loadUnits := winner.requestLoadUnits }

def restrictTo (d : Decision) (eligible : List Bool) : Bool × Decision :=
  if eligible.length ≠ d.candidateState.length ∨
      d.candidateState.any (fun state => eligible.length ≤ state.index) then
    (false, d)
  else
    let candidates := d.candidates.filter fun candidate => eligible.getD candidate false
    match candidates.head? with
    | none => (false, { d with candidates })
    | some selected =>
      let masked := d.candidateState.map fun state =>
        { state with healthy := state.healthy && eligible.getD state.index false }
      let states := setRanks (byKey (fun state => !eligible.getD state.index false) masked)
      match states.find? fun state => state.index = selected with
      -- the source expects a state for every candidate
      | none => (false, { d with candidates, candidateState := states })
      | some winner =>
        (true, { d with
          candidates
          candidateState := states
          overlapBlocks := winner.overlapBlocks
          affinityBlocks := winner.affinityBlocks
          loadUnits := winner.requestLoadUnits
          outcome := if candidates.length = 1 then .single else d.outcome })

/-- Move a serving candidate to the front, keeping the outcome. -/
def promote (d : Decision) (upstream : Nat) : Bool × Decision :=
  match d.candidates.findIdx? fun candidate => candidate = upstream with
  | none => (false, d)
  | some candidatePosition =>
    match d.candidateState.findIdx? fun state => state.index = upstream && state.healthy with
    | none => (false, d)
    | some statePosition =>
      let states := setRanks (swapFront d.candidateState statePosition)
      let moved :=
        { d with candidates := swapFront d.candidates candidatePosition, candidateState := states }
      (true, (states.head?.map moved.describe).getD moved)

def preferUpstream (d : Decision) (upstream : Nat) : Bool × Decision :=
  match d.promote upstream with
  | (false, unchanged) => (false, unchanged)
  | (true, moved) => (true, { moved with outcome := .stateAffinity })

def applyRequestLoadFloor (d : Decision) (loadFloor : Nat) : Decision :=
  let floored : Decision :=
    { d with candidateState := d.candidateState.map fun state =>
        { state with requestLoadUnits := max state.requestLoadUnits (max loadFloor 1) } }
  match floored.candidates.head? with
  | none => floored
  | some selected =>
    match floored.candidateState.find? fun state => state.index = selected with
    | none => floored
    | some state => { floored with loadUnits := state.requestLoadUnits }

/-- A decision over `n` upstreams: a state for each of them, numbered in order;
the candidates are the first states; what is said of the chosen candidate is
what its state says; and a serving upstream is a candidate. -/
structure Wf (n : Nat) (d : Decision) : Prop where
  upstreams : (d.candidateState.map (·.index)).Perm (range n)
  leading : d.candidates <+: d.candidateState.map (·.index)
  ranks : d.candidateState.map (·.rank) = range n
  chosen : ∃ first rest, d.candidateState = first :: rest ∧ d.candidates.head? = some first.index ∧
    d.overlapBlocks = first.overlapBlocks ∧ d.affinityBlocks = first.affinityBlocks ∧
    d.loadUnits = first.requestLoadUnits
  serving : ∀ state ∈ d.candidateState, state.healthy → state.index ∈ d.candidates

structure Reorders (d d' : Decision) : Prop where
  candidates : d'.candidates.Perm d.candidates
  states : (d'.candidateState.map fun state => (state.index, state.healthy)).Perm
    (d.candidateState.map fun state => (state.index, state.healthy))

theorem Reorders.refl (d : Decision) : Reorders d d := ⟨.refl _, .refl _⟩

theorem Reorders.trans {d₁ d₂ d₃ : Decision} (h : Reorders d₁ d₂) (h' : Reorders d₂ d₃) :
    Reorders d₁ d₃ :=
  ⟨h'.candidates.trans h.candidates, h'.states.trans h.states⟩

section SetRanks

@[simp]
theorem length_setRanks (states : List CandidateState) :
    (setRanks states).length = states.length := length_mapIdx

theorem map_setRanks {β : Type} (f : CandidateState → β)
    (hf : ∀ state rank, f { state with rank } = f state) (states : List CandidateState) :
    (setRanks states).map f = states.map f := by
  apply ext_getElem?
  intro i
  simp only [setRanks, getElem?_map, getElem?_mapIdx, Option.map_map]
  rcases states[i]? with _ | state
  · rfl
  · exact congrArg some (hf state i)

theorem rank_setRanks (states : List CandidateState) :
    (setRanks states).map (·.rank) = range states.length := by
  apply ext_getElem?
  intro i
  simp only [setRanks, getElem?_map, getElem?_mapIdx, Option.map_map]
  by_cases hi : i < states.length
  · rw [getElem?_range hi, getElem?_eq_getElem hi]
    rfl
  · rw [getElem?_eq_none (by omega), getElem?_eq_none (by simpa using hi)]
    rfl

end SetRanks

namespace Wf
variable {n : Nat} {d : Decision}

section
variable (h : d.Wf n)
include h

theorem nodup_indices : (d.candidateState.map (·.index)).Nodup :=
  h.upstreams.nodup_iff.2 nodup_range

theorem nodup_candidates : d.candidates.Nodup :=
  h.nodup_indices.sublist h.leading.sublist

theorem length_states : d.candidateState.length = n := by
  simpa using h.upstreams.length_eq

theorem lt_of_mem {state : CandidateState} (hs : state ∈ d.candidateState) : state.index < n :=
  mem_range.1 (h.upstreams.mem_iff.1 (mem_map_of_mem hs))

theorem candidate_lt {cand : Nat} (hc : cand ∈ d.candidates) : cand < n :=
  mem_range.1 (h.upstreams.mem_iff.1 (h.leading.subset hc))

theorem find?_index {state : CandidateState} (hs : state ∈ d.candidateState) :
    d.candidateState.find? (fun other => other.index = state.index) = some state := by
  rw [find?_eq_some_iff_getElem]
  obtain ⟨i, hi, rfl⟩ := mem_iff_getElem.1 hs
  refine ⟨by simp, i, hi, rfl, fun j hj => ?_⟩
  have hn := pairwise_iff_getElem.1 h.nodup_indices j i (by simpa using hj.trans hi)
    (by simpa using hi) hj
  simpa using hn

theorem getElem?_candidates {i : Nat} (hi : i < d.candidates.length) :
    d.candidates[i]? = (d.candidateState[i]?).map (·.index) := by
  obtain ⟨rest, hr⟩ := h.leading
  rw [← getElem?_map, ← hr, getElem?_append_left hi]

end

theorem of_order {states : List CandidateState} (hu : (states.map (·.index)).Perm (range n))
    (he : d.candidates <+: states.map (·.index)) (ho : d.candidates ≠ [])
    (hserv : ∀ state ∈ states, state.healthy → state.index ∈ d.candidates)
    (ht : d.candidateState = setRanks states) (hs : ∀ first, d.candidateState.head? = some first →
      d.overlapBlocks = first.overlapBlocks ∧ d.affinityBlocks = first.affinityBlocks ∧
        d.loadUnits = first.requestLoadUnits) : d.Wf n := by
  have hx : d.candidateState.map (·.index) = states.map (·.index) := by
    rw [ht, map_setRanks (·.index) (fun _ _ => rfl)]
  have hl : states.length = n := by simpa using hu.length_eq
  refine ⟨hx ▸ hu, hx ▸ he, ?_, ?_, ?_⟩
  · rw [ht, rank_setRanks, hl]
  · rw [← hx] at he
    rcases hc : d.candidateState with _ | ⟨first, rest⟩
    · rw [hc] at he
      exact absurd (prefix_nil.1 he) ho
    rcases hh : d.candidates with _ | ⟨cand, others⟩
    · exact absurd hh ho
    rw [hc, hh] at he
    have hf : cand = first.index := (cons_prefix_cons.1 he).1
    exact ⟨first, rest, rfl, by rw [hf]; rfl, hs first (by rw [hc]; rfl)⟩
  · intro state ha hb
    have hp : (state.index, state.healthy) ∈
        states.map fun state => (state.index, state.healthy) := by
      rw [← map_setRanks (fun state => (state.index, state.healthy)) (fun _ _ => rfl), ← ht]
      exact mem_map_of_mem ha
    obtain ⟨other, hd, heq⟩ := mem_map.1 hp
    obtain ⟨hm, hm'⟩ := Prod.mk.inj heq
    rw [← hm]
    exact hserv other hd (hm'.trans hb)

end Wf

section Stages
variable {n : Nat} {d : Decision}

section
variable (h : d.Wf n)
include h

theorem restrictTo_cases (eligible : List Bool) :
    ((d.restrictTo eligible).1 = false ∧ (eligible.length ≠ n ∨
      d.candidates.filter (fun cand => eligible.getD cand false) = [])) ∨
    ∃ d', d.restrictTo eligible = (true, d') ∧ d'.Wf n ∧ eligible.length = n ∧
      d'.candidates = d.candidates.filter (fun cand => eligible.getD cand false) ∧
      (d'.candidateState.map fun state => (state.index, state.healthy)).Perm
        (d.candidateState.map fun state =>
          (state.index, state.healthy && eligible.getD state.index false)) := by
  by_cases hl : eligible.length = n
  swap
  · refine .inl ⟨?_, .inl hl⟩
    rw [restrictTo, if_pos (.inl (by rw [h.length_states]; exact hl))]
  have hgd : ¬ (eligible.length ≠ d.candidateState.length ∨
      d.candidateState.any (fun state => eligible.length ≤ state.index) = true) := by
    rw [not_or, not_not, h.length_states]
    refine ⟨hl, ?_⟩
    simp only [any_eq_true, decide_eq_true_eq, not_exists, not_and, Nat.not_le, hl]
    exact fun state ht => h.lt_of_mem ht
  rcases hk : d.candidates.filter (fun cand => eligible.getD cand false) with
    _ | ⟨selected, others⟩
  · refine .inl ⟨?_, .inr rfl⟩
    simp only [restrictTo, if_neg hgd, hk, head?_nil]
  right
  -- the states as they are sorted: the eligible ones, then the rest, each in order
  generalize hm : (d.candidateState.map fun state =>
    { state with healthy := state.healthy && eligible.getD state.index false }) = masked
  have hx : masked.map (·.index) = d.candidateState.map (·.index) := by
    rw [← hm, map_map]
    rfl
  generalize hs : byKey (fun state => !eligible.getD state.index false) masked = sorted
  have hp : sorted.Perm masked := hs ▸ byKey_perm _ masked
  have he : selected :: others <+: sorted.map (·.index) := by
    obtain ⟨rest, hr⟩ := h.leading
    have hfr : (masked.filter fun state => eligible.getD state.index false).map (·.index) =
        (d.candidates ++ rest).filter fun cand => eligible.getD cand false := by
      rw [hr, ← hx, filter_map]
      rfl
    rw [← hs, byKey_bool, map_append, ← hk]
    simp only [Bool.not_not]
    rw [hfr, filter_append, append_assoc]
    exact prefix_append _ _
  obtain ⟨first, rest, hc, hf⟩ : ∃ first rest, setRanks sorted = first :: rest ∧
      first.index = selected := by
    rw [← map_setRanks (·.index) (fun _ _ => rfl)] at he
    rcases ha : setRanks sorted with _ | ⟨first, rest⟩
    · rw [ha] at he
      exact absurd (prefix_nil.1 he) (by simp)
    · rw [ha] at he
      exact ⟨first, rest, rfl, (cons_prefix_cons.1 he).1.symm⟩
  refine ⟨{ d with
    candidates := selected :: others
    candidateState := setRanks sorted
    overlapBlocks := first.overlapBlocks
    affinityBlocks := first.affinityBlocks
    loadUnits := first.requestLoadUnits
    outcome := if (selected :: others).length = 1 then .single else d.outcome },
    ?_, ?_, hl, rfl, ?_⟩
  · simp only [restrictTo, if_neg hgd, hk, head?_cons, hm, hs]
    rw [hc, find?_cons_of_pos (by simpa using hf)]
  · refine Wf.of_order ?_ he (by simp) ?_ rfl ?_
    · exact (hp.map _).trans (hx ▸ h.upstreams)
    · intro state ht hb
      have ht' := hp.mem_iff.1 ht
      rw [← hm] at ht'
      obtain ⟨old, hold, rfl⟩ := mem_map.1 ht'
      obtain ⟨hv, hi⟩ := Bool.and_eq_true_iff.1 hb
      show old.index ∈ selected :: others
      rw [← hk]
      exact mem_filter.2 ⟨h.serving old hold hv, hi⟩
    · intro head hh
      have hh' : (setRanks sorted).head? = some head := hh
      rw [hc] at hh'
      cases hh'
      exact ⟨rfl, rfl, rfl⟩
  · rw [map_setRanks (fun state => (state.index, state.healthy)) (fun _ _ => rfl)]
    refine (hp.map _).trans ?_
    rw [← hm, map_map]
    rfl

theorem Wf.position {upstream i j : Nat} {p : CandidateState → Bool}
    (hp : ∀ state, p state → state.index = upstream)
    (hi : d.candidates.findIdx? (fun cand => cand = upstream) = some i)
    (hj : d.candidateState.findIdx? p = some j) : i = j ∧ i < d.candidates.length := by
  obtain ⟨hi, hc, -⟩ := findIdx?_eq_some_iff_getElem.1 hi
  obtain ⟨hj, ht, -⟩ := findIdx?_eq_some_iff_getElem.1 hj
  refine ⟨?_, hi⟩
  have hs : (d.candidateState.map (·.index))[i]? = some upstream := by
    rw [getElem?_map, ← h.getElem?_candidates hi, getElem?_eq_getElem hi]
    exact congrArg some (by simpa using hc)
  have hs' : (d.candidateState.map (·.index))[j]? = some upstream := by
    rw [getElem?_map, getElem?_eq_getElem hj]
    exact congrArg some (hp _ ht)
  have hl : i < (d.candidateState.map (·.index)).length :=
    (List.getElem?_eq_some_iff.1 hs).1
  exact (getElem?_inj hl h.nodup_indices).1 (hs.trans hs'.symm)

theorem Wf.front {d' : Decision} (reorder : ∀ {α : Type}, List α → List α)
    (hm : ∀ {α β : Type} (f : α → β) (l : List α), (reorder l).map f = reorder (l.map f))
    (hp : ∀ {α : Type} (l : List α), (reorder l).Perm l)
    (hl : reorder d.candidates <+: reorder (d.candidateState.map (·.index)))
    (hcan : d'.candidates = reorder d.candidates)
    (ht : d'.candidateState = setRanks (reorder d.candidateState))
    (hc : ∀ first, d'.candidateState.head? = some first →
      d'.overlapBlocks = first.overlapBlocks ∧ d'.affinityBlocks = first.affinityBlocks ∧
        d'.loadUnits = first.requestLoadUnits) : d'.Wf n ∧ Reorders d d' := by
  have hs : d.candidates ≠ [] := by
    obtain ⟨first, rest, -, hh, -⟩ := h.chosen
    intro hn
    rw [hn] at hh
    cases hh
  refine ⟨Wf.of_order ?_ ?_ ?_ ?_ ht hc, ?_, ?_⟩
  · exact ((hp _).map _).trans h.upstreams
  · rw [hcan, hm]
    exact hl
  · rw [hcan]
    intro hn
    exact hs (nil_perm.1 (hn ▸ hp d.candidates))
  · intro state ha he
    rw [hcan]
    exact (hp _).mem_iff.2 (h.serving state ((hp _).mem_iff.1 ha) he)
  · rw [hcan]
    exact hp _
  · rw [ht, map_setRanks (fun state => (state.index, state.healthy)) (fun _ _ => rfl)]
    exact (hp _).map _

theorem promote_cases (up : Nat) : d.promote up = (false, d) ∨
    ∃ i d', d.promote up = (true, d') ∧ d.candidates[i]? = some up ∧
      d'.candidates = swapFront d.candidates i ∧
      d'.candidateState = setRanks (swapFront d.candidateState i) ∧
      ∀ first, d'.candidateState.head? = some first →
        d'.overlapBlocks = first.overlapBlocks ∧ d'.affinityBlocks = first.affinityBlocks ∧
          d'.loadUnits = first.requestLoadUnits := by
  unfold promote
  split
  · exact .inl rfl
  rename_i i hc
  split
  · exact .inl rfl
  rename_i j hs
  obtain ⟨rfl, -⟩ := h.position (fun state hp => by
    rw [Bool.and_eq_true] at hp
    exact of_decide_eq_true hp.1) hc hs
  obtain ⟨hi, hu, -⟩ := findIdx?_eq_some_iff_getElem.1 hc
  refine .inr ⟨i, _, rfl, by rw [getElem?_eq_getElem hi]; simpa using hu, ?_⟩
  rcases hh : (setRanks (swapFront d.candidateState i)).head? with _ | first
  · refine ⟨rfl, rfl, fun first hf => ?_⟩
    cases hh.symm.trans hf
  refine ⟨rfl, rfl, fun other ho => ?_⟩
  obtain rfl : first = other := Option.some.inj (hh.symm.trans ho)
  exact ⟨rfl, rfl, rfl⟩

theorem promote_keeps (up : Nat) : (d.promote up).2.Wf n ∧ Reorders d (d.promote up).2 := by
  rcases promote_cases h up with hp | ⟨i, d', hp, hi, hc, hs, hd⟩
  · rw [hp]
    exact ⟨h, .refl d⟩
  rw [hp]
  have hi := (List.getElem?_eq_some_iff.1 hi).1
  exact h.front (fun l => swapFront l i) (fun f l => map_swapFront f l i)
    (fun l => swapFront_perm l i) (swapFront_isPrefix h.leading hi) hc hs hd

end

/-- A promotion that leaves the rest in order. -/
def Promotes (d d' : Decision) (upstream : Nat) : Prop :=
  d'.candidates = upstream :: d.candidates.erase upstream ∧
    d'.candidateState.map (·.index) = upstream :: (d.candidateState.map (·.index)).erase upstream

theorem promotes_iff (h : d.Wf n) {upstream : Nat} (hp : (d.promote upstream).1) :
    Promotes d (d.promote upstream).2 upstream ↔ upstream ∈ d.candidates.take 2 := by
  rcases promote_cases h upstream with hn | ⟨i, d', hn, hi, hc, hs, -⟩
  · rw [hn] at hp
    cases hp
  have hl := (List.getElem?_eq_some_iff.1 hi).1
  have hi' : (d.candidateState.map (·.index))[i]? = some upstream := by
    rw [getElem?_map, ← h.getElem?_candidates hl, hi]
  rw [hn, Promotes, hc, hs, map_setRanks _ fun _ _ => rfl, map_swapFront,
    swapFront_eq_cons_erase h.nodup_candidates hi, swapFront_eq_cons_erase h.nodup_indices hi',
    and_self, mem_take_iff_getElem]
  constructor
  · exact fun h2 => ⟨i, by omega, (List.getElem?_eq_some_iff.1 hi).2⟩
  rintro ⟨j, hj, hu⟩
  have := (getElem?_inj hl h.nodup_candidates).1
    (hi.trans ((List.getElem?_eq_some_iff.2 ⟨_, hu⟩).symm))
  omega

theorem preferUpstream_keeps (h : d.Wf n) (up : Nat) :
    (d.preferUpstream up).2.Wf n ∧ Reorders d (d.preferUpstream up).2 := by
  have hk := promote_keeps h up
  unfold preferUpstream
  rcases hp : d.promote up with ⟨_ | _, moved⟩
  · rw [hp] at hk
    exact hk
  rw [hp] at hk
  obtain ⟨hwf, ho⟩ := hk
  exact ⟨⟨hwf.upstreams, hwf.leading, hwf.ranks, hwf.chosen, hwf.serving⟩, ho.candidates, ho.states⟩

theorem applyRequestLoadFloor_keeps (h : d.Wf n) (loadFloor : Nat) :
    (d.applyRequestLoadFloor loadFloor).Wf n ∧ Reorders d (d.applyRequestLoadFloor loadFloor) := by
  obtain ⟨first, rest, ht, hh, ho, hb, -⟩ := h.chosen
  generalize hr : (fun state : CandidateState =>
    { state with requestLoadUnits := max state.requestLoadUnits (max loadFloor 1) }) = raise
  have hx : ∀ state, (raise state).index = state.index := fun _ => by rw [← hr]
  have hl : d.applyRequestLoadFloor loadFloor = { d with
      candidateState := raise first :: rest.map raise
      loadUnits := (raise first).requestLoadUnits } := by
    simp only [applyRequestLoadFloor, hr, hh, ht, map_cons]
    rw [find?_cons_of_pos (by simpa using hx first)]
  have hm : ∀ {β : Type} (f : CandidateState → β), (∀ state, f (raise state) = f state) →
      (raise first :: rest.map raise).map f = d.candidateState.map f := by
    intro β f hf
    rw [ht, map_cons, map_cons, hf, map_map]
    exact congrArg _ (map_congr_left fun state _ => hf state)
  rw [hl]
  refine ⟨⟨?_, ?_, ?_, ⟨raise first, rest.map raise, rfl, ?_, ?_, ?_, rfl⟩, ?_⟩, .refl _, ?_⟩
  · show ((raise first :: rest.map raise).map (·.index)).Perm _
    rw [hm _ hx]
    exact h.upstreams
  · show d.candidates <+: (raise first :: rest.map raise).map (·.index)
    rw [hm _ hx]
    exact h.leading
  · show (raise first :: rest.map raise).map (·.rank) = _
    rw [hm _ fun _ => by rw [← hr]]
    exact h.ranks
  · rw [hx]
    exact hh
  · rw [← hr]
    exact ho
  · rw [← hr]
    exact hb
  · intro state hs he
    have ha : state ∈ d.candidateState.map raise := by
      rw [ht]
      exact hs
    obtain ⟨old, hold, rfl⟩ := mem_map.1 ha
    rw [hx]
    refine h.serving old hold ?_
    rw [← hr] at he
    exact he
  · show ((raise first :: rest.map raise).map _).Perm _
    rw [hm _ fun _ => by rw [← hr]]

end Stages
end Decision
end Ramjet
