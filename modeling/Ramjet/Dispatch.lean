import Ramjet.ExactPlacement

/-!
# Dispatch

The end of the request path in `proxy.rs`: the candidates a decision leaves to try, those
tried when nobody serves, and the loop over them.
-/

namespace Ramjet
open StableSort List Prod Option

/-- The serving candidates, each with its own reservation. -/
def Decision.servingCandidates (d : Decision) : List (Nat × Nat) :=
  d.candidates.filterMap fun candidate =>
    ((d.stateOf candidate).filter (·.healthy)).map fun state => (candidate, state.requestLoadUnits)

/-- The lane's members that are not there yet, behind the rest. -/
def Decision.appendFailover (d : Decision) (serving : List (Nat × Nat)) (failover : List Nat) :
    List (Nat × Nat) :=
  failover.foldl (fun serving upstream =>
    if serving.all fun entry => entry.1 ≠ upstream then
      match d.stateOf upstream with
      | some state => serving ++ [(upstream, state.requestLoadUnits)]
      | none => serving
    else serving) serving

def failOpenMaxAttempts : Nat := 2

def Decision.failOpenCandidates (d : Decision) (mayFailOpen : Nat → Bool) : List (Nat × Nat) :=
  (d.candidates.filterMap fun candidate =>
    ((d.stateOf candidate).filter fun state => mayFailOpen state.index).map fun state =>
      (candidate, state.requestLoadUnits)).take failOpenMaxAttempts

structure DispatchPlan where
  candidates : List (Nat × Nat)
  failingOpen : Bool
  failoverTail : Nat
  attemptLimit : Nat

def Decision.dispatchPlan (d : Decision) (failover : List Nat) (mayFailOpen : Nat → Bool)
    (routeMaxAttempts : Option Nat) : DispatchPlan :=
  let routed := d.servingCandidates
  let serving := d.appendFailover routed failover
  if serving.isEmpty then
    let candidates := d.failOpenCandidates mayFailOpen
    ⟨candidates, true, 0, candidates.length⟩
  else
    ⟨serving, false, serving.length - routed.length, match routeMaxAttempts with
      | some limit => min limit serving.length
      | none => serving.length⟩

section Plan
variable {n : Nat} {d : Decision}

theorem Decision.mem_servingCandidates {up : Nat}
    (h : up ∈ d.servingCandidates.map fst) : up ∈ d.candidates := by
  obtain ⟨entry, he, rfl⟩ := mem_map.1 h
  obtain ⟨cand, hc, hs⟩ := mem_filterMap.1 he
  obtain ⟨state, -, rfl⟩ := map_eq_some_iff.1 hs
  exact hc

theorem Decision.mem_failOpenCandidates {mayFailOpen : Nat → Bool} {up : Nat}
    (h : up ∈ (d.failOpenCandidates mayFailOpen).map fst) : up ∈ d.candidates := by
  obtain ⟨entry, he, rfl⟩ := mem_map.1 h
  obtain ⟨cand, hc, hs⟩ := mem_filterMap.1 (mem_of_mem_take he)
  obtain ⟨state, -, rfl⟩ := map_eq_some_iff.1 hs
  exact hc

theorem Decision.Wf.servingCandidates (h : d.Wf n) {state : CandidateState}
    (hs : state ∈ d.candidateState) (hh : state.healthy) :
    state.index ∈ d.servingCandidates.map fst := by
  refine mem_map.2 ⟨(state.index, state.requestLoadUnits), ?_, rfl⟩
  refine mem_filterMap.2 ⟨state.index, h.serving state hs hh, ?_⟩
  have hf : d.stateOf state.index = some state := h.find?_index hs
  rw [hf, filter_some, if_pos hh, map_some]

theorem Decision.appendFailover_append (serving : List (Nat × Nat)) (failover : List Nat) :
    ∃ tail, d.appendFailover serving failover = serving ++ tail ∧
      ∀ upstream ∈ tail.map fst, upstream ∈ failover := by
  induction failover generalizing serving with
  | nil => exact ⟨[], (append_nil _).symm, nofun⟩
  | cons upstream failover ih =>
    -- one more entry, or none
    obtain ⟨added, ha, hm⟩ : ∃ added : List (Nat × Nat),
        d.appendFailover serving (upstream :: failover) =
          d.appendFailover (serving ++ added) failover ∧
          ∀ other ∈ added.map fst, other = upstream := by
      simp only [appendFailover, foldl_cons]
      split
      · split
        · exact ⟨_, rfl, by simp⟩
        · exact ⟨[], by rw [append_nil], nofun⟩
      · exact ⟨[], by rw [append_nil], nofun⟩
    obtain ⟨tail, ht, hr⟩ := ih (serving ++ added)
    refine ⟨added ++ tail, by rw [ha, ht, append_assoc], fun other ho => ?_⟩
    rw [map_append] at ho
    rcases mem_append.1 ho with hw | hold
    · rw [hm other hw]
      exact mem_cons_self
    · exact mem_cons_of_mem _ (hr other hold)

theorem Decision.dispatchPlan_parts (d : Decision) (failover : List Nat)
    (mayFailOpen : Nat → Bool) (routeMaxAttempts : Option Nat) :
    ∃ routed tail, (d.dispatchPlan failover mayFailOpen routeMaxAttempts).candidates =
        routed ++ tail ∧
      (d.dispatchPlan failover mayFailOpen routeMaxAttempts).failoverTail = tail.length ∧
      (∀ up ∈ routed.map fst, up ∈ d.candidates) ∧
      (∀ up ∈ tail.map fst, up ∈ failover) ∧
      (d.servingCandidates ≠ [] → routed = d.servingCandidates) := by
  obtain ⟨tail, ht, hm⟩ := Decision.appendFailover_append (d := d) d.servingCandidates failover
  simp only [dispatchPlan]
  split
  next he =>
    rw [ht, List.isEmpty_iff, List.append_eq_nil_iff] at he
    exact ⟨d.failOpenCandidates mayFailOpen, [], (append_nil _).symm, rfl,
      fun _ => Decision.mem_failOpenCandidates, nofun,
      fun hs => absurd he.1 hs⟩
  · exact ⟨d.servingCandidates, tail, ht, by rw [ht]; simp,
      fun _ => Decision.mem_servingCandidates, hm, fun _ => rfl⟩

end Plan

inductive TransportError where
  | timeout | connect | protocol
  deriving DecidableEq

/-- How an attempt ends: no reservation, no answer, or an answer's status. -/
inductive AttemptAnswer where
  | refused
  | failed (error : TransportError)
  | responded (status : Nat)
  deriving DecidableEq

inductive FailoverReason where
  | notAdmitted
  | status502
  | status503
  | transport (error : TransportError)

inductive RetryEffect where
  | withdraw (upstream : Nat)
  | forget (upstream : Nat)

structure Placement where
  upstreams : Nat
  node : Nat → String
  engine : Nat → String

/-- The loop between two attempts; `tried` has every attempt in order. -/
structure RetryState where
  candidates : List (Nat × Nat)
  tried : List (Nat × AttemptAnswer)
  lastError : Option TransportError
  failoverReason : Option FailoverReason
  selected : Option (Nat × Nat × Nat)
  effects : List RetryEffect

def RetryState.start (plan : DispatchPlan) : RetryState :=
  ⟨plan.candidates, [], none, none, none, []⟩

def failOverFrom (node : Nat → String) (candidates : List (Nat × Nat)) (tail failed : Nat) :
    List (Nat × Nat) :=
  match candidates[failed]? with
  | none => candidates
  | some (upstream, _) =>
    let sameNode := fun (entry : Nat × Nat) => decide (node entry.1 = node upstream)
    let tailStart := max (candidates.length - tail) (failed + 1)
    candidates.take (failed + 1) ++
      (byKey sameNode ((candidates.take tailStart).drop (failed + 1)) ++
        byKey sameNode (candidates.drop tailStart))

/-- The other ranks of an engine that cannot be reached. -/
def siblings (placement : Placement) (upstream : Nat) : List Nat :=
  (range placement.upstreams).filter fun sibling =>
    sibling ≠ upstream ∧ placement.engine sibling = placement.engine upstream

def RetryState.step (placement : Placement) (plan : DispatchPlan) (reuse : Bool) (s : RetryState)
    (answer : AttemptAnswer) : RetryState :=
  let attempt := s.tried.length
  match s.candidates[attempt]? with
  | none => s
  | some (candidate, units) =>
    let s := { s with tried := s.tried ++ [(candidate, answer)] }
    match answer with
    | .refused => { s with failoverReason := some .notAdmitted }
    | .responded status =>
      if (status = 502 ∨ status = 503) ∧ attempt + 1 < plan.attemptLimit then
        { s with
          failoverReason := some (if status = 502 then .status502 else .status503)
          effects := s.effects ++ [.withdraw candidate]
          candidates := failOverFrom placement.node s.candidates plan.failoverTail attempt }
      else if status = 404 ∧ reuse ∧ attempt + 1 < s.candidates.length then
        { s with effects := s.effects ++ [.forget candidate] }
      else { s with selected := some (candidate, status, units) }
    | .failed error =>
      let withdrawn :=
        candidate :: if error = .connect then siblings placement candidate else []
      { s with
        lastError := some error
        failoverReason := some (.transport error)
        effects := s.effects ++ withdrawn.map .withdraw
        candidates := failOverFrom placement.node s.candidates plan.failoverTail attempt }

/-- At most `remaining` further attempts; `answers` has the answer to each. -/
def RetryState.run (placement : Placement) (plan : DispatchPlan) (reuse : Bool)
    (answers : Nat → AttemptAnswer) : Nat → RetryState → RetryState
  | 0, s => s
  | remaining + 1, s =>
    if s.selected.isSome then s
    else run placement plan reuse answers remaining
      (s.step placement plan reuse (answers s.tried.length))

def DispatchPlan.retry (plan : DispatchPlan) (placement : Placement) (reuse : Bool)
    (answers : Nat → AttemptAnswer) : RetryState :=
  RetryState.run placement plan reuse answers plan.attemptLimit (.start plan)

section FailOver
variable {node : Nat → String} {candidates : List (Nat × Nat)} {tail failed : Nat}

theorem take_failOverFrom : (failOverFrom node candidates tail failed).take (failed + 1) =
      candidates.take (failed + 1) := by
  unfold failOverFrom
  split
  · rfl
  rename_i up units hg
  have hl : failed < candidates.length := (List.getElem?_eq_some_iff.1 hg).1
  exact take_left' (by simp; omega)

theorem failOverFrom_append (node : Nat → String) (front back : List (Nat × Nat))
    (hl : failed < (front ++ back).length) :
    ∃ front' back', failOverFrom node (front ++ back) back.length failed = front' ++ back' ∧
      front'.Perm front ∧ back'.Perm back := by
  rcases hg : (front ++ back)[failed]? with _ | ⟨up, units⟩
  · rw [getElem?_eq_getElem hl] at hg
    cases hg
  have ho : (front ++ back).length - back.length = front.length := by simp
  simp only [failOverFrom, hg, ho]
  generalize (fun entry : Nat × Nat => decide (node entry.1 = node up)) = sameNode
  by_cases hf : failed + 1 ≤ front.length
  · -- the failure is before the tail
    refine ⟨front.take (failed + 1) ++ byKey sameNode (front.drop (failed + 1)),
      byKey sameNode back, ?_, ?_, byKey_perm _ _⟩
    · rw [Nat.max_eq_left hf, take_left, drop_left, take_append_of_le_length hf, append_assoc]
    have hp := (byKey_perm sameNode (front.drop (failed + 1))).append_left (front.take (failed + 1))
    rwa [take_append_drop] at hp
  · -- the failure is in the tail
    have hb : front.length ≤ failed + 1 := by omega
    refine ⟨front, back.take (failed + 1 - front.length) ++
      byKey sameNode (back.drop (failed + 1 - front.length)), ?_, .refl _, ?_⟩
    · rw [Nat.max_eq_right hb, drop_take_self, take_append, drop_append,
        take_of_length_le hb, drop_eq_nil_of_le hb, nil_append,
        append_assoc]
      rfl
    · have hp := (byKey_perm sameNode (back.drop (failed + 1 - front.length))).append_left
        (back.take (failed + 1 - front.length))
      rwa [take_append_drop] at hp

end FailOver

structure RetryState.Inv (routed tail : List (Nat × Nat)) (s : RetryState) : Prop where
  parts : ∃ front back, s.candidates = front ++ back ∧ front.Perm routed ∧ back.Perm tail
  tried : s.tried.map fst = (s.candidates.take s.tried.length).map fst

namespace RetryState
variable {placement : Placement} {plan : DispatchPlan} {reuse : Bool}
  {routed tail : List (Nat × Nat)} {s : RetryState}

theorem Inv.start (hp : plan.candidates = routed ++ tail) :
    (RetryState.start plan).Inv routed tail :=
  ⟨⟨routed, tail, hp, .refl _, .refl _⟩, rfl⟩

variable {answer : AttemptAnswer}

theorem Inv.next (h : s.Inv routed tail) (node : Nat → String) {cand units : Nat}
    (hg : s.candidates[s.tried.length]? = some (cand, units)) {s' : RetryState}
    (ht : s'.tried = s.tried ++ [(cand, answer)])
    (hcan : s'.candidates = s.candidates ∨ s'.candidates =
      failOverFrom node s.candidates tail.length s.tried.length) : s'.Inv routed tail := by
  obtain ⟨front, back, hp, hf, hb⟩ := h.parts
  have ha : s.tried.length < s.candidates.length := (List.getElem?_eq_some_iff.1 hg).1
  have hl : s'.tried.length = s.tried.length + 1 := by
    rw [ht, length_append, length_singleton]
  have hs : s'.tried.map fst = (s.candidates.take (s.tried.length + 1)).map fst := by
    rw [ht, map_append, h.tried, take_add_one, hg, map_append]
    rfl
  rcases hcan with hc | hm
  · refine ⟨⟨front, back, hc.trans hp, hf, hb⟩, ?_⟩
    rw [hc, hl]
    exact hs
  refine ⟨?_, ?_⟩
  · rw [hm, hp, ← hb.length_eq]
    rw [hp] at ha
    obtain ⟨front', back', heq, hf', hb'⟩ :=
      failOverFrom_append node front back ha
    exact ⟨front', back', heq, hf'.trans hf, hb'.trans hb⟩
  · rw [hm, hl, take_failOverFrom]
    exact hs

theorem Inv.step (h : s.Inv routed tail) (hp : plan.failoverTail = tail.length)
    (answer : AttemptAnswer) : (s.step placement plan reuse answer).Inv routed tail := by
  simp only [RetryState.step]
  split
  · exact h
  rename_i cand units hg
  split
  · exact h.next placement.node hg rfl (.inl rfl)
  · split
    · exact h.next placement.node hg rfl (.inr (by rw [hp]))
    split
    · exact h.next placement.node hg rfl (.inl rfl)
    · exact h.next placement.node hg rfl (.inl rfl)
  · exact h.next placement.node hg rfl (.inr (by rw [hp]))

theorem run_induction {P : RetryState → Prop} (answers : Nat → AttemptAnswer) (remaining : Nat)
    (hs : ∀ s answer, s.selected.isSome = false → P s → P (s.step placement plan reuse answer))
    (h : P s) : P (RetryState.run placement plan reuse answers remaining s) := by
  induction remaining generalizing s with
  | zero => exact h
  | succ remaining ih =>
    simp only [RetryState.run]
    split
    · exact h
    next hn =>
      exact ih (hs s _ (Bool.eq_false_of_not_eq_true hn) h)

theorem Inv.run (h : s.Inv routed tail) (hplan : plan.failoverTail = tail.length)
    (answers : Nat → AttemptAnswer) (remaining : Nat) :
    (RetryState.run placement plan reuse answers remaining s).Inv routed tail :=
  run_induction answers remaining (fun _ answer _ h => h.step hplan answer) h

theorem length_tried_step (placement : Placement) (plan : DispatchPlan) (reuse : Bool)
    (s : RetryState) (answer : AttemptAnswer) :
    (s.step placement plan reuse answer).tried.length ≤ s.tried.length + 1 := by
  simp only [RetryState.step]
  split
  · exact Nat.le_succ _
  rename_i cand units _
  have hl : ∀ answer : AttemptAnswer,
      (s.tried ++ [(cand, answer)]).length ≤ s.tried.length + 1 :=
    fun answer => Nat.le_of_eq (length_append)
  split
  · exact hl _
  · split
    · exact hl _
    split
    · exact hl _
    · exact hl _
  · exact hl _

theorem length_tried_run (placement : Placement) (plan : DispatchPlan) (reuse : Bool)
    (s : RetryState) (answers : Nat → AttemptAnswer) (remaining : Nat) :
    (RetryState.run placement plan reuse answers remaining s).tried.length ≤
      s.tried.length + remaining := by
  induction remaining generalizing s with
  | zero => exact Nat.le_refl _
  | succ remaining ih =>
    simp only [RetryState.run]
    split
    · omega
    have hs := length_tried_step placement plan reuse s (answers s.tried.length)
    have hr := ih (s.step placement plan reuse (answers s.tried.length))
    omega

theorem Inv.mem (h : s.Inv routed tail) {up : Nat} (ht : (up, answer) ∈ s.tried) :
    up ∈ routed.map fst ∨ up ∈ tail.map fst := by
  obtain ⟨front, back, hp, hf, hb⟩ := h.parts
  have hm := mem_map_of_mem (f := fst) ht
  rw [h.tried] at hm
  obtain ⟨entry, he, rfl⟩ := mem_map.1 hm
  rcases mem_append.1 (hp ▸ mem_of_mem_take he) with hold | hold
  · exact .inl (mem_map_of_mem (hf.mem_iff.1 hold))
  · exact .inr (mem_map_of_mem (hb.mem_iff.1 hold))

theorem Inv.routed_first (h : s.Inv routed tail) {k upstream : Nat}
    (hk : s.tried[k]? = some (upstream, answer)) (hup : upstream ∉ routed.map fst) {first : Nat}
    (hr : first ∈ routed.map fst) : ∃ j earlier, j < k ∧ s.tried[j]? = some (first, earlier) := by
  obtain ⟨front, back, hp, hf, -⟩ := h.parts
  -- the attempt in a place is at the candidate in that place
  have hl : ∀ (i : Nat) (entry : Nat × AttemptAnswer), s.tried[i]? = some entry →
      (s.candidates[i]?).map fst = some entry.1 := by
    intro i entry he
    have hi : i < s.tried.length := (List.getElem?_eq_some_iff.1 he).1
    have hb : (s.tried.map fst)[i]? = some entry.1 := by
      rw [getElem?_map, he]
      rfl
    rwa [h.tried, getElem?_map, getElem?_take_of_lt hi] at hb
  have ha : front.length ≤ k := by
    by_contra hc
    obtain ⟨entry, he, hs⟩ := map_eq_some_iff.1 (hl k _ hk)
    rw [hp, getElem?_append_left (by omega)] at he
    apply hup
    have hs' : entry.1 = upstream := hs
    rw [← hs']
    exact mem_map_of_mem (hf.mem_iff.1 (mem_of_getElem? he))
  obtain ⟨entry, he, rfl⟩ := mem_map.1 hr
  obtain ⟨j, hj, rfl⟩ := mem_iff_getElem.1 (hf.mem_iff.2 he)
  have ht : j < s.tried.length := by
    have := (List.getElem?_eq_some_iff.1 hk).1
    omega
  refine ⟨j, s.tried[j].2, by omega, ?_⟩
  have hm := hl j s.tried[j] (getElem?_eq_getElem ht)
  rw [hp, getElem?_append_left hj, getElem?_eq_getElem hj, map_some, some.injEq] at hm
  rw [getElem?_eq_getElem ht, hm]

end RetryState
end Ramjet
