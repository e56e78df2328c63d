import Ramjet.Dispatch
import Ramjet.RouteOrder

/-!
# Failover

Which answers the retry loop passes over, and in which order it goes on.
-/

namespace Ramjet
open List StableSort Prod

theorem failOverFrom_perm {node : Nat → String} {candidates : List (Nat × Nat)}
    {tail failed : Nat} : (failOverFrom node candidates tail failed).Perm candidates := by
  unfold failOverFrom
  split
  · rfl
  refine (((byKey_perm _ _).append (byKey_perm _ _)).append_left _).trans (.of_eq ?_)
  rw [← append_assoc]
  nth_rewrite 1 [← Nat.min_eq_left (Nat.le_max_right (candidates.length - tail) (failed + 1))]
  rw [← take_take, take_append_drop, take_append_drop]

variable {placement : Placement} {plan : DispatchPlan} {reuse : Bool} {s s' : RetryState}
  {upstream units : Nat} {answer : AttemptAnswer}

namespace RetryState

def PassedOver (plan : DispatchPlan) (reuse : Bool) (attempt : Nat) : AttemptAnswer → Prop
  | .responded status => (status = 502 ∨ status = 503) ∨
      status = 404 ∧ reuse ∧ attempt + 1 < plan.candidates.length
  | _ => True

structure Passing (plan : DispatchPlan) (reuse : Bool) (s : RetryState) : Prop where
  length : s.candidates.length = plan.candidates.length
  tried : ∀ entry ∈ s.tried.zipIdx, PassedOver plan reuse entry.2 entry.1.2

theorem Passing.next (h : s.Passing plan reuse) (hc : s'.candidates.Perm s.candidates)
    (ht : s'.tried = s.tried ++ [(upstream, answer)])
    (ha : PassedOver plan reuse s.tried.length answer) : s'.Passing plan reuse := by
  refine ⟨hc.length_eq.trans h.length, ?_⟩
  rw [ht, zipIdx_append, forall_mem_append]
  exact ⟨h.tried, by simpa using ha⟩

theorem Passing.step (h : s.Passing plan reuse) (answer : AttemptAnswer) :
    (s.step placement plan reuse answer).selected.isSome = false →
      (s.step placement plan reuse answer).Passing plan reuse := by
  simp only [RetryState.step]
  split
  · exact fun _ => h
  split
  · exact fun _ => h.next .rfl rfl trivial
  · split
    next hs =>
      exact fun _ => h.next failOverFrom_perm rfl (.inl hs.1)
    split
    next hs =>
      exact fun _ => h.next .rfl rfl (.inr (h.length ▸ hs))
    · rintro ⟨⟩
  · exact fun _ => h.next failOverFrom_perm rfl trivial

end RetryState

/-- An answer that is not passed over is the client's, if no later one is. -/
theorem DispatchPlan.retry_answers (plan : DispatchPlan) (placement : Placement) (reuse : Bool)
    (answers : Nat → AttemptAnswer) {attempt upstream status : Nat}
    (htried : (plan.retry placement reuse answers).tried[attempt]? =
      some (upstream, .responded status))
    (h502 : status ≠ 502) (h503 : status ≠ 503)
    (h404 : ¬ (status = 404 ∧ reuse ∧ attempt + 1 < plan.candidates.length)) :
    (plan.retry placement reuse answers).selected.isSome := by
  by_contra hn
  have hp : (plan.retry placement reuse answers).selected.isSome = false →
      (plan.retry placement reuse answers).Passing plan reuse :=
    RetryState.run_induction (P := fun s => s.selected.isSome = false → s.Passing plan reuse)
      answers _ (fun s answer hs h => (h hs).step answer) fun _ => ⟨rfl, nofun⟩
  have ht := (hp (Bool.eq_false_of_not_eq_true hn)).tried _
    (mk_mem_zipIdx_iff_getElem?.2 htried)
  exact ht.elim (fun h => h.elim h502 h503) h404

def twoReplicas : DispatchPlan := ⟨[(0, 1), (1, 1)], false, 0, 2⟩

def oneNode : Placement := ⟨2, fun _ => "node", fun _ => "engine"⟩

theorem retry_answers_twoReplicas :
    (twoReplicas.retry oneNode true fun _ => .responded 404).selected.isSome := by
  have h : (twoReplicas.retry oneNode true fun _ => .responded 404).tried[1]? =
      some (1, .responded 404) := by decide
  exact twoReplicas.retry_answers oneNode true _ h (by decide) (by decide) (by decide)

/-- One replica does not know the state and the other is gone: the client gets neither. -/
theorem retry_swallows_not_found :
    let s := twoReplicas.retry oneNode true fun attempt =>
      if attempt = 0 then .responded 404 else .failed .connect
    s.tried[0]? = some (0, .responded 404) ∧ s.selected = none := by
  decide

section Behind
variable {α : Type} {failed same : α → Bool} {l : List α}

structure KeepsBehind (failed : α → Bool) (before after : List α) : Prop where
  perm : after.Perm before
  behind : after.Pairwise fun a b => failed a → failed b
  order : after.filter (fun a => !failed a) = before.filter fun a => !failed a

theorem KeepsBehind.byKey (h : l.Pairwise fun a b => failed a → failed b) :
    KeepsBehind (fun a => failed a || same a) l (byKey same l) := by
  refine ⟨byKey_perm _ _, ?_, ?_⟩
  · rw [byKey_bool, pairwise_append]
    refine ⟨(h.filter _).imp_of_mem fun {a b} ha _ hab hp => ?_, pairwise_of_forall_mem_list ?_, ?_⟩
    · have hn := (mem_filter.1 ha).2
      simp_all
    · exact fun a _ b hb _ => by simp [(mem_filter.1 hb).2]
    · exact fun a _ b hb _ => by simp [(mem_filter.1 hb).2]
  · have hn : (l.filter same).filter (fun a => !(failed a || same a)) = [] := by
      simp +contextual
    rw [byKey_bool, filter_append, hn, append_nil, filter_filter]
    exact filter_congr fun a _ => by cases same a <;> simp

end Behind

theorem failOverFrom_parts {node : Nat → String} {candidates : List (Nat × Nat)}
    {tail failed upstream units : Nat} (h : candidates[failed]? = some (upstream, units)) :
    let same := fun entry : Nat × Nat => decide (node entry.1 = node upstream)
    let m := candidates.length - tail
    ((failOverFrom node candidates tail failed).take m).drop (failed + 1) =
        byKey same ((candidates.take m).drop (failed + 1)) ∧
      (failOverFrom node candidates tail failed).drop (max m (failed + 1)) =
        byKey same (candidates.drop (max m (failed + 1))) := by
  intro same m
  have hlt := (List.getElem?_eq_some_iff.1 h).1
  have hle : max m (failed + 1) ≤ candidates.length := by omega
  simp only [failOverFrom, h]
  change (take m (_ ++ (byKey same _ ++ byKey same _))).drop _ = _ ∧ _
  have hb := (byKey_perm same ((candidates.take (max m (failed + 1))).drop (failed + 1))).length_eq
  rw [length_drop, length_take, Nat.min_eq_left hle] at hb
  have ha : (candidates.take (failed + 1)).length = failed + 1 := by simp; omega
  constructor
  · rcases Nat.le_total (failed + 1) m with hm | hm
    · rw [Nat.max_eq_left hm] at hb
      rw [Nat.max_eq_left hm, ← append_assoc, take_left' (by simp [ha, hb]; omega), drop_left' ha]
    · rw [drop_eq_nil_of_le (by simp; omega), drop_eq_nil_of_le (by simp; omega)]
      rfl
  · rw [← append_assoc, drop_left' (by rw [length_append, ha, hb]; omega)]

/-- No answer, or one that another upstream may better. -/
def AttemptAnswer.fails : AttemptAnswer → Bool
  | .failed _ => true
  | .responded status => status = 502 ∨ status = 503
  | .refused => false

namespace RetryState

def failedOn (placement : Placement) (s : RetryState) (entry : Nat × Nat) : Bool :=
  s.tried.any fun attempt => attempt.2.fails && placement.node entry.1 = placement.node attempt.1

/-- The routed candidates behind the first `attempts`. -/
def untriedRouted (plan : DispatchPlan) (attempts : Nat) (s : RetryState) : List (Nat × Nat) :=
  (s.candidates.take (plan.candidates.length - plan.failoverTail)).drop attempts

def untriedTail (plan : DispatchPlan) (attempts : Nat) (s : RetryState) : List (Nat × Nat) :=
  s.candidates.drop (max (plan.candidates.length - plan.failoverTail) attempts)

/-- What an attempt does to the order of the rest. -/
structure Reordered (placement : Placement) (plan : DispatchPlan) (s s' : RetryState) : Prop where
  length : s'.candidates.length = plan.candidates.length
  routed : KeepsBehind (s'.failedOn placement) (s.untriedRouted plan s'.tried.length)
    (s'.untriedRouted plan s'.tried.length)
  tail : KeepsBehind (s'.failedOn placement) (s.untriedTail plan s'.tried.length)
    (s'.untriedTail plan s'.tried.length)

theorem failedOn_next (ht : s'.tried = s.tried ++ [(upstream, answer)]) :
    s'.failedOn placement = fun entry => s.failedOn placement entry ||
      (answer.fails && decide (placement.node entry.1 = placement.node upstream)) := by
  funext entry
  simp [failedOn, ht]

section
variable (h : s.Reordered placement plan s)
include h

theorem Reordered.keep (ht : s'.tried = s.tried ++ [(upstream, answer)]) (ha : answer.fails = false)
    (hc : s'.candidates = s.candidates) : s.Reordered placement plan s' := by
  have hl : s.tried.length ≤ s'.tried.length := by simp [ht]
  have hf : s'.failedOn placement = s.failedOn placement := by
    simp [failedOn_next ht, ha]
  refine ⟨hc ▸ h.length, ?_, ?_⟩
  · simp only [untriedRouted, hc, hf]
    exact ⟨.rfl, h.routed.behind.sublist (drop_sublist_drop_left _ hl), rfl⟩
  · simp only [untriedTail, hc, hf]
    exact ⟨.rfl, h.tail.behind.sublist (drop_sublist_drop_left _ (by omega)), rfl⟩

theorem Reordered.failOver (hg : s.candidates[s.tried.length]? = some (upstream, units))
    (ht : s'.tried = s.tried ++ [(upstream, answer)]) (ha : answer.fails)
    (hc : s'.candidates = failOverFrom placement.node s.candidates plan.failoverTail
      s.tried.length) : s.Reordered placement plan s' := by
  have hl : s'.tried.length = s.tried.length + 1 := by simp [ht]
  obtain ⟨hr, htail⟩ := @failOverFrom_parts placement.node _ plan.failoverTail _ _ _ hg
  rw [h.length, ← hc] at hr htail
  refine ⟨hc ▸ failOverFrom_perm.length_eq.trans h.length, ?_, ?_⟩
  · simp only [untriedRouted, hl, hr, failedOn_next ht, ha, Bool.true_and]
    exact .byKey (h.routed.behind.sublist (drop_sublist_drop_left _ (Nat.le_succ _)))
  · simp only [untriedTail, hl, htail, failedOn_next ht, ha, Bool.true_and]
    exact .byKey (h.tail.behind.sublist (drop_sublist_drop_left _ (by omega)))

theorem Reordered.step (answer : AttemptAnswer) :
    (s.step placement plan reuse answer).selected.isSome = false →
      s.Reordered placement plan (s.step placement plan reuse answer) := by
  simp only [RetryState.step]
  split
  · exact fun _ => h
  rename_i hg
  split
  · exact fun _ => h.keep rfl rfl rfl
  · split
    next hs =>
      exact fun _ => h.failOver hg rfl (by simpa [AttemptAnswer.fails] using hs.1) rfl
    split
    next hs =>
      exact fun _ => h.keep rfl (by simp [AttemptAnswer.fails, hs.1]) rfl
    · rintro ⟨⟩
  · exact fun _ => h.failOver hg rfl rfl rfl

end
end RetryState

namespace Decision
variable {n : Nat} {d : Decision}

theorem sublist_filterMap (f : Nat → Option CandidateState) (l : List Nat) :
    ((l.filterMap fun cand => (f cand).map fun state =>
      (cand, state.requestLoadUnits)).map fst).Sublist l := by
  induction l with
  | nil => exact .slnil
  | cons cand l ih =>
    rw [filterMap_cons]
    cases f cand with
    | none => exact ih.cons _
    | some state => exact ih.cons_cons _

theorem nodup_appendFailover (failover : List Nat) {serving : List (Nat × Nat)}
    (h : (serving.map fst).Nodup) : ((d.appendFailover serving failover).map fst).Nodup := by
  refine foldlRecOn (motive := fun l : List (Nat × Nat) => (l.map fst).Nodup) failover _ h
    fun l hl upstream _ => ?_
  split
  next hn =>
    split
    · rw [map_append, nodup_append_comm, map_singleton, singleton_append, nodup_cons]
      refine ⟨fun hm => ?_, hl⟩
      obtain ⟨entry, he, rfl⟩ := mem_map.1 hm
      simpa using all_eq_true.1 hn entry he
    · exact hl
  · exact hl

theorem Wf.nodup_dispatchPlan (h : d.Wf n) (failover : List Nat) (mayFailOpen : Nat → Bool)
    (routeMaxAttempts : Option Nat) :
    ((d.dispatchPlan failover mayFailOpen routeMaxAttempts).candidates.map fst).Nodup := by
  simp only [dispatchPlan]
  split
  · refine Nodup.sublist ?_ h.nodup_candidates
    rw [failOpenCandidates, map_take]
    exact (take_sublist _ _).trans (sublist_filterMap _ _)
  · exact nodup_appendFailover _ (h.nodup_candidates.sublist (sublist_filterMap _ _))

/-- The loop's discipline: nobody twice, no more attempts than allowed, the tail last, and
behind what else is left to try whatever shares a node with a failed attempt. -/
theorem failover_discipline (h : d.Wf n) (failover : List Nat) (mayFailOpen : Nat → Bool)
    (routeMaxAttempts : Option Nat) (placement : Placement) (reuse : Bool)
    (answers : Nat → AttemptAnswer) :
    let plan := d.dispatchPlan failover mayFailOpen routeMaxAttempts
    let s := plan.retry placement reuse answers
    (s.tried.map fst).Nodup ∧ s.tried.length ≤ plan.attemptLimit ∧
      (∀ (k upstream : Nat) (answer : AttemptAnswer), s.tried[k]? = some (upstream, answer) →
        upstream ∉ ((RetryState.start plan).untriedRouted plan 0).map fst →
        ∀ first ∈ ((RetryState.start plan).untriedRouted plan 0).map fst,
          ∃ (j : Nat) (earlier : AttemptAnswer), j < k ∧ s.tried[j]? = some (first, earlier)) ∧
      ∀ attempts answer,
        let s := RetryState.run placement plan reuse answers attempts (.start plan)
        s.selected.isSome = false → (s.step placement plan reuse answer).selected.isSome = false →
          s.Reordered placement plan (s.step placement plan reuse answer) := by
  intro plan s
  obtain ⟨routed, tail, hp, ht, -⟩ := d.dispatchPlan_parts failover mayFailOpen routeMaxAttempts
  have hi : s.Inv routed tail := (RetryState.Inv.start hp).run ht answers _
  refine ⟨?_, ?_, ?_, ?_⟩
  · obtain ⟨front, back, hs, hf, hb⟩ := hi.parts
    have hnd := h.nodup_dispatchPlan failover mayFailOpen routeMaxAttempts
    rw [hp, ← ((hf.append hb).map _).nodup_iff, ← hs] at hnd
    rw [hi.tried]
    exact hnd.sublist ((take_sublist _ _).map _)
  · have hl := RetryState.length_tried_run placement plan reuse (.start plan) answers
      plan.attemptLimit
    exact hl.trans (Nat.le_of_eq (Nat.zero_add _))
  · have hr : (RetryState.start plan).untriedRouted plan 0 = routed := by
      simp only [RetryState.untriedRouted, RetryState.start, plan, hp, ht]
      simp
    rw [hr]
    exact fun k upstream answer hk hu first hf => hi.routed_first hk hu hf
  · intro attempts answer s hn
    have hs : s.selected.isSome = false → s.Reordered placement plan s := by
      refine RetryState.run_induction
        (P := fun s => s.selected.isSome = false → s.Reordered placement plan s) answers _
        (fun s answer hs h hn => ?_) fun _ => ?_
      · have hr := (h hs).step answer hn
        exact ⟨hr.length, ⟨.rfl, hr.routed.behind, rfl⟩, ⟨.rfl, hr.tail.behind, rfl⟩⟩
      have hb (l : List (Nat × Nat)) : KeepsBehind
          ((RetryState.start plan).failedOn placement) l l :=
        ⟨.rfl, pairwise_of_forall nofun, rfl⟩
      exact ⟨rfl, hb _, hb _⟩
    exact (hs hn).step answer

/-- One routed upstream and a lane of two, of which one shares its node. -/
def lane : Decision := (Router.levelRouted.1.restrictTo [false, false, true]).2

def twoNodes : Placement := ⟨3, fun u => if u = 1 then "b" else "a", fun _ => "engine"⟩

theorem failover_discipline_lane :
    let plan := lane.dispatchPlan [0, 1] (fun _ => false) (some 2)
    let s := plan.retry twoNodes false fun _ => .failed .timeout
    let s₁ := (RetryState.start plan).step twoNodes plan false (.failed .timeout)
    s.tried = [(2, .failed .timeout), (1, .failed .timeout)] ∧ (s.tried.map fst).Nodup ∧
      s.tried.length ≤ plan.attemptLimit ∧
      (∀ first ∈ ((RetryState.start plan).untriedRouted plan 0).map fst,
        ∃ (j : Nat) (earlier : AttemptAnswer), j < 1 ∧ s.tried[j]? = some (first, earlier)) ∧
      (RetryState.start plan).Reordered twoNodes plan s₁ := by
  have hw : lane.Wf 3 := by
    have hl : Router.levelRouted.1.restrictTo [false, false, true] = (true, lane) :=
      Prod.ext (by decide +kernel) rfl
    exact Router.restricted_wf Router.level_routed hl
  intro plan s s₁
  have ht : s.tried = [(2, .failed .timeout), (1, .failed .timeout)] := by decide +kernel
  obtain ⟨hn, hl, hr, ho⟩ := failover_discipline hw [0, 1] (fun _ => false) (some 2) twoNodes false
    fun _ => .failed .timeout
  exact ⟨ht, hn, hl, hr 1 1 (.failed .timeout) (by rw [ht]; rfl) (by decide +kernel),
    ho 0 (.failed .timeout) rfl (by decide +kernel)⟩

/-- The last attempt's 502 is the client's answer: what is left stays in its order. -/
theorem last_failure_keeps_order :
    let plan := Router.levelDecision.dispatchPlan [] (fun _ => false) (some 1)
    let s := plan.retry twoNodes false fun _ => .responded 502
    s.tried = [(2, .responded 502)] ∧
      (s.untriedRouted plan 1).map (fun entry => (entry.1, s.failedOn twoNodes entry)) =
        [(0, true), (1, false)] := by
  decide +kernel

end Decision
end Ramjet
