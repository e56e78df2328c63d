import Ramjet.FleetRequests

/-!
# Failing open past a fence

A request that finds nothing healthy checks the fences once, then tries one candidate
after the other; a reservation looks at the drain fence again, at quarantine and
admission not.
-/

namespace Ramjet
open Thread FleetThread List FleetMemory GuardReplica Function Prod
variable {n : Nat} {c : FleetConfig n}

/-- The fences of an upstream, other than its drain. -/
structure SameFences (v : Fin n) (m m' : FleetMemory n) : Prop where
  quarantined : (m'.replicas v).guard.quarantined = (m.replicas v).guard.quarantined
  durableFence : (m'.replicas v).durableFence = (m.replicas v).durableFence
  admissionReady : m'.admissionReady v = m.admissionReady v

variable {m m' : FleetMemory n}

theorem SameFences.of_eq {v : Fin n} (hrp : m'.replicas = m.replicas)
    (hr : m'.admissionReady = m.admissionReady) : SameFences v m m' :=
  ⟨by rw [hrp], by rw [hrp], by rw [hr]⟩

theorem SameFences.quarantined_eq {u : Nat} (h : ∀ v : Fin n, v = u → SameFences v m m') :
    m'.quarantined u = m.quarantined u := by
  unfold FleetMemory.quarantined
  split
  next hl =>
    have hs := h ⟨u, hl⟩ rfl
    simp only [status, GuardReplica.fenced, hs.quarantined, hs.durableFence]
  · rfl

theorem SameFences.attested_eq {u : Nat} (h : ∀ v : Fin n, v = u → SameFences v m m') :
    m'.attested c u = m.attested c u := by
  unfold attested
  split
  next hl =>
    simp only [compatibilityAttested, (h ⟨u, hl⟩ rfl).admissionReady]
  · rfl

theorem SameFences.settle {v : Fin n} (h : SameFences v m m') (slot : FleetSlot n) (u : Fin n) :
    SameFences v m (m'.settle slot u) :=
  ⟨h.quarantined, h.durableFence, h.admissionReady⟩

/-- Nothing but health, load and bookkeeping has changed. -/
structure KeepsFences (m m' : FleetMemory n) : Prop where
  awaited : m'.awaited = m.awaited
  failOpens : m'.failOpens = m.failOpens
  fences : ∀ v, SameFences v m m'

theorem KeepsFences.of_serves (h : Serves m m') : KeepsFences m m' :=
  ⟨h.awaited, h.failOpens, fun _ => .of_eq (by rw [h.frame]) (by rw [h.frame])⟩

theorem sameFences_publishProbeHealth (m : FleetMemory n) (u v : Fin n) (healthy : Bool) :
    SameFences v m (m.publishProbeHealth u healthy).1 := by
  by_cases hu : v = u
  · subst hu
    constructor <;> simp [publishProbeHealth]
  · constructor <;> simp [publishProbeHealth, update_of_ne hu]

theorem tolerates_keepsFences (c : FleetConfig n) : Tolerates c KeepsFences where
  refl _ := ⟨rfl, rfl, fun _ => .of_eq rfl rfl⟩
  warmup _ _ _ _ := ⟨rfl, rfl, fun _ => .of_eq rfl rfl⟩
  announced _ _ _ _ := ⟨rfl, rfl, fun _ => .of_eq rfl rfl⟩
  settled _ _ _ := ⟨rfl, rfl, fun _ => .of_eq rfl rfl⟩
  withheld _ _ _ := ⟨rfl, rfl, fun _ => .of_eq rfl rfl⟩
  down m slot u := ⟨rfl, rfl, fun v => (sameFences_publishProbeHealth m u v false).settle slot u⟩
  up _ m slot u := ⟨rfl, rfl, fun v => (sameFences_publishProbeHealth m u v true).settle slot u⟩

structure KeepsOthers (u : Fin n) (m m' : FleetMemory n) : Prop where
  awaited : m'.awaited = m.awaited
  failOpens : m'.failOpens = m.failOpens
  fences : ∀ v, v ≠ u → SameFences v m m'

theorem KeepsFences.others (h : KeepsFences m m') (u : Fin n) : KeepsOthers u m m' :=
  ⟨h.awaited, h.failOpens, fun v _ => h.fences v⟩

section Own
variable (u : Fin n) {α : Type}

theorem always_others {t : FleetThread n α} (h : t.Always KeepsFences) :
    t.Always (KeepsOthers u) :=
  h.mono fun _ _ hm => hm.others u

theorem others_ask {f : FleetAnswers → α} : Always (KeepsOthers u) (ask f : FleetThread n α) :=
  always_others u (.atomic fun _ _ => ⟨rfl, rfl, fun _ => .of_eq rfl rfl⟩)

theorem others_read {f : FleetMemory n → α} :
    Always (KeepsOthers u) (read f : FleetThread n α) :=
  always_others u (.atomic fun _ _ => ⟨rfl, rfl, fun _ => .of_eq rfl rfl⟩)

theorem KeepsOthers.of_examines {u : Fin n} (h : Examines u m m') : KeepsOthers u m m' := by
  have hf : m'.awaited = m.awaited ∧ m'.failOpens = m.failOpens ∧ m'.replicas = m.replicas := by
    rw [h.frame]
    exact ⟨rfl, rfl, rfl⟩
  refine ⟨hf.1, hf.2.1, fun v hv => ⟨?_, ?_, h.others v hv⟩⟩
  · rw [hf.2.2]
  · rw [hf.2.2]

theorem others_publishProbed (result : ProbeResult) :
    Always (KeepsOthers u) (publishProbedUpstreamHealth c u result) := by
  have h := tolerates_keepsFences c
  refine .bind (always_others u (always_modify fun m => h.announced m _ _ _)) fun _ =>
    .bind (.atomic fun _ m => ⟨rfl, rfl, fun v _ => ?_⟩) fun underlying =>
    always_others u (h.publishRest u _ _)
  obtain ⟨hq, hf, hr⟩ := sameFences_publishProbeHealth m u v result.passed
  exact ⟨hq, hf, hr⟩

theorem others_pollDsparkGuard : Always (KeepsOthers u) (pollDsparkGuard c u) := by
  refine (others_ask u).bind fun sample => (others_read u).bind fun attested =>
    .bind ?_ fun _ => ?_
  · split
    · exact others_read u
    · trivial
  · refine .atomic fun e m => ⟨rfl, rfl, fun v hv => ?_⟩
    constructor <;> simp [applyGuard, update_of_ne hv]

end Own

/-- What `may_fail_open` looks at, other than the drain. -/
def Safe (config : FleetConfig n) (u : Nat) (m : FleetMemory n) : Prop :=
  m.quarantined u = false ∧ (config.admission = .compatibility → m.attested config u = some true)

theorem Safe.of_same {u : Nat} (h : Safe c u m) (hm : ∀ v : Fin n, v = u → SameFences v m m') :
    Safe c u m' := by
  unfold Safe
  rw [SameFences.quarantined_eq hm, SameFences.attested_eq hm]
  exact h

theorem Safe.fences {u : Nat} (h : Safe c u m) :
    (m.fences c u).quarantined = false ∧ (m.fences c u).durablyFenced = false ∧
      (c.admission = .compatibility → (m.fences c u).attested = some true) := by
  obtain ⟨hq, ha⟩ := h
  unfold quarantined at hq
  split at hq
  next hl =>
    simp only [status, GuardReplica.fenced, Bool.or_eq_false_iff] at hq
    simp only [FleetMemory.fences, hl, dite_true]
    exact ⟨hq.1, hq.2, ha⟩
  · cases hq

def FleetMemory.FailedOpenSafely (config : FleetConfig n) (m : FleetMemory n) : Prop :=
  ∀ d ∈ m.failOpens, d.quarantined = false ∧ d.durablyFenced = false ∧
    (config.admission = .compatibility → d.attested = some true)

def RequestRely (k : Nat) (m m' : FleetMemory n) : Prop :=
  m'.awaited k = m.awaited k ∧ ∀ v : Fin n, v.val ∈ m.awaited k → SameFences v m m'

def FailOpenGuar (config : FleetConfig n) (i : FleetSlot n) (m m' : FleetMemory n) : Prop :=
  m'.FailedOpenSafely config ∧ (∀ k, i ≠ .request k → m'.awaited k = m.awaited k) ∧
    ∀ v, i ≠ .probe v → i ≠ .poll v → SameFences v m m'

theorem FailOpenGuar.of_keeps {i : FleetSlot n} (h : m.FailedOpenSafely c)
    (hm : KeepsFences m m') : FailOpenGuar c i m m' := by
  refine ⟨?_, fun k _ => by rw [hm.awaited], fun v _ _ => hm.fences v⟩
  intro d hd
  rw [hm.failOpens] at hd
  exact h d hd

section Request
variable {k : Nat} (config : FleetConfig n)

/-- Upstreams that the request may try, all of them without a fence. -/
def Holding (k : Nat) (upstreams : List Nat) (m : FleetMemory n) : Prop :=
  ∀ u ∈ upstreams, u ∈ m.awaited k ∧ Safe config u m

variable {upstreams : List Nat}

theorem stable_holding : Stable (RequestRely k) (Holding c k upstreams) := by
  intro m m' hm hr u hu
  obtain ⟨ha, hs⟩ := hm u hu
  rw [hr.1]
  exact ⟨ha, hs.of_same fun v hv => hr.2 v (hv ▸ ha)⟩

theorem stable_holding_keeps : Stable KeepsFences (Holding c k upstreams) := by
  intro m m' hm hk u hu
  obtain ⟨ha, hs⟩ := hm u hu
  rw [hk.awaited]
  exact ⟨ha, hs.of_same fun v _ => hk.fences v⟩

theorem meets_keeping {α : Type} {t : FleetThread n α} (h : t.Always KeepsFences)
    (upstreams : List Nat) : t.Meets (FailedOpenSafely c) (RequestRely k)
      (FailOpenGuar c (.request k)) (Holding c k upstreams) fun _ => Holding c k upstreams :=
  h.keeps (fun _ _ => FailOpenGuar.of_keeps) stable_holding stable_holding_keeps

theorem answerRule_failOpen (upstreams : List Nat) : AnswerRule c k (FailedOpenSafely c)
    (RequestRely k) (FailOpenGuar c (.request k)) (Holding c k upstreams) where
  serve h := meets_keeping (h.mono fun _ _ => .of_serves) upstreams
  publish u _ hup := meets_keeping ((tolerates_keepsFences c).publishUpstreamHealth u hup) upstreams

variable {m : FleetMemory n}

theorem failOpenGuar_setAwaited (h : m.FailedOpenSafely c) (upstreams : List Nat) :
    FailOpenGuar c (.request k) m (m.setAwaited k upstreams) := by
  refine ⟨h, fun j hj => ?_, fun v _ _ => .of_eq rfl rfl⟩
  exact update_of_ne (fun heq => hj (by rw [heq])) _ _

theorem holding_setAwaited {list : List Nat} (h : Holding c k upstreams m)
    (hs : ∀ u ∈ upstreams, u ∈ list) : Holding c k upstreams (m.setAwaited k list) := by
  intro u hu
  refine ⟨?_, (h u hu).2.of_same fun v _ => .of_eq rfl rfl⟩
  simpa [setAwaited] using hs u hu

def Checking (k : Nat) (found : List Nat) (u : Nat) (quarantined : Bool)
    (m : FleetMemory n) : Prop :=
  Holding config k found m ∧ u ∈ m.awaited k ∧ (quarantined = false → m.quarantined u = false)

variable {found : List Nat} {entry : Nat × Nat}

theorem stable_checking {u : Nat} {quarantined : Bool} :
    Stable (RequestRely k) (Checking c k found u quarantined) := by
  intro m m' hm hr
  obtain ⟨hh, ha, hf⟩ := hm
  refine ⟨stable_holding m m' hh hr, hr.1 ▸ ha, fun hq => ?_⟩
  rw [SameFences.quarantined_eq fun v hv => hr.2 v (hv ▸ ha)]
  exact hf hq

theorem Checking.pass {u : Nat} (h : Checking c k found u false m)
    (ha : c.admission = .compatibility → m.attested c u = some true) :
    Holding c k (found ++ [u]) m := by
  intro v hv
  rcases mem_append.1 hv with hf | hl
  · exact h.1 v hf
  · obtain rfl := mem_singleton.1 hl
    exact ⟨h.2.1, h.2.2 rfl, ha⟩

theorem failOpenGuar_refl {i : FleetSlot n} (h : m.FailedOpenSafely c) : FailOpenGuar c i m m :=
  ⟨h, fun _ _ => rfl, fun _ _ _ => .of_eq rfl rfl⟩

theorem meets_mayFailOpen (found : List Nat) (u : Nat) :
    (mayFailOpen c k found u).Meets (FailedOpenSafely c)
      (RequestRely k) (FailOpenGuar c (.request k)) (Holding c k found)
      fun may => Holding c k (if may then found ++ [u] else found) := by
  refine .bind (Q := fun _ => Checking c k found u true)
    (.atomic (fun _ => stable_checking) fun _ m hm hh => ?_) fun drained => ?_
  · refine ⟨failOpenGuar_setAwaited hm _, ?_, ?_, nofun⟩
    · exact holding_setAwaited hh fun v hv => mem_append_left _ hv
    · simp [setAwaited]
  split
  · exact fun m _ hm => hm.1
  refine .bind (Q := Checking c k found u) (.atomic (fun _ => stable_checking)
    fun _ m hm hc => ?_) fun quarantined => ?_
  · exact ⟨failOpenGuar_refl hm, hc.1, hc.2.1, id⟩
  split
  · exact fun m _ hm => hm.1
  rename_i hf
  obtain rfl : quarantined = false := Bool.eq_false_of_not_eq_true hf
  split
  · refine .bind (Q := fun attested m => Checking c k found u false m ∧
      (attested = some true → m.attested c u = some true))
      (.atomic (fun attested m m' hm hr => ?_) fun _ m hm hc => ?_)
      fun attested => ?_
    · refine ⟨stable_checking m m' hm.1 hr, fun ha => ?_⟩
      rw [SameFences.attested_eq fun v hv => hr.2 v (hv ▸ hm.1.2.1)]
      exact hm.2 ha
    · exact ⟨failOpenGuar_refl hm, hc, id⟩
    · intro m _ hm
      split
      next ha =>
        exact hm.1.pass fun _ => hm.2 (of_decide_eq_true ha)
      · exact hm.1.1
  next hmd =>
    exact fun m _ hm => hm.pass fun h => absurd h hmd

theorem meets_failOpenCandidates (d : Decision) (candidates : List Nat) (limit : Nat)
    (found : List (Nat × Nat)) : (failOpenCandidates c k d candidates limit found).Meets
      (FailedOpenSafely c) (RequestRely k) (FailOpenGuar c (.request k))
      (Holding c k (found.map fst)) fun found => Holding c k (found.map fst) := by
  fun_induction failOpenCandidates with
  | case1 | case2 => exact fun m _ hm => hm
  | case3 _ _ _ _ _ ih => exact ih
  | case4 candidate rest limit found state hs ih ih' =>
    have hx : state.index = candidate := by
      simpa [Decision.stateOf] using find?_some hs
    refine (meets_mayFailOpen _ _).bind fun may => ?_
    split
    · refine ih.mono_pre fun m _ hm => ?_
      rw [map_append]
      exact hx ▸ hm
    · exact ih'

theorem mem_drop_failOverFrom {node : Nat → String} {candidates : List (Nat × Nat)}
    {tail failed : Nat} (h : entry ∈ (failOverFrom node candidates tail failed).drop (failed + 1)) :
    entry ∈ candidates.drop (failed + 1) := by
  unfold failOverFrom at h
  split at h
  · exact h
  rename_i up units hg
  have hl : failed < candidates.length := (List.getElem?_eq_some_iff.1 hg).1
  rw [drop_left' (by simp; omega)] at h
  rcases mem_append.1 h with hfr | hb
  · rw [(StableSort.byKey_perm _ _).mem_iff, drop_take] at hfr
    exact mem_of_mem_take hfr
  · rw [(StableSort.byKey_perm _ _).mem_iff] at hb
    exact drop_subset_drop_left _ (le_max_right _ _) hb

theorem mem_drop_step {placement : Placement} {plan : DispatchPlan} {reuse : Bool} {s : RetryState}
    {answer : AttemptAnswer} {cand units : Nat}
    (hg : s.candidates[s.tried.length]? = some (cand, units))
    (h : entry ∈ (s.step placement plan reuse answer).candidates.drop
      (s.step placement plan reuse answer).tried.length) :
    entry ∈ s.candidates.drop (s.tried.length + 1) := by
  have hl : (s.tried ++ [(cand, answer)]).length = s.tried.length + 1 :=
    length_append
  simp only [RetryState.step, hg] at h
  split at h
  · rwa [hl] at h
  · split at h
    · rw [hl] at h
      exact mem_drop_failOverFrom h
    · split at h <;> rwa [hl] at h
  · rw [hl] at h
    exact mem_drop_failOverFrom h

theorem failOpenGuar_acquire (h : m.FailedOpenSafely c) {u units : Nat}
    (hs : Safe c u m) (rest : List Nat) :
    FailOpenGuar c (.request k) m (m.acquireForDispatch c k u units true rest).1 := by
  have ha := failOpenGuar_setAwaited (k := k) h rest
  simp only [acquireForDispatch, if_true]
  split
  · refine ⟨fun d hd => ?_, ha.2.1, fun v _ _ => .of_eq rfl rfl⟩
    rcases mem_cons.1 hd with rfl | hold
    · exact hs.fences
    · exact h d hold
  · exact ha

theorem holding_acquire {u units : Nat} {rest : List Nat} (h : Holding c k rest m) :
    Holding c k rest (m.acquireForDispatch c k u units true rest).1 := by
  have ha := holding_setAwaited h fun _ hu => hu
  simp only [acquireForDispatch, if_true]
  split
  · exact ha
  · exact ha

theorem meets_attempts_failingOpen (reuse : Bool) (plan : DispatchPlan)
    (hp : plan.failingOpen) (remaining : Nat) (s : RetryState) :
    (attempts c k reuse plan remaining s).Meets (FailedOpenSafely c)
      (RequestRely k) (FailOpenGuar c (.request k))
      (Holding c k ((s.candidates.drop s.tried.length).map fst)) fun _ _ => True := by
  induction remaining generalizing s with
  | zero => exact fun _ _ _ => trivial
  | succ remaining ih =>
    unfold attempts
    split
    · exact fun _ _ _ => trivial
    rename_i cand units hg
    generalize hr : (s.candidates.drop (s.tried.length + 1)).map fst = rest
    have hd : (s.candidates.drop s.tried.length).map fst = cand :: rest := by
      obtain ⟨hl, hc⟩ := List.getElem?_eq_some_iff.1 hg
      rw [drop_eq_getElem_cons hl, hc, map_cons, hr]
    rw [hd, hp]
    refine .bind (Q := fun _ => Holding c k rest)
      (.atomic (fun _ => stable_holding) fun _ m hm hh => ?_) fun acquired => ?_
    · have hs := (hh cand mem_cons_self).2
      refine ⟨failOpenGuar_acquire hm hs rest, holding_acquire fun u hu => ?_⟩
      exact hh u (mem_cons_of_mem _ hu)
    refine (meets_keeping ?_ rest).bind fun answer =>
      ((answerRule_failOpen rest).settle ..).bind fun _ => ?_
    · split
      · exact (tolerates_keepsFences c).ask
      · trivial
    dsimp only
    split
    · exact fun _ _ _ => trivial
    refine (ih _).mono_pre fun m _ hm u hu => ?_
    obtain ⟨entry, he, rfl⟩ := mem_map.1 hu
    refine hm _ ?_
    rw [← hr]
    exact mem_map_of_mem (mem_drop_step hg he)

theorem meets_request (r : FleetRequest n) :
    (request c k r).Meets (FailedOpenSafely c) (RequestRely k)
      (FailOpenGuar c (.request k)) (fun _ => True) fun _ _ => True := by
  have h := tolerates_keepsFences c
  have hn : ∀ m : FleetMemory n, Holding c k [] m := nofun
  refine .bind ((meets_keeping h.read []).mono_pre fun m _ _ => hn m) fun decision => ?_
  dsimp only
  split
  · refine (meets_failOpenCandidates decision _ _ []).bind fun candidates => ?_
    refine .bind (Q := fun _ => Holding c k (candidates.map fst))
      (.atomic (fun _ => stable_holding) fun _ m hm hh => ?_) fun _ => ?_
    · exact ⟨failOpenGuar_setAwaited hm _, holding_setAwaited hh fun _ hu => hu⟩
    refine (meets_attempts_failingOpen r.reuse _ rfl _ _).bind fun _ => ?_
    refine .atomic (fun _ _ _ _ _ => trivial) fun _ m hm _ => ?_
    exact ⟨failOpenGuar_setAwaited hm _, trivial⟩
  · refine Meets.mono_post (AnswerRule.attempts (answerRule_failOpen []) (fun _ _ _ => ?_) ..)
      fun _ _ _ _ => trivial
    exact (answerRule_failOpen []).serve (.atomic fun _ m => Serves.acquire m ..)

end Request

/-- No probe and no guard round of an upstream takes a step while a request that fails
open has it on its list. -/
def LeavesAwaited (m : FleetMemory n) : FleetMove n → Prop
  | .run (.probe u) _ | .run (.poll u) _ => ∀ k, u.val ∉ m.awaited k
  | _ => True

theorem FailOpenGuar.of_others {i : FleetSlot n} {u : Fin n} (hi : i = .probe u ∨ i = .poll u)
    (h : m.FailedOpenSafely c) (hk : KeepsOthers u m m') : FailOpenGuar c i m m' := by
  refine ⟨fun d hd => h d (hk.failOpens ▸ hd), fun k _ => by rw [hk.awaited], fun v hb hp => ?_⟩
  refine hk.fences v fun heq => ?_
  subst heq
  rcases hi with rfl | rfl
  · exact hb rfl
  · exact hp rfl

theorem probeRule_failOpen (u : Fin n) : ProbeRule c u (FailedOpenSafely c) (fun _ _ => True)
    (FailOpenGuar c (.probe u)) fun _ => True where
  aside h := h.meets fun _ _ hm he => .of_others (.inl rfl) hm (.of_examines he)
  withdraw := ((tolerates_keepsFences c).publishUpstreamHealth u (by rintro ⟨⟩)).meets
    fun _ _ => .of_keeps
  publish result := (others_publishProbed u result).meets fun _ _ => .of_others (.inl rfl)

def failOpenSpec (config : FleetConfig n) : (fleetMachine config).Spec LeavesAwaited where
  inv := FailedOpenSafely config
  rely
    | .request k => RequestRely k
    | _ => fun _ _ => True
  guar := FailOpenGuar config
  idle _ _ := True
  init m hm := by
    refine ⟨fun d hd => ?_, fun _ => trivial⟩
    rw [hm.failOpens] at hd
    cases hd
  stable_idle _ _ _ _ _ := trivial
  inv_step _ _ _ _ _ _ hguar := hguar.1
  compatible i j e m m' hij _ hC hguar := by
    cases j with
    | request k =>
      refine ⟨hguar.2.1 k hij, fun v hv => hguar.2.2 v ?_ ?_⟩
      · rintro rfl
        exact hC k hv
      · rintro rfl
        exact hC k hv
    | probe | poll | controller => trivial
  meets code := by
    cases code with
    | probe u fence => exact (probeRule_failOpen u).probeWithAdmission fence
    | poll u => exact (others_pollDsparkGuard u).meets fun _ _ => .of_others (.inr rfl)
    | request k r => exact meets_request r
    | markUpstreamUnavailable u =>
      refine Always.meets (G := KeepsFences) (always_modify fun m => ?_) fun _ _ => .of_keeps
      exact ⟨rfl, rfl, fun _ => .of_eq rfl rfl⟩
    | setDrained u drained =>
      refine Always.meets (G := KeepsFences) (always_modify fun m => ?_) fun _ _ => .of_keeps
      exact ⟨rfl, rfl, fun _ => .of_eq rfl rfl⟩

/-- A request that fails open reserves load on no upstream that is quarantined, durably
fenced or, under compatibility admission, not attested: in every run in which an upstream
is neither probed nor polled while such a request has it on its list. -/
theorem fail_open_respects_fences {s : FleetState n}
    (h : ((fleetMachine config).system LeavesAwaited).Reachable s) :
    ∀ d ∈ s.memory.failOpens, d.quarantined = false ∧ d.durablyFenced = false ∧
      (config.admission = .compatibility → d.attested = some true) :=
  (failOpenSpec config).inv_of_reachable h

namespace SampleFailOpen
open SampleFleet

/-- Both upstreams are admitted and a request fails on both. -/
def failed : List (FleetMove 2) :=
  .start (.probe 0 true) :: run (.probe 0) 13 ++ .start (.probe 1 true) :: run (.probe 1) 13 ++
    .start (.request 0 request) :: run (.request 0) 11

/-- A second request then fails open to both of them. -/
def undisturbed : List (FleetMove 2) :=
  failed ++ .start (.request 1 request) :: run (.request 1) 14

def overtaken : List (FleetMove 2) :=
  failed ++ .start (.request 1 request) :: run (.request 1) 10 ++
    .start (.probe 0 true) :: run (.probe 0) 4 ++ run (.request 1) 4

def leaves (m : FleetMemory 2) : FleetMove 2 → Bool
  | .run (.probe u) _ | .run (.poll u) _ => u.val ∉ m.awaited 0 ∧ u.val ∉ m.awaited 1
  | .run (.request k) _ => k < 2
  | _ => true

theorem reachable_of_leaves {c : FleetConfig 2} {s : FleetState 2}
    (h : ((fleetMachine c).system fun m move => leaves m move).Reachable s) :
    ((fleetMachine c).system LeavesAwaited).Reachable s ∧
      ∀ k, 2 ≤ k → s.memory.awaited k = [] := by
  induction h with
  | init hs => exact ⟨.init hs, fun k _ => hs.1.awaited k⟩
  | @step s s' move _ hsp ih =>
    obtain ⟨hr, ha⟩ := ih
    obtain ⟨hl, hn⟩ := hsp
    have hall : ∀ u : Fin 2, u.val ∉ s.memory.awaited 0 ∧ u.val ∉ s.memory.awaited 1 →
        ∀ k, u.val ∉ s.memory.awaited k := by
      rintro u ⟨h0, h1⟩ (_ | _ | k)
      · exact h0
      · exact h1
      · rw [ha (k + 2) (Nat.le_add_left 2 k)]
        exact not_mem_nil
    have hC : LeavesAwaited s.memory move := by
      cases move with
      | start code => trivial
      | run slot answer =>
        cases slot with
        | probe u | poll u => exact hall u (of_decide_eq_true hl)
        | request k | controller => trivial
    refine ⟨.step hr ⟨hC, hn⟩, fun k hk => ?_⟩
    cases move with
    | start code => exact Machine.memory_of_start hn ▸ ha k hk
    | run slot answer =>
      have hg := (failOpenSpec c).guar_of_run ((failOpenSpec c).holds hr) hn
      rw [hg.2.1 k, ha k hk]
      rintro rfl
      exact absurd (of_decide_eq_true hl) (Nat.not_lt.2 hk)

end SampleFailOpen

open SampleFailOpen SampleFleet in
theorem fail_open_respects_fences_sample :
    ∃ s, undisturbed.foldlM (guarded leaves gated) (start gated) = some s ∧
      s.memory.failOpens.map (·.attested) = [some true, some true] ∧
      ∀ d ∈ s.memory.failOpens, d.quarantined = false ∧ d.durablyFenced = false ∧
        d.attested = some true := by
  have hu : (undisturbed.foldlM (guarded leaves gated) (start gated)).any
      (fun s => s.memory.failOpens.map (·.attested) = [some true, some true]) = true := by
    decide +kernel
  obtain ⟨s, hs, hl⟩ := (Option.any_eq_true _ _).1 hu
  refine ⟨s, hs, of_decide_eq_true hl, fun d hd => ?_⟩
  have hr := (reachable_of_leaves (reachable_guarded (by decide) hs)).1
  obtain ⟨hq, hf, ha⟩ := fail_open_respects_fences hr d hd
  exact ⟨hq, hf, ha rfl⟩

open SampleFailOpen SampleFleet in
/-- The last attempt reserves load on an upstream that is not attested any more. -/
theorem fail_open_past_withdrawn_admission :
    ∃ s, ((fleetMachine gated).system fun _ _ => True).Reachable s ∧
      ∃ d ∈ s.memory.failOpens, d.attested = some false :=
  (fleetMachine gated).exists_reachable _ overtaken _ (initial (by decide))
    (by decide +kernel)

end Ramjet
