import Ramjet.FleetRequests

/-!
# Compatibility gate

Under compatibility admission the router's health is never more than the last probe
result, and that never more than the admission; only an upstream's probe raises either.
-/

namespace Ramjet
open Thread FleetThread FleetMemory Function
variable {n : Nat} {cfg : FleetConfig n}

/-- Each flag rests on the one that was written before it. -/
structure FleetMemory.Gated (m : FleetMemory n) : Prop where
  probed : ∀ u, m.healthy u → m.probeHealthy u
  admitted : ∀ u, m.probeHealthy u →
    m.admissionReady u ∧ m.published u = some ⟨true, some .matched⟩

/-- What everybody but the probe of an upstream does to it. -/
structure Withdraws (u : Fin n) (m m' : FleetMemory n) : Prop where
  admissionReady : m'.admissionReady u = m.admissionReady u
  published : m'.published u = m.published u
  probeHealthy : m'.probeHealthy u → m.probeHealthy u
  healthy : m'.healthy u → m.healthy u ∧ m'.probeHealthy u = m.probeHealthy u ∨
    m'.probeHealthy u

def WithdrawsAll (m m' : FleetMemory n) : Prop := ∀ u, Withdraws u m m'

theorem Withdraws.refl (u : Fin n) (m : FleetMemory n) : Withdraws u m m :=
  ⟨rfl, rfl, id, fun h => .inl ⟨h, rfl⟩⟩

variable {m m' : FleetMemory n}

theorem WithdrawsAll.of_eq (hr : m'.admissionReady = m.admissionReady)
    (hb : m'.published = m.published) (hbr : m'.replicas = m.replicas)
    (hh : ∀ u, m'.healthy u = m.healthy u) : WithdrawsAll m m' := by
  intro u
  refine ⟨congrFun hr u, congrFun hb u, ?_, ?_⟩
  · simp only [probeHealthy, hbr, imp_self]
  intro h
  rw [hh u] at h
  exact .inl ⟨h, by simp only [probeHealthy, hbr]⟩

theorem FleetMemory.Gated.withdraws (h : m.Gated) (hm : WithdrawsAll m m') : m'.Gated where
  probed u hu := by
    rcases (hm u).healthy hu with ⟨hold, heq⟩ | hw
    · exact heq.trans (h.probed u hold)
    · exact hw
  admitted u hu := by
    rw [(hm u).admissionReady, (hm u).published]
    exact h.admitted u ((hm u).probeHealthy hu)

theorem WithdrawsAll.settle (h : WithdrawsAll m m') (slot : FleetSlot n) (u : Fin n) :
    WithdrawsAll m (m'.settle slot u) :=
  fun v => ⟨(h v).admissionReady, (h v).published, (h v).probeHealthy, (h v).healthy⟩

section Actions
variable (m : FleetMemory n) (u : Fin n)

theorem withdrawsAll_setHealthy (history : HealthHistory n) :
    WithdrawsAll m { m.setHealthy u false with history } := by
  intro v
  refine ⟨rfl, rfl, id, fun h => .inl ⟨?_, rfl⟩⟩
  change (m.setHealthy u false).healthy v = true at h
  rw [healthy_setHealthy] at h
  split at h
  · cases h
  · exact h

theorem withdrawsAll_publishProbeHealth : WithdrawsAll m (m.publishProbeHealth u false).1 := by
  intro v
  refine ⟨rfl, rfl, ?_, ?_⟩
  · rw [probeHealthy_publishProbeHealth]
    split
    · intro h
      cases h
    · exact id
  · rw [healthy_publishProbeHealth, probeHealthy_publishProbeHealth]
    split
    · intro h
      cases m.publishProbeHealth_le u false h
    · exact fun h => .inl ⟨h, rfl⟩

theorem withdrawsAll_applyGuard (sample : Except ParseFailure DsparkCounters)
    (attested : Option (Bytes 32)) (io : Publication) :
    WithdrawsAll m (m.applyGuard cfg u sample attested io) := by
  intro v
  have hbr := m.probeHealthy_applyGuard u v cfg sample attested io
  refine ⟨rfl, rfl, fun h => hbr ▸ h, fun h => ?_⟩
  rcases m.healthy_applyGuard u v cfg sample attested io h with hold | ⟨rfl, hw⟩
  · exact .inl ⟨hold, hbr⟩
  · exact .inr (hbr.trans hw)

end Actions

theorem WithdrawsAll.of_dispatches (h : Dispatches m m') : WithdrawsAll m m' :=
  .of_eq (by rw [h.frame]) (by rw [h.frame]) (by rw [h.frame]) h.healthy

theorem tolerates_withdrawsAll (hmd : cfg.admission = .compatibility) :
    Tolerates cfg WithdrawsAll where
  refl m u := .refl u m
  warmup _ _ _ _ := .of_eq rfl rfl rfl fun _ => rfl
  announced _ _ _ _ := .of_eq rfl rfl rfl fun _ => rfl
  settled _ _ _ := .of_eq rfl rfl rfl fun _ => rfl
  withheld m _ u := withdrawsAll_setHealthy m u _
  down m slot u := (withdrawsAll_publishProbeHealth m u).settle slot u
  up hh := absurd hmd hh

theorem always_pollDsparkGuard (hmd : cfg.admission = .compatibility) (u : Fin n) :
    Always WithdrawsAll (pollDsparkGuard cfg u) := by
  have h := tolerates_withdrawsAll hmd
  refine h.ask.bind fun sample => h.read.bind fun attested => Always.bind ?_ fun _ => ?_
  · split
    · exact h.read
    · trivial
  · exact Always.atomic fun e m => withdrawsAll_applyGuard m u _ _ _

def GateGuar (i : FleetSlot n) (m m' : FleetMemory n) : Prop :=
  m'.Gated ∧ ∀ v, i ≠ .probe v → Withdraws v m m'

theorem GateGuar.of_withdraws {i : FleetSlot n} (h : m.Gated) (hm : WithdrawsAll m m') :
    GateGuar i m m' :=
  ⟨h.withdraws hm, fun v _ => hm v⟩

theorem requestRule_gate (hmd : cfg.admission = .compatibility) (k : Nat) :
    RequestRule cfg k Gated (fun _ _ => True) (GateGuar (.request k)) fun _ => True where
  aside h := h.meets fun _ _ hg hd => .of_withdraws hg (.of_dispatches hd)
  publish u _ hup :=
    ((tolerates_withdrawsAll hmd).publishUpstreamHealth u hup).meets fun _ _ => .of_withdraws

section Probe
variable {u : Fin n}

def Down (u : Fin n) (m : FleetMemory n) : Prop := m.probeHealthy u = false

def Admitted (u : Fin n) (m : FleetMemory n) : Prop := m.admissionReady u

theorem stable_down : Stable (Withdraws u) (Down u) := by
  intro m m' hdown hm
  by_contra hup
  have hbr := hm.probeHealthy (Bool.eq_true_of_not_eq_false hup)
  rw [hdown] at hbr
  cases hbr

theorem stable_admitted : Stable (Withdraws u) (Admitted u) :=
  fun _ _ ha hm => hm.admissionReady.trans ha

variable {R : FleetMemory n → FleetMemory n → Prop}

theorem stable_true : Stable R fun _ => True :=
  fun _ _ _ _ => trivial

abbrev ProbeMeets (u : Fin n) {α : Type} (t : FleetThread n α) (P : FleetMemory n → Prop)
    (Q : α → FleetMemory n → Prop) : Prop :=
  t.Meets Gated (Withdraws u) (GateGuar (.probe u)) P Q

theorem meets_withdrawing {α : Type} {t : FleetThread n α} (h : t.Always WithdrawsAll)
    {P : FleetMemory n → Prop} (hP : Stable (Withdraws u) P) : ProbeMeets u t P fun _ => P :=
  h.keeps (fun _ _ => GateGuar.of_withdraws) hP fun m m' hs hm => hP m m' hs (hm u)

variable {m : FleetMemory n}

theorem GateGuar.of_own {m' : FleetMemory n} (h : m.Gated)
    (ho : m'.healthy u → m'.probeHealthy u) (ha : m'.probeHealthy u →
      m'.admissionReady u ∧ m'.published u = some ⟨true, some .matched⟩)
    (hoths : ∀ v, v ≠ u → m'.healthy v = m.healthy v ∧ m'.probeHealthy v = m.probeHealthy v ∧
      m'.admissionReady v = m.admissionReady v ∧ m'.published v = m.published v) :
    GateGuar (.probe u) m m' := by
  refine ⟨⟨fun v hv => ?_, fun v hv => ?_⟩, fun v hv => ?_⟩
  · by_cases hu : v = u
    · subst hu
      exact ho hv
    obtain ⟨he, hbr, -⟩ := hoths v hu
    rw [he] at hv
    exact hbr.trans (h.probed v hv)
  · by_cases hu : v = u
    · subst hu
      exact ha hv
    obtain ⟨-, hbr, hr, hb⟩ := hoths v hu
    rw [hbr] at hv
    rw [hr, hb]
    exact h.admitted v hv
  · have hu : v ≠ u := fun heq => hv (heq ▸ rfl)
    obtain ⟨he, hbr, hr, hb⟩ := hoths v hu
    refine ⟨hr, hb, fun hp => hbr ▸ hp, fun hh => ?_⟩
    rw [he] at hh
    exact .inl ⟨hh, hbr⟩

theorem gateGuar_publish (h : m.Gated) {result : ProbeResult}
    (hs : result.passed → m.admissionReady u ∧ result.admission = some .matched) :
    GateGuar (.probe u) m ((m.publishProbeHealth u result.passed).1.setPublished u result) := by
  refine GateGuar.of_own h (fun hh => ?_) (fun hp => ?_) fun v hv => ?_
  · change (m.publishProbeHealth u result.passed).1.healthy u = true at hh
    rw [healthy_publishProbeHealth, if_pos rfl] at hh
    change (m.publishProbeHealth u result.passed).1.probeHealthy u = true
    rw [probeHealthy_publishProbeHealth, if_pos rfl]
    exact m.publishProbeHealth_le u _ hh
  · change (m.publishProbeHealth u result.passed).1.probeHealthy u = true at hp
    rw [probeHealthy_publishProbeHealth, if_pos rfl] at hp
    obtain ⟨hr, hm⟩ := hs hp
    refine ⟨hr, ?_⟩
    obtain ⟨passed, admission⟩ := result
    cases hp
    cases hm
    exact update_self ..
  · refine ⟨?_, ?_, rfl, update_of_ne hv _ _⟩
    · exact (m.healthy_publishProbeHealth u v _).trans (if_neg hv)
    · exact (m.probeHealthy_publishProbeHealth u v _).trans (if_neg hv)

theorem meets_announceProbe (hmd : cfg.admission = .compatibility) {healthy : Bool}
    {P : FleetMemory n → Prop} (hP : Stable (Withdraws u) P) :
    ProbeMeets u (modify (·.announce (.probe u) u healthy)) P fun _ => P :=
  meets_withdrawing (always_modify fun m => (tolerates_withdrawsAll hmd).announced m _ _ _) hP

theorem meets_publish_failed (hmd : cfg.admission = .compatibility)
    (admission : Option CompatibilityAdmission) :
    ProbeMeets u (publishProbedUpstreamHealth cfg u ⟨false, admission⟩) (fun _ => True)
      fun _ => Down u := by
  refine (meets_announceProbe hmd stable_true).bind fun _ =>
    .bind (Q := fun _ => Down u) (.atomic (fun _ => stable_down) ?_) fun underlying =>
      meets_withdrawing ((tolerates_withdrawsAll hmd).publishRest u underlying _) stable_down
  intro _ m hm _
  refine ⟨gateGuar_publish hm nofun, ?_⟩
  exact (m.probeHealthy_publishProbeHealth u u false).trans (if_pos rfl)

theorem meets_publish_passed (hmd : cfg.admission = .compatibility) :
    ProbeMeets u (publishProbedUpstreamHealth cfg u ⟨true, some .matched⟩) (Admitted u)
      fun _ _ => True := by
  refine (meets_announceProbe hmd stable_admitted).bind fun _ =>
    .bind (Q := fun _ _ => True) (.atomic (fun _ => stable_true) ?_) fun underlying =>
      meets_withdrawing ((tolerates_withdrawsAll hmd).publishRest u underlying _) stable_true
  intro _ m hm ha
  exact ⟨gateGuar_publish hm fun _ => ⟨ha, rfl⟩, trivial⟩

theorem gateGuar_setAdmissionReady (h : m.Gated) {ready : Bool} (hr : ready ∨ Down u m) :
    GateGuar (.probe u) m (m.setAdmissionReady u ready) := by
  refine GateGuar.of_own h (h.probed u) (fun hp => ?_) fun v hv => ?_
  · rcases hr with rfl | hdown
    · exact ⟨update_self .., (h.admitted u hp).2⟩
    change m.probeHealthy u = true at hp
    rw [hdown] at hp
    cases hp
  · exact ⟨rfl, rfl, update_of_ne hv _ _, rfl⟩

theorem always_setCommitment (commitment : Option (Bytes 32)) :
    Always WithdrawsAll (modify (·.setCommitment u commitment) : FleetThread n Unit) :=
  always_modify fun _ => .of_eq rfl rfl rfl fun _ => rfl

theorem meets_invalidateAdmission :
    ProbeMeets u (invalidateAdmission cfg u) (Down u) fun _ => Down u := by
  refine meets_when (fun _ => ?_) fun _ _ _ hdown => hdown
  refine .bind (Q := fun _ => Down u) (.atomic (fun _ => stable_down) ?_) fun _ => ?_
  · intro _ m hm hdown
    exact ⟨gateGuar_setAdmissionReady hm (.inr hdown), hdown⟩
  · exact meets_when (fun _ => meets_withdrawing (always_setCommitment none) stable_down)
      fun _ _ _ hdown => hdown

theorem meets_publishAdmission (ha : cfg.attestation) :
    ProbeMeets u (publishAdmission cfg u true) (fun _ => True) fun _ => Admitted u := by
  refine meets_when (fun _ => ?_) fun hn => absurd (hn.symm.trans ha) (by decide)
  refine .bind (Q := fun _ => Admitted u) (.atomic (fun _ => stable_admitted) ?_)
    fun _ => fun _ _ hd => hd
  intro _ m hm _
  exact ⟨gateGuar_setAdmissionReady hm (.inl rfl), update_self ..⟩

/-- Nothing excuses a failed probe here. -/
theorem markProbe_eq (hmd : cfg.admission = .compatibility) (result : ProbeResult)
    (reason : ProbeReason) :
    markProbe cfg u result reason = publishProbedUpstreamHealth cfg u result := by
  have hf : probeFailureIsStarvation cfg u reason = .done false := if_pos (.inl hmd)
  unfold markProbe
  rw [hf, ite_self]
  rfl

theorem meets_failed (hmd : cfg.admission = .compatibility)
    (admission : Option CompatibilityAdmission) (reason : ProbeReason) : ProbeMeets u (do
      markProbe cfg u ⟨false, admission⟩ reason
      invalidateAdmission cfg u) (fun _ => True) fun _ _ => True := by
  rw [markProbe_eq hmd]
  exact (meets_publish_failed hmd admission).bind fun _ =>
    meets_invalidateAdmission.mono_post fun _ _ _ _ => trivial

section
variable (hmd : cfg.admission = .compatibility)
include hmd

theorem meets_matched (ha : cfg.attestation) (healthy : Bool) (reason : ProbeReason) :
    ProbeMeets u (do
      publishAdmission cfg u true
      markProbe cfg u ⟨healthy, some .matched⟩ reason
      when (!healthy) (invalidateAdmission cfg u)) (fun _ => True) fun _ _ => True := by
  rw [markProbe_eq hmd]
  refine (meets_publishAdmission ha).bind fun _ => ?_
  cases healthy with
  | true => exact (meets_publish_passed hmd).bind fun _ => fun _ _ _ => trivial
  | false =>
    refine ((meets_publish_failed hmd _).mono_pre fun _ _ _ => trivial).bind fun _ => ?_
    exact meets_invalidateAdmission.mono_post fun _ _ _ _ => trivial

theorem always_evaluateAdmission : Always WithdrawsAll (evaluateAdmission cfg u) := by
  unfold evaluateAdmission
  split
  · refine (tolerates_withdrawsAll hmd).ask.bind fun reply => ?_
    split
    · exact (always_setCommitment none).bind fun _ => trivial
    · exact (always_setCommitment _).bind fun _ => trivial
  · trivial

theorem meets_admitProbe (healthy : Bool) (reason : ProbeReason) :
    ProbeMeets u (admitProbe cfg u healthy reason) (fun _ => True) fun _ _ => True := by
  by_cases hc : cfg.attestation = true ∧ cfg.servingRuntime = true
  · refine (meets_withdrawing (always_evaluateAdmission hmd) stable_true).bind ?_
    intro compatibility
    cases compatibility with
    | matched => exact meets_matched hmd hc.1 healthy reason
    | mismatch | notConfigured | unavailable => exact meets_failed hmd _ _
  · unfold admitProbe evaluateAdmission
    rw [if_neg hc]
    exact meets_failed hmd _ _

theorem meets_unanswered (reason : ProbeReason) :
    ProbeMeets u (probeWithAdmission.unanswered cfg u reason) (fun _ => True) fun _ _ => True := by
  unfold probeWithAdmission.unanswered when
  rw [if_pos (decide_eq_true hmd)]
  exact meets_failed hmd none reason

theorem meets_withdrawn :
    ProbeMeets u (publishUpstreamHealth cfg (.probe u) u false) (fun _ => True)
      fun _ => Down u := by
  refine (meets_announceProbe hmd stable_true).bind fun _ => (meets_withdrawing
    ((tolerates_withdrawsAll hmd).observeProbe u _ false) stable_true).bind fun _ => ?_
  refine .atomic (fun _ => stable_down) fun _ m hm _ => ⟨?_, ?_⟩
  · exact GateGuar.of_withdraws hm ((withdrawsAll_publishProbeHealth m u).settle _ u)
  · exact (m.probeHealthy_publishProbeHealth u u false).trans (if_pos rfl)

theorem meets_probeWithAdmission (fence : Bool) :
    ProbeMeets u (probeWithAdmission cfg u fence) (fun _ => True) fun _ _ => True := by
  have hs : ¬ cfg.solomon := by
    intro hs
    have hh := cfg.solomon_http hs
    rw [hmd] at hh
    cases hh
  refine .bind (meets_withdrawing (always_modify (f := (·.startProbe u)) fun _ =>
    .of_eq rfl rfl rfl fun _ => rfl) stable_true) fun _ => ?_
  refine .bind (Q := fun _ _ => True) (meets_when (fun _ => ?_) fun _ _ _ _ => trivial)
    fun _ => (meets_withdrawing (tolerates_withdrawsAll hmd).ask stable_true).bind fun reply => ?_
  · refine (meets_withdrawn hmd).bind fun _ => ?_
    exact meets_invalidateAdmission.mono_post fun _ _ _ _ => trivial
  cases reply with
  | body =>
    refine .bind (Q := fun _ _ => True) ?_ fun rank => ?_
    · unfold rankProbe
      rw [if_pos hmd]
      exact fun _ _ _ => trivial
    dsimp only
    rw [if_neg hs]
    refine (meets_withdrawing (tolerates_withdrawsAll hmd).ask stable_true).bind ?_
    intro advertised
    rw [if_pos hmd]
    exact meets_admitProbe hmd _ _
  | tooLarge | status | failed error => exact meets_unanswered hmd _

end
end Probe

def gateSpec (hmd : config.admission = .compatibility) :
    (fleetMachine config).Spec fun _ _ => True where
  inv := Gated
  rely
    | .probe u => Withdraws u
    | _ => fun _ _ => True
  guar := GateGuar
  idle _ _ := True
  init m hm := by
    have hdown : ∀ u, m.probeHealthy u = false := by
      intro u
      obtain ⟨restored, uncertain, hrp⟩ := hm.replicas u
      rw [probeHealthy, hrp, hmd]
      rfl
    refine ⟨⟨fun u hu => ?_, fun u hu => ?_⟩, fun _ => trivial⟩
    · rw [hm.healthy u] at hu
      simp only [GuardReplica.effective, Bool.and_eq_true] at hu
      exact hu.1.1
    · rw [hdown u] at hu
      cases hu
  stable_idle _ _ _ _ _ := trivial
  inv_step _ _ _ _ _ _ hguar := hguar.1
  compatible i j _ m m' hij _ _ hguar := by
    cases j with
    | probe u => exact hguar.2 u hij
    | poll | request | controller => trivial
  meets k := by
    cases k with
    | probe u fence => exact meets_probeWithAdmission hmd fence
    | poll u => exact (always_pollDsparkGuard hmd u).meets fun _ _ => GateGuar.of_withdraws
    | request k r => exact (requestRule_gate hmd k).request r
    | markUpstreamUnavailable u =>
      refine Always.meets (always_modify fun m => withdrawsAll_setHealthy m u _) ?_
      exact fun _ _ => GateGuar.of_withdraws
    | setDrained u drained =>
      refine Always.meets (G := WithdrawsAll) (always_modify fun m => ?_) ?_
      · refine .of_eq rfl rfl rfl fun v => ?_
        simp only [healthy, Router.setDrained, Router.modify]
        split <;> rfl
      · exact fun _ _ => GateGuar.of_withdraws

/-- An upstream that is healthy in the router is recorded as admitted, and the last
result a probe published for it was a pass whose evaluation matched. -/
theorem healthy_only_when_admitted (hmode : config.admission = .compatibility) {s : FleetState n}
    (h : ((fleetMachine config).system fun _ _ => True).Reachable s) (u : Fin n)
    (hhealthy : s.memory.healthy u) :
    s.memory.admissionReady u ∧ s.memory.published u = some ⟨true, some .matched⟩ := by
  have hg := (gateSpec hmode).inv_of_reachable h
  exact hg.admitted u (hg.probed u hhealthy)

namespace SampleGate
open SampleFleet

def moves : List (FleetMove 2) :=
  .start (.probe 0 true) :: run (.probe 0) 12

end SampleGate

open SampleGate SampleFleet in
theorem healthy_only_when_admitted_sample :
    ∃ s, moves.foldlM (fleetMachine gated).next (start gated) = some s ∧
      s.memory.healthy 0 ∧ s.memory.admissionReady 0 ∧
      s.memory.published 0 = some ⟨true, some .matched⟩ := by
  have hu : (moves.foldlM (fleetMachine gated).next (start gated)).any
      (fun s => s.memory.healthy 0) = true := by decide +kernel
  obtain ⟨s, hs, hh⟩ := (Option.any_eq_true _ _).1 hu
  exact ⟨s, hs, hh, healthy_only_when_admitted rfl (reachable (by decide) hs) 0 hh⟩

end Ramjet
