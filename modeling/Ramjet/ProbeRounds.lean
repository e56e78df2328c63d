import Ramjet.FleetRequests

/-!
# Probe rounds

`probe_round` of `proxy.rs` under compatibility admission: a replica that is checked is
withdrawn first, unless it is the last healthy one.
-/

namespace Ramjet
open List
variable {n : Nat}

namespace FleetMemory
variable (m : FleetMemory n)

def serving (u : Fin n) : Bool := (m.router.states u).serving

/-- Some replica is healthy and not drained. -/
def Serves : Prop := ∃ u, m.serving u

def healthyCount : Nat := (finRange n).countP m.healthy

variable {m} {u v : Fin n}

theorem healthy_of_serving (h : m.serving u) : m.healthy u := by
  simp only [serving, UpstreamState.serving, Bool.and_eq_true] at h
  exact h.1

theorem serving_publishProbeHealth (hn : v ≠ u) (healthy : Bool) :
    (m.publishProbeHealth u healthy).1.serving v = m.serving v := by
  have hv : v.val ≠ u.val := fun h => hn (Fin.ext h)
  simp only [serving, publishProbeHealth, Router.setHealthy, Router.modify, if_neg hv]

theorem exists_healthy_ne (hc : 1 < m.healthyCount) (u : Fin n) : ∃ v, v ≠ u ∧ m.healthy v := by
  by_contra hn
  have hl : m.healthyCount ≤ (finRange n).countP (· == u) := by
    refine countP_mono_left fun v _ hv => ?_
    by_contra he
    exact hn ⟨v, by simpa using he, hv⟩
  have ho : (finRange n).countP (· == u) = 1 :=
    count_eq_one_of_mem (nodup_finRange n) (mem_finRange u)
  omega

theorem one_lt_healthyCount (hn : v ≠ u) (hu : m.healthy u) (hv : m.healthy v) :
    1 < m.healthyCount := by
  have hs : [u, v] ⊆ (finRange n).filter m.healthy := by simp [hu, hv]
  have hl := (subperm_of_subset (by simpa using hn.symm) hs).length_le
  rw [healthyCount, countP_eq_length_filter]
  exact hl

end FleetMemory

def maxConcurrentUpstreamProbes : Nat := 8

/-- A round: what is still to be probed of the replicas it found unhealthy and of
those it found healthy, and the checks under way. -/
structure ProbeRound (n : Nat) where
  memory : FleetMemory n
  unhealthy : List (Fin n)
  healthy : List (Fin n)
  running : List (Fin n)

inductive ProbeRoundAction (n : Nat) where
  | probe
  | check
  | finish (u : Fin n) (passed : Bool)

namespace ProbeRound

def start (m : FleetMemory n) : ProbeRound n where
  memory := m
  unhealthy := (finRange n).filter (!m.healthy ·)
  healthy := (finRange n).filter m.healthy
  running := []

/-- `fence_before_check`: all but the last healthy replica. -/
def fencesBeforeCheck (s : ProbeRound n) (u : Fin n) : Bool :=
  !(s.memory.healthyCount ≤ 1 && s.memory.healthy u)

/-- Warmup admission is off under compatibility admission, and what a check tells the
tokenizer is left out. -/
def next (s : ProbeRound n) : ProbeRoundAction n → Option (ProbeRound n)
  | .probe =>
    match s.unhealthy with
    | u :: rest =>
      if s.running.length < maxConcurrentUpstreamProbes then
        some { s with
          memory := (s.memory.publishProbeHealth u false).1
          unhealthy := rest
          running := u :: s.running }
      else none
    | [] => none
  | .check =>
    match s.unhealthy, s.running, s.healthy with
    -- the source reads the count and withdraws in separate lock sections: here nobody else
    -- changes the fleet between the two
    | [], [], u :: rest =>
      some { s with
        memory :=
          if s.fencesBeforeCheck u then (s.memory.publishProbeHealth u false).1 else s.memory
        healthy := rest
        running := [u] }
    | _, _, _ => none
  | .finish u passed =>
    if u ∈ s.running then
      some { s with
        memory := (s.memory.publishProbeHealth u passed).1
        running := s.running.erase u }
    else none

/-- The rounds on every state of a fleet. -/
def system (n : Nat) : TransitionSystem (ProbeRound n) (ProbeRoundAction n) where
  init s := ∃ m, s = start m
  step s action s' := s.next action = some s'

structure Waits (s : ProbeRound n) : Prop where
  nodup : s.unhealthy.Nodup
  idle : ∀ u ∈ s.unhealthy, u ∉ s.running ∧ s.memory.healthy u = false

variable {s s' : ProbeRound n}

theorem Waits.next (h : s.Waits) {action : ProbeRoundAction n}
    (hn : s.next action = some s') : s'.Waits := by
  cases action with
  | probe =>
    simp only [ProbeRound.next] at hn
    split at hn
    next u rest hl =>
      split at hn
      · cases hn
        obtain ⟨ht, hr⟩ := nodup_cons.1 (hl ▸ h.nodup)
        refine ⟨hr, fun v hv => ?_⟩
        have he : v ≠ u := fun heq => ht (heq ▸ hv)
        obtain ⟨hi, hu⟩ := h.idle v (by simp [hl, hv])
        refine ⟨by simp [he, hi], ?_⟩
        rw [FleetMemory.healthy_publishProbeHealth, if_neg he]
        exact hu
      · cases hn
    · cases hn
  | check =>
    simp only [ProbeRound.next] at hn
    split at hn
    next ha _ _ =>
      cases hn
      exact ⟨h.nodup, fun v hv => (by simp [ha] at hv)⟩
    · cases hn
  | finish u passed =>
    simp only [ProbeRound.next] at hn
    split at hn
    next hb =>
      cases hn
      refine ⟨h.nodup, fun v hv => ?_⟩
      obtain ⟨hi, hu⟩ := h.idle v hv
      have he : v ≠ u := fun heq => hi (heq ▸ hb)
      refine ⟨fun hm => hi (mem_of_mem_erase hm), ?_⟩
      rw [FleetMemory.healthy_publishProbeHealth, if_neg he]
      exact hu
    · cases hn

theorem waits_of_reachable (h : (system n).Reachable s) : s.Waits := by
  apply h.invariant
  · rintro _ ⟨m, rfl⟩
    refine ⟨(nodup_finRange n).filter _, fun u hu => ⟨not_mem_nil, ?_⟩⟩
    show m.healthy u = false
    simpa using (mem_filter.1 hu).2
  · exact fun _ _ _ hw hs => hw.next hs

/-- Before the check of a replica: if another one is healthy, another one that is
healthy is not drained. -/
def Spared (s : ProbeRound n) : ProbeRoundAction n → Prop
  | .check => ∀ u rest, s.healthy = u :: rest → (∃ v, v ≠ u ∧ s.memory.healthy v) →
    ∃ v, v ≠ u ∧ s.memory.serving v
  | _ => True

theorem Serves.publish {m : FleetMemory n} {u v : Fin n} (hv : m.serving v) (hn : v ≠ u) :
    (m.publishProbeHealth u false).1.Serves :=
  ⟨v, (FleetMemory.serving_publishProbeHealth hn false).trans hv⟩

/-- In every probe round on every fleet with a replica that is healthy and not drained:
a withdrawal at the start of a check leaves one exactly if the healthy others, when there
are any, were not all drained. -/
theorem last_admitted_kept (h : (system n).Reachable s) {action : ProbeRoundAction n}
    (hnext : s.next action = some s') (hwithdraws : ∀ u passed, action ≠ .finish u passed)
    (hserves : s.memory.Serves) : s'.memory.Serves ↔ s.Spared action := by
  obtain ⟨v, hv⟩ := hserves
  have hh := FleetMemory.healthy_of_serving hv
  cases action with
  | finish u passed => exact absurd rfl (hwithdraws u passed)
  | probe =>
    simp only [next] at hnext
    split at hnext
    next u rest hl =>
      split at hnext
      · cases hnext
        refine iff_of_true (Serves.publish hv ?_) trivial
        rintro rfl
        have hu := ((waits_of_reachable h).idle v (by simp [hl])).2
        rw [hh] at hu
        cases hu
      · cases hnext
    · cases hnext
  | check =>
    simp only [next] at hnext
    split at hnext
    next u rest ha hi hl =>
      cases hnext
      simp only [Spared, hl, cons.injEq]
      split
      next hf =>
        constructor
        · rintro ⟨w, hw⟩ _ _ ⟨rfl, rfl⟩ -
          -- who serves after the withdrawal is another one
          have hn : w ≠ u := by
            rintro rfl
            have hu := FleetMemory.healthy_of_serving hw
            rw [FleetMemory.healthy_publishProbeHealth, if_pos rfl] at hu
            cases hu
          exact ⟨w, hn, (FleetMemory.serving_publishProbeHealth hn false).symm.trans hw⟩
        · intro hspared
          by_cases hn : v = u
          · subst hn
            -- it is healthy, so the count has seen another one
            have hc : 1 < s.memory.healthyCount := by
              simpa [fencesBeforeCheck, hh] using hf
            obtain ⟨w, hw, hs⟩ :=
              hspared v rest ⟨rfl, rfl⟩ (FleetMemory.exists_healthy_ne hc v)
            exact Serves.publish hs hw
          · exact Serves.publish hv hn
      next hf =>
        refine iff_of_true ⟨v, hv⟩ ?_
        rintro _ _ ⟨rfl, rfl⟩ ⟨w, hn, hw⟩
        simp only [fencesBeforeCheck, Bool.not_eq_true, Bool.not_eq_false', Bool.and_eq_true,
          decide_eq_true_eq] at hf
        exact absurd (FleetMemory.one_lt_healthyCount hn hf.2 hw) (Nat.not_lt.2 hf.1)
    · cases hnext

/-- Both replicas are healthy, and the second one is drained or not. -/
def sampleMemory (drained : Bool) : FleetMemory 2 :=
  { SampleFleet.memory SampleFleet.gated with
    router := ⟨fun u => ⟨⟨1024, []⟩, fun _ => none, 0, 0, true, u.val = 1 && drained⟩, 0⟩ }

/-- The second of two healthy replicas is drained: the count takes it for a spare,
and the check of the first one leaves nobody to serve. -/
theorem last_admitted_withdrawn :
    ∃ s s', (system 2).Reachable s ∧ s.next .check = some s' ∧ s.memory.Serves ∧
      ¬ s'.memory.Serves := by
  refine ⟨start (sampleMemory true), _, .init ⟨_, rfl⟩, rfl, ⟨0, rfl⟩, ?_⟩
  rintro ⟨u, hu⟩
  revert u
  decide

theorem last_admitted_kept_sample :
    ∃ s', (start (sampleMemory false)).next .check = some s' ∧ s'.memory.Serves := by
  have hs : (start (sampleMemory false)).Spared .check :=
    fun u rest hl _ => ⟨1, (by rintro rfl; cases hl), rfl⟩
  exact ⟨_, rfl, (last_admitted_kept (.init ⟨_, rfl⟩) rfl (by simp) ⟨0, rfl⟩).2 hs⟩

end ProbeRound
end Ramjet
