import Ramjet.DrainPacing

/-!
# What the drain's timers say

`idle_drain.rs` keeps two instants for each upstream. Over a run from the start they say
since when no tick has seen a request on it.
-/

namespace Ramjet

open List Function

def DrainCall.tickMs : DrainCall → Option Nat
  | tick nowMs _ => some nowMs
  | activity _ => none

namespace IdleDrainPolicy

variable {n : Nat} {config : IdleDrainConfig} {p : IdleDrainPolicy n} {now start : Nat}
  {obs : List UpstreamObservation} {calls : List DrainCall} {i : Fin n}

theorem restoreWarmFloorLoop_frame (config : IdleDrainConfig) (now : Nat)
    (obs : List UpstreamObservation) (rounds : Nat) (p : IdleDrainPolicy n) :
    let r := restoreWarmFloorLoop config now obs rounds p
    r.idleSinceMs = p.idleSinceMs ∧ r.busySinceMs = p.busySinceMs ∧
      ∀ i, r.states i = .warm ∨ r.states i = p.states i := by
  induction rounds generalizing p with
  | zero => exact ⟨rfl, rfl, fun _ => .inr rfl⟩
  | succ rounds ih =>
    simp only [restoreWarmFloorLoop]
    split
    · exact ⟨rfl, rfl, fun _ => .inr rfl⟩
    split
    · exact ⟨rfl, rfl, fun _ => .inr rfl⟩
    rename_i restore _
    obtain ⟨hi, hb, hs⟩ := ih { p with
      states := update p.states restore .warm
      lastDrainTransitionMs := some now }
    refine ⟨hi, hb, fun i => ?_⟩
    grind [update_apply]

def Waits (config : IdleDrainConfig) (now : Nat) (obs : List UpstreamObservation) (i : Fin n)
    (p q : IdleDrainPolicy n) : Prop :=
  (p.states i = .warm ∨ 0 < observedInflight obs i) ∧ q.states i = .draining ∧
      q.busySinceMs i = now ∨
    p.states i = .draining ∧ observedInflight obs i = 0 ∧
      (q.states i = .draining ∧ q.busySinceMs i = p.busySinceMs i ∨
        q.states i = .drained ∧ config.drainGrace ≤ now - p.busySinceMs i) ∨
    p.states i = .drained ∧ q.states i = .drained

theorem settled_waits (h : (p.settled config now obs).states i ≠ .warm) :
    Waits config now obs i p (p.settled config now obs) := by
  have hs : p.states i = .draining ∨ p.states i = .drained := by
    have hw := (settled_warm ..).not.1 h
    cases hs : p.states i <;> simp_all
  simp only [Waits, settled, promoteDrained, recordUpstreamActivity]
  grind

theorem enabled_of_tick (h : (p.tick config now obs).1.states i ≠ .warm) : config.mode.enabled := by
  by_contra hm
  exact h (by rw [tick_states, if_neg hm])

theorem tick_eq_released (p : IdleDrainPolicy n) (now : Nat) (obs : List UpstreamObservation)
    (hm : config.mode.enabled) :
    let q := (p.tick config now obs).1
    let r := p.released config now obs
    q.idleSinceMs = r.idleSinceMs ∧ q.busySinceMs = r.busySinceMs ∧
      ∀ i, q.states i = .warm ∨ q.states i = r.states i := by
  rw [tick, if_pos hm]
  exact restoreWarmFloorLoop_frame config now obs n (p.released config now obs)

theorem tick_waits (h : (p.tick config now obs).1.states i ≠ .warm) :
    Waits config now obs i p (p.tick config now obs).1 := by
  obtain ⟨-, hb, hs⟩ := tick_eq_released p now obs (enabled_of_tick h)
  have hs := (hs i).resolve_left h
  rw [hs] at h
  rw [Waits, hs, hb]
  rcases released_cases config p now obs with ⟨-, ha, -⟩ | ⟨-, he⟩ | ⟨target, hd, he⟩
  · exact absurd (ha i) h
  · rw [he] at h ⊢
    exact settled_waits h
  · rw [he] at h ⊢
    by_cases hi : i = target
    · subst hi
      have hw : (p.settled config now obs).states i = .warm := by
        by_contra hn
        have hs := hd.serving
        simp [serving, fenced_iff.2 hn] at hs
      exact .inl ⟨.inl ((settled_warm ..).1 hw), update_self .., update_self ..⟩
    · simp only [release, update_of_ne hi] at h ⊢
      exact settled_waits h

theorem tick_releases (hw : p.states i = .warm) (h : (p.tick config now obs).1.states i ≠ .warm) :
    (p.settled config now obs).Releases config now obs i ∧
      p.released config now obs = (p.settled config now obs).release now i := by
  rw [((tick_eq_released _ _ _ (enabled_of_tick h)).2.2 i).resolve_left h] at h
  have hs := (settled_warm config p now obs).2 hw
  rcases released_cases config p now obs with ⟨-, ha, -⟩ | ⟨-, he⟩ | ⟨target, hd, he⟩
  · exact absurd (ha i) h
  · exact absurd (he ▸ hs) h
  · obtain rfl : i = target := by
      by_contra hi
      rw [he] at h
      exact h ((update_of_ne hi ..).trans hs)
    exact ⟨hd, he⟩

def after (config : IdleDrainConfig) (start : Nat) (calls : List DrainCall) : IdleDrainPolicy n :=
  calls.foldl (DrainCall.run config) (new start)

theorem after_concat (call : DrainCall) :
    (after config start (calls ++ [call]) : IdleDrainPolicy n) =
      call.run config (after config start calls) := by
  simp [after]

/-! ## Quiet upstreams -/

theorem released_idleSinceMs : (p.released config now obs).idleSinceMs =
      (p.recordUpstreamActivity now obs).idleSinceMs := by
  simp only [released, advanceDrain, advanceUtilization]
  repeat' split
  all_goals rfl

theorem le_of_ordered {t : Nat} {o : List UpstreamObservation}
    (ho : ((calls ++ [DrainCall.tick now obs]).filterMap DrainCall.tickMs).Pairwise (· ≤ ·))
    (hc : .tick t o ∈ calls ++ [DrainCall.tick now obs]) : t ≤ now := by
  rw [filterMap_append, pairwise_append] at ho
  rcases mem_append.1 hc with hc | hc
  · exact ho.2.2 t (mem_filterMap.2 ⟨_, hc, rfl⟩) now (by simp [DrainCall.tickMs])
  · cases mem_singleton.1 hc
    exact le_rfl

theorem le_idleSinceMs (hm : config.mode.enabled)
    (ho : (calls.filterMap DrainCall.tickMs).Pairwise (· ≤ ·)) {t : Nat}
    {o : List UpstreamObservation} (hc : .tick t o ∈ calls) (hi : 0 < observedInflight o i) :
    t ≤ (after config start calls : IdleDrainPolicy n).idleSinceMs i := by
  induction calls using List.reverseRecOn with
  | nil => cases hc
  | append_singleton calls call ih =>
    have ih := ih (ho.sublist ((sublist_append_left ..).filterMap _))
    rw [after_concat]
    cases call with
    | activity _ => exact ih (by simpa using hc)
    | tick now obs =>
      have hn := le_of_ordered ho hc
      rw [DrainCall.run, (tick_eq_released _ _ _ hm).1, released_idleSinceMs]
      simp only [recordUpstreamActivity]
      split
      · exact hn
      next hz =>
        rcases mem_append.1 hc with hc | hc
        · exact ih hc
        · cases mem_singleton.1 hc
          exact absurd hi hz

/-- In every run with ticks in the order of their times, a tick leaves the floor of the
healthy upstreams unfenced and fences at most one more. That one is healthy, and under
utilization release no tick has seen a request on it for `upstreamIdleAfter`. -/
theorem drains_one_idle_upstream (config : IdleDrainConfig) (start : Nat)
    (calls : List DrainCall) (now : Nat) (obs : List UpstreamObservation)
    (hordered : ((calls ++ [DrainCall.tick now obs]).filterMap DrainCall.tickMs).Pairwise (· ≤ ·)) :
    let p : IdleDrainPolicy n := after config start calls
    let q := (p.tick config now obs).1
    min config.effectiveMinWarm (healthyCount n obs) ≤ q.warmServingCount obs ∧
      ∀ i, p.states i = .warm → q.states i ≠ .warm → observedHealthy obs i ∧
        (∀ j, p.states j = .warm → q.states j ≠ .warm → j = i) ∧
        (config.release = .utilization → ∀ t o, .tick t o ∈ calls ++ [DrainCall.tick now obs] →
          0 < observedInflight o i → t + config.upstreamIdleAfter ≤ now) := by
  intro p q
  refine ⟨tick_floor, fun i hw hf => ?_⟩
  obtain ⟨hd, he⟩ := tick_releases hw hf
  refine ⟨(Bool.and_eq_true _ _ ▸ hd.serving).2, ?_, ?_⟩
  · intro j hj hg
    by_contra hn
    have hs := congrArg (fun r => r.states j) (he.symm.trans (tick_releases hj hg).2)
    simp only [release, update_self, update_of_ne hn] at hs
    cases hs.symm.trans ((settled_warm ..).2 hj)
  · intro hu t o hc hi
    have hm := enabled_of_tick hf
    have ht : t ≤ (after config start (calls ++ [.tick now obs]) :
        IdleDrainPolicy n).idleSinceMs i := le_idleSinceMs hm hordered hc hi
    rw [after_concat, DrainCall.run, (tick_eq_released _ _ _ hm).1, released_idleSinceMs] at ht
    have hq := (hd.quiet hu).2.1
    have hn := le_of_ordered hordered hc
    simp only [settled, promoteDrained, p] at hq
    omega

theorem drains_one_idle_upstream_quiet :
    let config := { pacedConfig with release := .utilization, upstreamIdleAfter := 4 }
    ((after config 0 [.tick 1 (replicate 3 ⟨true, 1⟩)] : IdleDrainPolicy 3).tick config 5
      (quiet true)).1.states 2 ≠ .warm ∧ 1 + config.upstreamIdleAfter ≤ 5 := by
  intro config
  have hq : ((after config 0 [.tick 1 (replicate 3 ⟨true, 1⟩)] : IdleDrainPolicy 3).tick config 5
      (quiet true)).1.states 2 ≠ .warm := by
    decide +kernel
  obtain ⟨-, -, hi⟩ := (drains_one_idle_upstream config 0 _ 5 _ (by decide)).2 2
    (by decide +kernel) hq
  exact ⟨hq, hi rfl 1 _ mem_cons_self (by decide)⟩

/-! ## The grace period -/

structure Watched (config : IdleDrainConfig) (start : Nat) (i : Fin n) (since : Nat)
    (calls first during rest : List DrainCall) : Prop where
  split : calls = first ++ (during ++ rest)
  began : ∃ before o, first = before ++ [.tick since o] ∧
    ((after config start before : IdleDrainPolicy n).states i = .warm ∨ 0 < observedInflight o i)
  quiet : ∀ t o, .tick t o ∈ during → observedInflight o i = 0
  fenced : ∀ more, more <+: during ++ rest →
    (after config start (first ++ more) : IdleDrainPolicy n).states i ≠ .warm

section

variable {since : Nat} {first during rest : List DrainCall} {call : DrainCall}
  (hf : (after config start (calls ++ [call]) : IdleDrainPolicy n).states i ≠ .warm)
include hf

theorem Watched.fresh (hc : call = .tick now obs)
    (hb : (after config start calls : IdleDrainPolicy n).states i = .warm ∨
      0 < observedInflight obs i) :
    Watched config start i now (calls ++ [call]) (calls ++ [call]) [] [] where
  split := by simp
  began := ⟨calls, obs, by rw [hc], hb⟩
  quiet _ _ hm := by cases hm
  fenced more hm := by
    rw [prefix_nil.1 hm, append_nil]
    exact hf

theorem Watched.later (h : Watched config start i since calls first during rest) :
    Watched config start i since (calls ++ [call]) first during (rest ++ [call]) where
  split := by simp [h.split]
  began := h.began
  quiet := h.quiet
  fenced more hm := by
    rw [← append_assoc, prefix_concat_iff] at hm
    rcases hm with rfl | hm
    · rw [h.split, append_assoc] at hf
      exact hf
    · exact h.fenced more hm

theorem Watched.longer (h : Watched config start i since calls first during [])
    (hq : ∀ t o, call = .tick t o → observedInflight o i = 0) :
    Watched config start i since (calls ++ [call]) first (during ++ [call]) [] := by
  have hl := h.later hf
  refine ⟨by simpa using hl.split, h.began, ?_, by simpa using hl.fenced⟩
  intro t o hm
  rcases mem_append.1 hm with hm | hm
  · exact h.quiet t o hm
  · exact hq t o (mem_singleton.1 hm).symm

end

/-- The upstream was fenced and without requests for the grace period. -/
def Graced (config : IdleDrainConfig) (start : Nat) (i : Fin n) (calls : List DrainCall) : Prop :=
  ∃ since first during rest till o, Watched config start i since calls first during rest ∧
    .tick till o ∈ during ∧ config.drainGrace ≤ till - since

theorem watched_after {p : IdleDrainPolicy n} (hp : p = after config start calls)
    (hf : p.states i ≠ .warm) :
    p.states i = .draining ∧
        (∃ first during, Watched config start i (p.busySinceMs i) calls first during []) ∨
      p.states i = .drained ∧ Graced config start i calls := by
  induction calls using List.reverseRecOn generalizing p with
  | nil => exact absurd (congrArg (fun p => p.states i) hp) hf
  | append_singleton calls call ih =>
    have hw := hp ▸ hf
    rw [after_concat] at hp
    subst hp
    have later : Graced config start i calls → Graced config start i (calls ++ [call]) := by
      rintro ⟨since, first, during, rest, till, o, h, hg⟩
      exact ⟨since, first, during, _, till, o, h.later hw, hg⟩
    cases call with
    | activity t =>
      rcases ih rfl hf with ⟨hs, first, during, hd⟩ | ⟨hs, hg⟩
      · exact .inl ⟨hs, first, _, hd.longer hw (by rintro t o ⟨⟩)⟩
      · exact .inr ⟨hs, later hg⟩
    | tick now obs =>
      rcases tick_waits hf with ⟨hn, hs, hb⟩ | ⟨hs, hi, h⟩ | ⟨hs, hd⟩
      · exact .inl ⟨hs, _, _, .fresh hw (congrArg (DrainCall.tick · obs) hb.symm) hn⟩
      · rcases ih rfl (by simp [hs]) with ⟨-, first, during, hd⟩ | ⟨hd, -⟩
        · have hl := hd.longer hw (by rintro t o ⟨⟩; exact hi)
          rcases h with ⟨hs, hb⟩ | ⟨hs, hg⟩
          · exact .inl ⟨hs, first, _, hb ▸ hl⟩
          · exact .inr ⟨hs, _, first, _, [], now, obs, hl, by simp, hg⟩
        · cases hs.symm.trans hd
      · rcases ih rfl (by simp [hs]) with ⟨hn, -⟩ | ⟨-, hg⟩
        · cases hs.symm.trans hn
        · exact .inr ⟨hd, later hg⟩

end IdleDrainPolicy

end Ramjet
