import Ramjet.IdleDrain

/-!
# Pacing of the idle drain

A tick fences one healthy replica at most, none within the cooldown, and none that the
same observations would bring back.
-/

namespace Ramjet
open Function List
namespace IdleDrainPolicy
section Tick
variable {n : Nat} (config : IdleDrainConfig) (p : IdleDrainPolicy n) (now : Nat)
  (obs : List UpstreamObservation)

/-- The policy after release and resume, before the floor is restored. -/
def released : IdleDrainPolicy n :=
  let p := p.recordUpstreamActivity now obs
  match config.release with
  | .fleetIdle => if p.fleetIdle config now obs then p.advanceDrain config now obs else p.resumeAll
  | .utilization => p.advanceUtilization config now obs

theorem advance_eq :
    p.advance config now obs = restoreWarmFloorLoop config now obs n (p.released config now obs) :=
  rfl

/-- The policy that a release is decided on. -/
def settled : IdleDrainPolicy n := (p.recordUpstreamActivity now obs).promoteDrained config now obs

/-- Why everything is warm again. -/
def Resumes : Prop :=
  match config.release with
  | .fleetIdle => p.fleetIdle config now obs = false
  | .utilization => config.resumeLoadPerReplica ≤ p.loadPerServingReplica obs

/-- Why an upstream may go. -/
structure Releases (target : Fin n) : Prop where
  serving : p.serving obs target
  spaced : p.cooldownElapsed config now
  above : config.effectiveMinWarm < p.warmServingCount obs
  stays : ¬ p.Resumes config now obs
  quiet : config.release = .utilization → obs[target.val]?.any (·.inflight = 0) ∧
    config.upstreamIdleAfter ≤ now - p.idleSinceMs target ∧
    p.projectedLoadAfterRelease obs (p.warmServingCount obs) < config.resumeLoadPerReplica

theorem mem_of_foldl_quieter {l : List (Fin n × Nat)} {best : Option (Fin n × Nat)}
    {x : Fin n × Nat} (h : l.foldl quieter best = some x) : x ∈ l ∨ best = some x := by
  induction l generalizing best with
  | nil => exact .inr h
  | cons a l ih =>
    rcases ih h with hx | hx
    · exact .inl (mem_cons_of_mem _ hx)
    unfold quieter at hx
    split at hx
    · exact .inl (Option.some_inj.1 hx ▸ mem_cons_self)
    split at hx
    · exact .inl (Option.some_inj.1 hx ▸ mem_cons_self)
    · exact .inr hx

theorem selectQuietest_some {target : Fin n} (h : p.selectQuietest config now obs = some target) :
    p.serving obs target ∧ obs[target.val]?.any (·.inflight = 0) ∧
      config.upstreamIdleAfter ≤ now - p.idleSinceMs target := by
  obtain ⟨x, hx, rfl⟩ := Option.map_eq_some_iff.1 h
  rcases mem_of_foldl_quieter hx with hx | hx
  · obtain ⟨hx, hq⟩ := mem_filter.1 hx
    obtain ⟨i, hi, rfl⟩ := mem_map.1 hx
    simp only [mem_filter, Bool.and_eq_true, decide_eq_true_eq] at hi hq
    exact ⟨hi.2.1, hi.2.2, hq⟩
  · cases hx

theorem released_cases : let s := p.settled config now obs
    let r := p.released config now obs
    s.Resumes config now obs ∧ (∀ i, r.states i = .warm) ∧
        (r.lastDrainTransitionMs = p.lastDrainTransitionMs ∨ r.lastDrainTransitionMs = some now) ∨
      ¬ s.Resumes config now obs ∧ r = s ∨
      ∃ target, s.Releases config now obs target ∧ r = s.release now target := by
  intro s r
  cases hr : config.release with
  | fleetIdle =>
    have hs : s.Resumes config now obs ↔
        (p.recordUpstreamActivity now obs).fleetIdle config now obs = false := by
      simp only [Resumes, hr]
      rfl
    simp only [hs, r, released, hr]
    split
    case isFalse hi => exact .inl ⟨by simpa using hi, fun _ => rfl, .inl rfl⟩
    rename_i hi
    simp only [hi, advanceDrain]
    split
    · exact .inr (.inl ⟨by simp, rfl⟩)
    rename_i ha
    split
    · exact .inr (.inl ⟨by simp, rfl⟩)
    rename_i hc
    rw [Bool.not_eq_true', Bool.not_eq_false] at hc
    split
    · exact .inr (.inl ⟨by simp, rfl⟩)
    rename_i target ht
    refine .inr (.inr ⟨target, ⟨find?_some ht, hc, Nat.lt_of_not_le ha, ?_, ?_⟩, rfl⟩)
    · simp [hs, hi]
    · simp [hr]
  | utilization =>
    have hs : s.Resumes config now obs ↔
        config.resumeLoadPerReplica ≤ s.loadPerServingReplica obs := by
      simp only [Resumes, hr]
    simp only [hs, r, released, hr, advanceUtilization]
    split
    case isTrue hl => exact .inl ⟨hl, fun _ => rfl, .inr rfl⟩
    rename_i hl
    split
    · exact .inr (.inl ⟨hl, rfl⟩)
    rename_i ha
    split
    · exact .inr (.inl ⟨hl, rfl⟩)
    rename_i hc
    rw [Bool.not_eq_true', Bool.not_eq_false] at hc
    split
    · exact .inr (.inl ⟨hl, rfl⟩)
    rename_i hp
    split
    · exact .inr (.inl ⟨hl, rfl⟩)
    rename_i target ht
    obtain ⟨hv, hq, hi⟩ := selectQuietest_some _ _ _ _ ht
    refine .inr (.inr ⟨target, ⟨hv, hc, Nat.lt_of_not_le ha, hs.not.2 hl, fun _ => ?_⟩, rfl⟩)
    exact ⟨hq, hi, Nat.lt_of_not_le hp⟩

theorem fenced_settled (i : Fin n) :
    ((p.settled config now obs).states i).fenced = (p.states i).fenced := by
  dsimp only [settled, promoteDrained]
  split
  case isTrue h => exact (congrArg UpstreamDrainState.fenced h.1).symm
  case isFalse => rfl

variable {i : Fin n}

theorem settled_warm : (p.settled config now obs).states i = .warm ↔ p.states i = .warm := by
  have h := fenced_settled config p now obs i
  rw [Bool.eq_iff_iff, fenced_iff, fenced_iff] at h
  exact not_iff_not.1 h

theorem warm_restoreWarmFloorLoop (rounds : Nat) (h : p.states i = .warm) :
    (restoreWarmFloorLoop config now obs rounds p).states i = .warm := by
  induction rounds generalizing p with
  | zero => exact h
  | succ rounds ih =>
    simp only [restoreWarmFloorLoop]
    split
    · exact h
    split
    · exact h
    · exact ih _ (by simp [update_apply, h])

theorem restoreWarmFloorLoop_cases (rounds : Nat) :
    restoreWarmFloorLoop config now obs rounds p = p ∨
      (restoreWarmFloorLoop config now obs rounds p).lastDrainTransitionMs = some now := by
  induction rounds generalizing p with
  | zero => exact .inl rfl
  | succ rounds ih =>
    simp only [restoreWarmFloorLoop]
    split
    · exact .inl rfl
    split
    · exact .inl rfl
    rename_i restore _
    refine .inr ((ih _).elim (fun h => ?_) id)
    rw [h]

/-- A parked upstream is warm again for the floor's sake. -/
def Restores : Prop :=
  config.mode.enabled ∧ ∃ i, (p.released config now obs).states i ≠ .warm ∧
    (p.advance config now obs).states i = .warm

/-- The cooldown runs, from `since` or later. -/
def Paced (since : Nat) : Prop := ∃ last, p.lastDrainTransitionMs = some last ∧ since ≤ last

theorem tick_last (h : ∃ i, (p.tick config now obs).1.states i ≠ .warm) :
    (p.tick config now obs).1.lastDrainTransitionMs =
      (p.advance config now obs).lastDrainTransitionMs := by
  obtain ⟨i, hi⟩ := h
  rw [tick_states] at hi
  split at hi
  next hm =>
    simp only [tick, hm, if_true, decide]
    refine if_neg fun ha => hi ?_
    simpa using all_eq_true.1 ha i (mem_finRange i)
  · exact absurd rfl hi

variable {config p now} {since : Nat}

theorem Paced.tick (h : p.Paced since) (hn : since ≤ now)
    (hw : ∃ i, (p.tick config now obs).1.states i ≠ .warm) :
    (p.tick config now obs).1.Paced since := by
  obtain ⟨last, hl, hs⟩ := h
  rw [Paced, tick_last _ _ _ _ hw, advance_eq]
  rcases restoreWarmFloorLoop_cases config (p.released config now obs) now obs n with hf | hf
  · rw [hf]
    rcases released_cases config p now obs with ⟨-, -, hr | hr⟩ | ⟨-, hr⟩ | ⟨target, -, hr⟩
    · exact ⟨last, hr.trans hl, hs⟩
    · exact ⟨now, hr, hn⟩
    · exact ⟨last, (congrArg lastDrainTransitionMs hr).trans hl, hs⟩
    · exact ⟨now, congrArg lastDrainTransitionMs hr, hn⟩
  · exact ⟨now, hf, hn⟩

theorem Paced.warm (h : p.Paced since) (hn : since ≤ now) (hc : now < since + config.cooldown)
    (hi : p.states i = .warm) : (p.tick config now obs).1.states i = .warm := by
  rw [tick_states]
  split
  · rw [advance_eq]
    refine warm_restoreWarmFloorLoop _ _ _ _ _ ?_
    rcases released_cases config p now obs with ⟨-, hr, -⟩ | ⟨-, hr⟩ | ⟨target, ht, -⟩
    · exact hr i
    · rw [hr]
      exact (settled_warm ..).2 hi
    · obtain ⟨last, hl, hs⟩ := h
      have he := ht.spaced
      rw [cooldownElapsed, show (p.settled config now obs).lastDrainTransitionMs = some last
        from hl, decide_eq_true_eq] at he
      omega
  · rfl

end Tick
end IdleDrainPolicy

/-- What a policy is told. -/
inductive DrainCall where
  | tick (nowMs : Nat) (observations : List UpstreamObservation)
  | activity (nowMs : Nat)

def DrainCall.run {n : Nat} (config : IdleDrainConfig) (p : IdleDrainPolicy n) :
    DrainCall → IdleDrainPolicy n
  | tick nowMs observations => (p.tick config nowMs observations).1
  | activity nowMs => p.observeActivity nowMs

namespace IdleDrainPolicy
variable {n : Nat} {config : IdleDrainConfig} {p : IdleDrainPolicy n} {since : Nat}
  {obs : List UpstreamObservation} {calls : List DrainCall}

theorem Paced.run (h : p.Paced since) (hl : ∀ t o, DrainCall.tick t o ∈ calls → since ≤ t)
    (hw : ∀ before, before <+: calls →
      ∃ i, (before.foldl (DrainCall.run config) p).states i ≠ .warm) :
    (calls.foldl (DrainCall.run config) p).Paced since := by
  induction calls generalizing p with
  | nil => exact h
  | cons call calls ih =>
    refine ih ?_ (fun t o ho => hl t o (mem_cons_of_mem _ ho)) fun before hb =>
      hw (call :: before) ((prefix_cons_inj call).2 hb)
    cases call with
    | tick t o => exact h.tick o (hl t o mem_cons_self) (hw [.tick t o] (by simp))
    | activity t => exact h

/-- After the floor was restored no upstream is fenced before the cooldown is over, as
long as something stays parked. -/
theorem cooldown_after_restore (hrestored : p.Restores config since obs)
    (hlater : ∀ t o, DrainCall.tick t o ∈ calls → since ≤ t)
    (hparked : ∀ before, before <+: calls → ∃ i,
      (before.foldl (DrainCall.run config) (p.tick config since obs).1).states i ≠ .warm)
    {t : Nat} (ht : since ≤ t) (hcooldown : t < since + config.cooldown)
    (later : List UpstreamObservation) (i : Fin n) :
    let q := calls.foldl (DrainCall.run config) (p.tick config since obs).1
    q.states i = .warm → (q.tick config t later).1.states i = .warm := by
  intro q hi
  refine Paced.warm later (Paced.run ?_ hlater hparked) ht hcooldown hi
  obtain ⟨-, j, hj, hw⟩ := hrestored
  refine ⟨since, ?_, Nat.le_refl _⟩
  rw [tick_last _ _ _ _ (hparked [] nil_prefix)]
  rw [advance_eq] at hw ⊢
  rcases restoreWarmFloorLoop_cases config (p.released config since obs) since obs n with hf | hf
  · rw [hf] at hw
    exact absurd hw hj
  · exact hf

/-- One upstream always warm, and nothing waits but the cooldown. -/
def pacedConfig : IdleDrainConfig := ⟨.drain, .fleetIdle, 0, 1, 10, 0, 0, 1⟩

/-- A quiet fleet, the first of it healthy or not. -/
def quiet (first : Bool) : List UpstreamObservation := ⟨first, 0⟩ :: replicate 2 ⟨true, 0⟩

def twoParked : IdleDrainPolicy 3 :=
  [0, 10].foldl (fun p t => (p.tick pacedConfig t (quiet true)).1) (new 0)

theorem cooldown_after_restore_twoParked :
    let q := (twoParked.tick pacedConfig 11 (quiet false)).1
    q.states 1 = .warm ∧ (q.tick pacedConfig 13 (quiet true)).1.states 1 = .warm := by
  have hr : twoParked.Restores pacedConfig 11 (quiet false) :=
    ⟨rfl, 1, by decide +kernel, by decide +kernel⟩
  have hw : (twoParked.tick pacedConfig 11 (quiet false)).1.states 1 = .warm := by
    decide +kernel
  have hp : ∀ before, before <+: ([] : List DrainCall) → ∃ i, (before.foldl
      (DrainCall.run pacedConfig) (twoParked.tick pacedConfig 11 (quiet false)).1).states i ≠
        .warm := by
    intro before h
    cases prefix_nil.1 h
    exact ⟨2, by decide +kernel⟩
  exact ⟨hw, cooldown_after_restore hr (by simp) hp (by decide) (by decide) _ 1 hw⟩

/-- With everything warm again the cooldown is forgotten: a flapping peer has the
upstream drained one tick after it was restored. -/
theorem flapping_peer_redrains :
    let p := ((new 0 : IdleDrainPolicy 2).tick pacedConfig 1 (quiet true)).1
    let q := (p.tick pacedConfig 2 (quiet false)).1
    p.Restores pacedConfig 2 (quiet false) ∧ q.states 1 = .warm ∧
      (q.tick pacedConfig 3 (quiet true)).1.states 1 = .draining ∧
      3 < 2 + pacedConfig.cooldown :=
  ⟨⟨rfl, 1, by decide +kernel⟩, by decide +kernel⟩

section Steady
variable {n : Nat} {config : IdleDrainConfig} {p q : IdleDrainPolicy n} {now t : Nat}
  {obs : List UpstreamObservation}

section
variable (h : ∀ i, (q.states i).fenced = (p.states i).fenced)
include h

theorem warmServingCount_congr : q.warmServingCount obs = p.warmServingCount obs := by
  simp only [warmServingCount]
  congr 1
  funext i
  simp only [serving, h]

theorem resumes_congr (ha : q.lastActivityMs = p.lastActivityMs) :
    q.Resumes config now obs ↔ p.Resumes config now obs := by
  simp only [Resumes, fleetIdle, loadPerServingReplica, servingInflight,
    warmServingCount_congr h, h, ha]

end

theorem fenced_release (target i : Fin n) :
    ((p.release t target).states i).fenced = if i = target then true else (p.states i).fenced := by
  simp only [release, update_apply]
  split <;> rfl

variable {target : Fin n}

theorem warmServingCount_release (h : p.serving obs target) :
    (p.release t target).warmServingCount obs + 1 = p.warmServingCount obs := by
  have hf : ∀ l : List (Fin n), target ∉ l →
      l.countP ((p.release t target).serving obs) = l.countP (p.serving obs) := by
    intro l hl
    refine countP_congr fun i hi => ?_
    simp only [serving, fenced_release, if_neg (ne_of_mem_of_not_mem hi hl)]
  have hd := nodup_finRange n
  obtain ⟨before, after, hs⟩ := append_of_mem (mem_finRange target)
  rw [hs, nodup_middle, nodup_cons, mem_append, not_or] at hd
  have ht : (p.release t target).serving obs target = false := by
    simp only [serving, fenced_release, if_pos, Bool.not_true, Bool.false_and]
  simp only [warmServingCount, hs, countP_append, countP_cons, hf _ hd.1.1, hf _ hd.1.2, h, ht]
  simp only [Bool.false_eq_true, if_false, if_true]
  omega

theorem servingInflight_release (h : obs[target.val]?.any (·.inflight = 0)) :
    (p.release t target).servingInflight obs = p.servingInflight obs := by
  obtain ⟨o, ho, hz⟩ := (Option.any_eq_true _ _).1 h
  rw [decide_eq_true_eq] at hz
  simp only [servingInflight, fenced_release]
  induction finRange n with
  | nil => rfl
  | cons i l ih =>
    by_cases hi : i = target
    · subst hi
      simp only [filter_cons, if_pos, Bool.not_true, Bool.false_eq_true, if_false, ih]
      split
      · simp [ho, hz]
      · rfl
    · simp only [filter_cons, if_neg hi]
      split
      · simp only [filterMap_cons]
        split
        · exact ih
        · simp only [sum_cons, ih]
      · exact ih

/-- Nothing is brought back. -/
structure Steady (config : IdleDrainConfig) (p : IdleDrainPolicy n) (now : Nat)
    (obs : List UpstreamObservation) : Prop where
  enabled : config.mode.enabled
  floor : config.effectiveMinWarm ≤ p.warmServingCount obs
  stays : ¬ p.Resumes config now obs

theorem Steady.later (h : p.Steady config now obs) (ht : now ≤ t) : p.Steady config t obs := by
  refine ⟨h.enabled, h.floor, fun hr => h.stays ?_⟩
  unfold Resumes at hr ⊢
  cases hc : config.release with
  | utilization => simpa only [hc] using hr
  | fleetIdle =>
    simp only [hc, fleetIdle, Bool.and_eq_false_iff, decide_eq_false_iff_not] at hr ⊢
    exact hr.imp_right fun hr => by omega

theorem Releases.steady (h : p.Releases config t obs target) (hm : config.mode.enabled)
    (hs : ¬ p.Resumes config now obs) : (p.release t target).Steady config now obs := by
  have hw := warmServingCount_release (t := t) h.serving
  have ha := h.above
  refine ⟨hm, by omega, fun hr => ?_⟩
  unfold Resumes at hr hs
  cases hc : config.release with
  | fleetIdle =>
    simp only [hc] at hr hs
    exact hs hr
  | utilization =>
    -- What was projected is what is measured.
    obtain ⟨hz, -, hp⟩ := h.quiet hc
    simp only [hc, loadPerServingReplica, servingInflight_release hz] at hr
    rw [projectedLoadAfterRelease, ← hw, Nat.add_sub_cancel] at hp
    omega

theorem Steady.settled (h : p.Steady config now obs) (t : Nat) :
    (p.settled config t obs).Steady config now obs :=
  ⟨h.enabled, (warmServingCount_congr (fenced_settled config p t obs)).symm ▸ h.floor,
    (resumes_congr (fenced_settled config p t obs) rfl).not.2 h.stays⟩

section
variable (h : (p.released config t obs).Steady config now obs)
include h

theorem Steady.advance : p.advance config t obs = p.released config t obs := by
  rw [advance_eq]
  cases n with
  | zero => rfl
  | succ n => exact if_pos h.floor

theorem Steady.of_released : (p.tick config t obs).1.Steady config now obs := by
  simp only [IdleDrainPolicy.tick, h.enabled, if_true, h.advance]
  exact ⟨h.enabled, h.floor, h.stays⟩

end

theorem Steady.tick (h : p.Steady config now obs) (ht : now ≤ t) :
    (p.tick config t obs).1.Steady config now obs ∧
      ∀ i, p.states i ≠ .warm → (p.tick config t obs).1.states i ≠ .warm := by
  have hr : (p.released config t obs).Steady config now obs ∧
      ∀ i, p.states i ≠ .warm → (p.released config t obs).states i ≠ .warm := by
    rcases released_cases config p t obs with ⟨hs, -⟩ | ⟨-, hs⟩ | ⟨target, hg, hs⟩
    · exact absurd hs ((h.later ht).settled t).stays
    · rw [hs]
      exact ⟨h.settled t, fun i => (settled_warm ..).not.2⟩
    · rw [hs]
      refine ⟨hg.steady h.enabled (h.settled t).stays, fun i hi => ?_⟩
      rw [← fenced_iff, fenced_release, fenced_settled, fenced_iff.2 hi, ite_self]
  refine ⟨hr.1.of_released, ?_⟩
  simpa only [tick_states, h.enabled, if_true, hr.1.advance] using hr.2

/-- A tick that drains leaves a steady policy. -/
theorem steady_of_drains {i : Fin n} (hi : p.states i = .warm)
    (h : (p.tick config now obs).1.states i ≠ .warm) :
    (p.tick config now obs).1.Steady config now obs := by
  rw [tick_states] at h
  split at h
  case isFalse => exact absurd rfl h
  rename_i hm
  have hr := fun hw => h (warm_restoreWarmFloorLoop config (p.released config now obs) now obs n hw)
  rcases released_cases config p now obs with ⟨-, hs, -⟩ | ⟨-, hs⟩ | ⟨target, hg, hs⟩
  · exact absurd (hs i) hr
  · exact absurd (hs ▸ (settled_warm ..).2 hi) hr
  · exact Steady.of_released (hs ▸ hg.steady hm hg.stays)

/-- With what was observed when an upstream was drained, none is brought back. -/
theorem drain_not_undone {i : Fin n} (hwarm : p.states i = .warm)
    (hdrained : (p.tick config now obs).1.states i ≠ .warm) {times : List Nat}
    (hlater : ∀ t ∈ times, now ≤ t) (ht : now ≤ t) (j : Fin n) :
    let q := times.foldl (fun q t => (q.tick config t obs).1) (p.tick config now obs).1
    q.states j ≠ .warm → (q.tick config t obs).1.states j ≠ .warm := by
  have hq := foldlRecOn (motive := fun q => Steady config q now obs) times
    (fun q t => (q.tick config t obs).1) (steady_of_drains hwarm hdrained)
    fun q hq t ht => (hq.tick (hlater t ht)).1
  exact (hq.tick ht).2 j

theorem drain_not_undone_new :
    let q := [2].foldl (fun q t => (q.tick pacedConfig t (quiet true)).1)
      ((new 0 : IdleDrainPolicy 2).tick pacedConfig 1 (quiet true)).1
    q.states 1 ≠ .warm ∧ (q.tick pacedConfig 3 (quiet true)).1.states 1 ≠ .warm := by
  have hq : ([2].foldl (fun q t => (q.tick pacedConfig t (quiet true)).1)
      ((new 0 : IdleDrainPolicy 2).tick pacedConfig 1 (quiet true)).1).states 1 ≠
        .warm := by
    decide +kernel
  exact ⟨hq, drain_not_undone (i := 1) rfl (by decide +kernel) (by simp) (by decide) 1 hq⟩

end Steady
end IdleDrainPolicy
end Ramjet
