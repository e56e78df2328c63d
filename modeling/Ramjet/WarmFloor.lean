import Ramjet.DrainPacing
import Ramjet.SleepSafety

/-!
# Warm floor

The policy counts the healthy upstreams it leaves warm; the router withholds those
outside the topology or not believed awake.
-/

namespace Ramjet
open Thread ParkingThread ParkingMemory List IdleDrainPolicy Function
variable {n : Nat}

namespace IdleDrainPolicy
variable {config : IdleDrainConfig} {p : IdleDrainPolicy n} {now : Nat}
  {obs : List UpstreamObservation}

theorem restoreWarmFloorLoop_eq {rounds : Nat}
    (h : config.effectiveMinWarm ≤ p.warmServingCount obs) :
    restoreWarmFloorLoop config now obs rounds p = p := by
  cases rounds with
  | zero => rfl
  | succ rounds => exact if_pos h

theorem tick_warm (now : Nat) (hm : config.mode.enabled)
    (hf : config.effectiveMinWarm ≤ p.warmServingCount obs) :
    (∀ i, (p.tick config now obs).1.states i = .warm) ∨
      ∀ i, (p.tick config now obs).1.states i = .warm → p.states i = .warm := by
  simp only [tick_states, hm, if_true, advance_eq]
  have hc : (p.settled config now obs).warmServingCount obs = p.warmServingCount obs :=
    warmServingCount_congr (fenced_settled config p now obs)
  rcases released_cases config p now obs with ⟨-, hw, -⟩ | ⟨-, heq⟩ | ⟨target, hr, heq⟩
  · exact .inl fun i => warm_restoreWarmFloorLoop config _ now obs n (hw i)
  · refine .inr fun i hi => ?_
    rw [heq, restoreWarmFloorLoop_eq (hc ▸ hf)] at hi
    exact (settled_warm config p now obs).1 hi
  · refine .inr fun i hi => ?_
    have hs := warmServingCount_release (t := now) hr.serving
    have ha := hr.above
    rw [heq, restoreWarmFloorLoop_eq (by omega)] at hi
    simp only [release, update_apply] at hi
    split at hi
    · cases hi
    · exact (settled_warm config p now obs).1 hi

end IdleDrainPolicy

section Floor
variable (config : ParkingConfig n)

namespace ParkingMemory
variable (m : ParkingMemory n)

def healthyUpstreams : Nat := (finRange n).countP m.healthy

/-- The decision leaves it warm, and nothing else withholds it from the router. -/
def spared (u : Fin n) : Bool :=
  m.healthy u && !(m.intents u).fenced && !(m.intents u).safeToStop && m.topologyActive u &&
    decide (m.parkState config u = .awake)

/-- What the decision spares reaches the floor. -/
def Floored : Prop :=
  min config.idleDrain.minWarm m.healthyUpstreams ≤ (finRange n).countP (m.spared config)

/-- Before a decision: no healthy upstream is withheld for another reason than the
policy's, or none that the policy holds warm, and those reach the floor. -/
def FloorReady : Prop :=
  (∀ u, m.healthy u → m.topologyActive u ∧ m.parkState config u = .awake) ∨
    (∀ u, m.healthy u → m.policy.states u = .warm →
      m.topologyActive u ∧ m.parkState config u = .awake) ∧
    config.idleDrain.effectiveMinWarm ≤
      (finRange n).countP fun u => m.healthy u && decide (m.policy.states u = .warm)

end ParkingMemory

/-- While a round is under way neither health nor the topology changes, and the state it
decides on is ready. -/
def KeepsRounds (m : ParkingMemory n) : ParkingMove n → Prop
  | .run .drainer _ => m.round = .sampling → m.FloorReady config
  | .run .health _ | .run .topology _ => m.round = .idle
  | _ => True

variable {config} {m m' : ParkingMemory n}

theorem spared_iff {u : Fin n} : m.spared config u ↔ m.healthy u ∧ (m.intents u).fenced = false ∧
    (m.intents u).safeToStop = false ∧ m.topologyActive u ∧ m.parkState config u = .awake := by
  simp [spared, and_assoc]

/-- A decision spares what it leaves warm and the router would take. -/
theorem spared_tick {nowMs : Nat} {u : Fin n} (hh : m.healthy u) (ha : m.topologyActive u)
    (hp : m.parkState config u = .awake)
    (hw : (m.tick config nowMs).policy.states u = .warm) :
    (m.tick config nowMs).spared config u := by
  have hi : (m.tick config nowMs).intents u = .warm := by
    have h : (m.tick config nowMs).intents u =
        (m.tick config nowMs).policy.intent config.idleDrain (ofFn m.samples) u :=
      congrFun tick_upstreams u
    rw [h, intent, if_pos hw]
  rw [spared_iff, hi]
  exact ⟨hh, rfl, rfl, ha, hp⟩

theorem floored_tick (hm : config.idleDrain.mode.enabled)
    (hs : ∀ u, (m.samples u).healthy = m.healthy u) (hr : m.FloorReady config) (nowMs : Nat) :
    (m.tick config nowMs).Floored config := by
  let obs := ofFn m.samples
  have ho : ∀ u : Fin n, observedHealthy obs u = m.healthy u := by
    intro u
    simp [observedHealthy, obs, hs]
  have hc : healthyCount n obs = m.healthyUpstreams := by
    simp only [healthyCount, healthyUpstreams, ho]
  have hl : config.idleDrain.minWarm ≤ config.idleDrain.effectiveMinWarm := le_max_left _ _
  -- What serves afterwards reaches the floor, so it is enough that all of it is spared.
  have hd : (∀ u, m.healthy u → (m.tick config nowMs).policy.states u = .warm →
      m.topologyActive u ∧ m.parkState config u = .awake) →
      (m.tick config nowMs).Floored config := by
    intro hw
    have hf : min config.idleDrain.effectiveMinWarm (healthyCount n obs) ≤
        (m.tick config nowMs).policy.warmServingCount obs := tick_floor
    rw [hc] at hf
    refine ((min_le_min_right _ hl).trans hf).trans (countP_mono_left fun u _ hu => ?_)
    simp only [serving, ho, Bool.and_eq_true, Bool.not_eq_true'] at hu
    have ht : (m.tick config nowMs).policy.states u = .warm := by
      by_contra hn
      rw [fenced_iff.2 hn] at hu
      cases hu.1
    obtain ⟨ha, hp⟩ := hw u hu.2 ht
    exact spared_tick hu.2 ha hp ht
  rcases hr with hall | ⟨hw, hf⟩
  · exact hd fun u hu _ => hall u hu
  have hq : config.idleDrain.effectiveMinWarm ≤ m.policy.warmServingCount obs := by
    refine hf.trans (countP_mono_left fun u _ hu => ?_)
    simp only [Bool.and_eq_true, decide_eq_true_eq] at hu
    simp [serving, ho, hu.1, hu.2, UpstreamDrainState.fenced]
  rcases tick_warm nowMs hm hq with hall | hk
  · refine ((min_le_left _ _).trans (hl.trans hf)).trans (countP_mono_left fun u _ hu => ?_)
    simp only [Bool.and_eq_true, decide_eq_true_eq] at hu
    obtain ⟨ha, hp⟩ := hw u hu.1 hu.2
    exact spared_tick hu.1 ha hp (hall u)
  · exact hd fun u hu ht => hw u hu (hk u ht)

/-! ## Rounds -/

structure FloorRely (m m' : ParkingMemory n) : Prop where
  round : m'.round = m.round
  kept : m'.kept = m.kept
  samples : m'.samples = m.samples
  intents : m'.intents = m.intents
  park : m'.actuation.park = m.actuation.park
  actions : m'.actuation.actions = m.actuation.actions
  shown : m.round ≠ .idle → m'.healthy = m.healthy ∧ m'.topologyActive = m.topologyActive ∧
    m'.drained = m.drained

variable (config)

structure KeepsFloor (m m' : ParkingMemory n) : Prop where
  kept : m.kept → m'.kept
  decided : m'.round = .settling → m.round = .sampling ∧ (m.FloorReady config → m'.Floored config) ∨
    m.round = .settling ∧ (m.Floored config → m'.Floored config)

def FloorInvariant (m : ParkingMemory n) : Prop :=
  m.kept ∧ (m.round = .settling → m.Floored config)

structure Decided (planned : Bool) (m : ParkingMemory n) : Prop where
  round : m.round = .settling
  unacted : planned → ∀ u, m.spared config u → m.actuation.actions u = none

/-- The router takes what the decision spares. -/
def Unfenced (m : ParkingMemory n) : Prop := ∀ u, m.spared config u → m.drained u = false

variable {config}

theorem FloorRely.spared (h : FloorRely m m') (hr : m.round = .settling) (u : Fin n) :
    m'.spared config u = m.spared config u := by
  obtain ⟨hh, ht, -⟩ := h.shown (by rw [hr]; decide)
  have hp : m'.parkState config u = m.parkState config u := by
    simp only [parkState, h.park]
  simp only [ParkingMemory.spared, hh, ht, h.intents, hp]

variable {planned : Bool}

theorem Decided.stable : Stable FloorRely (Decided config planned) := by
  intro m m' hm hr
  refine ⟨hr.round.trans hm.round, fun hp u hu => ?_⟩
  rw [hr.spared hm.round] at hu
  rw [hr.actions]
  exact hm.unacted hp u hu

theorem Unfenced.stable :
    Stable FloorRely fun m => Decided config planned m ∧ Unfenced config m := by
  intro m m' hm hr
  refine ⟨Decided.stable m m' hm.1 hr, fun u hu => ?_⟩
  rw [hr.spared hm.1.round] at hu
  rw [(hr.shown (by rw [hm.1.round]; decide)).2.2]
  exact hm.2 u hu

theorem keepsFloor_of_eq (h : m.round = .settling) (hk : m'.kept = m.kept)
    (hf : m.Floored config → m'.Floored config) : KeepsFloor config m m' :=
  ⟨fun h => hk.trans h, fun _ => .inr ⟨h, hf⟩⟩

theorem Decided.setAuthority (h : Decided config planned m) (authority : Option AuthorityOwner) :
    Decided config planned { m with authority } :=
  ⟨h.round, h.unacted⟩

theorem routingFenced_of_spared {u : Fin n} (h : m.spared config u) :
    m.routingFenced config u = false := by
  obtain ⟨-, hi, -, ha, hp⟩ := spared_iff.1 h
  simp [routingFenced, Ramjet.fenced, ha, hi, hp, ParkState.mustFence]

theorem meets_setAllDrained : (setAllDrained config).Meets (FloorInvariant config) FloorRely
      (KeepsFloor config) (Decided config planned) fun _ m =>
        Decided config planned m ∧ Unfenced config m := by
  refine (Meets.forEach_all (D := fun u m => m.spared config u → m.drained u = false)
    (fun done u => Meets.modify ?_ fun m _ hm => ?_) (finRange n)).mono_post fun _ m _ hm => ?_
  · intro m m' hm hr
    refine ⟨Decided.stable m m' hm.1 hr, fun v hv hs => ?_⟩
    rw [hr.spared hm.1.round] at hs
    rw [(hr.shown (by rw [hm.1.round]; decide)).2.2]
    exact hm.2 v hv hs
  · refine ⟨keepsFloor_of_eq hm.1.round rfl id, ⟨hm.1.round, hm.1.unacted⟩, fun v hv hs => ?_⟩
    simp only [ParkingMemory.setDrained, update_apply]
    split
    case isTrue hu => exact hu ▸ routingFenced_of_spared hs
    case isFalse hu =>
      rcases mem_cons.1 hv with rfl | hv
      · exact absurd rfl hu
      · exact hm.2 v hv hs
  · exact ⟨hm.1, fun u => hm.2 u (mem_finRange u)⟩

theorem meets_publishing {t : ParkingThread n Unit} (hf : t.Meets (FloorInvariant config)
      FloorRely (KeepsFloor config) (Decided config planned) fun _ => Decided config planned) :
    (do lock .drainer; (do t; setAllDrained config); unlock : ParkingThread n Unit).Meets
      (FloorInvariant config) FloorRely (KeepsFloor config) (Decided config planned) fun _ m =>
        Decided config planned m ∧ Unfenced config m := by
  refine .bind (Q := fun _ => Decided config planned) ?_ fun _ =>
    .bind (.bind hf fun _ => meets_setAllDrained) fun _ => ?_
  · refine .await Decided.stable fun m _ hm _ => ?_
    exact ⟨keepsFloor_of_eq hm.round rfl id, hm.setAuthority _⟩
  · refine .modify Unfenced.stable fun m _ hm => ?_
    exact ⟨keepsFloor_of_eq hm.1.round rfl id, hm.1.setAuthority _, hm.2⟩

theorem meets_publishIdleDrain_floor (hm : config.idleDrain.mode.fencesRouting) :
    (publishIdleDrain config).Meets (FloorInvariant config) FloorRely (KeepsFloor config)
      (Decided config planned) fun _ m => Decided config planned m ∧ Unfenced config m := by
  unfold publishIdleDrain publishFences
  rw [if_pos hm]
  refine meets_publishing (.modify Decided.stable fun m _ hm => ?_)
  exact ⟨keepsFloor_of_eq hm.round rfl id, hm.round, hm.unacted⟩

theorem meets_applyParkFences_floor : (applyParkFences config).Meets (FloorInvariant config)
      FloorRely (KeepsFloor config) (Decided config planned) fun _ m =>
        Decided config planned m ∧ Unfenced config m :=
  meets_publishing (t := .done ()) fun _ _ hm => hm

theorem planParking_awake {park : EngineParkConfig} {intents : Fin n → UpstreamIntent}
    {states : Fin n → ParkState} {u : Fin n} (hs : states u = .awake)
    (hw : (intents u).safeToStop = false) : planParking park intents states u = none := by
  cases hp : planParking park intents states u with
  | none => rfl
  | some action =>
    have hf := plannable_planParking hp
    cases action with
    | sleep => exact absurd hf.1 (ne_true_of_eq_false hw)
    | wake => rcases hf with h | h <;> cases hs.symm.trans h
    | reconcile => cases hs.symm.trans hf

/-- What stays awake is spared as before. -/
theorem floored_setPark {actuation : ParkActuation n}
    (h : ∀ u, m.spared config u → actuation.park u = m.actuation.park u)
    (hf : m.Floored config) : ({ m with actuation } : ParkingMemory n).Floored config := by
  refine hf.trans (countP_mono_left fun u _ hu => ?_)
  have hp := h u hu
  rw [spared_iff] at hu ⊢
  simp only [parkState, hp]
  exact hu

section Actuation
variable (ha : config.actuates)
include ha

theorem unacted_plan {u : Fin n} (hu : (m.plan config).spared config u) :
    (m.plan config).actuation.actions u = none := by
  obtain ⟨-, -, hs, -, hp⟩ := spared_iff.1 hu
  simp only [parkState, ha, if_true] at hp
  exact planParking_awake hp hs

theorem spared_mark {u : Fin n} (hu : m.mark.spared config u) : m.spared config u := by
  rw [spared_iff] at hu ⊢
  obtain ⟨hh, hi, hs, ht, hp⟩ := hu
  refine ⟨hh, hi, hs, ht, ?_⟩
  simp only [parkState, ha, if_true] at hp ⊢
  by_contra hn
  exact ParkActuation.markState_ne_awake hn hp

end Actuation

theorem meets_collectOutcomes_floor : (collectOutcomes config).Meets (FloorInvariant config)
      FloorRely (KeepsFloor config) (fun m => Decided config true m ∧ Unfenced config m) fun _ m =>
        Decided config false m ∧ Unfenced config m := by
  have hc : ∀ {u : Fin n} {m : ParkingMemory n}, m.actuation.actions u = none →
      m.collect.actuation.park u = m.actuation.park u := by
    intro u m hn
    simp only [ParkingMemory.collect, ParkActuation.collect, ParkActuation.outcome, hn]
  have hk : ∀ {m : ParkingMemory n}, Decided config true m → KeepsFloor config m m.collect := by
    intro m hm
    exact keepsFloor_of_eq hm.round rfl (floored_setPark fun u hu => hc (hm.unacted rfl u hu))
  refine .bind (Q := fun pending m => (Decided config true m ∧ Unfenced config m) ∧
    (pending = false → ∀ u, m.actuation.actions u = none)) (.atomic ?_ fun _ m _ hm => ?_) ?_
  · refine fun pending m m' hm hr => ⟨Unfenced.stable m m' hm.1 hr, fun hp u => ?_⟩
    rw [hr.actions]
    exact hm.2 hp u
  · refine ⟨keepsFloor_of_eq hm.1.round rfl id, hm, fun hp u => ?_⟩
    simpa using any_eq_false.1 hp u (mem_finRange u)
  intro pending
  cases pending with
  | true =>
    refine .bind (Q := fun _ => Decided config false) (.await Decided.stable fun m _ hm _ => ?_)
      fun _ => meets_applyParkFences_floor
    exact ⟨hk hm.1.1, hm.1.1.round, by rintro ⟨⟩⟩
  | false =>
    refine .await Unfenced.stable fun m _ hm _ => ⟨hk hm.1.1, ⟨hm.1.1.round, by rintro ⟨⟩⟩, ?_⟩
    intro u hu
    have hs : m.spared config u := by
      have hp := hc (hm.2 rfl u)
      rw [spared_iff] at hu ⊢
      simp only [parkState, hp] at hu
      exact hu
    exact hm.1.2 u hs

theorem meets_convergeEngineParking_floor : (convergeEngineParking config).Meets
      (FloorInvariant config) FloorRely (KeepsFloor config)
      (fun m => Decided config false m ∧ Unfenced config m) fun _ m =>
        Decided config false m ∧ Unfenced config m := by
  unfold convergeEngineParking
  split
  case isFalse => exact fun _ _ hm => hm
  case isTrue ha =>
    refine .bind (Q := fun _ m => Decided config true m ∧ Unfenced config m) ?_ fun _ =>
      .bind (Q := fun _ => Decided config true) ?_ fun _ =>
      .bind meets_applyParkFences_floor fun _ => meets_collectOutcomes_floor
    · refine .modify Unfenced.stable fun m _ hm => ?_
      exact ⟨keepsFloor_of_eq hm.1.round rfl id, ⟨hm.1.round, fun _ u => unacted_plan ha⟩, hm.2⟩
    · refine .modify Decided.stable fun m _ hm => ⟨?_, hm.1.round, fun _ u hu => ?_⟩
      · refine keepsFloor_of_eq hm.1.round rfl (floored_setPark fun u hu => ?_)
        simp only [ParkActuation.mark, ParkActuation.markState, hm.1.unacted rfl u hu]
      · exact hm.1.unacted rfl u (spared_mark ha hu)

theorem keepsFloor_of_floored (hf : m.Floored config) (hu : Unfenced config m) :
    m.keepsFloor config := by
  have hr : (finRange n).countP (m.spared config) ≤ m.routable := by
    refine countP_mono_left fun u _ hs => ?_
    simp [(spared_iff.1 hs).1, hu u hs]
  have hs : m.serviceable config ≤ m.healthyUpstreams := by
    refine countP_mono_left fun u _ h => ?_
    simp only [Bool.and_eq_true] at h
    exact h.1.1
  exact decide_eq_true ((min_le_min_left _ hs).trans (hf.trans hr))

theorem meets_idleDrainRound_floor (hm : config.idleDrain.mode = .drain) :
    (idleDrainRound config).Meets (FloorInvariant config) FloorRely (KeepsFloor config)
      (fun _ => True) fun _ _ => True := by
  have he : config.idleDrain.mode.enabled := by rw [hm]; rfl
  have hf : config.idleDrain.mode.fencesRouting := by rw [hm]; rfl
  have ht : Stable FloorRely fun m : ParkingMemory n => m.round = .sampling :=
    fun m m' hm hr => hr.round.trans hm
  have hs : ∀ {m m' : ParkingMemory n}, m'.kept = m.kept → m'.round = .sampling →
      KeepsFloor config m m' := by
    refine fun hk hr => ⟨fun h => hk.trans h, fun hd => ?_⟩
    rw [hr] at hd
    cases hd
  unfold idleDrainRound
  rw [if_pos he]
  refine .bind (Q := fun _ m => m.round = .sampling) ?_ fun _ =>
    .bind (Meets.forEach_all (D := fun u m => (m.samples u).healthy = m.healthy u)
      (fun done u => Meets.modify ?_ ?_) (finRange n)) fun _ =>
    .bind (Q := fun _ => Decided config false) ?_ fun _ =>
    .bind (meets_publishIdleDrain_floor hf) fun _ =>
    .bind meets_convergeEngineParking_floor fun _ => ?_
  · exact .modify ht fun m _ _ => ⟨hs rfl rfl, rfl⟩
  · intro m m' hm hr
    refine ⟨ht m m' hm.1 hr, fun v hv => ?_⟩
    rw [hr.samples, (hr.shown (by rw [hm.1]; decide)).1]
    exact hm.2 v hv
  · refine fun m _ hm => ⟨hs rfl hm.1, hm.1, fun v hv => ?_⟩
    simp only [ParkingMemory.sample, update_apply]
    split
    case isTrue hu => rw [hu]
    case isFalse hu =>
      rcases mem_cons.1 hv with rfl | hv
      · exact absurd rfl hu
      · exact hm.2 v hv
  · refine .atomic (fun _ => Decided.stable) fun answers m _ hm => ?_
    refine ⟨⟨id, fun _ => .inl ⟨hm.1, fun hr => ?_⟩⟩, rfl, by rintro ⟨⟩⟩
    exact floored_tick he (fun u => hm.2 u (mem_finRange u)) hr _
  · refine .modify (fun _ _ _ _ => trivial) fun m hI hm => ⟨⟨fun hk => ?_, by rintro ⟨⟩⟩, trivial⟩
    simp only [endRound, hk, Bool.true_and]
    exact keepsFloor_of_floored (hI.2 hm.1.round) hm.2

theorem floorRely_of_guarantee {i : ParkingSlot n} {answers : ParkingAnswers} (hi : i ≠ .drainer)
    (hC : KeepsRounds config m (.run i answers)) (hg : parkingGuarantee config i m m') :
    FloorRely m m' := by
  obtain ⟨-, hs, hn, -, hp, ha, -, -, -, -⟩ := drainerRely i hi hg
  cases i with
  | drainer => exact absurd rfl hi
  | call u =>
    rcases hg with ⟨-, rfl⟩ | ⟨-, -, ok, rfl⟩
    · exact ⟨rfl, rfl, hs, hn, hp, ha, fun _ => ⟨rfl, rfl, rfl⟩⟩
    · exact ⟨rfl, rfl, hs, hn, hp, ha, fun _ => ⟨rfl, rfl, rfl⟩⟩
  | request k =>
    have hf := Requests.frame hg
    refine ⟨by rw [hf], by rw [hf], hs, hn, hp, ha, fun _ => ?_⟩
    rw [hf]
    exact ⟨rfl, rfl, rfl⟩
  | topology =>
    have hf := Retopologizes.frame hg
    exact ⟨by rw [hf], by rw [hf], hs, hn, hp, ha, fun h => absurd hC h⟩
  | health =>
    have hf := (Happens.frame hg).1
    exact ⟨by rw [hf], by rw [hf], hs, hn, hp, ha, fun h => absurd hC h⟩
  | outside =>
    have hh : m'.healthy = m.healthy := by
      rcases hg with rfl | ⟨h, -⟩ | ⟨nowMs, rfl⟩ | ⟨event, actuation, -, -, rfl⟩
      · rfl
      · cases h
      · rfl
      · rfl
    have hf := (Happens.frame hg).1
    refine ⟨by rw [hf], by rw [hf], hs, hn, hp, ha, fun _ => ⟨hh, ?_⟩⟩
    rw [hf]
    exact ⟨rfl, rfl⟩

/-- Rounds that decide on a state that is ready keep the floor. -/
def floorSpec (hm : config.idleDrain.mode = .drain) :
    (parkingMachine config fun _ => True).Spec (KeepsRounds config) :=
  (parkingSpec config (fun _ => True) (KeepsRounds config)).strengthen .drainer
    (FloorInvariant config) FloorRely (KeepsFloor config)
    (by
      intro m hi
      refine ⟨hi.1.kept, fun hr => ?_⟩
      rw [hi.1.round] at hr
      cases hr)
    (by
      intro i answers m m' hI hC hg hd
      by_cases hi : i = .drainer
      · subst hi
        obtain ⟨hk, hf⟩ := hd rfl
        refine ⟨hk hI.1, fun hr => ?_⟩
        rcases hf hr with ⟨hp, hf⟩ | ⟨hp, hf⟩
        · exact hf (hC hp)
        · exact hf (hI.2 hp)
      have hr := floorRely_of_guarantee hi hC hg
      refine ⟨hr.kept.trans hI.1, fun hp => ?_⟩
      rw [hr.round] at hp
      have hh := (hr.shown (by rw [hp]; decide)).1
      have hs : m'.spared config = m.spared config := funext (hr.spared hp)
      simp only [Floored, healthyUpstreams, hh, hs]
      exact hI.2 hp)
    (fun i answers m m' hi hC hg => floorRely_of_guarantee hi hC hg)
    (by
      intro k hk
      cases k with
      | idleDrainRound => exact meets_idleDrainRound_floor hm
      | _ => cases hk)

variable (config) in
/-- Over every interleaving of rounds, calls, requests, health and topology changes in
which each round decides on a state that is ready, and neither health nor the topology
changes while it is under way: every round leaves the floor routable. -/
theorem rounds_keep_floor (hmode : config.idleDrain.mode = .drain)
    {s : Machine.State (ParkingMemory n) ParkingAnswers (ParkingSlot n)}
    (h : ((parkingMachine config fun _ => True).system (KeepsRounds config)).Reachable s) :
    s.memory.kept :=
  ((floorSpec hmode).inv_of_reachable h).2.1

end Floor

instance floorReadyDecidable (config : ParkingConfig n) (m : ParkingMemory n) :
    Decidable (m.FloorReady config) :=
  inferInstanceAs (Decidable ((∀ _, _ → _) ∨ (∀ _, _ → _ → _) ∧ _))

instance keepsRoundsDecidable (config : ParkingConfig n) (m : ParkingMemory n) :
    (move : ParkingMove n) → Decidable (KeepsRounds config m move)
  | .run .drainer _ => inferInstanceAs (Decidable (_ → m.FloorReady config))
  | .run .health _ | .run .topology _ => inferInstanceAs (Decidable (_ = _))
  | .run (.call _) _ | .run (.request _) _ | .run .outside _ | .start _ =>
    inferInstanceAs (Decidable True)

namespace SampleParking

/-- The second upstream is parked, and then the next round comes. -/
def nextRound : List (ParkingMove 2) :=
  putToSleep ++ List.replicate 6 (.run .drainer ⟨330000, true⟩) ++ round 331000 18

def lastActive : List (ParkingMove 2) :=
  .start (.setTopologyActive [1]) :: List.replicate 7 (.run .topology ⟨0, true⟩) ++
    round 300000 18

end SampleParking

open SampleParking in
theorem rounds_keep_floor_sample :
    ∃ s, ((parkingMachine (pair false) fun _ => True).system (KeepsRounds (pair false))).Reachable
        s ∧ s.memory.actuation.park 1 = .parked ∧ s.memory.kept := by
  obtain ⟨s, hr, -, hp⟩ := (parkingMachine (pair false) fun _ => True).exists_reachable
    (KeepsRounds (pair false)) nextRound
    (fun s => s.memory.round = .idle ∧ s.memory.actuation.park 1 = .parked) ⟨initial, trivial⟩
    (by decide +kernel)
  exact ⟨s, hr, hp, rounds_keep_floor _ rfl hr⟩

open SampleParking in
/-- The policy counts both upstreams as serving, and fences the one that is active. -/
theorem round_fences_last_active :
    ∃ s, ((parkingMachine (pair false) fun _ => True).system fun _ _ => True).Reachable s ∧
      s.memory.kept = false :=
  (parkingMachine (pair false) fun _ => True).exists_reachable (fun _ _ => True) lastActive _
    ⟨initial, trivial⟩ (by decide +kernel)

end Ramjet
