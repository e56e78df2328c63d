import Ramjet.Parking

/-!
# Sleep safety

A sleep is sent only to an upstream without requests. What a round stops was fenced by an
earlier round and stayed so, so nothing was added to its sample.
-/

namespace Ramjet
open Thread ParkingThread ParkActuation List IdleDrainPolicy Bool Function
variable {n : Nat} {config : ParkingConfig n} {m m' : ParkingMemory n}

/-- What holds at every moment. -/
structure ParkingMemory.Safe (config : ParkingConfig n) (m : ParkingMemory n) : Prop where
  believes : m.actuation.Believes
  parked : ∀ u, m.actuation.park u ≠ .awake → m.drained u ∧ m.inflight u = 0
  resting : config.actuates = false → ∀ u, m.actuation.park u = .awake
  sleeps : ∀ call ∈ m.sleeps, call.drained ∧ call.inflight call.upstream = 0

/-! ## Guarantees -/

def ParkEvent.ofDrainer : ParkEvent n → Prop
  | .plan _ | .mark | .collect => True
  | .send _ | .answer .. | .sleepTakesEffect _ | .wakeTakesEffect _ => False

def ParkEvent.ofEngine : ParkEvent n → Prop
  | .sleepTakesEffect _ | .wakeTakesEffect _ => True
  | .plan _ | .mark | .collect | .send _ | .answer .. => False

structure Drains (config : ParkingConfig n) (m m' : ParkingMemory n) : Prop where
  frame : m' = { m with
    policy := m'.policy, fenced := m'.fenced, authority := m'.authority, drained := m'.drained,
    samples := m'.samples, intents := m'.intents, actuation := m'.actuation,
    round := m'.round, kept := m'.kept }
  authority : m.authority = some .topology → m'.authority = some .topology ∧ m'.fenced = m.fenced
  awake : ∀ u, m.actuation.park u = .awake → m.fenced u = false → m'.actuation.park u = .awake
  parked : ∀ u, m'.actuation.park u ≠ .awake → m'.drained u ∧ m.inflight u = 0
  actuation : m'.actuation = m.actuation ∨ config.actuates ∧ ∃ event : ParkEvent n,
    event.ofDrainer ∧ m.actuation.next config.enginePark config.upstreams event = some m'.actuation

/-- What a topology change may do. -/
structure Retopologizes (m m' : ParkingMemory n) : Prop where
  frame : m' = { m with
    authority := m'.authority, nextTopology := m'.nextTopology, drainedMask := m'.drainedMask,
    drained := m'.drained, topologyActive := m'.topologyActive }
  authority : m.authority = some .drainer → m'.authority = some .drainer
  drained : ∀ u, m.fenced u ∨ m.actuation.park u ≠ .awake → m.drained u →
    m'.drained u

/-- What one call does. -/
def Calls (config : ParkingConfig n) (u : Fin n) (m m' : ParkingMemory n) : Prop :=
  m.actuation.ready u ∧ m' = m.send config u ∨
    m.actuation.stage = .marked ∧ m.actuation.isSent u ∧ ∃ ok, m' = m.answer config u ok

def Requests (config : ParkingConfig n) (k : Nat) (m m' : ParkingMemory n) : Prop :=
  m' = m ∨ (∃ u, m.drained u = false ∧ m' = { m with reserved := (k, u) :: m.reserved }) ∨
    (∃ u, (k, u) ∈ m.reserved ∧ m' = m.sendRequest config u) ∨ m' = m.release k

/-- What happens by itself, with changes of health or without. -/
def Happens (config : ParkingConfig n) (health : Bool) (m m' : ParkingMemory n) : Prop :=
  m' = m ∨ (health ∧ ∃ healthy, m' = { m with healthy }) ∨
    (∃ nowMs, m' = { m with policy := m.policy.observeActivity nowMs }) ∨
    ∃ (event : ParkEvent n) (actuation : ParkActuation n), event.ofEngine ∧
      m.actuation.next config.enginePark config.upstreams event = some actuation ∧
      m' = { m with actuation }

def parkingGuarantee (config : ParkingConfig n) :
    ParkingSlot n → ParkingMemory n → ParkingMemory n → Prop
  | .drainer => Drains config
  | .call u => Calls config u
  | .topology => Retopologizes
  | .request k => Requests config k
  | .health => Happens config true
  | .outside => Happens config false

/-! ## Relies -/

/-- What a round may count on. -/
structure DrainerRely (m m' : ParkingMemory n) : Prop where
  states : m'.policy.states = m.policy.states
  samples : m'.samples = m.samples
  intents : m'.intents = m.intents
  fenced : m'.fenced = m.fenced
  park : m'.actuation.park = m.actuation.park
  actions : m'.actuation.actions = m.actuation.actions
  stage : m'.actuation.stage = m.actuation.stage
  authority : m.authority = some .drainer → m'.authority = some .drainer
  drained : ∀ u, m.fenced u ∨ m.actuation.park u ≠ .awake → m.drained u →
    m'.drained u
  quiet : ∀ u, m.drained u → m.inflight u = 0 → m'.inflight u = 0

/-- What a topology change may count on. -/
structure TopologyRely (m m' : ParkingMemory n) : Prop where
  nextTopology : m'.nextTopology = m.nextTopology
  drainedMask : m'.drainedMask = m.drainedMask
  authority : m.authority = some .topology → m'.authority = some .topology
  unfenced : m.authority = some .topology → ∀ u, m.fenced u = false →
    m.actuation.park u = .awake → m'.fenced u = false ∧ m'.actuation.park u = .awake

def parkingRely : ParkingSlot n → ParkingMemory n → ParkingMemory n → Prop
  | .drainer => DrainerRely
  | .call u => fun m m' => m.actuation.stage = .marked → m.actuation.isSent u →
      m'.actuation.stage = .marked ∧ m'.actuation.isSent u
  | .topology => TopologyRely
  | .request k => fun m m' => ∀ u, (k, u) ∈ m.reserved → (k, u) ∈ m'.reserved
  | .health | .outside => fun _ _ => True

/-! ## Requests in flight -/

variable {k : Nat} {u : Fin n}

theorem inflight_cons {v : Fin n} (h : v ≠ u) :
    { m with reserved := (k, v) :: m.reserved }.inflight u = m.inflight u := by
  simp [ParkingMemory.inflight, h]

theorem inflight_release (h : m.inflight u = 0) : (m.release k).inflight u = 0 := by
  simp only [ParkingMemory.inflight, countP_eq_zero] at h ⊢
  exact fun res hr => h res (mem_of_mem_filter hr)

theorem inflight_pos (h : (k, u) ∈ m.reserved) : m.inflight u ≠ 0 := by
  intro h0
  simpa using countP_eq_zero.1 h0 (k, u) h

theorem Requests.quiet (h : Requests config k m m') (hd : m.drained u)
    (hq : m.inflight u = 0) : m'.inflight u = 0 := by
  rcases h with rfl | ⟨v, hv, rfl⟩ | ⟨v, -, rfl⟩ | rfl
  · exact hq
  · rw [inflight_cons, hq]
    rintro rfl
    exact false_ne_true (hv.symm.trans hd)
  · exact hq
  · exact inflight_release hq

theorem Requests.frame (h : Requests config k m m') :
    m' = { m with reserved := m'.reserved, sent := m'.sent } := by
  rcases h with rfl | ⟨v, -, rfl⟩ | ⟨v, -, rfl⟩ | rfl <;> rfl

theorem Requests.others {k' : Nat} (h : Requests config k m m') (hk : k' ≠ k)
    (hu : (k', u) ∈ m.reserved) : (k', u) ∈ m'.reserved := by
  rcases h with rfl | ⟨v, -, rfl⟩ | ⟨v, -, rfl⟩ | rfl
  · exact hu
  · exact mem_cons_of_mem _ hu
  · exact hu
  · exact mem_filter.2 ⟨hu, by simpa using hk⟩

/-! ## Steps keep the invariant -/

theorem ParkActuation.engine_frame {event : ParkEvent n} {a a' : ParkActuation n}
    {engine : Fin n → String} {park : EngineParkConfig} (he : event.ofEngine)
    (h : a.next park engine event = some a') :
    a'.park = a.park ∧ a'.actions = a.actions ∧ a'.stage = a.stage ∧ a'.calls = a.calls := by
  cases acts_of_next h with
  | sleepTakesEffect _ => exact ⟨rfl, rfl, rfl, rfl⟩
  | wakeTakesEffect _ => exact ⟨rfl, rfl, rfl, rfl⟩
  | _ => exact he.elim

variable {health : Bool}

theorem Happens.frame (h : Happens config health m m') :
    m' = { m with healthy := m'.healthy, policy := m'.policy, actuation := m'.actuation } ∧
      m'.policy.states = m.policy.states ∧ m'.actuation.park = m.actuation.park ∧
      m'.actuation.actions = m.actuation.actions ∧ m'.actuation.stage = m.actuation.stage ∧
      m'.actuation.calls = m.actuation.calls := by
  rcases h with rfl | ⟨-, healthy, rfl⟩ | ⟨nowMs, rfl⟩ | ⟨event, actuation, he, hn, rfl⟩
  · exact ⟨rfl, rfl, rfl, rfl, rfl, rfl⟩
  · exact ⟨rfl, rfl, rfl, rfl, rfl, rfl⟩
  · exact ⟨rfl, rfl, rfl, rfl, rfl, rfl⟩
  · exact ⟨rfl, rfl, engine_frame he hn⟩

theorem Happens.believes (h : Happens config health m m') (hb : m.actuation.Believes) :
    m'.actuation.Believes := by
  rcases h with rfl | ⟨-, healthy, rfl⟩ | ⟨nowMs, rfl⟩ | ⟨event, actuation, -, hn, rfl⟩
  · exact hb
  · exact hb
  · exact hb
  · exact hb.next hn

section
variable (h : m.Safe config)
include h

theorem ParkingMemory.Safe.drains (hsp : Drains config m m') : m'.Safe config where
  believes := by
    rcases hsp.actuation with heq | ⟨-, event, -, hn⟩
    · rw [heq]
      exact h.believes
    · exact h.believes.next hn
  parked u hu := by
    have hi : m'.inflight u = m.inflight u := by
      simp only [ParkingMemory.inflight, congrArg ParkingMemory.reserved hsp.frame]
    rw [hi]
    exact hsp.parked u hu
  resting ho := by
    rcases hsp.actuation with heq | ⟨ha, -⟩
    · rw [heq]
      exact h.resting ho
    · rw [ho] at ha
      cases ha
  sleeps := by
    rw [congrArg ParkingMemory.sleeps hsp.frame]
    exact h.sleeps

theorem ParkingMemory.Safe.retopologizes (hsp : Retopologizes m m') : m'.Safe config := by
  have hp : m'.actuation = m.actuation := by rw [hsp.frame]
  have hi : ∀ u, m'.inflight u = m.inflight u := by
    intro u
    simp only [ParkingMemory.inflight, congrArg ParkingMemory.reserved hsp.frame]
  refine ⟨hp ▸ h.believes, fun u hu => ?_, hp ▸ h.resting, ?_⟩
  · rw [hp] at hu
    obtain ⟨hd, hq⟩ := h.parked u hu
    exact ⟨hsp.drained u (.inr hu) hd, (hi u).trans hq⟩
  · rw [congrArg ParkingMemory.sleeps hsp.frame]
    exact h.sleeps

theorem ParkingMemory.Safe.calls (hsp : Calls config u m m') : m'.Safe config := by
  rcases hsp with ⟨hr, rfl⟩ | ⟨hg, hse, ok, rfl⟩
  · obtain ⟨hg, -, -⟩ := ready_iff.1 hr
    refine ⟨h.believes.send hr, fun v hv => ?_, fun ho v => ?_, fun call hc => ?_⟩
    · simp only [ParkingMemory.send, park_send] at hv
      exact h.parked v hv
    · simp only [ParkingMemory.send, park_send]
      exact h.resting ho v
    · simp only [ParkingMemory.send] at hc
      split at hc
      case isTrue ha =>
        rcases mem_cons.1 hc with rfl | hc
        · exact h.parked u (h.believes.marked hg u _ ha)
        · exact h.sleeps call hc
      case isFalse => exact h.sleeps call hc
  · obtain ⟨hp, -, -, -⟩ := answer_frame config.upstreams hse ok
    refine ⟨h.believes.answer hg hse ok, fun v hv => ?_, fun ho v => ?_, h.sleeps⟩
    · simp only [ParkingMemory.answer, hp] at hv
      exact h.parked v hv
    · simp only [ParkingMemory.answer, hp]
      exact h.resting ho v

theorem ParkingMemory.Safe.requests (hsp : Requests config k m m') : m'.Safe config := by
  have hp : m'.actuation = m.actuation := by rw [hsp.frame]
  have hr : m'.drained = m.drained := by rw [hsp.frame]
  have hs : m'.sleeps = m.sleeps := by rw [hsp.frame]
  refine ⟨hp ▸ h.believes, fun u hu => ?_, hp ▸ h.resting, hs ▸ h.sleeps⟩
  rw [hp] at hu
  obtain ⟨hd, hq⟩ := h.parked u hu
  exact ⟨hr ▸ hd, hsp.quiet hd hq⟩

theorem ParkingMemory.Safe.happens (hsp : Happens config health m m') : m'.Safe config := by
  obtain ⟨hfr, -, hp, -, -, -⟩ := hsp.frame
  have hd : m'.drained = m.drained := by rw [hfr]
  have hs : m'.sleeps = m.sleeps := by rw [hfr]
  have hi : m'.inflight = m.inflight := by
    funext u
    simp only [ParkingMemory.inflight, congrArg ParkingMemory.reserved hfr]
  refine ⟨hsp.believes h.believes, ?_, ?_, hs ▸ h.sleeps⟩
  · rw [hp, hd, hi]
    exact h.parked
  · rw [hp]
    exact h.resting

theorem ParkingMemory.Safe.step (i : ParkingSlot n)
    (hsp : parkingGuarantee config i m m') : m'.Safe config := by
  cases i with
  | drainer => exact h.drains hsp
  | call u => exact h.calls hsp
  | topology => exact h.retopologizes hsp
  | request k => exact h.requests hsp
  | health | outside => exact h.happens hsp

end

/-! ## Relies hold -/

variable (i : ParkingSlot n)

theorem drainerRely (hi : i ≠ .drainer)
    (hsp : parkingGuarantee config i m m') : DrainerRely m m' := by
  cases i with
  | drainer => exact absurd rfl hi
  | call u =>
    rcases hsp with ⟨hr, rfl⟩ | ⟨-, hse, ok, rfl⟩
    · exact ⟨rfl, rfl, rfl, rfl, park_send, actions_send,
        stage_send, id, fun _ _ => id, fun _ _ => id⟩
    · obtain ⟨hp, ha, hg, -⟩ := answer_frame config.upstreams hse ok
      exact ⟨rfl, rfl, rfl, rfl, hp, ha, hg, id, fun _ _ => id, fun _ _ => id⟩
  | topology =>
    have hsp : Retopologizes m m' := hsp
    have hn : ∀ u, m'.inflight u = m.inflight u := by
      intro u
      simp only [ParkingMemory.inflight, congrArg ParkingMemory.reserved hsp.frame]
    refine ⟨?_, ?_, ?_, ?_, ?_, ?_, ?_, hsp.authority, hsp.drained, fun u _ hq => ?_⟩
    all_goals first | exact (hn u).trans hq | rw [hsp.frame]
  | request k =>
    have hsp : Requests config k m m' := hsp
    refine ⟨?_, ?_, ?_, ?_, ?_, ?_, ?_, ?_, ?_, fun u => hsp.quiet⟩
    case refine_9 =>
      rw [hsp.frame]
      exact fun _ _ => id
    all_goals rw [hsp.frame]
    exact id
  | health | outside =>
    obtain ⟨hfr, ht, hp, ha, hg, -⟩ := Happens.frame hsp
    have hn : ∀ u, m'.inflight u = m.inflight u := by
      intro u
      simp only [ParkingMemory.inflight, congrArg ParkingMemory.reserved hfr]
    refine ⟨ht, ?_, ?_, ?_, hp, ha, hg, ?_, ?_, fun u _ hq => ?_⟩
    case refine_5 =>
      rw [hfr]
      exact fun _ _ => id
    all_goals first | exact (hn u).trans hq | rw [hfr]
    exact id

theorem topologyRely (hi : i ≠ .topology)
    (hsp : parkingGuarantee config i m m') : TopologyRely m m' := by
  cases i with
  | drainer =>
    have hsp : Drains config m m' := hsp
    refine ⟨by rw [hsp.frame], by rw [hsp.frame], fun h => (hsp.authority h).1, ?_⟩
    intro ha u hf hp
    exact ⟨(hsp.authority ha).2 ▸ hf, hsp.awake u hp hf⟩
  | call u =>
    rcases hsp with ⟨hr, rfl⟩ | ⟨-, hse, ok, rfl⟩
    · refine ⟨rfl, rfl, id, fun _ v hf hp => ⟨hf, ?_⟩⟩
      exact (congrFun park_send v).trans hp
    · obtain ⟨hs, -, -, -⟩ := answer_frame config.upstreams hse ok
      exact ⟨rfl, rfl, id, fun _ v hf hp => ⟨hf, (congrFun hs v).trans hp⟩⟩
  | topology => exact absurd rfl hi
  | request k =>
    have hsp : Requests config k m m' := hsp
    refine ⟨by rw [hsp.frame], by rw [hsp.frame], ?_, ?_⟩
    · rw [hsp.frame]
      exact id
    · rw [hsp.frame]
      exact fun _ _ hf hp => ⟨hf, hp⟩
  | health | outside =>
    obtain ⟨hfr, -, hs, -, -, -⟩ := Happens.frame hsp
    refine ⟨by rw [hfr], by rw [hfr], ?_, fun _ u hf hp => ⟨?_, ?_⟩⟩
    · rw [hfr]
      exact id
    · rw [hfr]
      exact hf
    · rw [hs]
      exact hp

theorem callRely (hi : i ≠ .call u) (hsp : parkingGuarantee config i m m')
    (hg : m.actuation.stage = .marked) (hse : m.actuation.isSent u) :
    m'.actuation.stage = .marked ∧ m'.actuation.isSent u := by
  cases i with
  | drainer =>
    have hsp : Drains config m m' := hsp
    rcases hsp.actuation with heq | ⟨-, event, he, hn⟩
    · rw [heq]
      exact ⟨hg, hse⟩
    -- The round waits for every answer.
    have ha := acts_of_next hn
    generalize m'.actuation = a at ha ⊢
    cases ha with
    | plan hp => cases hg.symm.trans hp
    | mark hp => cases hg.symm.trans hp
    | collect _ hc =>
      rw [not_collectable_of_isSent hse] at hc
      cases hc
    | _ => exact he.elim
  | call v =>
    have hu : u ≠ v := fun h => hi (h ▸ rfl)
    rcases hsp with ⟨-, rfl⟩ | ⟨-, hse', ok, rfl⟩
    · exact ⟨stage_send.trans hg, (isSent_send hu).trans hse⟩
    · obtain ⟨-, -, hg', hoths⟩ := answer_frame config.upstreams hse' ok
      exact ⟨hg'.trans hg, (hoths u hu).trans hse⟩
  | topology =>
    have hsp : Retopologizes m m' := hsp
    rw [hsp.frame]
    exact ⟨hg, hse⟩
  | request k =>
    have hsp : Requests config k m m' := hsp
    rw [hsp.frame]
    exact ⟨hg, hse⟩
  | health | outside =>
    obtain ⟨-, -, -, ha, hg', hl⟩ := Happens.frame hsp
    refine ⟨hg'.trans hg, ?_⟩
    simp only [isSent, ha, hl]
    exact hse

theorem requestRely (hi : i ≠ .request k)
    (hsp : parkingGuarantee config i m m') (hu : (k, u) ∈ m.reserved) : (k, u) ∈ m'.reserved := by
  cases i with
  | drainer =>
    have hsp : Drains config m m' := hsp
    rw [hsp.frame]
    exact hu
  | call v =>
    rcases hsp with ⟨-, rfl⟩ | ⟨-, -, ok, rfl⟩
    · exact hu
    · exact hu
  | topology =>
    have hsp : Retopologizes m m' := hsp
    rw [hsp.frame]
    exact hu
  | request k' => exact Requests.others hsp (fun h => hi (h ▸ rfl)) hu
  | health | outside =>
    rw [(Happens.frame hsp).1]
    exact hu

theorem parkingCompatible (i j : ParkingSlot n) (hij : i ≠ j)
    (hsp : parkingGuarantee config i m m') : parkingRely j m m' := by
  cases j with
  | drainer => exact drainerRely i hij hsp
  | call u => exact callRely i hij hsp
  | topology => exact topologyRely i hij hsp
  | request k => exact fun u => requestRely i hij hsp
  | health | outside => trivial

/-! ## Requests, calls and topology changes -/

section Threads
variable (config)

theorem meets_parkingRequest (k : Nat) (u : Fin n) (failingOpen : Bool) :
    (request config k u failingOpen).Meets (ParkingMemory.Safe config)
      (parkingRely (.request k)) (Requests config k) (fun _ => True) fun _ _ => True := by
  have hh : Stable (parkingRely (.request k)) fun m : ParkingMemory n => (k, u) ∈ m.reserved :=
    fun m m' hm hr => hr u hm
  have ht : Stable (parkingRely (.request k)) fun _ : ParkingMemory n => True :=
    fun _ _ _ _ => trivial
  refine .bind (Q := fun acquired m => acquired = true → (k, u) ∈ m.reserved) ?_ ?_
  · refine .atomic (fun acquired m m' hm hr h => hh m m' (hm h) hr) fun _ m _ _ => ?_
    unfold ParkingMemory.acquire
    split
    case isTrue h =>
      refine ⟨.inr (.inl ⟨u, ?_, rfl⟩), fun _ => mem_cons_self⟩
      simp only [and_eq_true, not_eq_true'] at h
      exact h.1
    case isFalse => exact ⟨.inl rfl, nofun⟩
  · intro acquired
    cases acquired with
    | false => exact fun _ _ _ => trivial
    | true =>
      refine .bind (Q := fun _ m => (k, u) ∈ m.reserved) ?_ fun _ => ?_
      · refine .modify hh fun m _ hm => ?_
        exact ⟨.inr (.inr (.inl ⟨u, hm rfl, rfl⟩)), hm rfl⟩
      · exact .modify ht fun m _ _ => ⟨.inr (.inr (.inr rfl)), trivial⟩

theorem meets_actuatePark (u : Fin n) :
    (actuatePark config u).Meets (ParkingMemory.Safe config) (parkingRely (.call u))
      (Calls config u) (fun _ => True) fun _ _ => True := by
  have hse : Stable (parkingRely (.call u)) fun m : ParkingMemory n =>
      m.actuation.stage = .marked ∧ m.actuation.isSent u = true :=
    fun m m' hm hy => hy hm.1 hm.2
  refine .bind (Q := fun _ m => m.actuation.stage = .marked ∧ m.actuation.isSent u = true)
    ?_ fun _ => ?_
  · refine .await hse fun m _ _ hr => ⟨.inl ⟨hr, rfl⟩, ?_, ?_⟩
    · exact stage_send.trans (ready_iff.1 hr).1
    · exact isSent_send_self hr
  · refine .atomic (fun _ _ _ _ _ => trivial) fun answers m _ hm => ?_
    exact ⟨.inr ⟨hm.1, hm.2, answers.ok, rfl⟩, trivial⟩

variable (done : List (Fin n))

def Masks (m : ParkingMemory n) : Prop :=
  m.authority = some .topology ∧ ∀ u ∈ done, m.drainedMask u = false →
    m.fenced u = false ∧ m.actuation.park u = .awake

theorem Masks.stable : Stable (parkingRely .topology) (Masks done : ParkingMemory n → Prop) := by
  intro m m' hm hr
  have hr : TopologyRely m m' := hr
  refine ⟨hr.authority hm.1, fun u hu ha => ?_⟩
  rw [hr.drainedMask] at ha
  obtain ⟨hf, hp⟩ := hm.2 u hu ha
  exact hr.unfenced hm.1 u hf hp

theorem parkState_eq (h : m.Safe config) (u : Fin n) :
    m.parkState config u = m.actuation.park u := by
  unfold ParkingMemory.parkState
  split
  · rfl
  case isFalse ho => exact (h.resting (eq_false_of_not_eq_true ho) u).symm

theorem meets_setDrainedMask (u : Fin n) :
    (modify (·.setDrainedMask config u) : ParkingThread n Unit).Meets (ParkingMemory.Safe config)
      (parkingRely .topology) Retopologizes (Masks done) fun _ => Masks (u :: done) := by
  refine .modify (Masks.stable (u :: done)) fun m hI hm => ⟨⟨rfl, id, fun _ _ => id⟩, hm.1, ?_⟩
  intro v hv ha
  simp only [ParkingMemory.setDrainedMask, update_apply] at ha
  split at ha
  case isTrue hu =>
    subst hu
    simp only [parkState_eq config hI, or_eq_false_iff] at ha
    refine ⟨ha.1.2, by_contra fun hn => ?_⟩
    exact false_ne_true (ha.2.symm.trans (mustFence_iff.2 hn))
  case isFalse hu =>
    rcases mem_cons.1 hv with rfl | hv
    · exact absurd rfl hu
    · exact hm.2 v hv ha

theorem meets_setTopologyActive (active : List Nat) :
    (setTopologyActive config active).Meets (ParkingMemory.Safe config) (parkingRely .topology)
      Retopologizes (fun _ => True) fun _ _ => True := by
  have hl : Stable (parkingRely .topology) (Masks [] : ParkingMemory n → Prop) :=
    Masks.stable []
  refine .bind (Q := fun _ => Masks []) ?_ fun _ => .bind (Q := fun _ => Masks []) ?_ ?_
  · refine .await hl fun m _ _ hf => ⟨⟨rfl, fun h => ?_, fun _ _ => id⟩, rfl, ?_⟩
    · rw [of_decide_eq_true hf] at h
      cases h
    · exact nofun
  · split
    case h_1 next _ =>
      refine .bind (Q := fun _ => Masks []) ?_ fun _ =>
        .bind (Q := fun _ => Masks (finRange n)) ?_ fun _ =>
        .bind (Q := fun _ => Masks []) ?_ fun _ => ?_
      · exact Meets.modify hl fun m _ hm => ⟨⟨rfl, id, fun _ _ => id⟩, hm⟩
      · refine ((Meets.forEach_all (P := Masks []) (D := fun u m => m.drainedMask u = false →
          m.fenced u = false ∧ m.actuation.park u = .awake) ?_ (finRange n)).mono_post ?_)
        · intro done u
          refine ((meets_setDrainedMask config done u).mono_pre ?_).mono_post ?_
          · exact fun m _ hm => ⟨hm.1.1, hm.2⟩
          · exact fun _ m _ hm => ⟨⟨hm.1, nofun⟩, hm.2⟩
        · exact fun _ m _ hm => ⟨hm.1.1, hm.2⟩
      · -- What is fenced or not awake is in the mask.
        refine .modify hl fun m hI hm => ⟨⟨rfl, id, fun u hu _ => ?_⟩, hm.1, ?_⟩
        · by_contra ha
          obtain ⟨hn, hp⟩ :=
            hm.2 u (mem_finRange u) (eq_false_of_not_eq_true ha)
          rcases hu with hu | hu
          · rw [hn] at hu
            cases hu
          · exact hu hp
        · exact nofun
      · exact .modify hl fun m _ hm => ⟨⟨rfl, id, fun _ _ => id⟩, hm⟩
    case h_2 => exact fun _ _ hm => hm
  · intro _
    refine .modify (fun _ _ _ _ => trivial) fun m _ hm => ⟨⟨rfl, fun h => ?_, ?_⟩, trivial⟩
    · rw [hm.1] at h
      cases h
    · exact fun _ _ => id

/-! ## Rounds -/

/-- Between rounds, what the policy does not leave warm is fenced. -/
structure Rested (m : ParkingMemory n) : Prop where
  stage : m.actuation.stage = .idle
  fenced : config.idleDrain.mode.fencesRouting → ∀ u, m.policy.states u ≠ .warm →
    m.fenced u ∧ m.drained u

structure Ticked (stage : ParkStage) (m : ParkingMemory n) : Prop where
  stage : m.actuation.stage = stage
  stoppable : ∀ u, (m.intents u).safeToStop →
    (m.intents u).fenced ∧ m.fenced u ∧ m.drained u ∧ m.inflight u = 0
  intended : ∀ u, (m.intents u).fenced ↔
    config.idleDrain.mode.fencesRouting ∧ m.policy.states u ≠ .warm

structure Fenced (stage : ParkStage) (m : ParkingMemory n) : Prop extends
    Ticked config stage m where
  published : ∀ u, m.fenced u = (m.intents u).fenced
  drained : ∀ u, (m.intents u).fenced → m.drained u

theorem Rested.stable : Stable (parkingRely .drainer) (Rested config) := by
  intro m m' hm hr
  have hr : DrainerRely m m' := hr
  refine ⟨hr.stage.trans hm.stage, fun hf u hu => ?_⟩
  rw [hr.states] at hu
  obtain ⟨hn, hd⟩ := hm.fenced hf u hu
  exact ⟨hr.fenced ▸ hn, hr.drained u (.inl hn) hd⟩

variable {config} {stage : ParkStage}

theorem Ticked.rely (hm : Ticked config stage m) (hr : DrainerRely m m') :
    Ticked config stage m' := by
  refine ⟨hr.stage.trans hm.stage, fun u hu => ?_, fun u => ?_⟩
  · rw [hr.intents] at hu ⊢
    obtain ⟨hn, hf, hd, hq⟩ := hm.stoppable u hu
    exact ⟨hn, hr.fenced ▸ hf, hr.drained u (.inl hf) hd, hr.quiet u hd hq⟩
  · rw [hr.intents, hr.states]
    exact hm.intended u

theorem Fenced.rely (hm : Fenced config stage m) (hr : DrainerRely m m') :
    Fenced config stage m' := by
  refine ⟨hm.toTicked.rely hr, fun u => ?_, fun u hu => ?_⟩
  · rw [hr.fenced, hr.intents]
    exact hm.published u
  · rw [hr.intents] at hu
    exact hr.drained u (.inl ((hm.published u).trans hu)) (hm.drained u hu)

theorem Fenced.rested (hm : Fenced config .idle m) : Rested config m := by
  refine ⟨hm.stage, fun hf u hu => ?_⟩
  have hn := (hm.intended u).2 ⟨hf, hu⟩
  exact ⟨(hm.published u).trans hn, hm.drained u hn⟩

theorem drains_of_eq (h : m.Safe config) {policy : IdleDrainPolicy n}
    {samples : Fin n → UpstreamObservation} {intents : Fin n → UpstreamIntent}
    {round : RoundPhase} {kept : Bool} :
    Drains config m { m with policy, samples, intents, round, kept } :=
  ⟨rfl, fun ha => ⟨ha, rfl⟩, fun _ hu _ => hu, h.parked, .inl rfl⟩

theorem routingFenced_of_parked (h : m.Safe config) {u : Fin n}
    (hu : m.actuation.park u ≠ .awake) : m.routingFenced config u := by
  simp only [ParkingMemory.routingFenced, Ramjet.fenced, parkState_eq config h, mustFence_iff.2 hu,
    Bool.or_true]

theorem routingFenced_of_intent {u : Fin n} (hu : (m.intents u).fenced) :
    m.routingFenced config u := by
  simp only [ParkingMemory.routingFenced, Ramjet.fenced, hu, Bool.true_or, Bool.or_true]

theorem drains_setDrained (h : m.Safe config) (u : Fin n) :
    Drains config m (m.setDrained config u) := by
  refine ⟨rfl, fun ha => ⟨ha, rfl⟩, fun _ hv _ => hv, fun v hv => ?_, .inl rfl⟩
  obtain ⟨hd, hq⟩ := h.parked v hv
  refine ⟨?_, hq⟩
  simp only [ParkingMemory.setDrained, update_apply]
  split
  case isTrue hu => exact routingFenced_of_parked h (hu ▸ hv)
  case isFalse => exact hd

theorem drained_setDrained {u v : Fin n} (hv : (m.intents v).fenced)
    (hd : v = u ∨ m.drained v) : (m.setDrained config u).drained v := by
  simp only [ParkingMemory.setDrained, update_apply]
  split
  case isTrue hu => exact routingFenced_of_intent (hu ▸ hv)
  case isFalse hu =>
    rcases hd with rfl | hd
    · exact absurd rfl hu
    · exact hd

theorem Ticked.setDrained (hm : Ticked config stage m) (u : Fin n) :
    Ticked config stage (m.setDrained config u) := by
  refine ⟨hm.stage, fun v hv => ?_, hm.intended⟩
  obtain ⟨hn, hf, hd, hq⟩ := hm.stoppable v hv
  exact ⟨hn, hf, drained_setDrained hn (.inr hd), hq⟩

theorem Fenced.setDrained (hm : Fenced config stage m) (u : Fin n) :
    Fenced config stage (m.setDrained config u) :=
  ⟨hm.toTicked.setDrained u, hm.published,
    fun v hv => drained_setDrained hv (.inr (hm.drained v hv))⟩

theorem Ticked.setAuthority (hm : Ticked config stage m) (authority : Option AuthorityOwner) :
    Ticked config stage { m with authority } :=
  ⟨hm.stage, hm.stoppable, hm.intended⟩

theorem Fenced.setAuthority (hm : Fenced config stage m) (authority : Option AuthorityOwner) :
    Fenced config stage { m with authority } :=
  ⟨hm.toTicked.setAuthority authority, hm.published, hm.drained⟩

theorem stable_locked {P : ParkingMemory n → Prop} (h : ∀ m m', P m → DrainerRely m m' → P m') :
    Stable (parkingRely .drainer) fun m => m.authority = some .drainer ∧ P m :=
  fun m m' hm hr => ⟨DrainerRely.authority hr hm.1, h m m' hm.2 hr⟩

theorem drains_lock (h : m.Safe config) (hf : m.authority = none) :
    Drains config m (m.lock .drainer) :=
  ⟨rfl, fun ha => (by rw [hf] at ha; cases ha), fun _ hu _ => hu, h.parked, .inl rfl⟩

theorem drains_unlock (h : m.Safe config) (hh : m.authority = some .drainer) :
    Drains config m m.unlock :=
  ⟨rfl, fun ha => (by rw [hh] at ha; cases ha), fun _ hu _ => hu, h.parked, .inl rfl⟩

abbrev RoundMeets (config : ParkingConfig n) {α : Type} (t : ParkingThread n α)
    (P : ParkingMemory n → Prop) (Q : α → ParkingMemory n → Prop) : Prop :=
  t.Meets (ParkingMemory.Safe config) (parkingRely .drainer) (Drains config) P Q

theorem meets_locked {P P' : ParkingMemory n → Prop} {body : ParkingThread n Unit}
    (hP : ∀ m m', P m → DrainerRely m m' → P m') (hP' : ∀ m m', P' m → DrainerRely m m' → P' m')
    (hl : ∀ m, P m → P (m.lock .drainer)) (hu : ∀ m, P' m → P' m.unlock)
    (hb : RoundMeets config body (fun m => m.authority = some .drainer ∧ P m) fun _ m =>
      m.authority = some .drainer ∧ P' m) :
    RoundMeets config (do lock .drainer; body; unlock) P fun _ => P' := by
  refine .bind (Q := fun _ m => m.authority = some .drainer ∧ P m) ?_ fun _ =>
    .bind hb fun _ => ?_
  · refine .await (stable_locked hP) fun m hI hm hf => ?_
    exact ⟨drains_lock hI (of_decide_eq_true hf), rfl, hl m hm⟩
  · refine .modify (fun m m' hm hr => hP' m m' hm hr) fun m hI hm => ?_
    exact ⟨drains_unlock hI hm.1, hu m hm.2⟩

theorem meets_applyParkFences (stage : ParkStage) :
    RoundMeets config (applyParkFences config) (Fenced config stage)
      fun _ => Fenced config stage := by
  have hr : ∀ m m' : ParkingMemory n, Fenced config stage m → DrainerRely m m' →
      Fenced config stage m' := fun _ _ hm => hm.rely
  refine meets_locked hr hr (fun m hm => hm.setAuthority _) (fun m hm => hm.setAuthority _) ?_
  refine .forEach fun u _ => .modify (stable_locked hr) fun m hI hm => ?_
  exact ⟨drains_setDrained hI u, hm.1, hm.2.setDrained u⟩

theorem drains_publishFenced (h : m.Safe config) (hh : m.authority = some .drainer) :
    Drains config m m.publishFenced :=
  ⟨rfl, fun ha => (by rw [hh] at ha; cases ha), fun _ hu _ => hu, h.parked, .inl rfl⟩

theorem meets_publishFences : RoundMeets config (publishFences config)
      (fun m => m.authority = some .drainer ∧ Ticked config .idle m) fun _ m =>
        m.authority = some .drainer ∧ Fenced config .idle m := by
  -- The policy's fences are out; the router's follow one by one.
  let Writing : ParkingMemory n → Prop := fun m =>
    Ticked config .idle m ∧ ∀ u, m.fenced u = (m.intents u).fenced
  have hw : ∀ m m' : ParkingMemory n, Writing m → DrainerRely m m' → Writing m' := by
    refine fun m m' hm hr => ⟨hm.1.rely hr, fun u => ?_⟩
    rw [hr.fenced, hr.intents]
    exact hm.2 u
  refine .bind (Q := fun _ m => m.authority = some .drainer ∧ Writing m) ?_ fun _ => ?_
  · refine .modify (stable_locked hw) fun m hI hm => ?_
    refine ⟨drains_publishFenced hI hm.1, hm.1, ⟨hm.2.stage, fun u hu => ?_, hm.2.intended⟩, ?_⟩
    · obtain ⟨hn, -, hd, hq⟩ := hm.2.stoppable u hu
      exact ⟨hn, hn, hd, hq⟩
    · exact fun _ => rfl
  · split
    case isTrue =>
      refine (Meets.forEach_all (P := fun m => m.authority = some .drainer ∧ Writing m)
        (D := fun u m => (m.intents u).fenced = true → m.drained u = true) (fun done u => ?_)
        (finRange n)).mono_post fun _ m _ hm => ?_
      · refine Meets.modify ?_ fun m hI hm => ⟨drains_setDrained hI u, ?_, fun v hv hn => ?_⟩
        · intro m m' hm hr
          have hr : DrainerRely m m' := hr
          refine ⟨stable_locked hw m m' hm.1 hr, fun v hv hn => ?_⟩
          rw [hr.intents] at hn
          have hf : m.fenced v := (hm.1.2.2 v).trans hn
          exact hr.drained v (.inl hf) (hm.2 v hv hn)
        · exact ⟨hm.1.1, hm.1.2.1.setDrained u, hm.1.2.2⟩
        · rcases mem_cons.1 hv with rfl | hv
          · exact drained_setDrained hn (.inl rfl)
          · exact drained_setDrained hn (.inr (hm.2 v hv hn))
      · exact ⟨hm.1.1, hm.1.2.1, hm.1.2.2, fun u => hm.2 u (mem_finRange u)⟩
    case isFalse ho =>
      -- Nothing is fenced when the policy only observes.
      refine fun m _ hm => ⟨hm.1, hm.2.1, hm.2.2, fun u hu => ?_⟩
      exact absurd ((hm.2.1.intended u).1 hu).1 ho

theorem meets_publishIdleDrain :
    RoundMeets config (publishIdleDrain config) (Ticked config .idle)
      fun _ => Fenced config .idle :=
  meets_locked (fun _ _ hm => hm.rely) (fun _ _ hm => hm.rely) (fun _ hm => hm.setAuthority _)
    (fun _ hm => hm.setAuthority _) meets_publishFences

theorem drains_plan (h : m.Safe config) (ho : config.actuates)
    (hg : m.actuation.stage = .idle) : Drains config m (m.plan config) := by
  refine ⟨rfl, fun ha => ⟨ha, rfl⟩, fun _ hu _ => hu, h.parked, .inr ⟨ho, .plan m.intents, ?_⟩⟩
  exact ⟨trivial, if_pos hg⟩

theorem drains_mark (h : m.Safe config) (ho : config.actuates)
    (hg : m.actuation.stage = .planned) (hs : ∀ u, m.actuation.actions u = some .sleep →
      m.fenced u ∧ m.drained u ∧ m.inflight u = 0) : Drains config m m.mark := by
  have hl : ∀ u, m.actuation.park u = .awake → m.mark.actuation.park u ≠ .awake →
      m.actuation.actions u = some .sleep := by
    intro u hw hm
    cases hc : m.actuation.actions u with
    | none =>
      simp only [ParkingMemory.mark, mark, markState, hc] at hm
      exact absurd hw hm
    | some action => rw [h.believes.planned hg u action hc hw]
  refine ⟨rfl, fun ha => ⟨ha, rfl⟩, fun u hw hf => ?_, fun u hu => ?_,
    .inr ⟨ho, .mark, trivial, if_pos hg⟩⟩
  · by_contra hn
    rw [(hs u (hl u hw hn)).1] at hf
    cases hf
  by_cases hw : m.actuation.park u = .awake
  · exact (hs u (hl u hw hu)).2
  · exact h.parked u hw

theorem drains_collect (h : m.Safe config) (hn : config.actuates) (hg : m.actuation.stage = .marked)
    (hc : m.actuation.collectable) : Drains config m m.collect := by
  have ho : ∀ u, m.actuation.park u = .awake → m.collect.actuation.park u = .awake := by
    intro u hw
    simp only [ParkingMemory.collect, collect, outcome]
    split
    case h_1 hb _ => exact absurd hw (h.believes.marked hg u _ hb)
    case h_2 => exact hw
  refine ⟨rfl, fun ha => ⟨ha, rfl⟩, fun u hw _ => ho u hw, fun u hu => ?_,
    .inr ⟨hn, .collect, trivial, if_pos ⟨hg, hc⟩⟩⟩
  exact h.parked u fun hw => hu (ho u hw)

theorem Fenced.setActuation (hm : Fenced config stage m) (actuation : ParkActuation n) :
    Fenced config actuation.stage { m with actuation } :=
  ⟨⟨rfl, hm.stoppable, hm.intended⟩, hm.published, hm.drained⟩

theorem meets_collectOutcomes (hn : config.actuates) :
    RoundMeets config (collectOutcomes config) (Fenced config .marked) fun _ => Rested config := by
  have hc : RoundMeets config (await (·.actuation.collectable) (·.collect))
      (Fenced config .marked) fun _ => Fenced config .idle := by
    refine .await (fun _ _ hm => hm.rely) fun m hI hm ho => ?_
    exact ⟨drains_collect hI hn hm.stage ho, hm.setActuation m.actuation.collect⟩
  refine .bind (Q := fun _ => Fenced config .marked) ?_ fun pending => ?_
  · refine .atomic (fun _ _ _ hm => hm.rely) fun _ m hI hm => ⟨?_, hm⟩
    exact drains_of_eq hI
  split
  · refine .bind hc fun _ => (meets_applyParkFences .idle).mono_post ?_
    exact fun _ m _ hm => hm.rested
  · exact hc.mono_post fun _ m _ hm => hm.rested

theorem meets_convergeEngineParking :
    RoundMeets config (convergeEngineParking config) (Fenced config .idle)
      fun _ => Rested config := by
  unfold convergeEngineParking
  split
  case isFalse => exact fun m _ hm => hm.rested
  case isTrue ho =>
    let Planned : ParkingMemory n → Prop := fun m => Fenced config .planned m ∧
      ∀ u, m.actuation.actions u = some .sleep → (m.intents u).safeToStop = true
    refine .bind (Q := fun _ => Planned) ?_ fun _ =>
      .bind (Q := fun _ => Fenced config .marked) ?_ fun _ =>
      .bind (meets_applyParkFences .marked) fun _ => meets_collectOutcomes ho
    · refine .modify ?_ fun m hI hm => ⟨drains_plan hI ho hm.stage, ?_, fun u hu => ?_⟩
      · intro m m' hm hr
        have hr : DrainerRely m m' := hr
        refine ⟨hm.1.rely hr, ?_⟩
        rw [hr.actions, hr.intents]
        exact hm.2
      · exact hm.setActuation (m.actuation.planRound config.enginePark m.intents)
      · have hp : Plannable (m.intents u) (m.actuation.park u) .sleep :=
          plannable_planParking hu
        exact hp.1
    · refine .modify (fun _ _ hm => hm.rely) fun m hI hm => ⟨?_, ?_⟩
      · exact drains_mark hI ho hm.1.stage fun u hu => (hm.1.stoppable u (hm.2 u hu)).2
      · exact hm.1.setActuation m.actuation.mark

variable (config) in
def Sampled (m : ParkingMemory n) (u : Fin n) : Prop :=
  config.idleDrain.mode.fencesRouting → m.policy.states u ≠ .warm →
    (m.samples u).inflight = 0 → m.inflight u = 0

theorem meets_samples :
    (forEach (fun u => modify (·.sample u)) (finRange n) : ParkingThread n Unit).Meets
      (ParkingMemory.Safe config) (parkingRely .drainer) (Drains config) (Rested config)
      fun _ m => Rested config m ∧ ∀ u, Sampled config m u := by
  refine (Meets.forEach_all (D := fun u m => Sampled config m u)
    (fun done u => Meets.modify ?_ fun m hI hm => ?_) (finRange n)).mono_post ?_
  · -- A fenced replica takes no requests, so a sample of none stays true.
    intro m m' hm hr
    have hr' : DrainerRely m m' := hr
    refine ⟨Rested.stable config m m' hm.1 hr, fun v hv hf ht hs => ?_⟩
    rw [hr'.states] at ht
    rw [hr'.samples] at hs
    have hd := (hm.1.fenced hf v ht).2
    exact hr'.quiet v hd (hm.2 v hv hf ht hs)
  · refine ⟨drains_of_eq hI, ⟨hm.1.stage, hm.1.fenced⟩, fun v hv hf ht hs => ?_⟩
    simp only [ParkingMemory.sample, update_apply] at hs
    split at hs
    case isTrue hu => exact hu ▸ hs
    case isFalse hu =>
      rcases mem_cons.1 hv with rfl | hv
      · exact absurd rfl hu
      · exact hm.2 v hv hf ht hs
  · exact fun _ m _ hm => ⟨hm.1, fun u => hm.2 u (mem_finRange u)⟩

/-- A decision to stop rests on a fence of an earlier round. -/
theorem ticked_tick (hm : Rested config m) (hs : ∀ u, Sampled config m u)
    (nowMs : Nat) : Ticked config .idle (m.tick config nowMs) := by
  have hi : ∀ u, (m.tick config nowMs).intents u =
      (m.tick config nowMs).policy.intent config.idleDrain (ofFn m.samples) u :=
    congrFun tick_upstreams
  refine ⟨hm.stage, fun u hu => ?_, fun u => ?_⟩
  · rw [hi] at hu ⊢
    obtain ⟨hf, ht, hp⟩ := intent_safeToStop hu
    have hb : m.policy.states u ≠ .warm := tick_drained ht
    obtain ⟨hn, hd⟩ := hm.fenced hf u hb
    refine ⟨intent_fenced.2 ⟨hf, ?_⟩, hn, hd, ?_⟩
    · rw [ht]
      decide
    · refine hs u hf hb ?_
      simpa using hp
  · rw [hi]
    exact intent_fenced

theorem meets_idleDrainRound :
    RoundMeets config (idleDrainRound config) (Rested config) fun _ => Rested config := by
  unfold idleDrainRound
  split
  case isFalse => exact fun m _ hm => hm
  case isTrue =>
    refine .bind (Q := fun _ => Rested config) ?_ fun _ => .bind meets_samples fun _ =>
      .bind (Q := fun _ => Ticked config .idle) ?_ fun _ => .bind meets_publishIdleDrain fun _ =>
      .bind meets_convergeEngineParking fun _ => ?_
    · refine .modify (Rested.stable config) fun m hI hm => ?_
      exact ⟨drains_of_eq hI, hm.stage, hm.fenced⟩
    · refine .atomic (fun _ _ _ hm => hm.rely) fun answers m hI hm => ?_
      exact ⟨drains_of_eq hI, ticked_tick hm.1 hm.2 answers.nowMs⟩
    · refine .modify (Rested.stable config) fun m hI hm => ?_
      exact ⟨drains_of_eq hI, hm.stage, hm.fenced⟩

end Threads

/-! ## The machine -/

variable (config) (start : ParkActuation n → Prop)

def parkingIdle : ParkingSlot n → ParkingMemory n → Prop
  | .drainer => Rested config
  | .call _ | .topology | .request _ | .health | .outside => fun _ => True

theorem ParkingMemory.Initial.safe (h : m.Initial) : m.Safe config where
  believes := h.actuation.believes
  parked u hu := absurd (congrFun h.actuation.park u) hu
  resting _ := congrFun h.actuation.park
  sleeps call hc := by
    rw [h.sleeps] at hc
    cases hc

theorem ParkingMemory.Initial.rested (h : m.Initial) : Rested config m where
  stage := h.actuation.stage
  fenced _ u hu := by
    rw [h.policy] at hu
    exact absurd rfl hu

theorem meets_engineEvent {event : ParkEvent n} (he : event.ofEngine) :
    (modify (·.engineEvent config event) : ParkingThread n Unit).Meets
      (ParkingMemory.Safe config) (parkingRely .outside) (Happens config false) (fun _ => True)
      fun _ _ => True := by
  refine .modify (fun _ _ _ _ => trivial) fun m _ _ => ⟨?_, trivial⟩
  unfold ParkingMemory.engineEvent
  cases hn : m.actuation.next config.enginePark config.upstreams event with
  | none => exact .inl rfl
  | some actuation => exact .inr (.inr (.inr ⟨event, actuation, he, hn, rfl⟩))

def parkingSpec (C : ParkingMemory n → ParkingMove n → Prop) :
    (parkingMachine config start).Spec C where
  inv := ParkingMemory.Safe config
  rely := parkingRely
  guar := parkingGuarantee config
  idle := parkingIdle config
  init m hm := by
    refine ⟨hm.1.safe config, fun i => ?_⟩
    cases i with
    | drainer => exact hm.1.rested config
    | _ => trivial
  stable_idle i := by
    cases i with
    | drainer => exact Rested.stable config
    | _ => exact fun _ _ _ _ => trivial
  inv_step i _ _ _ hiv _ hguar := hiv.step i hguar
  compatible i j _ _ _ hij _ _ hguar := parkingCompatible i j hij hguar
  meets k := by
    cases k with
    | idleDrainRound => exact meets_idleDrainRound
    | actuatePark u => exact meets_actuatePark config u
    | setTopologyActive active => exact meets_setTopologyActive config active
    | request k u failingOpen => exact meets_parkingRequest config k u failingOpen
    | setHealthy u healthy =>
      exact Meets.modify (fun _ _ _ _ => trivial) fun m _ _ => ⟨.inr (.inl ⟨rfl, _, rfl⟩), trivial⟩
    | observeActivity =>
      refine Meets.atomic (fun _ _ _ _ _ => trivial) fun answers m _ _ => ⟨?_, trivial⟩
      exact .inr (.inr (.inl ⟨answers.nowMs, rfl⟩))
    | sleepTakesEffect u => exact meets_engineEvent config trivial
    | wakeTakesEffect u => exact meets_engineEvent config trivial

/-- Over every interleaving of rounds, calls, requests and topology changes, from engines
in whatever state: every sleep was sent to an upstream that was drained and had nothing
in flight, and the upstream is drained until it was found awake. -/
theorem sleeps_only_drained {s : Machine.State (ParkingMemory n) ParkingAnswers (ParkingSlot n)}
    (h : ((parkingMachine config fun _ => True).system fun _ _ => True).Reachable s) :
    (∀ call ∈ s.memory.sleeps, call.drained ∧ call.inflight call.upstream = 0) ∧
      ∀ u, s.memory.actuation.sleeping u → s.memory.drained u := by
  have hs := (parkingSpec config (fun _ => True) fun _ _ => True).inv_of_reachable h
  refine ⟨hs.sleeps, fun u hu => ?_⟩
  exact (hs.parked u (hs.believes.sleeping u hu)).1

open SampleParking in
theorem sleeps_only_drained_sample :
    ∃ s, ((parkingMachine (pair false) fun _ => True).system fun _ _ => True).Reachable s ∧
      s.memory.actuation.sleeping 1 ∧ s.memory.drained 1 := by
  obtain ⟨s, hr, hl⟩ := (parkingMachine (pair false) fun _ => True).exists_reachable
    (fun _ _ => True) quietReplica (fun s => s.memory.actuation.sleeping 1) ⟨initial, trivial⟩
    (by decide +kernel)
  exact ⟨s, hr, hl, (sleeps_only_drained _ hr).2 1 hl⟩

end Ramjet
