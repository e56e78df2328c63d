import Ramjet.GuardFiles
import Ramjet.GuardReplica
import Ramjet.Lib.Runs

/-!
# Quarantines across crashes and restarts

Processes over the durable quarantine store. A quarantine entered under a commitment
should outlive the process until another commitment is attested.
-/

namespace Ramjet
open TransitionSystem GuardStore Option GuardReplica Function

/-! ## Processes and their disk -/

structure QuarantineConfig (n : Nat) where
  thresholds : GuardThresholds
  upstreams : Fin n → Bytes 32
  initialProbeHealth : Bool

structure GuardProcess (n : Nat) where
  store : GuardStore n
  replicas : Fin n → GuardReplica
  /-- The router's health flags. -/
  healthy : Fin n → Bool

inductive Lifetime (n : Nat) where
  | down (disk : Disk)
  | up (process : GuardProcess n)

/-- `convicted` is the commitment under which a replica met its threshold and entered
quarantine, until another one is attested. -/
structure GuardedFleet (n : Nat) where
  lifetime : Lifetime n
  convicted : Fin n → Option (Bytes 32)

inductive GuardEvent (n : Nat) where
  /-- A guard round of one upstream. -/
  | round (upstream : Fin n) (sample : Except ParseFailure DsparkCounters)
      (attested : Option (Bytes 32)) (io : Publication)
  /-- A probe result, a failed request or a completed one. -/
  | probe (upstream : Fin n) (healthy : Bool)
  /-- Any other task withdraws the router's flag. -/
  | withhold (upstream : Fin n)
  | start (check : OpenCheck) (arm drop : Publication)
  | exit (io : Publication)
  | crash
  /-- The host goes down: of the files renamed since the last sync, one is left. -/
  | powerLoss (survivor : Nat)

section Events
variable {n : Nat} (config : QuarantineConfig n)

/-- The commitment under which a round enters quarantine. -/
def GuardReplica.entered (replica : GuardReplica) (upstream : Fin n)
    (sample : Except ParseFailure DsparkCounters) (attested : Option (Bytes 32))
    (store : Option (GuardStore n)) (io : Publication) : Option (Bytes 32) :=
  let reconciled := (replica.reconcileEngineCore config.upstreams upstream attested store io).1
  let (observed, observation) := reconciled.withObservation sample
  if observed.enters .quarantine observation then attested.or observed.guard.incarnation else none

/-- What is left of a conviction after a round. -/
def convict (convicted attested entered : Option (Bytes 32)) : Option (Bytes 32) :=
  entered.or (convicted.filter fun c => attested.all (· = c))

namespace GuardProcess
variable (process : GuardProcess n) (upstream : Fin n)

def publish (replica : GuardReplica) : GuardProcess n :=
  { process with
    replicas := update process.replicas upstream replica
    healthy := update process.healthy upstream replica.effective }

def boot (store : GuardStore n) : GuardProcess n :=
  let replicas := fun upstream =>
    new config.thresholds .quarantine config.initialProbeHealth
      (store.quarantinedEngineCore upstream) (store.requiresUncertainFence upstream)
  ⟨store, replicas, fun upstream => (replicas upstream).effective⟩

def round (sample : Except ParseFailure DsparkCounters)
    (attested : Option (Bytes 32)) (io : Publication) : GuardProcess n :=
  let (replica, store, _) := (process.replicas upstream).apply config.upstreams upstream .quarantine
    sample attested (some process.store) io
  { process.publish upstream replica with store := store.getD process.store }

end GuardProcess

variable (s : GuardedFleet n)

def GuardedFleet.next (event : GuardEvent n) : Option (GuardedFleet n) :=
  match s.lifetime, event with
  | .up process, .round upstream sample attested io =>
    let entered := (process.replicas upstream).entered config upstream sample attested
      (some process.store) io
    some
      { lifetime := .up (process.round config upstream sample attested io)
        convicted := update s.convicted upstream
          (convict (s.convicted upstream) attested entered) }
  | .up process, .probe upstream healthy =>
    some { s with
      lifetime := .up (process.publish upstream
        { process.replicas upstream with probeHealthy := healthy }) }
  | .up process, .withhold upstream =>
    some { s with
      lifetime := .up { process with healthy := update process.healthy upstream false } }
  | .up process, .exit io => some { s with lifetime := .down (process.store.drop io) }
  | .up process, .crash => some { s with lifetime := .down process.store.disk }
  | .up process, .powerLoss survivor =>
    process.store.disk.survivors[survivor]?.map fun file =>
      { s with lifetime := .down ⟨file, [file]⟩ }
  | .down disk, .powerLoss survivor =>
    disk.survivors[survivor]?.map fun file => { s with lifetime := .down ⟨file, [file]⟩ }
  | .down disk, .start check arm drop =>
    match openGuardStore config.upstreams disk check arm drop with
    | (disk, .error _) => some { s with lifetime := .down disk }
    | (_, .ok store) => some { s with lifetime := .up (.boot config store) }
  | _, _ => none

/-- Nothing is running and the operator's file is on the path. -/
def guardedFleet : TransitionSystem (GuardedFleet n) (GuardEvent n) where
  init s := (∃ file, s.lifetime = .down ⟨file, [file]⟩) ∧ s.convicted = fun _ => none
  step s event s' := s.next config event = some s'

/-- The router's flag of an upstream; a process that is down serves nothing. -/
def GuardedFleet.healthy (upstream : Fin n) : Bool :=
  match s.lifetime with
  | .down _ => false
  | .up process => process.healthy upstream

end Events

/-! ## Where a replica stands -/

section Standing
variable {n : Nat}

/-- How the replica, the records and the files that may survive agree. -/
inductive Standing (upstreams : Fin n → Bytes 32) (store : GuardStore n) (u : Fin n)
    (replica : GuardReplica) (convicted : Option (Bytes 32)) : Prop
  | uncertain (hfc : replica.durableFence = .startupUncertain)
      (hreco : store.state.records u = none)
      (hm : store.state.uncertainReplicas u)
      (hfls : ∀ c, convicted = some c → ∀ f ∈ store.disk.survivors, f.Fences u c)
  | awaiting (hfc : replica.durableFence = .awaitingAttestation)
      (hgd : replica.guard.quarantined = false) (hreco : store.state.records u = none)
      (hm : store.state.poisonedReplicas u)
      (hfls : ∀ f ∈ store.disk.survivors, f.Unrecorded u)
  | pending (commitment : Bytes 32) (hfc : replica.durableFence = .pendingQuarantine commitment)
      (hgd : replica.guard.quarantined = false) (hreco : store.state.records u = none)
      (hm : store.state.poisonedReplicas u)
      (hfls : ∀ f ∈ store.disk.survivors, f.Fences u commitment)
      (hconv : ∀ c, convicted = some c → c = commitment)
  | serving (hfc : replica.durableFence = .ready) (hgd : replica.guard.quarantined = false)
      (hreco : store.state.records u = none)
      (hfls : ∀ f ∈ store.disk.survivors, f.Unrecorded u) (hconv : convicted = none)
  | quarantined (record : QuarantineRecord)
      (hfc : replica.durableFence = .ready ∨ replica.durableFence = .rearmPersistenceFailure)
      (hgd : replica.guard.quarantined)
      (hinc : replica.guard.incarnation = some record.engineCoreSha256)
      (hreco : store.state.records u = some record)
      (hup : record.upstreamSha256 = upstreams u)
      (hconv : ∀ c, convicted = some c → c = record.engineCoreSha256 ∧
        ∀ f ∈ store.disk.survivors, f.Fences u c)

namespace Standing
variable {ups : Fin n → Bytes 32} {store store' : GuardStore n} {u v : Fin n}
  {rep : GuardReplica} {convicted : Option (Bytes 32)} {commitment : Bytes 32}

theorem congr (h : Standing ups store u rep convicted) (rep' : GuardReplica)
    (hfc : rep'.durableFence = rep.durableFence)
    (hgd : rep'.guard.quarantined = rep.guard.quarantined)
    (hinc : rep'.guard.incarnation = rep.guard.incarnation) :
    Standing ups store u rep' convicted := by
  rcases h with ⟨h1, h2, h3, h4⟩ | ⟨h1, h2, h3, h4, h5⟩ | ⟨c, h1, h2, h3, h4, h5, h6⟩ |
    ⟨h1, h2, h3, h4, h5⟩ | ⟨r, h1, h2, h3, h4, h5, h6⟩
  · exact .uncertain (hfc.trans h1) h2 h3 h4
  · exact .awaiting (hfc.trans h1) (hgd.trans h2) h3 h4 h5
  · exact .pending c (hfc.trans h1) (hgd.trans h2) h3 h4 h5 h6
  · exact .serving (hfc.trans h1) (hgd.trans h2) h3 h4 h5
  · rw [← hfc] at h1
    exact .quarantined r h1 (hgd.trans h2) (hinc.trans h3) h4 h5 h6

theorem fences_of_touches (h : Touches u store store') (hv : v ≠ u)
    (hfls : ∀ f ∈ store.disk.survivors, f.Fences v commitment)
    (hreco : ∀ record, store.state.records v = some record → record.engineCoreSha256 = commitment) :
    ∀ f ∈ store'.disk.survivors, f.Fences v commitment := by
  intro f hf
  rcases h.survivors f hf with hf | ⟨records, hc, hs⟩
  · exact hfls f hf
  rcases hr : store.state.records v with - | record
  · exact .inl ⟨records, hc, (hs v hv).trans hr⟩
  · refine .inr ⟨records, true, hc, ?_⟩
    rw [hs v hv, hr, map_some, hreco record hr]

theorem unrecorded_of_touches (h : Touches u store store') (hv : v ≠ u)
    (hreco : store.state.records v = none) (hfls : ∀ f ∈ store.disk.survivors, f.Unrecorded v) :
    ∀ f ∈ store'.disk.survivors, f.Unrecorded v := by
  intro f hf
  rcases h.survivors f hf with hf | ⟨records, hc, hs⟩
  · exact hfls f hf
  · exact ⟨records, hc, (hs v hv).trans hreco⟩

theorem of_touches (h : Standing ups store v rep convicted)
    (ht : Touches u store store') (hv : v ≠ u) : Standing ups store' v rep convicted := by
  have hn : ∀ c : Bytes 32, store.state.records v = none → ∀ record,
      store.state.records v = some record → record.engineCoreSha256 = c := by
    intro c hn record hs
    rw [hn] at hs
    cases hs
  rcases h with ⟨h1, h2, h3, h4⟩ | ⟨h1, h2, h3, h4, h5⟩ | ⟨c, h1, h2, h3, h4, h5, h6⟩ |
    ⟨h1, h2, h3, h4, h5⟩ | ⟨r, h1, h2, h3, h4, h5, h6⟩
  · exact .uncertain h1 ((ht.records v hv).trans h2) ((ht.uncertain v hv).trans h3)
      fun c hc => fences_of_touches ht hv (h4 c hc) (hn c h2)
  · exact .awaiting h1 h2 ((ht.records v hv).trans h3) ((ht.poisoned v hv).trans h4)
      (unrecorded_of_touches ht hv h3 h5)
  · exact .pending c h1 h2 ((ht.records v hv).trans h3) ((ht.poisoned v hv).trans h4)
      (fences_of_touches ht hv h5 (hn c h3)) h6
  · exact .serving h1 h2 ((ht.records v hv).trans h3) (unrecorded_of_touches ht hv h3 h4) h5
  · refine .quarantined r h1 h2 h3 ((ht.records v hv).trans h4) h5 fun c hc => ?_
    obtain ⟨hr, hfls⟩ := h6 c hc
    refine ⟨hr, fences_of_touches ht hv hfls fun record hs => ?_⟩
    rw [h4] at hs
    cases hs
    exact hr.symm

section
variable (h : Standing ups store u rep (some commitment))
include h

theorem effective_eq_false : rep.effective = false := by
  have hb : ∀ fence : DurableFenceState, fence ≠ .ready → rep.durableFence = fence →
      rep.effective = false := by
    intro fence hn hfc
    simp [effective, DurableFenceState.blocksServing, hfc, hn]
  rcases h with ⟨h1, -, -, -⟩ | ⟨h1, -, -, -, -⟩ | ⟨c, h1, -, -, -, -, -⟩ |
    ⟨-, -, -, -, h5⟩ | ⟨r, -, h2, -, -, -, -⟩
  · exact hb _ (by simp) h1
  · exact hb _ (by simp) h1
  · exact hb _ (by simp) h1
  · cases h5
  · simp [effective, h2]

theorem fences : ∀ f ∈ store.disk.survivors, f.Fences u commitment := by
  rcases h with ⟨-, -, -, h4⟩ | ⟨-, -, -, -, h5⟩ | ⟨c, -, -, -, -, h5, h6⟩ |
    ⟨-, -, -, -, h5⟩ | ⟨r, -, -, -, -, -, h6⟩
  · exact h4 commitment rfl
  · exact fun f hf => .inl (h5 f hf)
  · exact h6 commitment rfl ▸ h5
  · cases h5
  · exact (h6 commitment rfl).2

end

/-! ## A guard round -/

theorem enforce (ups : Fin n → Bytes 32) (io : Publication)
    (hfls : ∀ f ∈ store.disk.survivors, f.Unrecorded u) (hgd : rep.guard.quarantined = false)
    (hreco : store.state.records u = none) (attested convicted : Option (Bytes 32))
    (hconv : ∀ c d, convicted = some c → attested = some d → c = d) :
    ∃ store', (rep.enforceQuarantine ups u attested (some store) io).2.1 = some store' ∧
      Touches u store store' ∧ Standing ups store' u
        (rep.enforceQuarantine ups u attested (some store) io).1 convicted := by
  rcases attested with - | commitment
  · exact ⟨_, rfl, (Touches.refl u store).poison true,
      .awaiting rfl hgd hreco (update_self _ _ _) hfls⟩
  have hm : ∀ c, convicted = some c → c = commitment := fun c hc => hconv c _ hc rfl
  simp only [enforceQuarantine]
  generalize hp : store.persistQuarantine ups u commitment io = persisted
  obtain ⟨after, outcome⟩ := persisted
  obtain ⟨ht, -, hk, he⟩ := persistQuarantine_spec hreco hp
  rcases outcome with error | mutation
  · obtain ⟨hr, ho, hs⟩ := he rfl
    refine ⟨after, rfl, ht, .pending commitment rfl hgd hr ho ?_ hm⟩
    intro f hf
    rcases hs f hf with hf | hf
    · exact .inl (hfls f hf)
    · exact .inr hf
  · obtain ⟨hr, hs⟩ := hk rfl
    refine ⟨after, rfl, ht, .quarantined _ (.inl rfl) rfl rfl hr rfl fun c hc => ?_⟩
    rw [hm c hc]
    exact ⟨rfl, fun f hf => .inr (hs f hf)⟩

theorem retry {reason : QuarantineReason}
    {persist : GuardStore n → GuardStore n × Except DsparkGuardStoreError StoreMutation}
    (hconv : ∀ c, convicted = some c → c = commitment) (ht : Touches u store (persist store).1)
    (ho : (persist store).2.toBool →
      (persist store).1.state.records u = some ⟨ups u, commitment⟩ ∧
        ∀ f ∈ (persist store).1.disk.survivors, f.Records u commitment)
    (he : (persist store).2.toBool = false → Standing ups (persist store).1 u rep convicted) :
    ∃ store', (rep.retryQuarantine reason commitment persist (some store)).2.1 = some store' ∧
      Touches u store store' ∧ Standing ups store' u
        (rep.retryQuarantine reason commitment persist (some store)).1 convicted := by
  simp only [retryQuarantine]
  generalize persist store = persisted at *
  obtain ⟨after, outcome⟩ := persisted
  rcases outcome with error | mutation
  · exact ⟨after, rfl, ht, he rfl⟩
  obtain ⟨hr, hs⟩ := ho rfl
  refine ⟨after, rfl, ht, .quarantined _ (.inl rfl) rfl rfl hr rfl fun c hc => ?_⟩
  rw [hconv c hc]
  exact ⟨rfl, fun f hf => .inr (hs f hf)⟩

end Standing
end Standing
section Round
namespace Standing
variable {n : Nat} {ups : Fin n → Bytes 32} {store : GuardStore n} {u : Fin n}
  {rep : GuardReplica} {convicted : Option (Bytes 32)} {commitment : Bytes 32} {io : Publication}

theorem mem_filter_attested {c : Bytes 32}
    (h : (convicted.filter fun c => (some commitment).all (· = c)) = some c) :
    convicted = some c ∧ c = commitment := by
  obtain ⟨hs, ha⟩ := filter_eq_some_iff.1 h
  have hm : commitment = c := by simpa using ha
  exact ⟨hs, hm.symm⟩

theorem rearm {record : QuarantineRecord} (hgd : rep.guard.quarantined)
    (hinc : rep.guard.incarnation = some record.engineCoreSha256)
    (hreco : store.state.records u = some record) (hup : record.upstreamSha256 = ups u)
    (hconv : ∀ c, convicted = some c → c = commitment ∧ c = record.engineCoreSha256 ∧
      ∀ f ∈ store.disk.survivors, f.Fences u c) :
    ∃ store', (rep.rearm ups u commitment (some store) io).2.1 = some store' ∧
      Touches u store store' ∧ Standing ups store' u (rep.rearm ups u commitment (some store) io).1
        convicted := by
  have hh : store.quarantinedEngineCore u = some record.engineCoreSha256 := by
    rw [quarantinedEngineCore, hreco, map_some]
  simp only [GuardReplica.rearm, bind_some, hh, map_some]
  by_cases heq : record.engineCoreSha256 = commitment
  · -- The quarantined engine again: the guard has this commitment already.
    have ha : rep.guard.attestIncarnation commitment = (rep.guard, .unchanged) := by
      simp [DsparkGuard.attestIncarnation, hinc, heq]
    rw [if_pos heq]
    refine ⟨store, rfl, .refl u store, .quarantined record (.inl rfl) ?_ ?_ hreco hup
      fun c hc => (hconv c hc).2⟩
    · simpa [attest, setFence, ha] using hgd
    · simpa [attest, setFence, ha] using hinc
  · have hi : convicted = none := by
      rcases hv : convicted with - | c
      · rfl
      · obtain ⟨hc, hr, -⟩ := hconv c hv
        exact absurd (hr.symm.trans hc) heq
    rw [if_neg heq]
    generalize hp : store.persistRearm ups u record.engineCoreSha256 commitment io = persisted
    obtain ⟨after, outcome⟩ := persisted
    obtain ⟨ht, ho, he⟩ := persistRearm_spec hreco hup heq hp
    rcases outcome with error | mutation
    · refine ⟨after, rfl, ht, .quarantined record (.inr rfl) hgd hinc (he rfl) hup fun c hc => ?_⟩
      rw [hi] at hc
      cases hc
    have ha : (rep.guard.attestIncarnation commitment).1.quarantined = false := by
      simp [DsparkGuard.attestIncarnation, hinc, heq, hgd]
    exact ⟨after, rfl, ht, .serving rfl ha (ho rfl).1 (ho rfl).2 hi⟩

theorem reconcile (h : Standing ups store u rep convicted)
    (attested : Option (Bytes 32)) (io : Publication)
    (hl : ∀ c d, rep.durableFence = .pendingQuarantine c → attested = some d → c ≠ d →
      ∀ f ∈ store.disk.survivors, f.mentions u = false) :
    ∃ store', (rep.reconcileEngineCore ups u attested (some store) io).2.1 = some store' ∧
      Touches u store store' ∧ Standing ups store' u
        (rep.reconcileEngineCore ups u attested (some store) io).1
        (convicted.filter fun c => attested.all (· = c)) := by
  rcases attested with - | commitment
  · have hk : (convicted.filter fun c => (none : Option (Bytes 32)).all (· = c)) = convicted := by
      cases convicted <;> rfl
    rw [hk]
    exact ⟨store, rfl, .refl u store, h⟩
  have ha : rep.guard.quarantined = false →
      (rep.guard.attestIncarnation commitment).1.quarantined = false := by
    intro hgd
    by_contra hq
    rw [Bool.not_eq_false] at hq
    rw [((DsparkGuard.attestIncarnation_spec commitment).2 hq).1] at hgd
    cases hgd
  generalize hv : (convicted.filter fun c => (some commitment).all (· = c)) = convicted'
  have hk : ∀ c, convicted' = some c → convicted = some c ∧ c = commitment :=
    fun c hc => mem_filter_attested (hv.trans hc)
  simp only [reconcileEngineCore]
  rcases h with ⟨h1, h2, h3, h4⟩ | ⟨h1, h2, h3, h4, h5⟩ | ⟨pending, h1, h2, h3, h4, h5, h6⟩ |
    ⟨h1, h2, h3, h4, h5⟩ | ⟨record, h1, h2, h3, h4, h5, h6⟩
  · simp only [h1]
    obtain ⟨ht, ho, he⟩ := persistUncertainFence_spec h2
      (rfl : store.persistUncertainFence ups u commitment io = (_, _))
    refine retry (fun c hc => (hk c hc).2) ht ho fun hfa => ?_
    obtain ⟨hb, hu, hs⟩ := he hfa
    refine .uncertain h1 hb (hu.trans h3) fun c hc f hf => ?_
    rcases hs f hf with hf | hf
    · exact h4 c (hk c hc).1 f hf
    · exact .inr ((hk c hc).2 ▸ hf)
  · simp only [h1]
    refine enforce ups io h5 h2 h3 (some commitment) convicted' fun c d hc hd => ?_
    cases hd
    exact (hk c hc).2
  · simp only [h1]
    by_cases hn : pending ≠ commitment
    · rw [if_pos hn]
      have hi : convicted' = none := by
        rcases hc : convicted' with - | c
        · rfl
        · exact absurd ((h6 c (hk c hc).1).symm.trans (hk c hc).2) hn
      have hg : ∀ f ∈ store.disk.survivors, f.Unrecorded u := fun f hf =>
        (h5 f hf).unrecorded (hl pending commitment h1 rfl hn f hf)
      exact ⟨store, rfl, .refl u store, .serving rfl (ha h2) h3 hg hi⟩
    · rw [if_neg hn]
      rw [not_not] at hn
      subst hn
      obtain ⟨ht, -, ho, he⟩ := persistQuarantine_spec h3
        (rfl : store.persistQuarantine ups u pending io = (_, _))
      refine retry (fun c hc => (hk c hc).2) ht ho fun hfa => ?_
      obtain ⟨hb, hp, hs⟩ := he hfa
      refine .pending pending h1 h2 hb hp (fun f hf => ?_) fun c hc => (hk c hc).2
      rcases hs f hf with hf | hf
      · exact h5 f hf
      · exact .inr hf
  · have hi : convicted' = none := by
      rw [← hv, h5]
      rfl
    simp only [h1, h2, Bool.not_false, if_true]
    exact ⟨store, rfl, .refl u store, .serving h1 (ha h2) h3 h4 hi⟩
  · have hr : ∃ store', (rep.rearm ups u commitment (some store) io).2.1 =
        some store' ∧ Touches u store store' ∧
        Standing ups store' u (rep.rearm ups u commitment (some store) io).1
          convicted' :=
      rearm h2 h3 h4 h5 fun c hc => ⟨(hk c hc).2, h6 c (hk c hc).1⟩
    rcases h1 with h1 | h1 <;>
      simpa only [h1, h2, Bool.not_true, Bool.false_eq_true, if_false] using hr

theorem apply {config : QuarantineConfig n} (h : Standing config.upstreams store u rep convicted)
    (sample : Except ParseFailure DsparkCounters) (attested : Option (Bytes 32)) (io : Publication)
    (hl : ∀ c d, rep.durableFence = .pendingQuarantine c → attested = some d → c ≠ d →
      ∀ f ∈ store.disk.survivors, f.mentions u = false) :
    ∃ store', (rep.apply config.upstreams u .quarantine sample attested (some store) io).2.1 =
        some store' ∧ Touches u store store' ∧ Standing config.upstreams store' u
        (rep.apply config.upstreams u .quarantine sample attested (some store) io).1
        (convict convicted attested (rep.entered config u sample attested (some store) io)) := by
  obtain ⟨after, ha, ht, hf⟩ := h.reconcile attested io hl
  generalize hre : rep.reconcileEngineCore config.upstreams u attested (some store) io =
    reconciled at ha hf
  obtain ⟨rep', store', transition⟩ := reconciled
  simp only at ha hf
  subst ha
  have hk := @DsparkGuard.observe_keeps rep'.guard sample
  have hb : Standing config.upstreams after u (rep'.withObservation sample).1
      (convicted.filter fun c => attested.all (· = c)) :=
    hf.congr _ rfl hk.1 hk.2
  simp only [GuardReplica.apply, GuardReplica.entered, hre]
  generalize rep'.withObservation sample = observed at hb
  obtain ⟨rep'', observation⟩ := observed
  simp only at hb ⊢
  by_cases hn : rep''.enters .quarantine observation = true
  · have he := hn
    simp only [GuardReplica.enters, decide_true, Bool.true_and, Bool.and_eq_true,
      Bool.not_eq_true', decide_eq_true_eq] at he
    obtain ⟨⟨-, hgd⟩, hr⟩ := he
    -- Only a rep in service can enter.
    rcases hb with ⟨h1, -, -, -⟩ | ⟨h1, -, -, -, -⟩ | ⟨_, h1, -, -, -, -, -⟩ |
      ⟨-, -, h3, h4, h5⟩ | ⟨_, -, h2, -, -, -, -⟩
    · rw [hr] at h1
      cases h1
    · rw [hr] at h1
      cases h1
    · rw [hr] at h1
      cases h1
    · have ho : convict convicted attested (attested.or rep''.guard.incarnation) =
          attested.or rep''.guard.incarnation := by
        rw [convict, h5, or_none]
      obtain ⟨final, hi, ht', hs⟩ := enforce config.upstreams io h4 hgd h3
        attested (attested.or rep''.guard.incarnation) (fun c d hc hd => by
          rw [hd, some_or] at hc
          cases hc
          rfl)
      simp only [hn, if_true, ho]
      exact ⟨final, hi, ht.trans ht', hs.congr _ rfl rfl rfl⟩
    · rw [hgd] at h2
      cases h2
  · simp only [hn, Bool.false_eq_true, if_false, convict, none_or]
    exact ⟨after, rfl, ht, hb.congr _ rfl rfl rfl⟩

end Standing
end Round

/-! ## Lifetimes -/

section Lifetimes
variable {n : Nat} {config : QuarantineConfig n}

structure Disk.Keeps (disk : Disk) (convicted : Fin n → Option (Bytes 32)) : Prop where
  current : disk.current ∈ disk.survivors
  fences : ∀ u c, convicted u = some c → ∀ f ∈ disk.survivors, f.Fences u c

variable {dirty : Bool} {records : QuarantineRecords n} {verdict : Option (Bytes 32)}
  {arm drop : Publication} {check : OpenCheck}

theorem StateFile.Fences.record {file : StateFile} {u : Fin n} {c : Bytes 32} (h : file.Fences u c)
    (hc : file.contents = .text (encodeDocument records dirty) true) :
    (records u).map (·.engineCoreSha256) = some c ∨ records u = none ∧ dirty := by
  rcases h with ⟨written, hw, hn⟩ | ⟨written, writtenDirty, hw, hreco⟩
  · rw [hc, FileContents.text.injEq] at hw
    obtain ⟨rfl, rfl⟩ := encodeDocument_injective hw.1
    exact .inr ⟨hn, rfl⟩
  rw [hc, FileContents.text.injEq] at hw
  obtain ⟨rfl, -⟩ := encodeDocument_injective hw.1
  exact .inl hreco

variable {store : GuardStore n} {convicted : Fin n → Option (Bytes 32)}

section
variable {disk : Disk} (hdisk : disk.Keeps convicted)
include hdisk

theorem Disk.Keeps.powerLoss {survivor : Nat} {file : StateFile}
    (hi : disk.survivors[survivor]? = some file) : Disk.Keeps ⟨file, [file]⟩ convicted := by
  refine ⟨List.mem_singleton_self _, fun u c hc f hf => ?_⟩
  rw [List.mem_singleton.1 hf]
  exact hdisk.fences u c hc file (List.mem_of_getElem? hi)

theorem Disk.Keeps.clean {records : QuarantineRecords n}
    (ho : disk.current.contents = .text (encodeDocument records false) true) (u : Fin n)
    (c : Bytes 32) (hc : convicted u = some c) : (records u).map (·.engineCoreSha256) = some c := by
  rcases (hdisk.fences u c hc _ hdisk.current).record ho with hs | ⟨-, hd⟩
  · exact hs
  · cases hd

end

theorem FileReplaced.keeps {store' : GuardStore n} {committed : Prop}
    (h : FileReplaced records dirty store store' committed) (hdisk : store.disk.Keeps convicted)
    (hr : ∀ u c, convicted u = some c → (records u).map (·.engineCoreSha256) = some c) :
    store'.disk.Keeps convicted where
  current := h.current hdisk.current
  fences u c hc f hf := by
    rcases h.survivors f hf with hf | hf
    · exact hdisk.fences u c hc f hf
    · exact .inr ⟨records, dirty, hf, hr u c hc⟩

theorem GuardStore.drop_keeps (hdisk : store.disk.Keeps convicted) (io : Publication)
    (hr : (∀ u, store.state.poisonedReplicas u = false) →
      (∀ u, store.state.uncertainReplicas u = false) →
      ∀ u c, convicted u = some c → (store.state.records u).map (·.engineCoreSha256) = some c) :
    (store.drop io).Keeps convicted := by
  unfold drop
  split
  · exact hdisk
  rename_i hc
  rw [not_or, not_or, not_exists, not_exists] at hc
  refine (store.publishReplacement_spec store.state.records false io).keeps hdisk
    (hr (fun u => ?_) fun u => ?_)
  · exact Bool.not_eq_true _ ▸ hc.1 u
  · exact Bool.not_eq_true _ ▸ hc.2.1 u

structure GuardProcess.Sound (config : QuarantineConfig n) (process : GuardProcess n)
    (convicted : Fin n → Option (Bytes 32)) : Prop where
  current : process.store.disk.current ∈ process.store.disk.survivors
  standing : ∀ u, Standing config.upstreams process.store u (process.replicas u) (convicted u)
  healthy : ∀ u, process.healthy u → (process.replicas u).effective

variable {process : GuardProcess n}

theorem GuardProcess.Sound.keeps (h : process.Sound config convicted) :
    process.store.disk.Keeps convicted where
  current := h.current
  fences u _ hc := (hc ▸ h.standing u).fences

theorem boot_standing {u : Fin n} (hup : ∀ record, store.state.records u = some record →
      record.upstreamSha256 = config.upstreams u)
    (hf : ∀ c, verdict = some c → ∀ f ∈ store.disk.survivors, f.Fences u c)
    (hreco : ∀ c record, verdict = some c → store.state.records u = some record →
      c = record.engineCoreSha256) (hn : ∀ record, store.state.records u = some record →
      store.state.uncertainReplicas u = false)
    (hserv : store.state.records u = none → store.state.uncertainReplicas u = false →
      verdict = none ∧ ∀ f ∈ store.disk.survivors, f.Unrecorded u) :
    Standing config.upstreams store u ((GuardProcess.boot config store).replicas u) verdict := by
  simp only [GuardProcess.boot, quarantinedEngineCore, requiresUncertainFence]
  rcases hr : store.state.records u with - | record
  · rcases hu : store.state.uncertainReplicas u with - | -
    · exact .serving rfl rfl hr (hserv hr hu).2 (hserv hr hu).1
    · exact .uncertain rfl hr hu hf
  simp only [hn record hr, map_some]
  exact .quarantined record (.inl rfl) rfl rfl hr (hup record hr)
    fun c hc => ⟨hreco c record hc hr, hf c hc⟩

theorem openGuardStore_sound {disk disk' : Disk} (hdisk : disk.Keeps convicted)
    (h : openGuardStore config.upstreams disk check arm drop = (disk', .ok store)) :
    (GuardProcess.boot config store).Sound config convicted := by
  unfold openGuardStore at h
  split at h
  · cases h
  split at h
  · cases h
  split at h
  · cases h
  rename_i records dirty hd
  obtain ⟨ho, hup⟩ := decodeDocument_ok hd
  have hr : ∀ u c, convicted u = some c →
      (records u).map (·.engineCoreSha256) = some c ∨ records u = none ∧ dirty = true :=
    fun u c hc => (hdisk.fences u c hc _ hdisk.current).record ho
  have hg : ∀ u c record, convicted u = some c → records u = some record →
      c = record.engineCoreSha256 := by
    intro u c record hc hreco
    rcases hr u c hc with hs | ⟨hn, -⟩
    · rw [hreco, map_some, some.injEq] at hs
      exact hs.symm
    · rw [hreco] at hn
      cases hn
  cases dirty with
  | true =>
    -- The last lifetime was unclean; nothing is written.
    simp only [armRuntime, if_true, Prod.mk.injEq, Except.ok.injEq] at h
    obtain ⟨-, rfl⟩ := h
    refine ⟨hdisk.current, fun u => boot_standing (hup u) (hdisk.fences u)
      (hg u) (fun record hreco => ?_) fun hn he => ?_, fun u hu => hu⟩
    · change records u = some record at hreco
      change (true && (records u).isNone) = false
      rw [hreco]
      rfl
    · change records u = none at hn
      change (true && (records u).isNone) = false at he
      rw [hn] at he
      cases he
  | false =>
    simp only [armRuntime, Bool.false_eq_true, if_false, Bool.false_and] at h
    have hb := publishReplacement_spec ⟨⟨records, disk.current.identity, false,
      fun _ => false, fun _ => false⟩, disk⟩ records true arm
    generalize publishReplacement _ records true arm = published at h hb
    obtain ⟨armed, outcome⟩ := published
    rcases outcome with error | ⟨⟩
    · cases h
    simp only [Prod.mk.injEq, Except.ok.injEq] at h
    obtain ⟨-, rfl⟩ := h
    have ha : armed.state.records = records := hb.records_eq
    have hk := hdisk.clean ho
    have hp := hb.keeps hdisk hk
    refine ⟨hp.current, fun u => boot_standing (ha ▸ hup u) (hp.fences u)
      (ha ▸ hg u) (fun record hreco => congrFun hb.uncertain_eq u)
      fun hn he => ?_, fun u hu => hu⟩
    have hn : records u = none := ha ▸ hn
    refine ⟨?_, fun f hf => ⟨records, hb.committed rfl f hf, hn⟩⟩
    rcases hc : convicted u with - | c
    · rfl
    have hs := hk u c hc
    rw [hn] at hs
    cases hs

theorem openGuardStore_error {disk disk' : Disk}
    {error : DsparkGuardStoreError} (hdisk : disk.Keeps convicted)
    (h : openGuardStore config.upstreams disk check arm drop = (disk', .error error)) :
    disk'.Keeps convicted := by
  unfold openGuardStore at h
  split at h
  · cases h
    exact hdisk
  split at h
  · cases h
    exact hdisk
  split at h
  · cases h
    exact hdisk
  rename_i records dirty hd
  obtain ⟨ho, -⟩ := decodeDocument_ok hd
  cases dirty with
  | true =>
    simp only [armRuntime, if_true, Prod.mk.injEq, reduceCtorEq, and_false] at h
  | false =>
    -- The store could not be armed: it is dropped, with the records it has read.
    simp only [armRuntime, Bool.false_eq_true, if_false, Bool.false_and] at h
    have hb := publishReplacement_spec ⟨⟨records, disk.current.identity, false,
      fun _ => false, fun _ => false⟩, disk⟩ records true arm
    generalize publishReplacement _ records true arm = published at h hb
    obtain ⟨armed, outcome⟩ := published
    have hk := hdisk.clean ho
    rcases outcome with failure | ⟨⟩
    · cases h
      refine drop_keeps (hb.keeps hdisk hk) drop fun _ _ u c hc => ?_
      rw [show armed.state.records = records from hb.records_eq]
      exact hk u c hc
    · cases h

def GuardedFleet.Sound (config : QuarantineConfig n) (s : GuardedFleet n) : Prop :=
  match s.lifetime with
  | .down disk => disk.Keeps s.convicted
  | .up process => process.Sound config s.convicted

/-- An unrecorded quarantine gives way to another commitment only when no file of it
may be left on the path. -/
def clearsBeforeRearm (s : GuardedFleet n) : GuardEvent n → Bool
  | .round u _ (some attested) _ =>
    match s.lifetime with
    | .down _ => true
    | .up process =>
      match (process.replicas u).durableFence with
      | .pendingQuarantine pending =>
        pending = attested || process.store.disk.survivors.all fun f => !f.mentions u
      | _ => true
  | _ => true

section
variable (h : process.Sound config convicted)
include h

theorem GuardProcess.Sound.publish {u : Fin n} {rep : GuardReplica}
    (ht : Touches u process.store store) (ha : Standing config.upstreams store u rep verdict) :
    GuardProcess.Sound config { process.publish u rep with store }
      (update convicted u verdict) := by
  refine ⟨ht.current h.current, fun v => ?_, fun v hv => ?_⟩
  · by_cases hu : v = u
    · subst hu
      simpa [GuardProcess.publish] using ha
    · simpa [GuardProcess.publish, hu] using (h.standing v).of_touches ht hu
  · by_cases hu : v = u
    · subst hu
      simpa [GuardProcess.publish] using hv
    · simp only [GuardProcess.publish, update_of_ne hu] at hv ⊢
      exact h.healthy v hv

theorem GuardProcess.Sound.round (u : Fin n)
    (sample : Except ParseFailure DsparkCounters) (attested : Option (Bytes 32)) (io : Publication)
    (hc : ∀ c d, (process.replicas u).durableFence = .pendingQuarantine c →
      attested = some d → c ≠ d → ∀ f ∈ process.store.disk.survivors, f.mentions u = false) :
    (process.round config u sample attested io).Sound config
      (update convicted u (convict (convicted u) attested
        ((process.replicas u).entered config u sample attested (some process.store) io))) := by
  obtain ⟨after, ha, ht, hb⟩ := (h.standing u).apply sample attested io hc
  unfold GuardProcess.round
  generalize (process.replicas u).apply config.upstreams u .quarantine sample attested
    (some process.store) io = applied at *
  obtain ⟨rep, store, application⟩ := applied
  simp only at ha hb
  subst ha
  exact h.publish ht hb

theorem GuardProcess.Sound.exit (io : Publication) : (process.store.drop io).Keeps convicted := by
  refine drop_keeps h.keeps io fun hp hn u c hc => ?_
  -- A convicted rep whose fence is not marked has its record.
  have hu := h.standing u
  rw [hc] at hu
  rcases hu with ⟨-, -, h3, -⟩ | ⟨-, -, -, h4, -⟩ | ⟨_, -, -, -, h4, -, -⟩ |
    ⟨-, -, -, -, h5⟩ | ⟨r, -, -, -, h4, -, h6⟩
  · rw [hn u] at h3
    cases h3
  · rw [hp u] at h4
    cases h4
  · rw [hp u] at h4
    cases h4
  · cases h5
  · rw [h4, map_some, (h6 c rfl).1]

end

theorem GuardedFleet.Sound.step {s s' : GuardedFleet n} {event : GuardEvent n} (h : s.Sound config)
    (hc : clearsBeforeRearm s event) (hsp : s.next config event = some s') : s'.Sound config := by
  obtain ⟨lifetime, convicted⟩ := s
  rcases lifetime with disk | process
  · have hdisk : disk.Keeps convicted := h
    cases event with
    | start check arm drop =>
      simp only [GuardedFleet.next] at hsp
      split at hsp
      next ho =>
        cases hsp
        exact openGuardStore_error hdisk ho
      rename_i ho
      cases hsp
      exact openGuardStore_sound hdisk ho
    | powerLoss survivor =>
      simp only [GuardedFleet.next, map_eq_some_iff] at hsp
      obtain ⟨file, hi, rfl⟩ := hsp
      exact hdisk.powerLoss hi
    | _ => cases hsp
  · have hp : process.Sound config convicted := h
    cases event with
    | round u sample attested io =>
      cases hsp
      refine hp.round u sample attested io fun c d hfc hd hn f hf => ?_
      subst hd
      simp only [clearsBeforeRearm, hfc, Bool.or_eq_true, decide_eq_true_eq,
        List.all_eq_true, Bool.not_eq_true'] at hc
      exact hc.resolve_left hn f hf
    | probe u healthy =>
      cases hsp
      have hu := hp.publish (.refl u process.store)
        ((hp.standing u).congr { process.replicas u with probeHealthy := healthy } rfl rfl rfl)
      rw [update_eq_self] at hu
      exact hu
    | withhold u =>
      cases hsp
      refine ⟨hp.current, hp.standing, fun v hv => hp.healthy v ?_⟩
      by_cases ha : v = u
      · subst ha
        simp at hv
      · simpa [ha] using hv
    | exit io =>
      cases hsp
      exact hp.exit io
    | crash =>
      cases hsp
      exact hp.keeps
    | powerLoss survivor =>
      simp only [GuardedFleet.next, map_eq_some_iff] at hsp
      obtain ⟨file, hi, rfl⟩ := hsp
      exact hp.keeps.powerLoss hi
    | start => cases hsp

/-- In every run whose rounds clear a pending record before they rearm, an upstream
convicted under a commitment is out of service until another one is attested: across
failed publications, crashes, losses of power, clean exits and restarts. -/
theorem quarantine_outlives_process (config : QuarantineConfig n) {s : GuardedFleet n}
    (h : ((guardedFleet config).restrict fun s event => clearsBeforeRearm s event).Reachable
      s) (u : Fin n) (c : Bytes 32) (hc : s.convicted u = some c) : s.healthy u = false := by
  have ho : s.Sound config := by
    refine h.invariant ?_ ?_
    · rintro ⟨lifetime, convicted⟩ ⟨⟨file, rfl⟩, rfl⟩
      exact ⟨List.mem_singleton_self _, nofun⟩
    · exact fun s event s' hs hstep => GuardedFleet.Sound.step hs hstep.1 hstep.2
  obtain ⟨lifetime, convicted⟩ := s
  rcases lifetime with disk | process
  · rfl
  have hp : process.Sound config convicted := ho
  have ht := hp.standing u
  rw [show convicted u = some c from hc] at ht
  have he := ht.effective_eq_false
  by_contra hh
  rw [hp.healthy u (Bool.not_eq_false _ ▸ hh)] at he
  cases he

end Lifetimes

/-! ## Two failed publications and a restart -/

namespace SampleGuard

scoped instance neZero : NeZero 1 := ⟨by decide⟩

def upstream : Bytes 32 := .replicate 32 1
def first : Bytes 32 := .replicate 32 2
def second : Bytes 32 := .replicate 32 3

def config : QuarantineConfig 1 where
  thresholds := sampleThresholds
  upstreams := fun _ => upstream
  initialProbeHealth := false

def counters (window : Nat) : Except ParseFailure DsparkCounters :=
  .ok ⟨window, 256 * window, 0, [0], []⟩

def committed (inode : Nat) : Publication := .renamed ⟨0, inode⟩ true true
def unsynced (inode : Nat) : Publication := .renamed ⟨0, inode⟩ false true
def refused : Publication := .failed .publishFailed

def degenerate (commitment : Bytes 32) (window : Nat) (io : Publication) :
    List (GuardEvent 1) :=
  [.round 0 (counters window) (some commitment) refused,
    .round 0 (counters (window + 1)) (some commitment) refused,
    .round 0 (counters (window + 2)) (some commitment) refused,
    .round 0 (counters (window + 3)) (some commitment) io]

def initial : GuardedFleet 1 where
  lifetime :=
    let file : StateFile := ⟨.text (encodeDocument (fun _ : Fin 1 => none) false) true, ⟨0, 1⟩⟩
    .down ⟨file, [file]⟩
  convicted := fun _ => none

def history : List (GuardEvent 1) :=
  [.start .readable (committed 2) refused, .probe 0 true] ++
    degenerate first 1 (unsynced 3) ++ degenerate second 5 refused ++
    [.crash, .start .readable refused refused,
      .round 0 (counters 9) (some second) (committed 4), .probe 0 true]

def recorded : List (GuardEvent 1) :=
  [.start .readable (committed 2) refused, .probe 0 true] ++
    degenerate first 1 (committed 3) ++
    [.crash, .start .readable refused refused,
      .round 0 (counters 9) (some first) refused, .probe 0 true]

end SampleGuard

open SampleGuard in
/-- The second engine serves again after the restart, with no other commitment attested
since it was convicted. -/
theorem stale_record_rearms_convicted :
    ∃ s, (guardedFleet config).Reachable s ∧ s.convicted 0 = some second ∧ s.healthy 0 :=
  Reachable.exists_of_any (C := fun _ _ => true) history _ (fun _ _ _ _ h => h)
    (.init (s := initial) ⟨⟨_, rfl⟩, rfl⟩) (by decide +kernel)

open SampleGuard in
/-- The quarantine of the first engine, once recorded, holds after a crash. -/
theorem quarantine_outlives_process_sample :
    ∃ s, ((guardedFleet config).restrict fun s event => clearsBeforeRearm s event).Reachable
        s ∧ s.convicted 0 = some first ∧ s.healthy 0 = false := by
  obtain ⟨s, hr, hc⟩ := Reachable.exists_of_any
    (M := (guardedFleet config).restrict fun s event => clearsBeforeRearm s event) recorded
    (fun s => s.convicted 0 = some first) (fun _ _ _ hC h => ⟨hC, h⟩)
    (.init (s := initial) ⟨⟨_, rfl⟩, rfl⟩) (by decide +kernel)
  exact ⟨s, hr, hc, quarantine_outlives_process config hr 0 first hc⟩

end Ramjet
