import Ramjet.ActorSafety
import Ramjet.ChannelIntegrity
import Ramjet.SnapshotReconnect

/-!
# Authority of what a router publishes

What the reconnect owner's actor publishes was established under the authority applied
last, by a session that began after it.
-/

namespace Ramjet
variable {ι : Type} {applyPayload : ι → List UInt8 → Option ι}

/-! ## Identities in the actor -/

structure SnapshotBootstrapActor.Names (P : Nat → SnapshotActorIdentity → Prop)
    (actor : SnapshotBootstrapActor ι) : Prop where
  sessions : ∀ (epoch : Nat) (session : BootstrapSession ι),
    actor.sessions[epoch]? = some session → P epoch session.identity
  published : ∀ published, actor.published = some published →
    P published.ownerEpoch published.identity

namespace SnapshotBootstrapActor
open AuditedActor
variable {P Q : Nat → SnapshotActorIdentity → Prop} {actor : SnapshotBootstrapActor ι} {epoch : Nat}

theorem Names.mono (h : actor.Names P)
    (hPQ : ∀ epoch identity, P epoch identity → Q epoch identity) :
    actor.Names Q :=
  ⟨fun epoch session hg => hPQ _ _ (h.sessions epoch session hg),
    fun published hb => hPQ _ _ (h.published published hb)⟩

theorem Names.cleared (actor : SnapshotBootstrapActor ι) :
    Names P ({ actor with published := none, sessions := ∅ } : SnapshotBootstrapActor ι) :=
  ⟨fun epoch session hg => by simp at hg, nofun⟩

theorem Names.setSession (h : actor.Names P) (session : BootstrapSession ι)
    (hse : P epoch session.identity) : (actor.setSession epoch session).Names P where
  sessions k other hg := by
    rw [getElem?_setSession] at hg
    split at hg
    next heq =>
      cases hg
      exact heq ▸ hse
    · exact h.sessions k other hg
  published := h.published

theorem Names.moves {next : SnapshotBootstrapActor ι} (h : actor.Names P)
    (hm : Moves epoch actor next) : next.Names P where
  sessions k new hg := by
    obtain ⟨old, hold, hi, -⟩ := hm.present hg
    exact hi ▸ h.sessions k old hold
  published new hb := by
    rcases hm.published hb with ⟨old, hold, hw, hi⟩ | ⟨hw, old, hold, hi⟩
    · rw [hw, hi]
      exact h.published old hold
    · rw [hw, hi]
      exact h.sessions epoch old hold

theorem Names.start (h : actor.Names P) (identity : SnapshotActorIdentity) (minimum : Nat)
    (hw : actor.nextEpoch < (actor.startSession identity minimum).2.nextEpoch →
      P actor.nextEpoch identity) : (actor.startSession identity minimum).2.Names P := by
  obtain ⟨kept, hk, ht⟩ := startSession_cases actor identity minimum
  have hn : kept.Names P := by
    rcases hk with rfl | rfl
    · refine ⟨fun epoch session hg => ?_, h.published⟩
      rw [Std.TreeMap.getElem?_filter] at hg
      obtain ⟨hg, -⟩ := Option.pfilter_eq_some_iff.1 hg
      exact h.sessions epoch session hg
    · exact .cleared actor
  have he : kept.nextEpoch = actor.nextEpoch := by
    rcases hk with rfl | rfl
    · rfl
    · rfl
  rcases ht with ⟨error, ht⟩ | ⟨-, revoked, session, hd, -, -, ht⟩
  · rw [ht]
    exact hn
  rw [ht] at hw ⊢
  have hi : Names P { kept with nextEpoch := kept.nextEpoch + 1 } :=
    ⟨hn.sessions, hn.published⟩
  refine hi.setSession _ ?_
  rw [hd, he]
  refine hw ?_
  show actor.nextEpoch < kept.nextEpoch + 1
  rw [he]
  exact Nat.lt_succ_self _

end SnapshotBootstrapActor

/-! ## Attempts -/

structure SnapshotBootstrapActor.Keeps (before after : SnapshotBootstrapActor ι) : Prop where
  nextEpoch : after.nextEpoch = before.nextEpoch
  names : ∀ P, before.Names P → after.Names P

namespace SnapshotBootstrapActor.Keeps
open AuditedActor
variable {a b c : SnapshotBootstrapActor ι}

theorem refl (a : SnapshotBootstrapActor ι) : Keeps a a := ⟨rfl, fun _ h => h⟩

theorem trans (ha : Keeps a b) (hb : Keeps b c) : Keeps a c :=
  ⟨hb.nextEpoch.trans ha.nextEpoch, fun P h => hb.names P (ha.names P h)⟩

theorem run (actor : SnapshotBootstrapActor ι) (applyPayload : ι → List UInt8 → Option ι)
    (op : ActorOp ι) {epoch : Nat} (ho : op.epoch? = some epoch) :
    Keeps actor (op.run applyPayload actor) :=
  ⟨(moves_run applyPayload actor ho).confined.nextEpoch,
    fun _ h => h.moves (moves_run applyPayload actor ho)⟩

end SnapshotBootstrapActor.Keeps

namespace Attempt
open SnapshotBootstrapActor
variable {config : SnapshotConsumerConfig} {actor before : PublicationActor} {attempt : Attempt}

theorem disconnected_keeps (actor : PublicationActor) (epoch : Nat) :
    Keeps actor (actor.disconnected epoch).2 :=
  Keeps.run actor (fun _ _ => none) (.disconnected epoch) rfl

theorem drop_keeps (attempt : Attempt) (actor : PublicationActor) :
    Keeps actor (attempt.drop actor) := by
  unfold drop
  split
  · exact .refl actor
  · exact disconnected_keeps actor _
  · exact disconnected_keeps actor _

structure Continues (attempt : Attempt) (before : PublicationActor)
    (result : Option Attempt × PublicationActor) : Prop where
  expected : ∀ next, result.1 = some next → next.expected = attempt.expected
  actor : Keeps before result.2 ∨ ∃ identity minimum,
    identity.engineIncarnation = attempt.expected ∧
      Keeps (before.startSession identity minimum).2 result.2

theorem finish_continues (h : Keeps before actor) :
    Continues attempt before (attempt.finish actor) where
  expected _ hn := by cases hn
  actor := .inl (h.trans (drop_keeps attempt actor))

theorem onResponse_continues (attempt : Attempt) (actor : PublicationActor) (frame : List UInt8) :
    Continues attempt actor (attempt.onResponse config actor frame) := by
  simp only [onResponse]
  split
  · exact ⟨nofun, .inl (.refl actor)⟩
  rename_i authenticated hd
  obtain ⟨md, metadataLen, snapshotLen, hc⟩ :=
    SessionCodec.decodeAuthenticatedSnapshot_ok hd
  have hinc : authenticated.engineIncarnation = attempt.expected :=
    hc.expected_incarnation
  have hb : ∀ {started : PublicationActor} {result : Option Attempt × PublicationActor},
      (actor.startSession ⟨authenticated.engineIncarnation, authenticated.digestKeyId,
        authenticated.companionGeneration⟩ config.minimumSnapshotWatermark).2 = started →
      Keeps started result.2 → (∀ next, result.1 = some next → next.expected = attempt.expected) →
      Continues attempt actor result := by
    rintro _ result rfl hk he
    exact ⟨he, .inr ⟨_, _, hinc, hk⟩⟩
  split
  next error started ht =>
    exact hb (congrArg Prod.snd ht) (.refl started) nofun
  rename_i session started ht
  have hl : Keeps started (started.beginSnapshotBuild session.epoch).2 :=
    Keeps.run started (fun _ _ => none) (.beginSnapshotBuild session.epoch) rfl
  split
  · exact hb (congrArg Prod.snd ht) (hl.trans (disconnected_keeps _ _)) nofun
  split
  · exact hb (congrArg Prod.snd ht) (hl.trans (disconnected_keeps _ _)) nofun
  · exact hb (congrArg Prod.snd ht) hl (fun _ hn => by cases hn; rfl)

theorem onFrame_continues (attempt : Attempt) (actor : PublicationActor) (epoch : Nat)
    (decoder : TailFrameDecoder) (accepts : ActorAction → Bool)
    (stage : TailFrameDecoder → ConsumeStage) (frame : List UInt8) : Continues attempt actor
      (attempt.onFrame config actor epoch decoder accepts stage frame) := by
  unfold onFrame
  split
  · exact finish_continues (.refl actor)
  rename_i verified decoder' _
  have hk : Keeps actor (actor.acceptTailFrame config.applyPayload epoch verified).2 :=
    Keeps.run actor config.applyPayload (.acceptTailFrame epoch verified) rfl
  dsimp only
  split
  · exact ⟨fun _ hn => by cases hn; rfl, .inl hk⟩
  · exact finish_continues hk

theorem onBuilt_continues (attempt : Attempt) (actor : PublicationActor) (epoch : Nat)
    (decoder : TailFrameDecoder) (authenticated : AuthenticatedSnapshot) (cancelled : Nat → Bool) :
    Continues attempt actor
      (attempt.onBuilt config actor epoch decoder authenticated cancelled) := by
  unfold onBuilt
  split
  · exact finish_continues (Keeps.run actor config.applyPayload (.snapshotBuildFailed epoch) rfl)
  rename_i prepared _
  have hk : Keeps actor (actor.installPreparedSnapshot config.applyPayload epoch prepared).2 :=
    Keeps.run actor config.applyPayload (.installPreparedSnapshot epoch prepared) rfl
  split
  next hi =>
    rw [hi] at hk
    exact finish_continues hk
  rename_i hi
  rw [hi] at hk
  split
  · exact ⟨fun _ hn => by cases hn; rfl, .inl hk⟩
  · exact finish_continues hk

theorem step_continues (config : SnapshotConsumerConfig) (attempt : Attempt)
    (actor : PublicationActor) (input : AttemptInput) :
    Continues attempt actor (attempt.step config actor input) := by
  have hi : Continues attempt actor (some attempt, actor) :=
    ⟨fun _ hn => by cases hn; rfl, .inl (.refl actor)⟩
  cases input with
  | failed => exact finish_continues (.refl actor)
  | response frame =>
    simp only [step]
    split
    · exact onResponse_continues attempt actor frame
    · exact hi
  | frame frame =>
    simp only [step]
    split
    · exact hi
    · exact onFrame_continues ..
    · exact onFrame_continues ..
  | built cancelled =>
    simp only [step]
    split
    · exact onBuilt_continues ..
    · exact hi

end Attempt

/-! ## The owner -/

namespace SnapshotReconnectOwner
open SnapshotBootstrapActor
variable {config : SnapshotConsumerConfig} {owner owner' : SnapshotReconnectOwner}

def appliedBy (owner : SnapshotReconnectOwner) : Action → Option (Option EngineIncarnation)
  | .authority =>
    match owner.nextAuthority with
    | some (.updated value, _) =>
      if owner.authorityRevision = some value.revision then none else some value.incarnation
    | some (.closed, _) => some none
    | none => none
  | _ => none

def attempts (owner : SnapshotReconnectOwner) : List Attempt :=
  match owner.phase with
  | .active attempt _ => [attempt]
  | .rolling old replacement _ => [old, replacement]
  | .waiting | .stopped => []

/-- The running attempts are for the authority the owner goes by. -/
def AttemptsExpected (owner : SnapshotReconnectOwner) : Prop :=
  ∀ attempt ∈ owner.attempts, owner.expectedIncarnation = some attempt.expected

theorem dropAttempts_keeps (owner : SnapshotReconnectOwner) :
    Keeps owner.actor owner.dropAttempts.actor := by
  unfold dropAttempts
  split
  · exact Attempt.drop_keeps _ _
  · exact (Attempt.drop_keeps _ _).trans (Attempt.drop_keeps _ _)
  · exact .refl _

theorem expectedIncarnation_dropAttempts (owner : SnapshotReconnectOwner) :
    owner.dropAttempts.expectedIncarnation = owner.expectedIncarnation := by
  unfold dropAttempts
  split <;> rfl

theorem applyNext_cases (owner : SnapshotReconnectOwner) (next : Option EngineIncarnation)
    (ha : owner.authority = none → next = none) :
    (owner.applyNext next = (false, owner) ∧ owner.expectedIncarnation = none ∧ next = none) ∨
      owner.applyNext next = (true,
        { owner with actor := owner.actor.revokeAuthority.2, expectedIncarnation := next }) := by
  unfold applyNext
  split
  next ho =>
    rw [Bool.and_eq_true, Option.isNone_iff_eq_none, decide_eq_true_eq] at ho
    have hn := ha ho.1
    exact .inl ⟨rfl, ho.2.trans hn, hn⟩
  split
  next he _ =>
    exact .inl ⟨rfl, he, rfl⟩
  · exact .inr rfl

structure Applies (owner : SnapshotReconnectOwner) (incarnation : Option EngineIncarnation)
    (owner' : SnapshotReconnectOwner) : Prop where
  expected : owner'.expectedIncarnation = incarnation
  attempts : owner.AttemptsExpected → owner'.AttemptsExpected
  nextEpoch : owner'.actor.nextEpoch = owner.actor.nextEpoch
  names : (∀ P, owner'.actor.Names P) ∨
    (owner.expectedIncarnation = none ∧ owner'.actor = owner.actor)

structure Works (owner owner' : SnapshotReconnectOwner) : Prop where
  expected : owner'.expectedIncarnation = owner.expectedIncarnation
  attempts : owner'.AttemptsExpected
  actor : Keeps owner.actor owner'.actor ∨ ∃ identity minimum,
    owner.expectedIncarnation = some identity.engineIncarnation ∧
      Keeps (owner.actor.startSession identity minimum).2 owner'.actor

theorem onNext_applies (owner : SnapshotReconnectOwner) (next : Option EngineIncarnation)
    (ha : owner.authority = none → next = none) :
    Applies owner next (match owner.applyNext next with
      | (false, owner) => owner
      | (true, owner) => { owner.dropAttempts with phase := .waiting }) := by
  rcases applyNext_cases owner next ha with ⟨hk, he, rfl⟩ | hr
  · rw [hk]
    exact ⟨he, fun h => h, rfl, .inr ⟨he, rfl⟩⟩
  rw [hr]
  have hd := dropAttempts_keeps
    { owner with actor := owner.actor.revokeAuthority.2, expectedIncarnation := next }
  exact
    { expected := expectedIncarnation_dropAttempts _
      attempts := fun _ attempt ht => by simp [attempts] at ht
      nextEpoch := hd.nextEpoch
      names := .inl fun P => hd.names P (Names.cleared owner.actor) }

theorem authority_cases (he : owner.AttemptsExpected)
    (h : owner.next config .authority = some owner') :
    (∃ inc, owner.appliedBy .authority = some inc ∧ Applies owner inc owner') ∨
    (owner.appliedBy .authority = none ∧ Works owner owner') := by
  have hn : owner.nextAuthority.map (fun shown => shown.2.onAuthority shown.1) =
      some owner' := by
    simp only [next] at h
    split at h
    · cases h
    · exact h
  obtain ⟨⟨event, shown⟩, hs, rfl⟩ := Option.map_eq_some_iff.1 hn
  simp only [appliedBy, hs]
  unfold nextAuthority at hs
  split at hs
  · cases hs
  rename_i channel hc
  split at hs
  · -- an unseen value
    rw [Option.some.injEq, Prod.mk.injEq] at hs
    obtain ⟨rfl, rfl⟩ := hs
    simp only [onAuthority, applyAuthorityEvent]
    by_cases hr : owner.authorityRevision = some channel.value.revision
    · rw [if_pos hr, if_pos hr]
      exact .inr ⟨rfl, rfl, he, .inl (.refl owner.actor)⟩
    rw [if_neg hr, if_neg hr]
    refine .inl ⟨_, rfl, ?_⟩
    have ha := onNext_applies { owner with
        authority := some channel.borrowAndUpdate.2
        authorityRevision := some channel.value.revision }
      channel.value.incarnation nofun
    exact ⟨ha.expected, ha.attempts, ha.nextEpoch, ha.names⟩
  split at hs
  · -- the other end is gone
    rw [Option.some.injEq, Prod.mk.injEq] at hs
    obtain ⟨rfl, rfl⟩ := hs
    refine .inl ⟨_, rfl, ?_⟩
    have ha := onNext_applies
      { owner with authority := none, authorityRevision := none } none (fun _ => rfl)
    exact ⟨ha.expected, ha.attempts, ha.nextEpoch, ha.names⟩
  · cases hs

theorem attempt_works {attempt : Attempt} {input : AttemptInput} {phase : ReconnectPhase}
    (he : owner.AttemptsExpected) (ha : attempt ∈ owner.attempts)
    (hp : ∀ other ∈ attempts { owner with phase }, other ∈ owner.attempts ∨
      (attempt.step config owner.actor input).1 = some other) :
    Works owner { owner with
      actor := (attempt.step config owner.actor input).2, phase } := by
  have hsp := Attempt.step_continues config attempt owner.actor input
  refine ⟨rfl, fun other ho => ?_, ?_⟩
  · rcases hp other ho with hold | hn
    · exact he other hold
    · rw [hsp.expected other hn]
      exact he attempt ha
  · rcases hsp.actor with hk | ⟨identity, minimum, hi, hk⟩
    · exact .inl hk
    refine .inr ⟨identity, minimum, ?_, hk⟩
    rw [hi]
    exact he attempt ha

theorem startAttempt_expected {challenge : Option (Bytes 32)} {attempt : Attempt}
    (h : owner.startAttempt challenge = some attempt) :
    owner.expectedIncarnation = some attempt.expected := by
  unfold startAttempt at h
  split at h
  next he =>
    cases h
    exact he
  · cases h

theorem next_cases {action : Action} (he : owner.AttemptsExpected)
    (h : owner.next config action = some owner') : (∃ inc, owner.appliedBy action = some inc ∧
      Applies owner inc owner') ∨ (owner.appliedBy action = none ∧ Works owner owner') := by
  have hi : Works owner owner := ⟨rfl, he, .inl (.refl _)⟩
  cases action with
  | authority => exact authority_cases he h
  | retry challenge =>
    refine .inr ⟨rfl, ?_⟩
    simp only [next] at h
    split at h
    · cases h
      split
      · exact hi
      rename_i attempt ht
      refine ⟨rfl, fun other ho => ?_, .inl (.refl _)⟩
      rw [List.mem_singleton.1 ho]
      exact startAttempt_expected ht
    · cases h
  | requestReplacement challenge =>
    refine .inr ⟨rfl, ?_⟩
    simp only [next] at h
    split at h
    next attempt published hp =>
      cases h
      split
      · exact hi
      rename_i replacement ht
      refine ⟨rfl, fun other ho => ?_, .inl (.refl _)⟩
      rcases List.mem_pair.1 ho with rfl | rfl
      · exact he _ (by simp [attempts, hp])
      · exact startAttempt_expected ht
    · cases h
      exact hi
    · cases h
      exact hi
    · cases h
  | attempt input =>
    refine .inr ⟨rfl, ?_⟩
    simp only [next] at h
    split at h
    next attempt published hp =>
      cases h
      refine attempt_works he (by simp [attempts, hp]) fun other ho => ?_
      split at ho
      · cases ho
      rename_i hs
      rw [List.mem_singleton.1 ho]
      exact .inr hs
    next old replacement published hp =>
      cases h
      refine attempt_works he (by simp [attempts, hp]) fun other ho => ?_
      split at ho
      · rw [List.mem_singleton.1 ho]
        exact .inl (by simp [attempts, hp])
      rename_i hs
      rcases List.mem_pair.1 ho with rfl | rfl
      · exact .inr hs
      · exact .inl (by simp [attempts, hp])
    · cases h
  | replacement input =>
    refine .inr ⟨rfl, ?_⟩
    simp only [next] at h
    split at h
    next old replacement published hp =>
      cases h
      refine attempt_works he (by simp [attempts, hp]) fun other ho => ?_
      split at ho
      · rw [List.mem_singleton.1 ho]
        exact .inl (by simp [attempts, hp])
      rename_i hs
      rcases List.mem_pair.1 ho with rfl | rfl
      · exact .inl (by simp [attempts, hp])
      · exact .inr hs
    · cases h
  | tick =>
    refine .inr ⟨rfl, ?_⟩
    simp only [next] at h
    split at h
    next attempt published hp =>
      cases h
      refine ⟨rfl, fun other ho => he other ?_, .inl (.refl _)⟩
      rw [List.mem_singleton.1 ho]
      simp [attempts, hp]
    next old replacement oldPublication hp =>
      split at h
      · cases h
        refine ⟨rfl, fun other ho => he other ?_, .inl (Attempt.drop_keeps old _)⟩
        rw [List.mem_singleton.1 ho]
        simp [attempts, hp]
      · cases h
        exact hi
    · cases h
  | shutdown =>
    refine .inr ⟨rfl, ?_⟩
    simp only [next] at h
    split at h
    · cases h
    cases h
    exact ⟨expectedIncarnation_dropAttempts owner, nofun,
      .inl (dropAttempts_keeps owner)⟩

end SnapshotReconnectOwner

/-! ## Runs -/

/-- What goes on around an owner: the other end of its channel, and the owner. -/
inductive ReconnectAction where
  | send (value : EngineIncarnationAuthority)
  | dropSender
  | owner (action : SnapshotReconnectOwner.Action)

/-- An owner with a record of the authority values it has applied: their number,
the last of them, and for every session how many had been applied when it began. -/
structure AuditedReconnect where
  owner : SnapshotReconnectOwner
  applied : Nat
  lastApplied : Option EngineIncarnation
  startedAt : Nat → Option Nat

namespace AuditedReconnect
open SnapshotBootstrapActor

def start (owner : SnapshotReconnectOwner) : AuditedReconnect :=
  ⟨owner, 0, owner.expectedIncarnation, fun _ => none⟩

def record (s : AuditedReconnect) (action : SnapshotReconnectOwner.Action)
    (owner : SnapshotReconnectOwner) : AuditedReconnect where
  owner
  applied := match s.owner.appliedBy action with
    | none => s.applied
    | some _ => s.applied + 1
  lastApplied := (s.owner.appliedBy action).getD s.lastApplied
  startedAt epoch :=
    if s.owner.actor.nextEpoch ≤ epoch ∧ epoch < owner.actor.nextEpoch then some s.applied
    else s.startedAt epoch

def next (config : SnapshotConsumerConfig) (s : AuditedReconnect) :
    ReconnectAction → Option AuditedReconnect
  | .send value =>
    if s.owner.senderDropped then none
    else some { s with owner := { s.owner with authority := s.owner.authority.map (·.send value) } }
  | .dropSender => some { s with owner := { s.owner with senderDropped := true } }
  | .owner action => (s.owner.next config action).map (s.record action)

/-- The runs of an owner over a new actor, with a hot or a pinned authority. -/
def system (config : SnapshotConsumerConfig) : TransitionSystem AuditedReconnect ReconnectAction
    where
  init s := ∃ limits actor, SnapshotBootstrapActor.new limits = .ok actor ∧
    ((∃ channel, s = start (.newWithAuthority actor channel)) ∨ s = start (.new config actor))
  step s action s' := s.next config action = some s'

def Current (s : AuditedReconnect) (epoch : Nat) (identity : SnapshotActorIdentity) : Prop :=
  s.lastApplied = some identity.engineIncarnation ∧ s.startedAt epoch = some s.applied

structure Inv (s : AuditedReconnect) : Prop where
  expected : s.owner.expectedIncarnation = s.lastApplied
  attempts : s.owner.AttemptsExpected
  names : s.owner.actor.Names s.Current

variable {config : SnapshotConsumerConfig} {s s' : AuditedReconnect}

theorem new_names {limits : SnapshotActorLimits} {actor : PublicationActor}
    (h : SnapshotBootstrapActor.new limits = .ok actor) (P : Nat → SnapshotActorIdentity → Prop) :
    actor.Names P := by
  unfold SnapshotBootstrapActor.new at h
  split at h
  · cases h
  · cases h
    exact ⟨fun epoch session hg => by simp at hg, nofun⟩

theorem init_inv (h : (system config).init s) : s.Inv := by
  obtain ⟨limits, actor, hw, ⟨channel, rfl⟩ | rfl⟩ := h
  · exact ⟨rfl, nofun, new_names hw _⟩
  · exact ⟨rfl, nofun, new_names hw _⟩

variable {action : SnapshotReconnectOwner.Action} {owner' : SnapshotReconnectOwner}

theorem Inv.record_applied (h : s.Inv) {inc : Option EngineIncarnation}
    (hd : s.owner.appliedBy action = some inc)
    (hp : SnapshotReconnectOwner.Applies s.owner inc owner') : (s.record action owner').Inv where
  expected := by
    simp only [record, hd, Option.getD_some]
    exact hp.expected
  attempts := hp.attempts h.attempts
  names := by
    rcases hp.names with hc | ⟨hn, ha⟩
    · exact hc _
    -- with no authority before, the actor names nothing
    show owner'.actor.Names _
    rw [ha]
    refine h.names.mono fun epoch identity hu => ?_
    have hs := h.expected.trans hu.1
    rw [hn] at hs
    cases hs

theorem Inv.record_works (h : s.Inv) (ha : s.owner.appliedBy action = none)
    (ho : SnapshotReconnectOwner.Works s.owner owner') : (s.record action owner').Inv := by
  have hl : (s.record action owner').lastApplied = s.lastApplied := by
    simp only [record, ha, Option.getD_none]
  have hc : (s.record action owner').applied = s.applied := by
    simp only [record, ha]
  have hm : ∀ epoch identity, s.Current epoch identity →
      (s.record action owner').Current epoch identity := by
    intro epoch identity hu
    refine ⟨hl.trans hu.1, ?_⟩
    rw [hc]
    simp only [record]
    split
    · rfl
    · exact hu.2
  refine ⟨?_, ho.attempts, ?_⟩
  · rw [hl]
    exact ho.expected.trans h.expected
  show owner'.actor.Names _
  rcases ho.actor with hk | ⟨identity, minimum, hi, hk⟩
  · exact hk.names _ (h.names.mono hm)
  refine hk.names _ ((h.names.mono hm).start identity minimum fun hw => ?_)
  refine ⟨hl.trans (h.expected.symm.trans hi), ?_⟩
  rw [hc]
  refine if_pos ⟨Nat.le_refl _, ?_⟩
  rw [hk.nextEpoch]
  exact hw

theorem step_inv {action : ReconnectAction} (h : s.Inv) (hsp : (system config).step s action s') :
    s'.Inv := by
  have hn : s.next config action = some s' := hsp
  cases action with
  | send value =>
    simp only [next] at hn
    split at hn
    · cases hn
    · cases hn
      exact ⟨h.expected, h.attempts, h.names⟩
  | dropSender =>
    cases hn
    exact ⟨h.expected, h.attempts, h.names⟩
  | owner action =>
    obtain ⟨owner', hb, rfl⟩ := Option.map_eq_some_iff.1 hn
    rcases SnapshotReconnectOwner.next_cases h.attempts hb with
      ⟨inc, ha, hp⟩ | ⟨ha, hw⟩
    · exact h.record_applied ha hp
    · exact h.record_works ha hw

/-- Whatever is published stands for the authority applied last and comes from a
session begun after it; with no authority nothing is published. -/
theorem reconnect_authority (config : SnapshotConsumerConfig) {s : AuditedReconnect}
    (hreach : (system config).Reachable s) :
    (∀ published, s.owner.actor.published = some published →
      s.lastApplied = some published.identity.engineIncarnation ∧
        s.startedAt published.ownerEpoch = some s.applied) ∧
      (s.lastApplied = none → s.owner.actor.published = none) := by
  have hi : s.Inv := hreach.invariant (fun _ => init_inv) fun _ _ _ h hstep => step_inv h hstep
  refine ⟨fun published hp => hi.names.published published hp, fun hn => ?_⟩
  rw [Option.eq_none_iff_forall_ne_some]
  intro published hp
  have hc := (hi.names.published published hp).1
  rw [hn] at hc
  cases hc

/-! ## A sample session -/

namespace Sample
open DigestKvIndex SampleChannel

def snapshotSha256 : Bytes 32 :=
  .ofHex 0xa8f1e742a0b754faf492cd8124ba497569be315cfe7017c50afa8153471f9f2b

def responseInner : Bytes 32 :=
  .ofHex 0x91ceef93cb25d6c6863c4430732ecda5a28b7ae0fa0d615fd10490220d24216f

def responseOuter : Bytes 32 :=
  .ofHex 0x15ec58cb5f155f9db4341b7c4b7f03ca2aa1d0714621ff2785518d521c9949d1

def caughtUpInner : Bytes 32 :=
  .ofHex 0x6af806e86b39824d8aaf36375bd2e4bad8de22d910eaee2ae66c3d25b008d66e

def caughtUpOuter : Bytes 32 :=
  .ofHex 0xda7eb8cf988c2d8cc82edd784912a825b63f665e0df9bfd9191277368360411d

def sha256 (message : List UInt8) : Bytes 32 :=
  if message.length = 923 then snapshotSha256
  else if message.length = 809 then samplePayloadSha256
  else if message.length = 67 then sampleKeyId
  else if message.length = 1424 then responseInner
  else if message.length = 173 then keyInner
  else if message.length = 422 then caughtUpInner
  else if message.drop 64 = responseInner.toList then responseOuter
  else if message.drop 64 = keyInner.toList then keyOuter
  else caughtUpOuter

def codec : SessionCodec := codecOf sha256 snapshotSha256

def producer : ProducerSession where
  challenge := List.Vector.replicate 32 0xa1
  snapshot := ⟨producerIdentity, 9, sampleFrame⟩
  events := [.caughtUp producerIdentity 9]
  fits := by
    simp only [List.mem_singleton, forall_eq]
    exact ⟨by decide, by decide⟩

def response : List UInt8 :=
  ((producer.response codec secret SampleChannel.config).toOption).getD []

def caughtUp : List UInt8 :=
  ((producer.tail codec secret SampleChannel.config)[0]?.map (·.frame)).getD []

def consumer : SnapshotConsumerConfig where
  sessionCodec := codec
  snapshotCodec := { sampleCodec with sha256 }
  decodeBatch := fun _ => .error .invalidMessagePack
  sessionSecret := secret
  digestSecret := sampleSecret
  expectedEngineIncarnation := sampleIncarnation
  minimumSnapshotWatermark := 0
  minimumCompanionGeneration := 0
  group := ⟨0, 0⟩
  sessionLimits := SampleChannel.config.sessionLimits
  snapshotLimits := sampleLimits
  indexLimits := ⟨8, 8, 8, 8, 64⟩
  tailLimits := SampleChannel.config.tailLimits

/-- An owner that has no authority yet. -/
def begin : AuditedReconnect :=
  start (.newWithAuthority ⟨⟨2, 8⟩, 1, ∅, none⟩ ⟨⟨1, none⟩, 0, 0⟩)

def actions : List ReconnectAction :=
  [.send ⟨2, some sampleIncarnation⟩, .owner .authority, .owner (.retry (some producer.challenge)),
    .owner (.attempt (.response response)), .owner (.attempt (.built fun _ => false)),
    .owner (.attempt (.frame caughtUp))]

end Sample

open Sample in
theorem reconnect_authority_sample :
    ∃ s published, (system consumer).Reachable s ∧ s.owner.actor.published = some published ∧
      s.applied = 1 ∧ published.ownerEpoch = 1 ∧
      s.lastApplied = some published.identity.engineIncarnation ∧ s.startedAt 1 = some 1 := by
  have hu : (actions.foldlM (next consumer) begin).any (fun s => s.applied == 1 &&
      s.owner.actor.published.any fun published => published.ownerEpoch == 1) = true := by
    decide +kernel
  obtain ⟨s, hs, hr⟩ := (Option.any_eq_true _ _).1 hu
  rw [Bool.and_eq_true, beq_iff_eq] at hr
  obtain ⟨published, hp, ho⟩ := (Option.any_eq_true _ _).1 hr.2
  have hi : (system consumer).init begin := ⟨⟨2, 8⟩, _, by rfl, .inl ⟨_, rfl⟩⟩
  have he : (system consumer).Reachable s := .foldlM (fun _ _ _ h => h) (.init hi) hs
  have ha := (reconnect_authority consumer he).1 published hp
  rw [beq_iff_eq.1 ho, hr.1] at ha
  exact ⟨s, published, he, hp, hr.1, beq_iff_eq.1 ho, ha.1,
    ha.2⟩

end AuditedReconnect
end Ramjet
