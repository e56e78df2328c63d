import Ramjet.ReconnectAuthority
import Ramjet.Replication

/-!
# End-to-end replication

A companion and a router's actor side by side: an index the actor publishes answers as
the companion's did at the watermark it has reached.
-/

namespace Ramjet
open Function DigestKvIndex VerifiedTailFrame TailWriteState List AuditedActor Option Prod Bool

/-! ## Frames of a session -/

/-- What a decoder gives back for a frame that arrives as it was written. -/
def TailFrameBinding.verified (binding : TailFrameBinding) (payload : List UInt8) :
    VerifiedTailFrame where
  frameType := binding.frameType
  deliverySequence := binding.deliverySequence
  eventWatermark := binding.eventWatermark
  engineIncarnation := binding.engineIncarnation
  digestKeyId := binding.digestKeyId
  companionGeneration := binding.companionGeneration
  payload

def EncodedTail.verified (encoded : EncodedTail) : VerifiedTailFrame :=
  encoded.binding.verified encoded.payload

namespace TailWriteState

/-- The frames of a list of events if none is too large for the wire. -/
def announce : TailWriteState → List ProducerTailEvent → List VerifiedTailFrame
  | _, [] => []
  | state, event :: rest =>
    match state.describe event with
    | .error _ => []
    | .ok (binding, payload, outcome, next) =>
      binding.verified payload :: if outcome.isSome then []
        else announce { next with messageSequence := state.messageSequence + 1 } rest

theorem announces_produceTail (codec : SessionCodec) (key : Bytes 32) (limits : TailWireLimits)
    (state : TailWriteState) (events : List ProducerTailEvent) :
    (produceTail codec key limits state events).map (·.verified) <+: state.announce events := by
  induction events generalizing state with
  | nil => exact prefix_refl _
  | cons event rest ih =>
    simp only [produceTail, encode, announce]
    rcases state.describe event with error | ⟨binding, payload, outcome, next⟩
    · exact prefix_refl _
    dsimp only
    rcases encodeTailFrame codec payload binding key limits with error | frame
    · exact nil_prefix
    dsimp only
    by_cases hl : state.messageSequence = u64Max
    · rw [if_pos hl]
      exact nil_prefix
    rw [if_neg hl]
    dsimp only
    by_cases he : outcome.isSome = true
    · rw [if_pos he, if_pos he]
      exact prefix_refl _
    · rw [if_neg he, if_neg he, map_cons]
      exact cons_prefix_cons.2 ⟨rfl, ih _⟩

variable {events events' : List ProducerTailEvent}

theorem announce_mono (state : TailWriteState) (h : events <+: events') :
    state.announce events <+: state.announce events' := by
  induction events generalizing state events' with
  | nil => exact nil_prefix
  | cons event rest ih =>
    obtain ⟨more, rfl⟩ := h
    rw [cons_append]
    simp only [announce]
    rcases state.describe event with error | ⟨binding, payload, outcome, next⟩
    · exact prefix_refl _
    dsimp only
    refine cons_prefix_cons.2 ⟨rfl, ?_⟩
    split
    · exact prefix_refl _
    · exact ih _ (prefix_append _ _)

theorem produceTail_mono (codec : SessionCodec) (key : Bytes 32) (limits : TailWireLimits)
    (state : TailWriteState) (h : events <+: events') :
    produceTail codec key limits state events <+: produceTail codec key limits state events' := by
  induction events generalizing state events' with
  | nil => exact nil_prefix
  | cons event rest ih =>
    obtain ⟨more, rfl⟩ := h
    rw [cons_append]
    simp only [produceTail]
    rcases state.encode codec event key limits with error | ⟨encoded, next⟩
    · exact prefix_refl _
    dsimp only
    split
    · exact prefix_refl _
    · exact cons_prefix_cons.2 ⟨rfl, ih _ (prefix_append _ _)⟩

end TailWriteState

def VerifiedTailFrame.Carries (frame : VerifiedTailFrame) : ProducerTailEvent → Prop
  | .batch identity eventWatermark payload =>
    frame.frameType = .event ∧ frame.eventWatermark = eventWatermark ∧ frame.payload = payload ∧
      frame.identity = ⟨identity.engineIncarnation, identity.digestKeyId.toList,
        identity.companionGeneration⟩
  | .caughtUp identity eventWatermark =>
    frame.frameType = .caughtUp ∧ frame.eventWatermark = eventWatermark ∧
      frame.identity = ⟨identity.engineIncarnation, identity.digestKeyId.toList,
        identity.companionGeneration⟩
  | .identityChanged _ => frame.frameType = .identity
  | .disconnect _ => frame.frameType = .disconnect

section Streams
variable {delta : SnapshotDigestDeltaAdapter}
  {decode : List UInt8 → Except DecodeError KvEventBatch} {At : Nat → DigestKvIndex → Prop}
  {ident : ProducerIdentity} {w v : Nat} {i j : DigestKvIndex} {events : List ProducerTailEvent}

theorem Streams.announced (h : Streams delta decode At ident w i events v j)
    (state : TailWriteState) (hi : state.identity = ident) (hw : state.eventWatermark = w)
    (hr : state.deliverySequence + events.length ≤ u64Max) :
    Forall₂ Carries (state.announce events) events := by
  induction h generalizing state with
  | nil w i => exact .nil
  | @batch w last index next final batch summary rest hnewe hd ha hat _ ih =>
    have he : ¬ batch.sequence ≤ state.eventWatermark := by omega
    have hc : ¬ state.deliverySequence = u64Max := by
      rw [length_cons] at hr
      omega
    simp only [announce, describe, requireIdentity,
      hi, ne_eq, not_true_eq_false, if_false, if_neg he, if_neg hc,
      isSome_none, false_eq_true]
    refine .cons ⟨rfl, rfl, rfl, rfl⟩ (ih _ rfl rfl ?_)
    rw [length_cons] at hr
    show state.deliverySequence + 1 + rest.length ≤ u64Max
    omega
  | @caughtUp w last index final rest _ ih =>
    simp only [announce, describe, requireIdentity,
      hi, hw, ne_eq, not_true_eq_false, if_false, isSome_none,
      false_eq_true]
    refine .cons ⟨rfl, rfl, rfl⟩ (ih _ rfl rfl ?_)
    rw [length_cons] at hr
    show state.deliverySequence + rest.length ≤ u64Max
    omega

variable {fence : SnapshotTailFence}

theorem acceptTail_duplicate_le {next : SnapshotTailFence} {by' : AuthenticatedIdentity}
    {delivery event : Nat} (h : fence.acceptTail by' delivery event = (.duplicate, next)) :
    ∃ applied, fence.appliedDeliverySequence = some applied ∧ delivery ≤ applied := by
  simp only [SnapshotTailFence.acceptTail] at h
  split at h
  · cases h
  split at h
  · cases h
  split at h
  · cases h
  split at h
  next applied watermark ha hw =>
    split at h
    next hl =>
      exact ⟨applied, ha, hl⟩
    split at h
    · cases h
    split at h
    · cases h
    split at h
    · cases h
    split at h
    · cases h
    · cases h
  · cases h

variable {fence' : SnapshotTailFence}
  {ap : DigestKvIndex → List UInt8 → Option DigestKvIndex} {frame : VerifiedTailFrame}
  {index index' : DigestKvIndex}

theorem tailStep_event {delivery : Nat} (hfr : frame.frameType = .event)
    (hd : fence.appliedDeliverySequence = some delivery) (hw : delivery < frame.deliverySequence)
    (h : tailStep ap (fence, index) frame = some (fence', index')) :
    fence'.appliedDeliverySequence = some frame.deliverySequence ∧
      fence'.appliedEventWatermark = some frame.eventWatermark ∧
      ap index frame.payload = some index' := by
  rcases ha : frame.applyTo fence with ⟨action, next⟩
  have he := ha
  unfold applyTo at he
  simp only [hfr] at he
  split at he
  · obtain ⟨rfl, rfl⟩ := mk.inj he
    obtain ⟨-, hv⟩ := applyTo_apply ha
    simp only [tailStep, ha, map_eq_some_iff, Prod.mk.injEq] at h
    obtain ⟨applied, hy, rfl, rfl⟩ := h
    rw [hv.next]
    exact ⟨rfl, rfl, hy⟩
  next hu =>
    obtain ⟨applied, hp, hl⟩ := acceptTail_duplicate_le hu
    rw [hd] at hp
    have heq := some.inj hp
    omega
  · obtain ⟨rfl, rfl⟩ := mk.inj he
    simp only [tailStep, ha, reduceCtorEq] at h

theorem tailStep_caughtUp (hfr : frame.frameType = .caughtUp)
    (h : tailStep ap (fence, index) frame = some (fence', index')) :
    fence'.appliedDeliverySequence = fence.appliedDeliverySequence ∧
      fence'.appliedEventWatermark = fence.appliedEventWatermark ∧ index' = index := by
  rcases ha : frame.applyTo fence with ⟨action, next⟩
  have hm := ha
  unfold applyTo at hm
  simp only [hfr] at hm
  split at hm <;> obtain ⟨rfl, rfl⟩ := mk.inj hm
  case h_3 => simp only [tailStep, ha, reduceCtorEq] at h
  all_goals
    have hk := applyTo_keeps ha (by simp) (by simp)
    simp only [tailStep, ha, some.injEq, Prod.mk.injEq] at h
    obtain ⟨rfl, rfl⟩ := h
    exact ⟨hk.1, hk.2, rfl⟩

variable {frames : List VerifiedTailFrame}

theorem foldlM_tailStep_cons {current final : SnapshotTailFence × DigestKvIndex}
    (h : (frame :: frames).foldlM (tailStep ap) current = some final) :
    ∃ next, tailStep ap current frame = some next ∧
      frames.foldlM (tailStep ap) next = some final := by
  rw [foldlM_cons] at h
  exact bind_eq_some_iff.1 h

theorem tailStep_final (hfr : frame.frameType = .identity ∨ frame.frameType = .disconnect)
    (h : tailStep ap (fence, index) frame = some (fence', index')) :
    fence' = fence ∧ index' = index := by
  rcases ha : frame.applyTo fence with ⟨action, next⟩
  have hc : action = .identityCurrent ∨ ∃ reason, action = .fenced reason := by
    unfold applyTo at ha
    rcases hfr with hfr | hfr
    · simp only [hfr] at ha
      split at ha
      · exact .inl (mk.inj ha).1.symm
      · exact .inr ⟨_, (mk.inj ha).1.symm⟩
    · simp only [hfr] at ha
      exact .inr ⟨_, (Prod.mk.inj ha).1.symm⟩
  rcases hc with rfl | ⟨reason, rfl⟩
  · have hq := applyTo_quiet ha (.inr (.inr rfl))
    simp only [tailStep, ha, some.injEq, Prod.mk.injEq] at h
    exact ⟨h.1.symm.trans hq, h.2.symm⟩
  · simp only [tailStep, ha, reduceCtorEq] at h

variable {final : List ProducerTailEvent}

theorem announce_final (he : ProducerTailEvent.Ends final) (state : TailWriteState)
    (hf : frames <+: state.announce final) : frames = [] ∨ ∃ frame, frames = [frame] ∧
      (frame.frameType = .identity ∨ frame.frameType = .disconnect) := by
  have hn : ∀ {fs : List VerifiedTailFrame}, fs <+: [] → fs = [] := fun h => prefix_nil.1 h
  have ho : ∀ {fs : List VerifiedTailFrame} {frame : VerifiedTailFrame}, fs <+: [frame] →
      fs = [] ∨ fs = [frame] := by
    intro fs frame h
    rcases fs with _ | ⟨first, rest⟩
    · exact .inl rfl
    obtain ⟨rfl, hr⟩ := cons_prefix_cons.1 h
    rw [hn hr]
    exact .inr rfl
  rcases he with rfl | ⟨ident, rfl⟩ | ⟨ident, rfl⟩
  · exact .inl (hn hf)
  · simp only [announce, describe, isSome_some, if_true] at hf
    rcases ho hf with rfl | rfl
    · exact .inl rfl
    · exact .inr ⟨_, rfl, .inl rfl⟩
  · simp only [announce, describe] at hf
    rcases hi : state.requireIdentity ident with error | ⟨⟩
    · simp only [hi] at hf
      exact .inl (hn hf)
    simp only [hi, isSome_some, if_true] at hf
    rcases ho hf with rfl | rfl
    · exact .inl rfl
    · exact .inr ⟨_, rfl, .inr rfl⟩

theorem Streams.followed (h : Streams delta decode At ident w i events v j) (hat : At w i)
    (router : SnapshotDigestDeltaAdapter) (hj : router.group = delta.group)
    (hd : ∀ payload batch decoded, decode payload = .ok batch →
      router.decodeBatch payload = .ok decoded → decoded = batch)
    (hb : ProducerTailEvent.Ends final) {state : TailWriteState}
    (hi : state.identity = ident) (hw : state.eventWatermark = w)
    (he : fence.appliedDeliverySequence = some state.deliverySequence)
    (hv : fence.appliedEventWatermark = some w) {r r' : DigestKvIndex} (hs : Similar i r)
    (hf : frames <+: state.announce (events ++ final))
    (ho : frames.foldlM (tailStep router.applyPayload) (fence, r) = some (fence', r')) :
    ∃ w' i', fence'.appliedEventWatermark = some w' ∧ At w' i' ∧ Similar i' r' := by
  induction h generalizing state fence r frames with
  | nil w i =>
    rcases announce_final hb state hf with rfl | ⟨frame, rfl, hfr⟩
    · cases ho
      exact ⟨w, i, hv, hat, hs⟩
    obtain ⟨⟨fence₁, r₁⟩, hsp, hr₁⟩ := foldlM_tailStep_cons ho
    obtain ⟨rfl, rfl⟩ := tailStep_final hfr hsp
    cases hr₁
    exact ⟨w, i, hv, hat, hs⟩
  | @batch w last index next final' batch summary rest hnewe hp ha hn hr ih =>
    rcases frames with _ | ⟨frame, more⟩
    · cases ho
      exact ⟨w, index, hv, hat, hs⟩
    have hg : ¬ batch.sequence ≤ state.eventWatermark := by omega
    rw [cons_append] at hf
    simp only [announce, describe, requireIdentity,
      hi, ne_eq, not_true_eq_false, if_false, if_neg hg] at hf
    by_cases hc : state.deliverySequence = u64Max
    · rw [if_pos hc] at hf
      exact absurd (prefix_nil.1 hf) (by simp)
    rw [if_neg hc] at hf
    obtain ⟨rfl, hm⟩ := cons_prefix_cons.1 hf
    obtain ⟨⟨fence₁, r₁⟩, hsp, hr₁⟩ := foldlM_tailStep_cons ho
    obtain ⟨he₁, hv₁, hp₁⟩ :=
      tailStep_event rfl he (Nat.lt_succ_self _) hsp
    have hs₁ : Similar next r₁ :=
      SnapshotDigestDeltaAdapter.applyPayload_similar hj hs ha
        (fun decoded => hd _ _ decoded hp) hp₁
    simp only [isSome_none, false_eq_true, if_false] at hm
    exact ih hn rfl rfl he₁ hv₁ hs₁ hm hr₁
  | @caughtUp w last index final' rest hr ih =>
    rcases frames with _ | ⟨frame, more⟩
    · cases ho
      exact ⟨w, index, hv, hat, hs⟩
    rw [cons_append] at hf
    simp only [announce, describe, requireIdentity,
      hi, hw, ne_eq, not_true_eq_false, if_false, isSome_none,
      false_eq_true] at hf
    obtain ⟨rfl, hm⟩ := cons_prefix_cons.1 hf
    obtain ⟨⟨fence₁, r₁⟩, hsp, hr₁⟩ := foldlM_tailStep_cons ho
    obtain ⟨he₁, hv₁, rfl⟩ := tailStep_caughtUp rfl hsp
    refine ih hat ?_ ?_ ?_ (hv₁.trans hv) hs hm hr₁
    · rfl
    · rfl
    · exact he₁.trans he

end Streams

/-! ## A companion and a router -/

def ActorOp.feeds? {ι : Type} : ActorOp ι → Option Nat
  | .installPreparedSnapshot epoch _ => some epoch
  | .acceptTailFrame epoch _ => some epoch
  | _ => none

/-- How a companion and a router are set up: the companion's configuration, its
digest secret, the decoder of its transport, the limits of its wire and the
challenge of each session, and the router's configuration. -/
structure Deployment where
  config : CompanionIndexSourceConfig
  digestSecret : Bytes 32
  decodeLive : List UInt8 → Except DecodeError KvEventBatch
  tailLimits : TailWireLimits
  challenge : Nat → Bytes 32
  consumer : SnapshotConsumerConfig
  actorLimits : SnapshotActorLimits

/-- `link` is the companion's session behind an epoch of the router. -/
structure Replicated where
  companion : Companion
  router : AuditedActor DigestKvIndex
  link : Nat → Option Nat

inductive ReplicationAction where
  | companion (action : SourceAction)
  | connect (id : Nat)
  | install (epoch : Nat) (cancelled : Nat → Bool)
  | deliver (epoch : Nat)
  | router (op : ActorOp DigestKvIndex)

namespace Deployment
open CompanionIndexSource
variable (d : Deployment)

def digester : BlockDigester := .new d.consumer.snapshotCodec.sha256 d.digestSecret

def writeState (id : Nat) (identity : ProducerIdentity) (watermark : Nat) : TailWriteState where
  identity
  challenge := d.challenge id
  messageSequence := 1
  deliverySequence := 0
  eventWatermark := watermark

/-- What the handler of a session has written after its snapshot. -/
def written (companion : Companion) (id : Nat) : List EncodedTail :=
  match companion.snapshots id with
  | none => []
  | some snapshot =>
    produceTail d.consumer.sessionCodec
      (deriveTailKey d.consumer.sessionCodec.sha256 d.consumer.sessionSecret (d.challenge id)
        snapshot.identity.companionGeneration .companionToRouter)
      d.tailLimits (d.writeState id snapshot.identity snapshot.watermark) (companion.received id)

def authenticated (snapshot : ProducerSnapshot) : AuthenticatedSnapshot :=
  ⟨snapshot.identity.engineIncarnation, snapshot.watermark, snapshot.identity.digestKeyId,
    snapshot.identity.companionGeneration, snapshot.frame⟩

def runRouter (s : Replicated) (op : ActorOp DigestKvIndex) : Replicated :=
  { s with router :=
      ⟨op.run d.consumer.applyPayload s.router.actor, s.router.record d.consumer.applyPayload op⟩ }

def next (s : Replicated) : ReplicationAction → Option Replicated
  | .companion action =>
    (s.companion.next d.consumer.snapshotCodec d.decodeLive action).map fun companion =>
      { s with companion }
  | .connect id =>
    ((s.companion.builds id).bind fun _ => s.companion.snapshots id).map fun snapshot =>
      let identity : SnapshotActorIdentity := ⟨snapshot.identity.engineIncarnation,
        snapshot.identity.digestKeyId, snapshot.identity.companionGeneration⟩
      { d.runRouter s (.startSession identity d.consumer.minimumSnapshotWatermark) with
        link :=
          match (s.router.actor.startSession identity d.consumer.minimumSnapshotWatermark).1 with
          | .ok started => update s.link started.epoch (some id)
          | .error _ => s.link }
  | .install epoch cancelled =>
    match (s.link epoch).bind s.companion.snapshots with
    | none => none
    | some snapshot =>
      match d.consumer.prepare (authenticated snapshot) cancelled with
      | .error _ => none
      | .ok prepared => some (d.runRouter s (.installPreparedSnapshot epoch prepared))
  | .deliver epoch =>
    match s.link epoch with
    | none => none
    | some id =>
      ((d.written s.companion id)[(s.router.log epoch).delivered.length]?).map fun encoded =>
        d.runRouter s (.acceptTailFrame epoch encoded.verified)
  | .router op =>
    if (op.feeds?.bind s.link).isNone then some (d.runRouter s op) else none

def system : TransitionSystem Replicated ReplicationAction where
  init s := ∃ decodeBatch incarnation generation channels source actor,
    new d.config decodeBatch incarnation generation d.digester channels =
      .ok source ∧
    SnapshotBootstrapActor.new d.actorLimits = .ok actor ∧
    s = ⟨Companion.new source, ⟨actor, fun _ => ⟨none, []⟩⟩, fun _ => none⟩
  step s action s' := d.next s action = some s'

/-! ## What the router holds -/

structure Linked (s : Replicated) (epoch id : Nat) : Prop where
  begun : epoch < s.router.actor.nextEpoch
  feed : ∃ build snapshot, s.companion.builds id = some build ∧
    s.companion.snapshots id = some snapshot ∧
    (s.router.log epoch).delivered <+: (d.written s.companion id).map (·.verified) ∧
    ∀ prepared, (s.router.log epoch).prepared = some prepared →
      ∃ cancelled, d.consumer.prepare (authenticated snapshot) cancelled = .ok prepared

structure Inv (s : Replicated) : Prop where
  books : ∃ decodeBatch, s.companion.Books d.consumer.snapshotCodec d.decodeLive d.config
    ⟨⟨d.config.group.dataParallelRank, d.config.group.groupIdx⟩, decodeBatch⟩ d.digester
  router : (AuditedActor.system d.actorLimits d.consumer.applyPayload).Reachable s.router
  links : ∀ epoch id, s.link epoch = some id → d.Linked s epoch id

variable {d : Deployment} {s s' : Replicated} {id : Nat} {snapshot : ProducerSnapshot}

theorem written_mono {companion companion' : Companion}
    (hs : companion.snapshots id = some snapshot) (hs' : companion'.snapshots id = some snapshot)
    (hr : companion.received id <+: companion'.received id) :
    d.written companion id <+: d.written companion' id := by
  simp only [written, hs, hs']
  exact produceTail_mono _ _ _ _ hr

theorem init_inv (h : d.system.init s) : d.Inv s := by
  obtain ⟨decodeBatch, incarnation, generation, channels, source, actor, hs, ha, rfl⟩ := h
  exact ⟨⟨decodeBatch, Companion.Books.new hs⟩, .init ha, fun epoch id hl => by
    cases hl⟩

theorem startSession_epoch (actor : PublicationActor) (ident : SnapshotActorIdentity)
    (minimum : Nat) : actor.nextEpoch ≤ (actor.startSession ident minimum).2.nextEpoch ∧
      ∀ started, (actor.startSession ident minimum).1 = .ok started →
        started.epoch = actor.nextEpoch ∧
          (actor.startSession ident minimum).2.nextEpoch = actor.nextEpoch + 1 := by
  obtain ⟨kept, hk, hc⟩ := startSession_cases actor ident minimum
  have he : kept.nextEpoch = actor.nextEpoch := by
    rcases hk with rfl | rfl
    · rfl
    · rfl
  rcases hc with ⟨error, ht⟩ | ⟨-, revoked, session, -, -, -, ht⟩
  · rw [ht]
    exact ⟨Nat.le_of_eq he.symm, fun _ ho => by cases ho⟩
  rw [ht]
  have hn : (({ kept with nextEpoch := kept.nextEpoch + 1 } : PublicationActor).setSession
      kept.nextEpoch session).nextEpoch = actor.nextEpoch + 1 := congrArg (· + 1) he
  rw [hn]
  refine ⟨Nat.le_succ _, fun started ho => ?_⟩
  cases ho
  exact ⟨he, rfl⟩

variable {epoch : Nat} {op : ActorOp DigestKvIndex}

theorem record_other (router : AuditedActor DigestKvIndex)
    (ap : DigestKvIndex → List UInt8 → Option DigestKvIndex) (hb : epoch < router.actor.nextEpoch)
    (ho : op.feeds? ≠ some epoch) : router.record ap op epoch = router.log epoch := by
  cases op with
  | startSession ident minimum =>
    simp only [record]
    rcases ht : (router.actor.startSession ident minimum).1 with error | started
    · rfl
    · have hs := ((startSession_epoch router.actor ident minimum).2 started ht).1
      exact update_of_ne (by omega) _ _
  | installPreparedSnapshot other prepared =>
    simp only [record]
    rcases (router.actor.installPreparedSnapshot ap other prepared).1 with error | action
    · rfl
    refine update_of_ne ?_ _ _
    rintro rfl
    exact ho rfl
  | acceptTailFrame other frame =>
    refine update_of_ne ?_ _ _
    rintro rfl
    exact ho rfl
  | beginSnapshotBuild _ => rfl
  | snapshotBuildFailed _ => rfl
  | disconnected _ => rfl
  | observeIdentity _ => rfl
  | revokeAuthority => rfl

theorem Linked.other (h : d.Linked s epoch id)
    (ho : op.feeds? ≠ some epoch) : d.Linked (d.runRouter s op) epoch id := by
  obtain ⟨build, snapshot, hb, hs, hd, hp⟩ := h.feed
  have hl : (d.runRouter s op).router.log epoch = s.router.log epoch :=
    record_other s.router d.consumer.applyPayload h.begun ho
  refine ⟨Nat.lt_of_lt_of_le h.begun (limits_nextEpoch_run _ _ op).2, build, snapshot, hb, hs,
    ?_, ?_⟩
  · rw [hl]
    exact hd
  · rw [hl]
    exact hp

theorem Linked.companion (h : d.Linked s epoch id) {delta : SnapshotDigestDeltaAdapter}
    (hk : s.companion.Books d.consumer.snapshotCodec d.decodeLive d.config delta d.digester)
    {action : SourceAction} {companion : Companion}
    (ha : s.companion.act d.consumer.snapshotCodec d.decodeLive action = some companion) :
    d.Linked { s with companion := companion.observe } epoch id := by
  obtain ⟨build, snapshot, hb, hn, hd, hp⟩ := h.feed
  obtain ⟨hu, hs, hr⟩ := hk.act_keeps ha id
  refine ⟨h.begun, build, snapshot, hu _ hb, hs _ hn, ?_, hp⟩
  refine hd.trans (IsPrefix.map _ ?_)
  exact written_mono hn (hs _ hn) hr

theorem Linked.connect {build : SnapshotBuild} {ident : SnapshotActorIdentity} {minimum : Nat}
    {started : StartSessionResult} (hb : s.companion.builds id = some build)
    (hs : s.companion.snapshots id = some snapshot)
    (ht : (s.router.actor.startSession ident minimum).1 = .ok started) :
    d.Linked (d.runRouter s (.startSession ident minimum)) started.epoch id := by
  obtain ⟨he, hn⟩ := (startSession_epoch s.router.actor ident minimum).2 started ht
  have hl : (d.runRouter s (.startSession ident minimum)).router.log started.epoch =
      ⟨none, []⟩ := by
    simp only [runRouter, record, ht, update_self]
  refine ⟨?_, build, snapshot, hb, hs, ?_, ?_⟩
  · show started.epoch < (s.router.actor.startSession ident minimum).2.nextEpoch
    omega
  · rw [hl]
    exact nil_prefix
  · rw [hl]
    exact fun _ ho => by cases ho

theorem Linked.install {cancelled : Nat → Bool}
    {prepared : PreparedSnapshotGeneration DigestKvIndex} (h : d.Linked s epoch id)
    (hs : s.companion.snapshots id = some snapshot)
    (hr : d.consumer.prepare (authenticated snapshot) cancelled = .ok prepared) :
    d.Linked (d.runRouter s (.installPreparedSnapshot epoch prepared)) epoch id := by
  obtain ⟨build, snapshot', hb, hs', hd, hp⟩ := h.feed
  have hm : snapshot' = snapshot := some.inj (hs'.symm.trans hs)
  subst hm
  refine ⟨Nat.lt_of_lt_of_le h.begun (limits_nextEpoch_run _ _ _).2, build, snapshot', hb, hs',
    ?_, ?_⟩
  · simp only [runRouter, record]
    rcases (s.router.actor.installPreparedSnapshot d.consumer.applyPayload epoch prepared).1 with
      error | action
    · exact hd
    · simp only [update_self]
      exact hd
  · simp only [runRouter, record]
    rcases (s.router.actor.installPreparedSnapshot d.consumer.applyPayload epoch prepared).1 with
      error | action
    · exact hp
    simp only [update_self, some.injEq]
    rintro _ rfl
    exact ⟨cancelled, hr⟩

theorem Linked.deliver {encoded : EncodedTail} (h : d.Linked s epoch id)
    (hg : (d.written s.companion id)[(s.router.log epoch).delivered.length]? = some encoded) :
    d.Linked (d.runRouter s (.acceptTailFrame epoch encoded.verified)) epoch id := by
  obtain ⟨build, snapshot, hb, hs, ⟨rest, hr⟩, hp⟩ := h.feed
  have hl : (d.runRouter s (.acceptTailFrame epoch encoded.verified)).router.log epoch =
      { s.router.log epoch with
        delivered := (s.router.log epoch).delivered ++ [encoded.verified] } :=
    update_self _ _ _
  have hf : rest[0]? = some encoded.verified := by
    have hm : ((d.written s.companion id).map (·.verified))[
        (s.router.log epoch).delivered.length]? = some encoded.verified := by
      rw [getElem?_map, hg]
      rfl
    rw [← hr, getElem?_append_right (Nat.le_refl _), Nat.sub_self] at hm
    exact hm
  refine ⟨Nat.lt_of_lt_of_le h.begun (limits_nextEpoch_run _ _ _).2, build, snapshot, hb, hs,
    ?_, ?_⟩
  · rw [hl]
    rcases rest with _ | ⟨frame, more⟩
    · cases hf
    · cases hf
      exact ⟨more, (append_assoc _ _ _).trans hr⟩
  · rw [hl]
    exact hp

theorem step_inv {action : ReplicationAction} (h : d.Inv s) (hn : d.next s action = some s') :
    d.Inv s' := by
  obtain ⟨decodeBatch, hs⟩ := h.books
  have hr : ∀ op, (AuditedActor.system d.actorLimits d.consumer.applyPayload).Reachable
      (d.runRouter s op).router := fun op => .step h.router rfl
  -- an operation that feeds one epoch leaves the others
  have hf : ∀ {epoch id op}, s.link epoch = some id → ActorOp.feeds? op = some epoch →
      d.Linked (d.runRouter s op) epoch id → d.Inv (d.runRouter s op) := by
    intro epoch id op hk ho hl
    refine ⟨⟨decodeBatch, hs⟩, hr _, fun other session hold => ?_⟩
    have hold : s.link other = some session := hold
    by_cases he : other = epoch
    · subst he
      exact Option.some.inj (hk.symm.trans hold) ▸ hl
    · exact (h.links other session hold).other fun hn => he (Option.some.inj (hn.symm.trans ho))
  cases action with
  | companion action =>
    simp only [next, Companion.next, Option.map_map, Option.map_eq_some_iff] at hn
    obtain ⟨companion, hd, rfl⟩ := hn
    exact ⟨⟨decodeBatch, hs.act hd⟩, h.router, fun epoch id hl =>
      (h.links epoch id hl).companion hs hd⟩
  | connect id =>
    simp only [next, Option.map_eq_some_iff, Option.bind_eq_some_iff] at hn
    obtain ⟨snapshot, ⟨build, hb, ha⟩, rfl⟩ := hn
    refine ⟨⟨decodeBatch, hs⟩, hr _, fun epoch other hl => ?_⟩
    generalize hi : (⟨snapshot.identity.engineIncarnation, snapshot.identity.digestKeyId,
      snapshot.identity.companionGeneration⟩ : SnapshotActorIdentity) = ident at hl
    have ht : s.link epoch = some other → d.Linked (d.runRouter s
        (.startSession ident d.consumer.minimumSnapshotWatermark)) epoch other :=
      fun hold => (h.links epoch other hold).other (by simp [ActorOp.feeds?])
    suffices hk : d.Linked (d.runRouter s
        (.startSession ident d.consumer.minimumSnapshotWatermark)) epoch other by
      subst hi
      exact ⟨hk.begun, hk.feed⟩
    rcases hc : (s.router.actor.startSession ident
        d.consumer.minimumSnapshotWatermark).1 with error | started
    · simp only [hc] at hl
      exact ht hl
    simp only [hc] at hl
    by_cases he : epoch = started.epoch
    · subst he
      rw [update_self, Option.some.injEq] at hl
      subst hl
      exact .connect hb ha hc
    · rw [update_of_ne he] at hl
      exact ht hl
  | install epoch cancelled =>
    simp only [next] at hn
    split at hn
    · cases hn
    rename_i snapshot hu
    obtain ⟨id, hk, ha⟩ := Option.bind_eq_some_iff.1 hu
    split at hn
    · cases hn
    rename_i prepared hp
    cases hn
    exact hf hk rfl ((h.links epoch id hk).install ha hp)
  | deliver epoch =>
    simp only [next] at hn
    split at hn
    · cases hn
    rename_i id hk
    obtain ⟨encoded, hg, rfl⟩ := Option.map_eq_some_iff.1 hn
    exact hf hk rfl ((h.links epoch id hk).deliver hg)
  | router op =>
    simp only [next] at hn
    split at hn
    next hf =>
      cases hn
      refine ⟨⟨decodeBatch, hs⟩, hr op, fun epoch id hl => ?_⟩
      refine (h.links epoch id hl).other fun ho => ?_
      have hk : s.link epoch = some id := hl
      rw [ho, Option.bind_some, hk] at hf
      cases hf
    · cases hn

/-! ## The theorem -/

theorem Inv.published (hc : d.consumer.snapshotCodec.RoundTrips)
    (hy : d.consumer.indexLimits = d.config.indexLimits)
    (hz : (BlockDigester.new d.consumer.snapshotCodec.sha256 d.consumer.digestSecret).keyId =
      d.digester.keyId → d.consumer.digestSecret = d.digestSecret)
    (hd : ∀ payload batch decoded, d.decodeLive payload = .ok batch →
      d.consumer.decodeBatch payload = .ok decoded → decoded = batch) (h : d.Inv s)
    {published : Published DigestKvIndex} (hm : s.router.actor.published = some published)
    (hl : s.link published.ownerEpoch = some id) :
    ∃ build session watermark index, s.companion.builds id = some build ∧
      s.router.actor.sessions[published.ownerEpoch]? = some session ∧
      session.fence.appliedEventWatermark = some watermark ∧
      s.companion.history build.identity watermark = some index ∧
      Similar index published.index := by
  obtain ⟨decodeBatch, hk⟩ := h.books
  obtain ⟨build, snapshot, hb, hq, he, hp⟩ := (h.links _ _ hl).feed
  have hs := hk.session id build hb
  obtain ⟨hu, hw, exportCancelled, encodeCancelled, hfr⟩ :=
    hs.snapshot snapshot hq
  -- what the actor has published is the replay of what it was fed
  obtain ⟨hi, -⟩ := publicationInv_of_reachable h.router
  obtain ⟨session, hg, hst⟩ := hi.owner published hm
  have hrp := hi.session _ session hg
  simp only [AuditedActor.SessionInv, hst] at hrp
  obtain ⟨prepared, index, hlg, ho, -, hrp⟩ := hrp
  obtain rfl : index = published.index := by
    rw [hm] at ho
    rw [some.inj ho]
  -- the snapshot it started from
  obtain ⟨cancelled, hr⟩ := hp prepared hlg
  rw [authenticated, hu, hw] at hr
  have hv := hs.fit.2
  obtain ⟨hgr, hta, -, hsi⟩ := prepared_of_buildFrame hc hs.fit.1 hfr
    (hy.trans (congrArg fst hv).symm)
    (fun hsm => by
      have ha := hz (hsm.trans hs.keyId)
      rw [ha]
      exact (congrArg snd hv).symm) hr
  -- and the frames
  obtain ⟨body, final, last, latest, hse, hn, ht, -⟩ := hs.follows.stream
  have hf : (s.router.log published.ownerEpoch).delivered <+:
      (d.writeState id build.identity build.watermark).announce (body ++ final) := by
    refine he.trans ?_
    simp only [written, hq, hu, hw]
    refine (announces_produceTail _ _ _ _ _).trans ?_
    rw [← hse]
    exact announce_mono _ (prefix_append _ _)
  have hx := prepared.accepted
  obtain ⟨reached, companionIndex, hev, hh, hj⟩ := ht.followed
    hs.recorded ⟨d.consumer.group, d.consumer.decodeBatch⟩ hgr hd hn
    rfl rfl hx.delivery (hx.event.trans (congrArg some hta)) hsi hf
    hrp
  exact ⟨build, session, reached, companionIndex, hb, hg, hev, hh, hj⟩

/-- Every session nobody has revoked was sent the live batches after its snapshot,
in order, with the mark that it has caught up where the companion was when it
sent it; the handler writes a frame for each event in turn; and an index that
the router publishes for a session answers as the companion's did at the
watermark the session has reached. -/
theorem replication (d : Deployment) (hcodec : d.consumer.snapshotCodec.RoundTrips)
    (hlimits : d.consumer.indexLimits = d.config.indexLimits)
    (hkey : (BlockDigester.new d.consumer.snapshotCodec.sha256 d.consumer.digestSecret).keyId =
      d.digester.keyId → d.consumer.digestSecret = d.digestSecret)
    (hdecode : ∀ payload batch decoded, d.decodeLive payload = .ok batch →
      d.consumer.decodeBatch payload = .ok decoded → decoded = batch)
    {s : Replicated} (hreach : d.system.Reachable s) :
    (∀ id build, s.companion.builds id = some build →
      (s.companion.source.channels id).cancelled = false →
        s.companion.sent id = tailEvents build.identity (s.companion.caughtUp id)
            (s.companion.tail build) ∧
          (s.companion.tail build).Pairwise
            (fun entry later => entry.batch.sequence < later.batch.sequence) ∧
          ((s.companion.sent id).length ≤ u64Max → List.Forall₂ VerifiedTailFrame.Carries
              ((d.writeState id build.identity build.watermark).announce (s.companion.sent id))
              (s.companion.sent id))) ∧
    (∀ id build, s.companion.builds id = some build →
      (d.written s.companion id).map (·.verified) <+:
        (d.writeState id build.identity build.watermark).announce (s.companion.sent id)) ∧
    ∀ published, s.router.actor.published = some published →
      ∀ id, s.link published.ownerEpoch = some id →
        ∃ build session watermark index, s.companion.builds id = some build ∧
          s.router.actor.sessions[published.ownerEpoch]? = some session ∧
          session.fence.appliedEventWatermark = some watermark ∧
          s.companion.history build.identity watermark = some index ∧
          ∀ tokenIds expected answer, index.findLongest tokenIds = .ok expected →
            published.index.findLongest tokenIds = .ok answer → answer = expected := by
  have hd : d.Inv s := hreach.invariant (fun _ => init_inv) fun _ _ _ h hstep => step_inv h hstep
  obtain ⟨decodeBatch, ho⟩ := hd.books
  refine ⟨fun id build hb hg => ?_, fun id build hb => ?_,
    fun published hp id hk => ?_⟩
  · obtain ⟨body, final, last, index, hn, -, ht, hf⟩ :=
      (ho.session id build hb).follows.stream
    obtain ⟨rfl, hj⟩ := hf hg
    rw [List.append_nil] at hn
    refine ⟨hn.trans hj.body, ?_, fun hq => ?_⟩
    · refine (ho.ordered.filter _).imp_of_mem fun {entry later} hy hc hx => hx ?_
      have hm := of_decide_eq_true (List.mem_filter.1 hy).2
      have hm' := of_decide_eq_true (List.mem_filter.1 hc).2
      exact hm.1.trans hm'.1.symm
    · rw [hn] at hq ⊢
      refine ht.announced _ rfl rfl ?_
      show 0 + body.length ≤ u64Max
      omega
  · have ha := ho.session id build hb
    unfold written
    rcases hs : s.companion.snapshots id with _ | snapshot
    · exact List.nil_prefix
    obtain ⟨hi, hw, -⟩ := ha.snapshot snapshot hs
    dsimp only
    rw [hi, hw]
    exact (TailWriteState.announces_produceTail _ _ _ _ _).trans
      (TailWriteState.announce_mono _ (List.prefix_append _ _))
  · obtain ⟨build, session, watermark, index, hb, hu, hv, hh, hl⟩ :=
      hd.published hcodec hlimits hkey hdecode hp hk
    exact ⟨build, session, watermark, index, hb, hu, hv, hh,
      fun tokenIds expected answer he hr =>
        (hl.findLongest he hr).symm⟩

namespace Sample
open DigestKvIndex SampleChannel
open AuditedReconnect.Sample (caughtUpInner caughtUpOuter)

def eventInner : Bytes 32 :=
  .ofHex 0xd9dfcf2d95d07f20168eb92d65b8151deb49b7b0b7b7e70f58696cdda4eb23a3

def eventOuter : Bytes 32 :=
  .ofHex 0xb66911086adf565e520c0bea3ce2cbb00ecd7f471f495a6deeb6bc067b7279c9

def sha256 (message : List UInt8) : Bytes 32 :=
  if message.length = 809 then samplePayloadSha256
  else if message.length = 173 then keyInner
  else if message.length = 422 then caughtUpInner
  else if message.length = 521 then eventInner
  else if message.drop 64 = keyInner.toList then keyOuter
  else if message.drop 64 = caughtUpInner.toList then caughtUpOuter
  else if message.drop 64 = eventInner.toList then eventOuter
  else sampleSha256 message

/-- What the companion replays first. -/
def replayed : SequencedBatch where
  sequence := 9
  payload := []
  batch := ⟨[.blockStored (storeTokens [1, 2] [7, 8]), .blockRemoved (removal [7])], some 0⟩

/-- A live batch that stores one more block. -/
def live : SequencedBatch where
  sequence := 10
  payload := packArray [[0xcb, 0x3f, 0xf8, 0, 0, 0, 0, 0, 0], packArray [packMap
        [("type", packStr "BlockStored"), ("block_hashes", packArray [packUint 9]),
          ("parent_block_hash", [0xc0]),
          ("token_ids", packArray [packUint 3]),
          ("block_size", packUint 1),
          ("medium", packStr "GPU")]],
      packUint 0]
  batch := ⟨[.blockStored { storeTokens [3] [] with blockHashes := [.signed 9] }], some 0⟩

def decodeLive (payload : List UInt8) : Except DecodeError KvEventBatch :=
  if payload = live.payload then .ok live.batch else .error .invalidMessagePack

def deployment : Deployment where
  config := ⟨sampleGroup, ⟨8, 8, 8, 8, 64⟩, sampleLimits, 2⟩
  digestSecret := AuditedReconnect.Sample.consumer.digestSecret
  decodeLive
  tailLimits := SampleChannel.config.tailLimits
  challenge _ := List.Vector.replicate 32 0xa1
  consumer := { AuditedReconnect.Sample.consumer with
    sessionCodec := { codec with sha256 }
    snapshotCodec := { sampleCodec with sha256 }
    decodeBatch := decodeLive }
  actorLimits := ⟨2, 8⟩

def channel : TailChannel := ⟨1024, 8, 1024, [], false, false⟩

def source : Except CompanionIndexSourceError CompanionIndexSource :=
  new deployment.config decodeLive sampleIncarnation 1 deployment.digester
    fun _ => channel

def begin : Option Replicated :=
  source.toOption.map fun source =>
    ⟨Companion.new source, ⟨⟨⟨2, 8⟩, 1, ∅, none⟩, fun _ => ⟨none, []⟩⟩, fun _ => none⟩

def actions : List ReplicationAction :=
  [.companion (.applyReplay replayed), .companion (.finishReplay 9), .companion (.start channel),
    .companion (.finishBuild 1 (fun _ => false) fun _ => false), .companion (.handler 1 .receive),
    .connect 1, .router (.beginSnapshotBuild 1), .install 1 (fun _ => false), .deliver 1,
    .companion (.applyLive live), .companion (.handler 1 .receive), .deliver 1]

theorem init_begin {s : Replicated} (h : begin = some s) : deployment.system.init s := by
  obtain ⟨source', hs, rfl⟩ := map_eq_some_iff.1 h
  rcases hw : source with error | started
  · rw [hw] at hs
    cases hs
  rw [hw] at hs
  cases hs
  exact ⟨_, _, _, _, _, _, hw, rfl, rfl⟩

end Sample

open Sample in
theorem replication_sample :
    ∃ s published, deployment.system.Reachable s ∧ s.router.actor.published = some published ∧
      s.companion.sent 1 = [.caughtUp SampleChannel.producerIdentity 9,
          .batch SampleChannel.producerIdentity 10 live.payload] ∧
      ∃ index, s.companion.history SampleChannel.producerIdentity 10 = some index ∧
        ∀ tokenIds expected answer, index.findLongest tokenIds = .ok expected →
          published.index.findLongest tokenIds = .ok answer → answer = expected := by
  have hj : (begin.bind fun s => actions.foldlM deployment.next s).any (fun s =>
      (s.companion.sent 1 == [.caughtUp SampleChannel.producerIdentity 9,
        .batch SampleChannel.producerIdentity 10 live.payload]) &&
      ((s.companion.builds 1).map (·.identity) == some SampleChannel.producerIdentity) &&
      (s.link 1 == some 1) &&
      s.router.actor.published.any fun published => published.ownerEpoch == 1 &&
        (s.router.actor.sessions[1]?.map (·.fence.appliedEventWatermark) == some (some 10))) =
      true := by
    decide +kernel
  obtain ⟨s, hs, hr⟩ := (Option.any_eq_true _ _).1 hj
  simp only [Bool.and_eq_true, beq_iff_eq] at hr
  obtain ⟨⟨⟨hg, hi⟩, hl⟩, hy⟩ := hr
  obtain ⟨published, hp, ho⟩ := (Option.any_eq_true _ _).1 hy
  simp only [Bool.and_eq_true, beq_iff_eq] at ho
  obtain ⟨ho, hw⟩ := ho
  obtain ⟨first, hf, ht⟩ := Option.bind_eq_some_iff.1 hs
  have ha : deployment.system.Reachable s :=
    .foldlM (fun _ _ _ h => h) (.init (init_begin hf)) ht
  have hb : deployment.consumer.snapshotCodec.RoundTrips :=
    ⟨sampleCodec_roundTrips.body, sampleCodec_roundTrips.envelope⟩
  obtain ⟨-, -, hx⟩ := replication deployment hb rfl (fun _ => rfl)
    (fun payload batch decoded hv hd =>
      (Except.ok.inj (hv.symm.trans hd)).symm) ha
  obtain ⟨build, session, watermark, index, hu, he, hc, hh, hn⟩ :=
    hx published hp 1 (by rw [ho]; exact hl)
  rw [hu, Option.map_some, Option.some.injEq] at hi
  rw [ho] at he
  rw [he, Option.map_some, Option.some.injEq, hc, Option.some.injEq] at hw
  rw [hi, hw] at hh
  exact ⟨s, published, ha, hp, hg, index, hh, hn⟩

end Deployment
end Ramjet
