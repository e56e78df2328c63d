import Ramjet.ActorPublication
import Ramjet.DigestDelta
import Ramjet.Lib.Runs
import Ramjet.SnapshotConsumer

/-!
# The router's reconnect owner

`snapshot_reconnect.rs` over `snapshot_consumer.rs`: one task runs the sessions of one
engine under the authority of a watch channel. An attempt is cut at its await points,
and dropping it runs its guard.
-/

namespace Ramjet

structure SnapshotConsumerConfig where
  sessionCodec : SessionCodec
  snapshotCodec : SnapshotCodec
  decodeBatch : List UInt8 → Except DecodeError KvEventBatch
  sessionSecret : Bytes 32
  digestSecret : Bytes 32
  expectedEngineIncarnation : EngineIncarnation
  minimumSnapshotWatermark : Nat
  minimumCompanionGeneration : Nat
  group : SnapshotGroupKey
  sessionLimits : SnapshotSessionLimits
  snapshotLimits : SnapshotLimits
  indexLimits : DigestIndexLimits
  tailLimits : TailWireLimits

namespace SnapshotConsumerConfig

def digestKeyId (config : SnapshotConsumerConfig) : Bytes 32 :=
  (BlockDigester.new config.snapshotCodec.sha256 config.digestSecret).keyId

def applyPayload (config : SnapshotConsumerConfig) :
    DigestKvIndex → List UInt8 → Option DigestKvIndex :=
  SnapshotDigestDeltaAdapter.applyPayload ⟨config.group, config.decodeBatch⟩

def session (config : SnapshotConsumerConfig) (challenge : Bytes 32)
    (expected : EngineIncarnation) : ConsumerSession where
  secret := config.sessionSecret
  expected :=
    { challenge
      engineIncarnation := expected
      digestKeyId := config.digestKeyId
      minimumSnapshotWatermark := config.minimumSnapshotWatermark
      minimumCompanionGeneration := config.minimumCompanionGeneration }
  sessionLimits := config.sessionLimits
  tailLimits := config.tailLimits

def prepare (config : SnapshotConsumerConfig) (authenticated : AuthenticatedSnapshot)
    (cancelled : Nat → Bool) :
    Except SnapshotBootstrapError (PreparedSnapshotGeneration DigestKvIndex) :=
  prepareAuthenticatedSnapshotWithCancel config.snapshotCodec authenticated config.digestSecret
    config.snapshotLimits config.indexLimits config.group config.minimumSnapshotWatermark cancelled

end SnapshotConsumerConfig

inductive ConsumeStage where
  | requesting
  | building (epoch : Nat) (decoder : TailFrameDecoder) (authenticated : AuthenticatedSnapshot)
  | tailing (epoch : Nat) (decoder : TailFrameDecoder)

structure Attempt where
  challenge : Bytes 32
  expected : EngineIncarnation
  stage : ConsumeStage

inductive AttemptInput where
  | response (frame : List UInt8)
  | frame (frame : List UInt8)
  | built (cancelled : Nat → Bool)
  | failed

abbrev PublicationActor := SnapshotBootstrapActor DigestKvIndex

/-- The actions each `require_action` lets pass. -/
def ActorAction.queued : ActorAction → Bool
  | tailQueued => true
  | _ => false

def ActorAction.installed : ActorAction → Bool
  | snapshotInstalled | tailApplied | published _ | alreadyPublished => true
  | _ => false

def ActorAction.consumed : ActorAction → Bool
  | tailApplied | duplicateIgnored | identityCurrent | published _ | alreadyPublished => true
  | _ => false

namespace Attempt
variable (config : SnapshotConsumerConfig) (attempt : Attempt)

/-- The attempt's future is dropped, and its guard with it. -/
def drop (actor : PublicationActor) : PublicationActor :=
  match attempt.stage with
  | .requesting => actor
  | .building epoch _ _ | .tailing epoch _ => (actor.disconnected epoch).2

def finish (actor : PublicationActor) : Option Attempt × PublicationActor :=
  (none, attempt.drop actor)

def onResponse (actor : PublicationActor) (frame : List UInt8) :
    Option Attempt × PublicationActor :=
  let session := config.session attempt.challenge attempt.expected
  match config.sessionCodec.decodeAuthenticatedSnapshot frame session.expected session.secret
    session.sessionLimits with
  | .error _ => (none, actor)
  | .ok authenticated =>
    match actor.startSession
      ⟨authenticated.engineIncarnation, authenticated.digestKeyId,
        authenticated.companionGeneration⟩ config.minimumSnapshotWatermark with
    | (.error _, actor) => (none, actor)
    | (.ok started, actor) =>
      let begun := actor.beginSnapshotBuild started.epoch
      let ended := (begun.2.disconnected started.epoch).2
      if begun.1 ≠ .snapshotBuildStarted then (none, ended)
      else
        match session.tailDecoder config.sessionCodec authenticated with
        | .error _ => (none, ended)
        | .ok decoder =>
          (some { attempt with stage := .building started.epoch decoder authenticated }, begun.2)

def onFrame (actor : PublicationActor) (epoch : Nat)
    (decoder : TailFrameDecoder) (accepts : ActorAction → Bool)
    (stage : TailFrameDecoder → ConsumeStage) (frame : List UInt8) :
    Option Attempt × PublicationActor :=
  match decoder.decode config.sessionCodec frame with
  | (.error _, _) => attempt.finish actor
  | (.ok verified, decoder) =>
    let accepted := actor.acceptTailFrame config.applyPayload epoch verified
    if accepts accepted.1 then (some { attempt with stage := stage decoder }, accepted.2)
    else attempt.finish accepted.2

def onBuilt (actor : PublicationActor) (epoch : Nat)
    (decoder : TailFrameDecoder) (authenticated : AuthenticatedSnapshot)
    (cancelled : Nat → Bool) : Option Attempt × PublicationActor :=
  match config.prepare authenticated cancelled with
  | .error _ => attempt.finish (actor.snapshotBuildFailed epoch).2
  | .ok prepared =>
    match actor.installPreparedSnapshot config.applyPayload epoch prepared with
    | (.error _, actor) => attempt.finish actor
    | (.ok action, actor) =>
      if action.installed then (some { attempt with stage := .tailing epoch decoder }, actor)
      else attempt.finish actor

def step (attempt : Attempt) (actor : PublicationActor) :
    AttemptInput → Option Attempt × PublicationActor
  | .failed => attempt.finish actor
  | .response frame =>
    match attempt.stage with
    | .requesting => attempt.onResponse config actor frame
    | _ => (some attempt, actor)
  | .frame frame =>
    match attempt.stage with
    | .requesting => (some attempt, actor)
    | .building epoch decoder authenticated =>
      attempt.onFrame config actor epoch decoder ActorAction.queued
        (fun decoder => .building epoch decoder authenticated) frame
    | .tailing epoch decoder =>
      attempt.onFrame config actor epoch decoder ActorAction.consumed (.tailing epoch) frame
  | .built cancelled =>
    match attempt.stage with
    | .building epoch decoder authenticated =>
      attempt.onBuilt config actor epoch decoder authenticated cancelled
    | _ => (some attempt, actor)

end Attempt

/-- An authority value under its revision (`companion_attestation.rs`). -/
structure EngineIncarnationAuthority where
  revision : Nat
  incarnation : Option EngineIncarnation

inductive AuthorityEvent where
  | updated (authority : EngineIncarnationAuthority)
  | closed

inductive ReconnectPhase where
  | waiting
  | active (attempt : Attempt) (published : Option Nat)
  | rolling (old replacement : Attempt) (oldPublication : Option Nat)
  | stopped

structure SnapshotReconnectOwner where
  actor : PublicationActor
  expectedIncarnation : Option EngineIncarnation
  authorityRevision : Option Nat
  authority : Option (Watch EngineIncarnationAuthority)
  senderDropped : Bool
  phase : ReconnectPhase

namespace SnapshotReconnectOwner
variable (owner : SnapshotReconnectOwner)

def nextAuthority :
    Option (AuthorityEvent × SnapshotReconnectOwner) :=
  match owner.authority with
  | none => none
  | some channel =>
    if channel.changed then
      some (.updated channel.value, { owner with authority := some channel.borrowAndUpdate.2 })
    else if owner.senderDropped then some (.closed, owner)
    else none

def applyNext (next : Option EngineIncarnation) :
    Bool × SnapshotReconnectOwner :=
  if owner.authority.isNone && owner.expectedIncarnation = next then (false, owner)
  else
    match owner.expectedIncarnation, next with
    | none, none => (false, owner)
    | _, _ =>
      (true,
        { owner with actor := owner.actor.revokeAuthority.2, expectedIncarnation := next })

def applyAuthorityEvent :
    AuthorityEvent → Bool × SnapshotReconnectOwner
  | .updated next => if owner.authorityRevision = some next.revision then (false, owner)
    else { owner with authorityRevision := some next.revision }.applyNext next.incarnation
  | .closed => { owner with authority := none, authorityRevision := none }.applyNext none

/-- The running attempts are dropped, the later one first. -/
def dropAttempts : SnapshotReconnectOwner :=
  match owner.phase with
  | .active attempt _ => { owner with actor := attempt.drop owner.actor }
  | .rolling old replacement _ =>
    { owner with actor := old.drop (replacement.drop owner.actor) }
  | _ => owner

def onAuthority (event : AuthorityEvent) :
    SnapshotReconnectOwner :=
  match owner.applyAuthorityEvent event with
  | (false, owner) => owner
  | (true, owner) => { owner.dropAttempts with phase := .waiting }

/-- `start_attempt`; without a challenge its setup has failed. -/
def startAttempt (challenge : Option (Bytes 32)) :
    Option Attempt :=
  match owner.expectedIncarnation, challenge with
  | some expected, some challenge => some ⟨challenge, expected, .requesting⟩
  | _, _ => none

inductive Action where
  | authority
  | retry (challenge : Option (Bytes 32))
  | requestReplacement (challenge : Option (Bytes 32))
  | attempt (input : AttemptInput)
  | replacement (input : AttemptInput)
  | tick
  | shutdown

def next (config : SnapshotConsumerConfig) (owner : SnapshotReconnectOwner) :
    Action → Option SnapshotReconnectOwner
  | .authority =>
    match owner.phase with
    | .stopped => none
    | _ => owner.nextAuthority.map fun (event, owner) => owner.onAuthority event
  | .retry challenge =>
    match owner.phase with
    | .waiting =>
      some (match owner.startAttempt challenge with
      | none => owner
      | some attempt => { owner with phase := .active attempt owner.actor.publishedEpoch })
    | _ => none
  | .requestReplacement challenge =>
    match owner.phase with
    | .active attempt published =>
      some (match owner.startAttempt challenge with
      | none => owner
      | some replacement => { owner with phase := .rolling attempt replacement published })
    | .waiting | .rolling _ _ _ => some owner
    | .stopped => none
  | .attempt input =>
    match owner.phase with
    | .active attempt published =>
      let stepped := attempt.step config owner.actor input
      some { owner with
        actor := stepped.2
        phase := match stepped.1 with
          | none => .waiting
          | some attempt => .active attempt published }
    | .rolling old replacement published =>
      let stepped := old.step config owner.actor input
      some { owner with
        actor := stepped.2
        phase := match stepped.1 with
          | none => .active replacement stepped.2.publishedEpoch
          | some old => .rolling old replacement published }
    | _ => none
  | .replacement input =>
    match owner.phase with
    | .rolling old replacement published =>
      let stepped := replacement.step config owner.actor input
      some { owner with
        actor := stepped.2
        phase := match stepped.1 with
          | none => .active old stepped.2.publishedEpoch
          | some replacement => .rolling old replacement published }
    | _ => none
  | .tick =>
    match owner.phase with
    | .active attempt _ => some { owner with phase := .active attempt owner.actor.publishedEpoch }
    | .rolling old replacement oldPublication =>
      if owner.actor.publishedEpoch.isSome && owner.actor.publishedEpoch ≠ oldPublication then
        let actor := old.drop owner.actor
        some { owner with actor, phase := .active replacement actor.publishedEpoch }
      else some owner
    | _ => none
  | .shutdown =>
    match owner.phase with
    | .stopped => none
    | _ => some { owner.dropAttempts with phase := .stopped }

def newWithAuthority (actor : PublicationActor) (channel : Watch EngineIncarnationAuthority) :
    SnapshotReconnectOwner where
  actor
  expectedIncarnation := channel.value.incarnation
  authorityRevision := some channel.value.revision
  authority := some channel.borrowAndUpdate.2
  senderDropped := false
  phase := .waiting

/-- An owner whose authority is pinned by its configuration. -/
def new (config : SnapshotConsumerConfig) (actor : PublicationActor) : SnapshotReconnectOwner where
  actor
  expectedIncarnation := some config.expectedEngineIncarnation
  authorityRevision := none
  authority := none
  senderDropped := false
  phase := .waiting

end SnapshotReconnectOwner
end Ramjet
