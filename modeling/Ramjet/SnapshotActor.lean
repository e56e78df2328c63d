import Ramjet.SnapshotBootstrap

/-!
# Snapshot actor

The publication state machine of `snapshot_actor.rs`; epochs are never used twice. The
closure that applies a payload is a parameter.
-/

namespace Ramjet

structure SnapshotActorLimits where
  maxSessions : Nat
  maxQueuedTailFrames : Nat

inductive BootstrapSessionState where
  | awaitingSnapshot | buildingSnapshot | catchingUp | published | fenced
  deriving DecidableEq

/-- Revision-stable identity of the current publication. -/
structure SnapshotPublicationMarker where
  epoch : Nat
  revision : Nat
  deriving DecidableEq

structure StartSessionResult where
  epoch : Nat
  publicationRevoked : Bool

inductive ActorAction where
  | snapshotBuildStarted
  | snapshotInstalled
  | tailQueued
  | tailApplied
  | duplicateIgnored
  | identityCurrent
  | identityChanged
  | published (epoch : Nat)
  | alreadyPublished
  | sessionFenced (reason : SnapshotTailFenceReason)
  | staleEpochIgnored
  deriving DecidableEq

def ActorAction.isFenced : ActorAction → Bool
  | sessionFenced _ => true
  | _ => false

inductive SnapshotActorError where
  | invalidLimits | sessionCapacity | epochExhausted | invalidState
  deriving DecidableEq

variable {ι : Type}

structure Published (ι : Type) where
  ownerEpoch : Nat
  identity : SnapshotActorIdentity
  index : ι

structure BootstrapSession (ι : Type) where
  identity : SnapshotActorIdentity
  minimumSnapshotWatermark : Nat
  fence : SnapshotTailFence
  state : BootstrapSessionState
  privateIndex : Option ι
  queuedTailFrames : List VerifiedTailFrame
  fenceReason : Option SnapshotTailFenceReason

/-- The source's `fence_session_record`. -/
def BootstrapSession.fenceRecord (session : BootstrapSession ι)
    (reason : SnapshotTailFenceReason) : BootstrapSession ι :=
  { session with
    state := .fenced
    fenceReason := some reason
    queuedTailFrames := []
    privateIndex := none }

structure SnapshotBootstrapActor (ι : Type) where
  limits : SnapshotActorLimits
  nextEpoch : Nat
  sessions : Std.TreeMap Nat (BootstrapSession ι)
  published : Option (Published ι)

namespace SnapshotBootstrapActor

/-- The source's `MAX_SESSIONS`. -/
def maxSessions : Nat := 2

def new (limits : SnapshotActorLimits) : Except SnapshotActorError (SnapshotBootstrapActor ι) :=
  if limits.maxSessions = 0 ∨ maxSessions < limits.maxSessions ∨
      limits.maxQueuedTailFrames = 0 then
    .error .invalidLimits
  else .ok ⟨limits, 1, ∅, none⟩

variable (actor : SnapshotBootstrapActor ι)

def publishedIndex : Option ι := actor.published.map (·.index)

def publishedEpoch : Option Nat :=
  actor.published.map (·.ownerEpoch)

def publishedMarker : Option SnapshotPublicationMarker :=
  actor.publishedEpoch.bind fun epoch =>
    actor.sessions[epoch]?.bind fun session =>
      if session.state = .published then some ⟨epoch, session.fence.revision⟩ else none

def revokeAuthority : Bool × SnapshotBootstrapActor ι :=
  (actor.published.isSome || !actor.sessions.isEmpty,
    { actor with published := none, sessions := ∅ })

variable (epoch : Nat)

def revokeIfOwner : SnapshotBootstrapActor ι :=
  if actor.publishedEpoch = some epoch then { actor with published := none } else actor

def currentIdentity : Option SnapshotActorIdentity :=
  (actor.published.map (·.identity)).or
    (actor.sessions.values.head?.map (·.identity))

def setSession (session : BootstrapSession ι) :
    SnapshotBootstrapActor ι :=
  { actor with sessions := actor.sessions.insert epoch session }

variable (identity : SnapshotActorIdentity)

def startSession (minimumSnapshotWatermark : Nat) :
    Except SnapshotActorError StartSessionResult × SnapshotBootstrapActor ι :=
  let actor := { actor with
    sessions := actor.sessions.filter fun _ session => session.state ≠ .fenced }
  let identityChanged := actor.currentIdentity.any (· ≠ identity)
  let publicationRevoked := identityChanged && actor.published.isSome
  let actor :=
    if identityChanged then { actor with published := none, sessions := ∅ } else actor
  if actor.limits.maxSessions ≤ actor.sessions.size then (.error .sessionCapacity, actor)
  else if actor.nextEpoch = u64Max then (.error .epochExhausted, actor)
  else
    let epoch := actor.nextEpoch
    let fence := SnapshotTailFence.startBootstrap identity.engineIncarnation
      minimumSnapshotWatermark identity.digestKeyId.toList identity.companionGeneration
    (.ok ⟨epoch, publicationRevoked⟩,
      { actor with nextEpoch := epoch + 1 }.setSession epoch
        { identity
          minimumSnapshotWatermark
          fence
          state := .awaitingSnapshot
          privateIndex := none
          queuedTailFrames := []
          fenceReason := none })

def beginSnapshotBuild :
    ActorAction × SnapshotBootstrapActor ι :=
  match actor.sessions[epoch]? with
  | none => (.staleEpochIgnored, actor)
  | some session =>
    if session.state = .awaitingSnapshot then
      (.snapshotBuildStarted, actor.setSession epoch { session with state := .buildingSnapshot })
    else
      (.sessionFenced .unexpectedState,
        (actor.setSession epoch (session.fenceRecord .unexpectedState)).revokeIfOwner epoch)

def observeIdentity :
    ActorAction × SnapshotBootstrapActor ι :=
  if actor.currentIdentity.any (· ≠ identity) then
    (.identityChanged, { actor with published := none, sessions := ∅ })
  else (.identityCurrent, actor)

def publish :
    ActorAction × SnapshotBootstrapActor ι :=
  match actor.sessions[epoch]? with
  | none => (.staleEpochIgnored, actor)
  | some session =>
    match session.privateIndex with
    | none =>
      (.sessionFenced .applicationFailed,
        actor.setSession epoch
          { session with
            fence := session.fence.applicationFailed
            state := .fenced
            fenceReason := some .applicationFailed })
    | some index =>
      -- the new epoch owns publication; all older sessions are forgotten
      (.published epoch,
        { actor with
          published := some ⟨epoch, session.identity, index⟩
          sessions := (∅ : Std.TreeMap Nat (BootstrapSession ι)).insert epoch
            { session with state := .published, privateIndex := none } })

/-- A session fails to apply an admitted payload. -/
def failApplication (session : BootstrapSession ι) : ActorAction × SnapshotBootstrapActor ι :=
  (.sessionFenced .applicationFailed,
    (actor.setSession epoch ({ session with
      fence := session.fence.applicationFailed }.fenceRecord .applicationFailed)).revokeIfOwner
      epoch)

variable (applyPayload : ι → List UInt8 → Option ι)

def applyVerifiedFrame
    (actor : SnapshotBootstrapActor ι) (epoch : Nat) (frame : VerifiedTailFrame) :
    ActorAction × SnapshotBootstrapActor ι :=
  match actor.sessions[epoch]? with
  | none => (.staleEpochIgnored, actor)
  | some session =>
    let verified := frame.applyTo session.fence
    let session := { session with fence := verified.2 }
    let actor := actor.setSession epoch session
    match verified.1 with
    | .apply _ _ payload =>
      if actor.publishedEpoch = some epoch then
        match actor.published.bind fun published => applyPayload published.index payload with
        | some index =>
          (.tailApplied,
            { actor with published := actor.published.map fun published =>
                { published with index } })
        | none => actor.failApplication epoch session
      else
        match session.privateIndex.bind fun index => applyPayload index payload with
        | some index =>
          (.tailApplied, actor.setSession epoch { session with privateIndex := some index })
        | none => actor.failApplication epoch session
    | .duplicate => (.duplicateIgnored, actor)
    | .ready => actor.publish epoch
    | .alreadyReady => (.alreadyPublished, actor)
    | .identityCurrent => (.identityCurrent, actor)
    | .fenced reason =>
      (.sessionFenced reason,
        (actor.setSession epoch (session.fenceRecord reason)).revokeIfOwner epoch)

/-- The frames queued during the build, until one fences the session. -/
def drain (applyPayload : ι → List UInt8 → Option ι) (epoch : Nat) :
    ActorAction × SnapshotBootstrapActor ι → List VerifiedTailFrame →
      ActorAction × SnapshotBootstrapActor ι
  | result, [] => result
  | (_, actor), frame :: rest =>
    let result := applyVerifiedFrame applyPayload actor epoch frame
    if result.1.isFenced then result else drain applyPayload epoch result rest

def installPreparedSnapshot
    (actor : SnapshotBootstrapActor ι) (epoch : Nat) (prepared : PreparedSnapshotGeneration ι) :
    Except SnapshotActorError ActorAction × SnapshotBootstrapActor ι :=
  match actor.sessions[epoch]? with
  | none => (.ok .staleEpochIgnored, actor)
  | some session =>
    if session.state ≠ .buildingSnapshot then (.error .invalidState, actor)
    else if prepared.identity ≠ session.identity ∨
        prepared.snapshotWatermark < session.minimumSnapshotWatermark then
      (.ok (.sessionFenced .unexpectedState),
        actor.setSession epoch (session.fenceRecord .unexpectedState))
    else
      let actor := actor.setSession epoch
        { session with
          fence := prepared.lifecycle
          state := .catchingUp
          queuedTailFrames := []
          privateIndex := some prepared.index }
      let result := drain applyPayload epoch (.snapshotInstalled, actor) session.queuedTailFrames
      (.ok result.1, result.2)

def acceptTailFrame (actor : SnapshotBootstrapActor ι)
    (epoch : Nat) (frame : VerifiedTailFrame) : ActorAction × SnapshotBootstrapActor ι :=
  match actor.sessions[epoch]? with
  | none => (.staleEpochIgnored, actor)
  | some session =>
    if session.state = .awaitingSnapshot ∨ session.state = .buildingSnapshot then
      if actor.limits.maxQueuedTailFrames ≤ session.queuedTailFrames.length then
        (.sessionFenced .bufferOverflow,
          actor.setSession epoch
            ({ session with fence := session.fence.bufferOverflowed }.fenceRecord .bufferOverflow))
      else
        (.tailQueued,
          actor.setSession epoch
            { session with queuedTailFrames := session.queuedTailFrames ++ [frame] })
    else if session.state = .fenced then
      (.sessionFenced (session.fenceReason.getD .unexpectedState), actor)
    else actor.applyVerifiedFrame applyPayload epoch frame

def snapshotBuildFailed :
    ActorAction × SnapshotBootstrapActor ι :=
  match actor.sessions[epoch]? with
  | none => (.staleEpochIgnored, actor)
  | some session => actor.failApplication epoch session

def disconnected :
    ActorAction × SnapshotBootstrapActor ι :=
  match actor.sessions[epoch]? with
  | none => (.staleEpochIgnored, actor)
  | some _ =>
    (.sessionFenced .disconnected,
      { actor with sessions := actor.sessions.erase epoch }.revokeIfOwner epoch)

end SnapshotBootstrapActor
end Ramjet
