import Ramjet.DigestDelta

/-!
# The companion's index source

`companion_index_source.rs`: the index of one engine, the stage of a replay and the
sessions that follow it. A session's publisher (`snapshot_producer.rs`) is a bounded
queue that outlives its entry among the subscribers.
-/

namespace Ramjet

structure ProducerIdentity where
  engineIncarnation : EngineIncarnation
  digestKeyId : Bytes 32
  companionGeneration : Nat
  deriving DecidableEq

inductive ProducerTailEvent where
  | batch (identity : ProducerIdentity) (eventWatermark : Nat) (payload : List UInt8)
  | caughtUp (identity : ProducerIdentity) (eventWatermark : Nat)
  | identityChanged (identity : ProducerIdentity)
  | disconnect (identity : ProducerIdentity)
  deriving DecidableEq

def ProducerTailEvent.bytes : ProducerTailEvent → Nat
  | batch _ _ payload => payload.length
  | _ => 0

inductive SnapshotProducerSourceError where
  | failed | cancelled | queueFull | payloadTooLarge
  deriving DecidableEq

/-- What a `SnapshotTailPublisher` shares with its session. -/
structure TailChannel where
  maxPayloadBytes : Nat
  capacity : Nat
  byteBudget : Nat
  queue : List ProducerTailEvent
  cancelled : Bool
  -- the handler has dropped its receiver
  closed : Bool

namespace TailChannel
variable (channel : TailChannel)

def usedBytes : Nat := (channel.queue.map (·.bytes)).sum

def revoke : TailChannel := { channel with cancelled := true }

variable (event : ProducerTailEvent)

def trySend :
    Except SnapshotProducerSourceError Unit × TailChannel :=
  if channel.maxPayloadBytes < event.bytes then (.error .payloadTooLarge, channel)
  else if channel.cancelled then (.error .cancelled, channel)
  -- permits are counted in 32 bits and given back when an event is received
  else if 2 ^ 32 ≤ event.bytes ∨
      (0 < event.bytes ∧ channel.byteBudget < channel.usedBytes + event.bytes) then
    (.error .queueFull, channel)
  else if channel.closed then (.error .cancelled, channel)
  else if channel.capacity ≤ channel.queue.length then (.error .queueFull, channel)
  else (.ok (), { channel with queue := channel.queue ++ [event] })

theorem trySend_cases : (∃ error, channel.trySend event = (.error error, channel)) ∨
      (channel.cancelled = false ∧
        channel.trySend event = (.ok (), { channel with queue := channel.queue ++ [event] })) := by
  unfold trySend
  split
  · exact .inl ⟨_, rfl⟩
  split
  · exact .inl ⟨_, rfl⟩
  rename_i hc
  split
  · exact .inl ⟨_, rfl⟩
  split
  · exact .inl ⟨_, rfl⟩
  split
  · exact .inl ⟨_, rfl⟩
  · exact .inr ⟨by simpa using hc, rfl⟩

end TailChannel

inductive CompanionIndexSourceError where
  | invalidConfig | notReady | invalidReplay | generationExhausted | index
  deriving DecidableEq

structure SequencedBatch where
  sequence : Nat
  payload : List UInt8
  batch : KvEventBatch

structure CompanionIndexSourceConfig where
  group : GroupMetadata
  indexLimits : DigestIndexLimits
  snapshotLimits : SnapshotLimits
  maxActiveSessions : Nat

/-- The source's `ReplayState`. -/
structure SourceReplay where
  index : DigestKvIndex
  lastSequence : Option Nat

structure SourceState where
  identity : ProducerIdentity
  index : DigestKvIndex
  replay : Option SourceReplay
  watermark : Option Nat
  ready : Bool
  fenced : Bool
  buildsInProgress : Nat
  nextSessionId : Nat
  subscribers : List Nat

structure CompanionIndexSource where
  config : CompanionIndexSourceConfig
  delta : SnapshotDigestDeltaAdapter
  state : SourceState
  channels : Nat → TailChannel

namespace CompanionIndexSource

/-- What a snapshot build has captured under the lock of `start`. -/
structure SnapshotBuild where
  sessionId : Nat
  index : DigestKvIndex
  identity : ProducerIdentity
  watermark : Nat

structure ProducerSnapshot where
  identity : ProducerIdentity
  watermark : Nat
  frame : List UInt8

variable (source : CompanionIndexSource) (event : ProducerTailEvent)

/-- Every subscriber is told why, and revoked. -/
def dismiss : Nat → TailChannel :=
  fun id =>
    if id ∈ source.state.subscribers then ((source.channels id).trySend event).2.revoke
    else source.channels id

variable (engineIncarnation : Option EngineIncarnation)

def fenceLocked :
    Except CompanionIndexSourceError Unit × CompanionIndexSource :=
  let index := source.state.index.clear
  if source.state.identity.companionGeneration = u64Max then
    (.error .generationExhausted,
      { source with
        state := { source.state with
          ready := false
          fenced := true
          buildsInProgress := 0
          watermark := none
          index
          replay := none
          subscribers := [] }
        channels := source.dismiss (.disconnect source.state.identity) })
  else
    let identity : ProducerIdentity := { source.state.identity with
      companionGeneration := source.state.identity.companionGeneration + 1
      engineIncarnation := engineIncarnation.getD source.state.identity.engineIncarnation }
    (.ok (),
      { source with
        state := { source.state with
          ready := false
          fenced := true
          buildsInProgress := 0
          watermark := none
          index
          identity
          subscribers := []
          replay := some ⟨index, none⟩ }
        channels := source.dismiss (.identityChanged identity) })

def beginRebuild :
    Except CompanionIndexSourceError Unit × CompanionIndexSource :=
  -- a live failure has already fenced and staged; an incarnation always refences
  if engineIncarnation.isNone && source.state.fenced && source.state.replay.isSome then
    (.ok (), source)
  else source.fenceLocked engineIncarnation

/-- The stage is dropped. -/
def failReplay : CompanionIndexSource :=
  { source with state := { source.state with replay := none, fenced := true } }

variable (batch : SequencedBatch)

def applyReplay :
    Except CompanionIndexSourceError DigestDeltaSummary × CompanionIndexSource :=
  match source.state.replay with
  | none => (.error .invalidReplay, source)
  | some replay =>
    if replay.lastSequence.any (batch.sequence ≤ ·) then (.error .invalidReplay, source.failReplay)
    else
      match source.delta.applyBatch replay.index batch.batch with
      | (.error _, _) => (.error .index, source.failReplay)
      | (.ok summary, index) =>
        (.ok summary,
          { source with state := { source.state with
            replay := some ⟨index, some batch.sequence⟩
            fenced := false } })

def applyReplayForGeneration (expectedGeneration : Nat) (batch : SequencedBatch) :
    Except CompanionIndexSourceError DigestDeltaSummary × CompanionIndexSource :=
  if source.state.identity.companionGeneration ≠ expectedGeneration then
    (.error .invalidReplay, source)
  else source.applyReplay batch

def finishReplay (through : Nat) :
    Except CompanionIndexSourceError Unit × CompanionIndexSource :=
  match source.state.replay with
  | none => (.error .invalidReplay, source)
  | some replay =>
    if replay.lastSequence ≠ some through then (.error .invalidReplay, source.failReplay)
    else
      (.ok (),
        { source with state := { source.state with
          index := replay.index
          replay := none
          watermark := some through
          ready := true
          fenced := false } })

def publishBatch :
    CompanionIndexSource :=
  { source with
    state := { source.state with
      subscribers := source.state.subscribers.filter fun id =>
        ((source.channels id).trySend event).1.isOk }
    channels := fun id =>
      if id ∈ source.state.subscribers then
        if ((source.channels id).trySend event).1.isOk then
          ((source.channels id).trySend event).2
        else ((source.channels id).trySend event).2.revoke
      else source.channels id }

def applyLive :
    Except CompanionIndexSourceError DigestDeltaSummary × CompanionIndexSource :=
  match source.state.ready, source.state.watermark with
  | true, some watermark =>
    if batch.sequence ≤ watermark then (.ok ⟨0, 0, 0, 0⟩, source)
    else
      match source.delta.applyBatch source.state.index batch.batch with
      | (.error _, index) =>
        let failed := { source with state := { source.state with index } }.fenceLocked none
        match failed.1 with
        | .error error => (.error error, failed.2)
        | .ok () => (.error .index, failed.2)
      | (.ok summary, index) =>
        (.ok summary,
          { source with state := { source.state with
            index
            watermark := some batch.sequence } }.publishBatch
            (.batch source.state.identity batch.sequence batch.payload))
  | _, _ => (.error .notReady, source)

def start (channel : TailChannel) :
    Except SnapshotProducerSourceError SnapshotBuild × CompanionIndexSource :=
  if !source.state.ready || channel.cancelled then
    (.error (if channel.cancelled then .cancelled else .failed), source)
  else if source.config.maxActiveSessions ≤ source.state.subscribers.length then
    (.error .failed, source)
  else if source.state.nextSessionId = u64Max then (.error .failed, source)
  else
    let id := source.state.nextSessionId
    let source := { source with
      state := { source.state with
        nextSessionId := id + 1
        subscribers := id :: source.state.subscribers
        buildsInProgress := saturatingAdd source.state.buildsInProgress 1 }
      channels := Function.update source.channels id channel }
    match source.state.watermark with
    | none => (.error .failed, source)
    | some watermark =>
      (.ok ⟨id, source.state.index, source.state.identity, watermark⟩, source)

def removeSubscriber (id : Nat) : CompanionIndexSource :=
  { source with state := { source.state with
    subscribers := source.state.subscribers.filter (· ≠ id) } }

def buildFrame (codec : SnapshotCodec) (config : CompanionIndexSourceConfig)
    (build : SnapshotBuild) (exportCancelled encodeCancelled : Nat → Bool) :
    Except SnapshotProducerSourceError (List UInt8) :=
  match build.index.exportSnapshotWithCancel build.identity.engineIncarnation build.watermark
    config.group exportCancelled with
  | .error .cancelled => .error .cancelled
  | .error _ => .error .failed
  | .ok body =>
    match codec.encodeSnapshotWithCancel body config.snapshotLimits encodeCancelled with
    | .error .cancelled => .error .cancelled
    | .error _ => .error .failed
    | .ok frame => .ok frame

def finishBuild (build : SnapshotBuild) (frame : Except SnapshotProducerSourceError (List UInt8)) :
    Except SnapshotProducerSourceError ProducerSnapshot × CompanionIndexSource :=
  let source := { source with state := { source.state with
    buildsInProgress := source.state.buildsInProgress - 1 } }
  match frame with
  | .error error => (.error error, source)
  | .ok frame =>
    if (source.channels build.sessionId).cancelled || !source.state.ready ||
        source.state.identity ≠ build.identity then
      (.error .cancelled, source.removeSubscriber build.sessionId)
    else
      match source.state.watermark with
      | none => (.error .failed, source)
      | some caughtUp =>
        if build.sessionId ∉ source.state.subscribers then (.error .cancelled, source)
        else
          match (source.channels build.sessionId).trySend
            (.caughtUp build.identity caughtUp) with
          | (.error error, channel) =>
            (.error error,
              { source with channels :=
                Function.update source.channels build.sessionId channel.revoke }.removeSubscriber
                build.sessionId)
          | (.ok (), channel) =>
            (.ok ⟨build.identity, build.watermark, frame⟩,
              { source with channels :=
                Function.update source.channels build.sessionId channel })

/-- The source's `MAX_ACTIVE_SESSIONS`. -/
def maxActiveSessions : Nat := 2

def new (config : CompanionIndexSourceConfig)
    (decodeBatch : List UInt8 → Except DecodeError KvEventBatch)
    (engineIncarnation : EngineIncarnation) (companionGeneration : Nat) (digester : BlockDigester)
    (channels : Nat → TailChannel) : Except CompanionIndexSourceError CompanionIndexSource :=
  if companionGeneration = 0 ∨ config.maxActiveSessions = 0 ∨
      maxActiveSessions < config.maxActiveSessions ∨ config.group.blockSize = 0 ∨
      config.group.disposition ≠ .indexed ∨
      (config.group.attentionKind ≠ .fullAttention ∧ config.group.attentionKind ≠ .mlaAttention ∧
        config.group.attentionKind ≠ .sinkFullAttention) then
    .error .invalidConfig
  else
    let index := DigestKvIndex.new config.indexLimits digester
    .ok
    { config
      delta := ⟨⟨config.group.dataParallelRank, config.group.groupIdx⟩, decodeBatch⟩
      state :=
        { identity := ⟨engineIncarnation, digester.keyId, companionGeneration⟩
          index
          replay := some ⟨index, none⟩
          watermark := none
          ready := false
          fenced := false
          buildsInProgress := 0
          nextSessionId := 1
          subscribers := [] }
      channels }

end CompanionIndexSource
end Ramjet
