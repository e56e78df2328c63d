import Ramjet.SnapshotIndex
import Ramjet.SnapshotTail

/-!
# Prepared generations

`snapshot_bootstrap.rs`: the one way from an authenticated snapshot to an index an actor
may install.
-/

namespace Ramjet

structure SnapshotActorIdentity where
  engineIncarnation : EngineIncarnation
  digestKeyId : Bytes 32
  companionGeneration : Nat
  deriving DecidableEq

inductive SnapshotBootstrapError where
  | bindingMismatch
  | snapshot (error : SnapshotError)
  | digestIndex (error : DigestIndexError)
  | lifecycle (reason : SnapshotTailFenceReason)

structure SnapshotTailFence.Accepted (fence : SnapshotTailFence)
    (identity : SnapshotActorIdentity) (watermark : Nat) : Prop where
  incarnation : fence.expectedIncarnation = identity.engineIncarnation
  digestKey : fence.expectedDigestKeyId = identity.digestKeyId.toList
  generation : fence.generation = identity.companionGeneration
  delivery : fence.appliedDeliverySequence = some snapshotDeliverySequence
  event : fence.appliedEventWatermark = some watermark
  state : fence.state = .catchingUp
  reason : fence.reason = none
  revision : fence.revision = 2

/-- A validated private generation; its lifecycle waits for the tail. -/
structure PreparedSnapshotGeneration (ι : Type) where
  identity : SnapshotActorIdentity
  snapshotWatermark : Nat
  index : ι
  lifecycle : SnapshotTailFence
  accepted : lifecycle.Accepted identity snapshotWatermark

theorem SnapshotTailFence.accepted_of_acceptSnapshot {snap : AuthenticatedSnapshot}
    {minimum watermark delivery : Nat} {scope : ResetScope} {fence : SnapshotTailFence}
    (h : (startBootstrap snap.engineIncarnation minimum snap.digestKeyId.toList
      snap.companionGeneration).acceptSnapshot snap scope =
        (.accepted watermark delivery, fence)) :
    fence.Accepted ⟨snap.engineIncarnation, snap.digestKeyId,
      snap.companionGeneration⟩ snap.snapshotWatermark := by
  obtain ⟨-, -, rfl⟩ := acceptSnapshot_accepted h
  exact ⟨rfl, rfl, rfl, rfl, rfl, rfl, rfl, rfl⟩

def prepareAuthenticatedSnapshotWithCancel (codec : SnapshotCodec)
    (authenticated : AuthenticatedSnapshot) (digestSecret : Bytes 32)
    (snapshotLimits : SnapshotLimits) (indexLimits : DigestIndexLimits) (group : SnapshotGroupKey)
    (minimumSnapshotWatermark : Nat) (cancelled : Nat → Bool) :
    Except SnapshotBootstrapError (PreparedSnapshotGeneration DigestKvIndex) :=
  let digester := BlockDigester.new codec.sha256 digestSecret
  if digester.keyId ≠ authenticated.digestKeyId then .error .bindingMismatch
  else
    match codec.decodeSnapshotWithCancel authenticated.snapshotFrame snapshotLimits
      ⟨authenticated.engineIncarnation, .fullEngine,
        ⟨.hmacSha256V1, authenticated.digestKeyId.toList, 32⟩⟩ cancelled with
    | .error error => .error (.snapshot error)
    | .ok body =>
      if body.watermark ≠ authenticated.snapshotWatermark then .error .bindingMismatch
      else
        let probes := 4 + body.groups.length + body.records.length
        match (DigestKvIndex.new indexLimits digester).replaceFromSnapshotWithCancel body group
          fun i => cancelled (probes + i) with
        | (.error error, _) => .error (.digestIndex error)
        | (.ok _, index) =>
          -- the decoder has checked the body's incarnation against the envelope's
          match ha : (SnapshotTailFence.startBootstrap authenticated.engineIncarnation
            minimumSnapshotWatermark authenticated.digestKeyId.toList
            authenticated.companionGeneration).acceptSnapshot authenticated body.resetScope with
          | (.fenced reason, _) => .error (.lifecycle reason)
          | (.accepted _ _, lifecycle) => .ok
            { identity := ⟨authenticated.engineIncarnation, authenticated.digestKeyId,
                authenticated.companionGeneration⟩
              snapshotWatermark := authenticated.snapshotWatermark
              index
              lifecycle
              accepted := SnapshotTailFence.accepted_of_acceptSnapshot ha }

end Ramjet
