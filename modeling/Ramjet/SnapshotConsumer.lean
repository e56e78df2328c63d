import Ramjet.TailWire

/-!
# The bytes a consumer accepts

`snapshot_consumer.rs` as far as it reads a stream: one response, then tail frames, each
cut off by the length in its first bytes.
-/

namespace Ramjet

inductive SnapshotConsumerError where
  | truncated
  | disconnected
  | io
  | session (error : SnapshotSessionError)
  | tail (error : TailWireError)

def readExact (stream : List UInt8) (count : Nat) : Except SnapshotConsumerError (List UInt8) :=
  if count ≤ stream.length then .ok (stream.take count)
  else if stream.isEmpty then .error .disconnected
  else .error .truncated

def readFrame (lengthPrefixBytes : Nat)
    (length : List UInt8 → Except SnapshotConsumerError Nat) (stream : List UInt8) :
    Except SnapshotConsumerError (List UInt8 × List UInt8) :=
  match readExact stream lengthPrefixBytes with
  | .error error => .error error
  | .ok lengthPrefix =>
    match length lengthPrefix with
    | .error error => .error error
    | .ok total =>
      if total ≤ stream.length then .ok (stream.take total, stream.drop total)
      else .error .truncated

/-- A frame and what follows it are the stream. -/
theorem readFrame_ok {lengthPrefixBytes : Nat}
    {length : List UInt8 → Except SnapshotConsumerError Nat} {stream frame rest : List UInt8}
    (h : readFrame lengthPrefixBytes length stream = .ok (frame, rest)) :
    stream = frame ++ rest := by
  unfold readFrame at h
  split at h
  · cases h
  split at h
  · cases h
  split at h
  · cases h
    exact (List.take_append_drop _ _).symm
  · cases h

def readSnapshotFrame (limits : SnapshotSessionLimits) (stream : List UInt8) :
    Except SnapshotConsumerError (List UInt8 × List UInt8) :=
  readFrame snapshotResponseLengthPrefixBytes
    (fun lengthPrefix => (authenticatedSnapshotFrameLength lengthPrefix limits).mapError .session)
    stream

def readTailFrame (limits : TailWireLimits) (stream : List UInt8) :
    Except SnapshotConsumerError (List UInt8 × List UInt8) :=
  readFrame tailFrameLengthPrefixBytes
    (fun lengthPrefix => (tailFrameLength lengthPrefix limits).mapError .tail) stream

structure ConsumerSession where
  secret : Bytes 32
  expected : SnapshotSessionExpectations
  sessionLimits : SnapshotSessionLimits
  tailLimits : TailWireLimits

namespace ConsumerSession
variable (codec : SessionCodec) (session : ConsumerSession)

/-- `request_authenticated_snapshot`, after the hello. -/
def acceptSnapshot (stream : List UInt8) :
    Except SnapshotConsumerError (AuthenticatedSnapshot × List UInt8) :=
  match readSnapshotFrame session.sessionLimits stream with
  | .error error => .error error
  | .ok (frame, rest) =>
    match codec.decodeAuthenticatedSnapshot frame session.expected session.secret
      session.sessionLimits with
    | .error error => .error (.session error)
    | .ok authenticated => .ok (authenticated, rest)

def tailKey (authenticated : AuthenticatedSnapshot) : Bytes 32 :=
  deriveTailKey codec.sha256 session.secret session.expected.challenge
    authenticated.companionGeneration .companionToRouter

def tailDecoder (authenticated : AuthenticatedSnapshot) : Except TailWireError TailFrameDecoder :=
  TailFrameDecoder.new (session.tailKey codec authenticated)
    { direction := .companionToRouter
      sessionId := session.expected.challenge
      firstMessageSequence := 1
      engineIncarnation := authenticated.engineIncarnation
      digestKeyId := authenticated.digestKeyId
      companionGeneration := authenticated.companionGeneration }
    session.tailLimits

theorem tailDecoder_ok {codec : SessionCodec} {session : ConsumerSession}
    {authenticated : AuthenticatedSnapshot} {decoder : TailFrameDecoder}
    (h : session.tailDecoder codec authenticated = .ok decoder) : decoder =
      { key := session.tailKey codec authenticated
        direction := .companionToRouter
        sessionId := session.expected.challenge
        nextMessageSequence := 1
        engineIncarnation := authenticated.engineIncarnation
        digestKeyId := authenticated.digestKeyId
        companionGeneration := authenticated.companionGeneration
        limits := session.tailLimits } := by
  unfold tailDecoder TailFrameDecoder.new at h
  split at h
  · cases h
  split at h
  · cases h
  split at h
  · cases h
  cases h
  rfl

end ConsumerSession

def acceptFrames (codec : SessionCodec) :
    Nat → TailFrameDecoder → List UInt8 → List (List UInt8 × VerifiedTailFrame)
  | 0, _, _ => []
  | fuel + 1, decoder, stream =>
    match readTailFrame decoder.limits stream with
    | .error _ => []
    | .ok (frame, rest) =>
      match decoder.decode codec frame with
      | (.error _, _) => []
      | (.ok verified, decoder) => (frame, verified) :: acceptFrames codec fuel decoder rest

def ConsumerSession.acceptTail (codec : SessionCodec) (session : ConsumerSession)
    (authenticated : AuthenticatedSnapshot) (stream : List UInt8) :
    List (List UInt8 × VerifiedTailFrame) :=
  match session.tailDecoder codec authenticated with
  | .error _ => []
  | .ok decoder => acceptFrames codec stream.length decoder stream

end Ramjet
