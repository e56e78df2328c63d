import Ramjet.CompanionSource
import Ramjet.KvFence
import Ramjet.Lib.Fields

/-!
# The replay exchange

`blocking_replay_exchange` of `kv_transport.rs`: one request, answered by messages up to
an end marker. A bad message is remembered and the stream drained.
-/

namespace Ramjet
open List

inductive KvTransportError where
  | socket
  | invalidFrameCount
  | topicMismatch
  | invalidSequence
  | invalidPayload (error : DecodeError)
  | replayUnavailable
  | replayTooLarge
  | replayTimeoutUndrained
  | invalidReplay
  | replayCancelled
  deriving DecidableEq

/-- What one turn of the receive loop meets. -/
inductive ReplayTurn where
  | frames (frames : List (List UInt8))
  | again
  | cancelled
  | deadline
  | socketError

def endSequence : List UInt8 := replicate 8 255

/-- The request of one exchange; decoding stands for `decode_batch` at the
receiver's wire limits.  `start` is the source's `from`. -/
structure ReplayRequest where
  start : Nat
  through : Nat
  maxMessages : Nat
  topic : List UInt8
  decodeBatch : List UInt8 → Except DecodeError KvEventBatch
  foldTail : Bool

namespace ReplayRequest
variable (request : ReplayRequest)

def decodeFrames (sequence payload : List UInt8) : Except KvTransportError SequencedBatch :=
  if sequence.length ≠ 8 then .error .invalidSequence
  else
    match request.decodeBatch payload with
    | .error error => .error (.invalidPayload error)
    | .ok batch => .ok ⟨Fields.beNat sequence, payload, batch⟩

/-- A message of a replay; none is the end marker. -/
def parseReplayMessage (message : List (List UInt8)) :
    Except KvTransportError (Option SequencedBatch) :=
  match message with
  | [delimiter, topic, sequence, payload] =>
    if delimiter ≠ [] then .error .invalidFrameCount
    else if sequence = endSequence then
      if topic = [] ∧ payload = [] then .ok none else .error .invalidReplay
    else if topic ≠ request.topic then .error .topicMismatch
    else (request.decodeFrames sequence payload).map some
  | _ => .error .invalidFrameCount

structure Exchange (T : Type) where
  accumulator : T
  lastRequested : Option Nat
  lastTail : Option Nat
  completedRequestedRange : Bool
  messages : Nat
  validationError : Option KvTransportError

variable {T : Type} (fold : T → SequencedBatch → T)

def begin (accumulator : T) : Exchange T where
  accumulator
  lastRequested := none
  lastTail := none
  completedRequestedRange := false
  messages := 0
  validationError := none

/-- Remember an error unless there is one already. -/
def Exchange.fail (exchange : Exchange T) (error : KvTransportError) : Exchange T :=
  { exchange with validationError := exchange.validationError.or (some error) }

def receive (exchange : Exchange T) (batch : SequencedBatch) : Exchange T :=
  let exchange := { exchange with messages := exchange.messages + 1 }
  let exchange :=
    if request.maxMessages ≤ exchange.messages then exchange.fail .replayTooLarge else exchange
  if exchange.validationError.isSome then exchange
  else if request.through < batch.sequence ∧ exchange.completedRequestedRange then
    if exchange.lastTail.any (batch.sequence ≤ ·) then exchange.fail .invalidReplay
    else
      { exchange with
        lastTail := some batch.sequence
        accumulator :=
          if request.foldTail then fold exchange.accumulator batch else exchange.accumulator }
  else if batch.sequence < request.start ∨ request.through < batch.sequence ∨
      exchange.lastRequested.any (batch.sequence ≤ ·) then
    exchange.fail .invalidReplay
  else
    { exchange with
      lastRequested := some batch.sequence
      completedRequestedRange := batch.sequence = request.through
      accumulator := fold exchange.accumulator batch }

/-- The receive loop; a stream that never ends runs into the deadline. -/
def drain (exchange : Exchange T) : List ReplayTurn → Except KvTransportError T
  | [] => .error .replayTimeoutUndrained
  | .cancelled :: _ => .error .replayCancelled
  | .deadline :: _ => .error .replayTimeoutUndrained
  | .socketError :: _ => .error .socket
  | .again :: rest => drain exchange rest
  | .frames frames :: rest =>
    match request.parseReplayMessage frames with
    | .error error => drain (exchange.fail error) rest
    | .ok none =>
      match exchange.validationError with
      | some error => .error error
      | none =>
        if exchange.completedRequestedRange then .ok exchange.accumulator
        else .error .invalidReplay
    | .ok (some batch) => drain (request.receive fold exchange batch) rest

/-- `setup` is what became of the socket and the request. -/
def blockingReplayExchange (setup : Except KvTransportError Unit) (accumulator : T)
    (turns : List ReplayTurn) : Except KvTransportError T :=
  match setup with
  | .error error => .error error
  | .ok () => request.drain fold (begin accumulator) turns

/-- The stream delivers these batches, all well formed, and then the end marker,
with nothing but empty polls between them. -/
inductive Delivers : List ReplayTurn → List SequencedBatch → Prop
  | again {rest : List ReplayTurn} {batches : List SequencedBatch} (h : Delivers rest batches) :
      Delivers (.again :: rest) batches
  | batch {frames : List (List UInt8)} {rest : List ReplayTurn} {batch : SequencedBatch}
      {batches : List SequencedBatch}
      (hprs : request.parseReplayMessage frames = .ok (some batch))
      (h : Delivers rest batches) : Delivers (.frames frames :: rest) (batch :: batches)
  | done {frames : List (List UInt8)} {rest : List ReplayTurn}
      (hprs : request.parseReplayMessage frames = .ok none) :
      Delivers (.frames frames :: rest) []

structure Answers (requested tail : List SequencedBatch) : Prop where
  increasing : ((requested ++ tail).map (·.sequence)).Pairwise (· < ·)
  inRange : ∀ batch ∈ requested, request.start ≤ batch.sequence ∧ batch.sequence ≤ request.through
  complete : (requested.map (·.sequence)).getLast? = some request.through
  above : ∀ batch ∈ tail, request.through < batch.sequence
  bounded : (requested ++ tail).length < request.maxMessages

/-- What is folded of an answer. -/
def folded (requested tail : List SequencedBatch) : List SequencedBatch :=
  requested ++ if request.foldTail then tail else []

structure Tracks (accumulator : T) (exchange : Exchange T) (requested tail : List SequencedBatch) :
    Prop where
  error : exchange.validationError = none
  messages : exchange.messages = (requested ++ tail).length
  lastRequested : exchange.lastRequested = (requested.map (·.sequence)).getLast?
  lastTail : exchange.lastTail = (tail.map (·.sequence)).getLast?
  completed : exchange.completedRequestedRange ↔
    (requested.map (·.sequence)).getLast? = some request.through
  behind : tail ≠ [] → exchange.completedRequestedRange
  accumulator : exchange.accumulator = (request.folded requested tail).foldl fold accumulator
  increasing : ((requested ++ tail).map (·.sequence)).Pairwise (· < ·)
  inRange : ∀ batch ∈ requested, request.start ≤ batch.sequence ∧ batch.sequence ≤ request.through
  above : ∀ batch ∈ tail, request.through < batch.sequence
  bounded : requested ++ tail ≠ [] → (requested ++ tail).length < request.maxMessages

variable {request} {fold} {accumulator : T} {exch : Exchange T}
  {reqd tail : List SequencedBatch} {batch : SequencedBatch}

theorem tracks_begin (accumulator : T) :
    request.Tracks fold accumulator (begin accumulator) [] [] :=
  ⟨rfl, rfl, rfl, rfl, by simp [begin], by simp, by simp [folded, begin], by simp, by simp, by simp,
    by simp⟩

variable {sequences : List Nat} {turns : List ReplayTurn} {front : List SequencedBatch}

theorem lt_of_last (h : sequences.Pairwise (· < ·)) {next : Nat}
    (hl : sequences.getLast?.any (next ≤ ·) = false) : ∀ a ∈ sequences, a < next := by
  induction sequences using reverseRecOn with
  | nil => simp
  | append_singleton front last _ =>
    have ht : last < next := by simpa using hl
    rw [pairwise_append] at h
    intro a ha
    rcases mem_append.1 ha with hf | hs
    · exact (h.2.2 a hf last (by simp)).trans ht
    · rw [mem_singleton] at hs
      omega

theorem last_lt_of_forall {next : Nat} (h : ∀ a ∈ sequences, a < next) :
    sequences.getLast?.any (next ≤ ·) = false := by
  rcases hl : sequences.getLast? with _ | last
  · rfl
  · simpa using h last (mem_of_getLast? hl)

theorem Tracks.take_requested (h : request.Tracks fold accumulator exch reqd [])
    (hn : reqd.length + 1 < request.maxMessages)
    (hr : request.start ≤ batch.sequence ∧ batch.sequence ≤ request.through)
    (hl : exch.lastRequested.any (batch.sequence ≤ ·) = false) :
    request.Tracks fold accumulator (request.receive fold exch batch) (reqd ++ [batch]) [] := by
  have hm := h.messages
  rw [append_nil] at hm
  have hre : request.receive fold exch batch = { exch with
        messages := exch.messages + 1
        lastRequested := some batch.sequence
        completedRequestedRange := batch.sequence = request.through
        accumulator := fold exch.accumulator batch } := by
    have hs : ¬ request.maxMessages ≤ exch.messages + 1 := by omega
    have ht : ¬ request.through < batch.sequence := by omega
    have ho : ¬ batch.sequence < request.start := by omega
    simp [receive, hs, ht, ho, h.error, hl]
  rw [hre]
  refine ⟨h.error, by simp [hm], by simp, h.lastTail, by simp, by simp, ?_, ?_, ?_, by simp, ?_⟩
  · simp [h.accumulator, folded]
  · rw [append_nil, map_append, pairwise_append]
    have hinc := h.increasing
    rw [append_nil] at hinc
    refine ⟨hinc, by simp, ?_⟩
    rw [h.lastRequested] at hl
    intro a ha b hb
    rw [map_singleton, mem_singleton] at hb
    rw [hb]
    exact lt_of_last hinc hl a ha
  · intro other hc
    rcases mem_append.1 hc with hold | hw
    · exact h.inRange other hold
    rw [mem_singleton] at hw
    rw [hw]
    exact hr
  · intro _
    simpa using hn

theorem Tracks.take_tail (h : request.Tracks fold accumulator exch reqd tail)
    (hn : (reqd ++ tail).length + 1 < request.maxMessages) (hc : exch.completedRequestedRange)
    (ho : request.through < batch.sequence) (hl : exch.lastTail.any (batch.sequence ≤ ·) = false) :
    request.Tracks fold accumulator (request.receive fold exch batch) reqd (tail ++ [batch]) := by
  have hm := h.messages
  have hre : request.receive fold exch batch = { exch with
        messages := exch.messages + 1
        lastTail := some batch.sequence
        accumulator :=
          if request.foldTail then fold exch.accumulator batch
          else exch.accumulator } := by
    have hs : ¬ request.maxMessages ≤ exch.messages + 1 := by omega
    simp [receive, hs, ho, hc, h.error, hl]
  rw [hre]
  refine ⟨h.error, by simp [hm, Nat.add_assoc], h.lastRequested, by simp, h.completed,
    fun _ => hc, ?_, ?_, h.inRange, ?_, ?_⟩
  · rw [h.accumulator]
    rcases hf : request.foldTail
    · simp [folded, hf]
    · simp [folded, hf, ← append_assoc]
  · rw [← append_assoc, map_append, pairwise_append]
    refine ⟨h.increasing, by simp, ?_⟩
    have hinc := h.increasing
    rw [map_append, pairwise_append] at hinc
    rw [h.lastTail] at hl
    intro a ha b hb
    rw [map_singleton, mem_singleton] at hb
    rw [hb]
    rw [map_append] at ha
    rcases mem_append.1 ha with hd | he
    · obtain ⟨other, ht, rfl⟩ := mem_map.1 hd
      exact (h.inRange other ht).2.trans_lt ho
    · exact lt_of_last hinc.2.1 hl a he
  · intro other ht
    rcases mem_append.1 ht with hold | hw
    · exact h.above other hold
    rw [mem_singleton] at hw
    rw [hw]
    exact ho
  · intro _
    rw [← append_assoc, length_append, length_singleton]
    exact hn

theorem receive_of_error (h : exch.validationError.isSome) (batch : SequencedBatch) :
    (request.receive fold exch batch).validationError.isSome := by
  obtain ⟨error, he⟩ := Option.isSome_iff_exists.1 h
  simp only [receive, Exchange.fail]
  split
  · simp [he]
  · simp [he]

theorem drain_of_error (h : exch.validationError.isSome) (turns : List ReplayTurn)
    (accumulator : T) : request.drain fold exch turns ≠ .ok accumulator := by
  induction turns generalizing exch with
  | nil => simp [drain]
  | cons turn rest ih =>
    cases turn with
    | again => exact ih h
    | cancelled => simp [drain]
    | deadline => simp [drain]
    | socketError => simp [drain]
    | frames frames =>
      simp only [drain]
      split
      · apply ih
        obtain ⟨error, he⟩ := Option.isSome_iff_exists.1 h
        simp [Exchange.fail, he]
      · obtain ⟨error, he⟩ := Option.isSome_iff_exists.1 h
        simp [he]
      · exact ih (receive_of_error h _)

theorem Tracks.receive_cases (h : request.Tracks fold accumulator exch reqd tail)
    (batch : SequencedBatch) : (request.receive fold exch batch).validationError.isSome ∨
      ∃ reqd' tail', reqd' ++ tail' = reqd ++ tail ++ [batch] ∧
        request.Tracks fold accumulator (request.receive fold exch batch) reqd' tail' := by
  have hm := h.messages
  by_cases hb : request.maxMessages ≤ exch.messages + 1
  · left
    simp [receive, hb, Exchange.fail]
  by_cases ht : request.through < batch.sequence ∧ exch.completedRequestedRange = true
  · rcases hl : exch.lastTail.any (batch.sequence ≤ ·)
    · right
      refine ⟨reqd, tail ++ [batch], by simp, ?_⟩
      exact h.take_tail (by omega) ht.2 ht.1 hl
    · left
      simp [receive, hb, ht, h.error, hl, Exchange.fail]
  by_cases hr : batch.sequence < request.start ∨ request.through < batch.sequence ∨
      exch.lastRequested.any (batch.sequence ≤ ·) = true
  · left
    simp only [receive, if_neg hb, h.error, ht, hr, if_true, if_false, Exchange.fail,
      Option.isSome_none, Option.none_or, Option.isSome_some, Bool.false_eq_true]
  right
  simp only [not_or, not_lt, Bool.not_eq_true] at hr
  -- a completed range leaves no sequence between its last and the end
  have ho : tail = [] := by
    by_contra hn
    have hd := h.completed.1 (h.behind hn)
    have hl := hr.2.2
    rw [h.lastRequested, hd] at hl
    simp only [Option.any_some, decide_eq_false_iff_not, not_le] at hl
    omega
  subst ho
  rw [append_nil] at hm
  refine ⟨reqd ++ [batch], [], by simp, ?_⟩
  exact h.take_requested (by omega) ⟨hr.1, hr.2.1⟩ hr.2.2

theorem Tracks.answers_of_drain (h : request.Tracks fold accumulator exch reqd tail)
    {result : T} (hd : request.drain fold exch turns = .ok result) :
    ∃ batches reqd' tail', request.Delivers turns batches ∧
      reqd' ++ tail' = reqd ++ tail ++ batches ∧ request.Answers reqd' tail' ∧
      result = (request.folded reqd' tail').foldl fold accumulator := by
  induction turns generalizing exch reqd tail with
  | nil => simp [drain] at hd
  | cons turn rest ih =>
    cases turn with
    | cancelled => simp [drain] at hd
    | deadline => simp [drain] at hd
    | socketError => simp [drain] at hd
    | again =>
      obtain ⟨batches, reqd', tail', hv, hr⟩ := ih h hd
      exact ⟨batches, reqd', tail', .again hv, hr⟩
    | frames frames =>
      simp only [drain] at hd
      split at hd
      · exact absurd hd (drain_of_error (by simp [Exchange.fail, h.error]) _ _)
      next hprs =>
        simp only [h.error] at hd
        split at hd
        next hc =>
          cases hd
          have hl := h.completed.1 hc
          refine ⟨[], reqd, tail, .done hprs, by simp, ⟨h.increasing, h.inRange, hl,
            h.above, h.bounded ?_⟩, h.accumulator⟩
          intro hi
          rw [(append_eq_nil_iff.1 hi).1] at hl
          cases hl
        · cases hd
      next batch hprs =>
        rcases h.receive_cases batch with he | ⟨reqd', tail', heq, hn⟩
        · exact absurd hd (drain_of_error he _ _)
        obtain ⟨batches, reqd'', tail'', hv, heq', ha⟩ := ih hn hd
        refine ⟨batch :: batches, reqd'', tail'', .batch hprs hv, ?_, ha⟩
        rw [heq', heq, append_assoc, singleton_append]

variable {reqd tail : List SequencedBatch}

theorem Answers.tracks_requested (h : request.Answers reqd tail)
    (fold : T → SequencedBatch → T) (accumulator : T) (hf : front <+: reqd) :
    request.Tracks fold accumulator (front.foldl (request.receive fold) (begin accumulator))
      front [] := by
  induction front using reverseRecOn with
  | nil => exact tracks_begin accumulator
  | append_singleton front batch ih =>
    have he := ih ((prefix_append _ _).trans hf)
    rw [foldl_append]
    obtain ⟨back, rfl⟩ := hf
    have hm : batch ∈ front ++ [batch] ++ back := by simp
    have hinc := h.increasing
    have hb := h.bounded
    simp only [append_assoc, map_append, map_cons, map_nil, pairwise_append] at hinc
    refine he.take_requested ?_ (h.inRange batch hm) ?_
    · simp only [length_append, length_singleton] at hb
      omega
    · rw [he.lastRequested]
      exact last_lt_of_forall fun a ha => hinc.2.2 a ha batch.sequence (by simp)

theorem Answers.tracks (h : request.Answers reqd tail) (fold : T → SequencedBatch → T)
    (accumulator : T) (hf : front <+: tail) : request.Tracks fold accumulator
      ((reqd ++ front).foldl (request.receive fold) (begin accumulator)) reqd front := by
  induction front using reverseRecOn with
  | nil =>
    rw [append_nil]
    exact h.tracks_requested fold accumulator prefix_rfl
  | append_singleton front batch ih =>
    have hb := ih ((prefix_append _ _).trans hf)
    rw [← append_assoc, foldl_append]
    obtain ⟨back, rfl⟩ := hf
    have hinc := h.increasing
    have ho := h.bounded
    simp only [append_assoc, map_append, map_cons, map_nil, pairwise_append] at hinc
    refine hb.take_tail ?_ (hb.completed.2 h.complete) (h.above batch (by simp)) ?_
    · simp only [length_append, length_singleton] at ho ⊢
      omega
    · rw [hb.lastTail]
      exact last_lt_of_forall fun a ha => hinc.2.1.2.2 a ha batch.sequence (by simp)

theorem drain_of_delivers {batches : List SequencedBatch} (h : request.Delivers turns batches)
    (he : (batches.foldl (request.receive fold) exch).validationError = none)
    (hc : (batches.foldl (request.receive fold) exch).completedRequestedRange) :
    request.drain fold exch turns =
      .ok (batches.foldl (request.receive fold) exch).accumulator := by
  induction h generalizing exch with
  | again _ ih => exact ih he hc
  | batch hprs _ ih =>
    simp only [drain, hprs]
    exact ih he hc
  | done hprs =>
    simp only [foldl_nil] at he hc
    simp [drain, hprs, he, hc]

theorem Answers.accepted (h : request.Answers reqd tail) {fence : KvEventFence}
    {restoreTrust : Bool} (hp : fence.pending = some ⟨request.start, request.through, restoreTrust⟩)
    (boundary : Bool) : (fence.acceptReplay (reqd.map (·.sequence)) boundary).1 ≠ .invalid := by
  have hinc := h.increasing
  rw [map_append, pairwise_append] at hinc
  have hs : KvEventFence.strictlyIncreasing (reqd.map (·.sequence)) :=
    KvEventFence.strictlyIncreasing_of_pairwise hinc.1
  have hf : (reqd.map (·.sequence)).head?.any (request.start ≤ ·) := by
    rcases reqd with _ | ⟨first, rest⟩
    · have hc := h.complete
      cases hc
    · have ht := (h.inRange first (by simp)).1
      simpa using ht
  simp only [KvEventFence.acceptReplay, hp, hf, h.complete, hs]
  rcases restoreTrust || boundary <;> simp

/-- An exchange succeeds exactly on a delivery of the requested range and later
batches behind it; the accumulator has taken the range, and the rest on request,
and the fence of that gap accepts the range. -/
theorem replay_exchange_accepts (request : ReplayRequest) (fold : T → SequencedBatch → T)
    (accumulator result : T) (setup : Except KvTransportError Unit) (turns : List ReplayTurn) :
    (request.blockingReplayExchange fold setup accumulator turns = .ok result ↔
      setup = .ok () ∧ ∃ requested tail, request.Delivers turns (requested ++ tail) ∧
        request.Answers requested tail ∧
        result = (request.folded requested tail).foldl fold accumulator) ∧
    ∀ requested tail, request.Answers requested tail →
      ∀ (fence : KvEventFence) (restoreTrust boundary : Bool),
        fence.pending = some ⟨request.start, request.through, restoreTrust⟩ →
          (fence.acceptReplay (requested.map (·.sequence)) boundary).1 ≠ .invalid := by
  refine ⟨⟨?_, ?_⟩, ?_⟩
  · intro ho
    rcases setup with error | ⟨⟩
    · cases ho
    obtain ⟨batches, requested, tail, hd, heq, ha, hr⟩ :=
      (tracks_begin accumulator).answers_of_drain ho
    rw [append_nil, nil_append] at heq
    exact ⟨rfl, requested, tail, heq ▸ hd, ha, hr⟩
  · rintro ⟨rfl, requested, tail, hd, ha, rfl⟩
    have ht := ha.tracks fold accumulator prefix_rfl
    rw [← ht.accumulator]
    exact drain_of_delivers hd ht.error (ht.completed.2 ha.complete)
  · intro requested tail ha fence restoreTrust boundary hp
    exact ha.accepted hp boundary

def sampleReplay : ReplayRequest where
  start := 1
  through := 2
  maxMessages := 4
  topic := [107, 118]
  decodeBatch _ := .ok ⟨[], none⟩
  foldTail := false

def sampleMessage (sequence : Nat) : ReplayTurn :=
  .frames [[], [107, 118], Fields.beBytes 8 sequence, []]

/-- Sequence 1 emitted no event; sequence 5 lies behind the range. -/
theorem replay_exchange_accepts_sample :
    let turns := [.again, sampleMessage 2, sampleMessage 5, .frames [[], [], endSequence, []]]
    sampleReplay.blockingReplayExchange (fun batches batch => batches ++ [batch.sequence])
      (.ok ()) [] turns = .ok [2] ∧
    ∃ requested tail, sampleReplay.Answers requested tail ∧
      (({ KvEventFence.new 8 with pending := some ⟨1, 2, true⟩ } : KvEventFence).acceptReplay
        (requested.map (·.sequence)) false).1 ≠ .invalid := by
  intro turns
  have ho : sampleReplay.blockingReplayExchange
      (fun batches batch => batches ++ [batch.sequence]) (.ok ()) [] turns = .ok [2] := by
    decide +kernel
  have hm := replay_exchange_accepts sampleReplay
    (fun batches batch => batches ++ [batch.sequence]) [] [2] (.ok ()) turns
  obtain ⟨-, requested, tail, -, ha, -⟩ := hm.1.1 ho
  exact ⟨ho, requested, tail, ha, hm.2 requested tail ha _ true false rfl⟩

end ReplayRequest
end Ramjet
