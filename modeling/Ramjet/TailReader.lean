import Ramjet.SnapshotConsumer
import Ramjet.Lib.Runs

/-!
# Reading tail frames across dropped futures

`TailStreamReader` of `snapshot_consumer.rs`. A read future may be dropped at any await
point; the bytes read so far live in the reader.
-/

namespace Ramjet
open List Option

structure TailStreamReader where
  frame : List UInt8
  filled : Nat
  total : Option Nat

namespace TailStreamReader

def new : TailStreamReader := ⟨[], 0, none⟩

/-- `Vec::resize` with zeros. -/
def resize (frame : List UInt8) (length : Nat) : List UInt8 :=
  frame.take length ++ replicate (length - frame.length) 0

/-- A read of some bytes into the frame behind the cursor. -/
def absorb (reader : TailStreamReader) (bytes : List UInt8) : TailStreamReader :=
  { reader with
    frame := reader.frame.take reader.filled ++ bytes ++
      reader.frame.drop (reader.filled + bytes.length)
    filled := reader.filled + bytes.length }

/-- The bytes of the frame in progress. -/
def part (reader : TailStreamReader) : List UInt8 := reader.frame.take reader.filled

end TailStreamReader

/-- Where the read future awaits the socket; `idle` is no future at all. -/
inductive ReadPoint where
  | idle | head | body
  deriving DecidableEq

/-- The reader, its read future, the bytes the peer has sent but nobody has read,
and what the futures have returned. -/
structure TailReading where
  reader : TailStreamReader
  point : ReadPoint
  remaining : List UInt8
  returned : List (List UInt8)
  last : Option (Except SnapshotConsumerError (List UInt8))

namespace TailReading
variable (limits : TailWireLimits)

def start (stream : List UInt8) : TailReading where
  reader := .new
  point := .idle
  remaining := stream
  returned := []
  last := none

def fail (s : TailReading) (error : SnapshotConsumerError) : TailReading :=
  { s with point := .idle, last := some (.error error) }

/-- The loop of the second `fill`, at its test. -/
def fillBody (s : TailReading) (total : Nat) : TailReading :=
  if s.reader.filled < total then { s with point := .body }
  else
    { s with
      reader := .new
      point := .idle
      returned := s.returned ++ [s.reader.frame]
      last := some (.ok s.reader.frame) }

def afterHead (s : TailReading) : TailReading :=
  match s.reader.total with
  | some total => s.fillBody total
  | none =>
    match tailFrameLength s.reader.frame limits with
    | .error error => s.fail (.tail error)
    | .ok total =>
      fillBody { s with
        reader := { s.reader with
          frame := TailStreamReader.resize s.reader.frame total
          total := some total } } total

/-- The loop of the first `fill`, at its test. -/
def fillHead (s : TailReading) : TailReading :=
  if s.reader.filled < tailFrameLengthPrefixBytes then { s with point := .head }
  else s.afterHead limits

/-- A new read future, up to its first await. -/
def issue (s : TailReading) : TailReading :=
  fillHead limits { s with
    last := none
    reader :=
      if s.reader.frame = [] then
        { s.reader with frame := TailStreamReader.resize s.reader.frame tailFrameLengthPrefixBytes }
      else s.reader }

/-- The end of the buffer that the future reads into. -/
def target (s : TailReading) : Nat :=
  match s.point with
  | .idle => 0
  | .head => tailFrameLengthPrefixBytes
  | .body => s.reader.total.getD 0

def absorb (s : TailReading) (count : Nat) : TailReading :=
  { s with
    reader := s.reader.absorb (s.remaining.take count)
    remaining := s.remaining.drop count }

/-- The future continues behind its await. -/
def resume (s : TailReading) : TailReading :=
  match s.point with
  | .idle => s
  | .head => s.fillHead limits
  | .body => s.fillBody (s.reader.total.getD 0)

inductive Turn where
  | issue
  | bytes (count : Nat)
  | interrupted
  | eof
  | failed
  | drop

/-- The socket returns no bytes only when it is closed and empty. -/
def Step (s : TailReading) : Turn → TailReading → Prop
  | .issue, s' => s.point = .idle ∧ s' = s.issue limits
  | .bytes count, s' => s.point ≠ .idle ∧ 0 < count ∧ count ≤ s.target - s.reader.filled ∧
      count ≤ s.remaining.length ∧ s' = (s.absorb count).resume limits
  | .interrupted, s' => s.point ≠ .idle ∧ s' = s
  | .eof, s' => s.point ≠ .idle ∧ s.remaining = [] ∧
      s' = s.fail (if s.reader.filled = 0 then .disconnected else .truncated)
  | .failed, s' => s.point ≠ .idle ∧ s' = s.fail .io
  | .drop, s' => s.point ≠ .idle ∧ s' = { s with point := .idle }

end TailReading

/-- A stream of bytes read with any interleaving of pieces, interruptions and
dropped futures. -/
def tailReading (limits : TailWireLimits) (stream : List UInt8) :
    TransitionSystem TailReading TailReading.Turn where
  init s := s = .start stream
  step s turn s' := s.Step limits turn s'

def IsTailFrame (limits : TailWireLimits) (frame : List UInt8) : Prop :=
  tailFrameLength (frame.take tailFrameLengthPrefixBytes) limits = .ok frame.length

structure TailStreamReader.Inside (frames : List (List UInt8)) (reader : TailStreamReader) :
    Prop where
  fits : reader.filled ≤ reader.frame.length
  open_ : reader.total = none → reader.filled < tailFrameLengthPrefixBytes ∧
    (reader.frame = [] ∨ reader.frame.length = tailFrameLengthPrefixBytes)
  known : ∀ total, reader.total = some total → ∃ frame rest, frames = frame :: rest ∧
    total = frame.length ∧ reader.frame.length = total ∧
    tailFrameLengthPrefixBytes ≤ reader.filled ∧ reader.filled < total

/-- The frames returned so far and the ones to come; no byte is lost. -/
structure TailReading.Split (frames : List (List UInt8)) (stream : List UInt8) (s : TailReading)
    (rest : List (List UInt8)) : Prop where
  frames : s.returned ++ rest = frames
  bytes : s.returned.flatten ++ s.reader.part ++ s.remaining = stream

/-- What the last future has returned. -/
structure TailReading.Reported (s : TailReading) : Prop where
  idle : s.last.isSome → s.point = .idle
  disconnected : s.last = some (.error .disconnected) → s.reader.part = [] ∧ s.remaining = []
  truncated : s.last = some (.error .truncated) → s.reader.part ≠ [] ∧ s.remaining = []
  clean : ∀ error, s.last ≠ some (.error (.tail error))
  whole : ∀ frame, s.last = some (.ok frame) → s.returned.getLast? = some frame

structure TailReading.Holding (frames : List (List UInt8)) (stream : List UInt8)
    (s : TailReading) (rest : List (List UInt8)) : Prop where
  split : s.Split frames stream rest
  inside : s.reader.Inside rest
  head : s.point = .head → s.reader.total = none ∧
    s.reader.frame.length = tailFrameLengthPrefixBytes
  body : s.point = .body → s.reader.total.isSome
  reported : s.Reported

namespace TailReading
variable {limits : TailWireLimits} {frames rest : List (List UInt8)} {stream : List UInt8}
  {s s' : TailReading}

theorem frameOverhead_le {lengthPrefix : List UInt8} {total : Nat}
    (h : tailFrameLength lengthPrefix limits = .ok total) : frameOverheadBytes ≤ total := by
  simp only [tailFrameLength, bind, Except.bind, throw, throwThe, MonadExceptOf.throw, pure,
    Except.pure] at h
  repeat' split at h
  all_goals cases h
  all_goals omega

theorem reported_of_none (h : s.last = none) : s.Reported := by
  constructor <;> simp [h]

variable {reader : TailStreamReader}

theorem length_part (h : reader.filled ≤ reader.frame.length) :
    reader.part.length = reader.filled := by
  simp [TailStreamReader.part, h]

theorem Split.ahead (h : s.Split frames stream rest) (hs : stream <+: frames.flatten) :
    s.reader.part ++ s.remaining <+: rest.flatten := by
  rw [← h.bytes, ← h.frames, flatten_append, append_assoc] at hs
  exact (prefix_append_right_inj _).1 hs

theorem Split.next (h : s.Split frames stream rest) (hs : stream <+: frames.flatten)
    (hp : s.reader.part ≠ []) : ∃ frame rest', rest = frame :: rest' := by
  have ha := h.ahead hs
  rcases rest with _ | ⟨frame, rest'⟩
  · rw [flatten_nil, prefix_nil, append_eq_nil_iff] at ha
    exact absurd ha.1 hp
  · exact ⟨frame, rest', rfl⟩

variable {frame : List UInt8} {rest' : List (List UInt8)}

theorem Split.part_eq_take (h : s.Split frames stream (frame :: rest'))
    (hs : stream <+: frames.flatten) (hl : s.reader.part.length ≤ frame.length) :
    s.reader.part = frame.take s.reader.part.length := by
  have hp : s.reader.part <+: frame ++ rest'.flatten :=
    (prefix_append _ _).trans (h.ahead hs)
  have hfr : s.reader.part <+: frame :=
    prefix_of_prefix_length_le hp (prefix_append _ _) hl
  exact prefix_iff_eq_take.1 hfr

theorem holding_fillBody (hr : stream <+: frames.flatten)
    (h : s.Split frames stream (frame :: rest')) (hl : s.last = none)
    (ht : s.reader.total = some frame.length) (hlen : s.reader.frame.length = frame.length)
    (hh : tailFrameLengthPrefixBytes ≤ s.reader.filled) (hi : s.reader.filled ≤ frame.length) :
    ∃ rest, (s.fillBody frame.length).Holding frames stream rest := by
  have hp : s.reader.part.length = s.reader.filled := length_part (by omega)
  unfold fillBody
  split
  next hc =>
    refine ⟨frame :: rest', ⟨h.frames, h.bytes⟩, ⟨by simp only; omega, ?_, ?_⟩, by simp, ?_,
      reported_of_none hl⟩
    · intro hn
      simp only at hn
      rw [ht] at hn
      cases hn
    · intro total hs
      simp only at hs
      rw [ht] at hs
      cases hs
      exact ⟨frame, rest', rfl, rfl, hlen, hh, hc⟩
    · intro _
      simp [ht]
  next hc =>
    have hf : s.reader.filled = frame.length := by omega
    -- the buffer is full, and what filled it is the frame
    have hfr : s.reader.frame = frame := by
      have ha := h.part_eq_take hr (by omega)
      rw [hp, hf, take_length] at ha
      rw [← ha, TailStreamReader.part, hf, ← hlen, take_length]
    refine ⟨rest', ⟨?_, ?_⟩, ⟨?_, ?_, ?_⟩, by simp, by simp, ⟨?_, ?_, ?_, ?_, ?_⟩⟩
    · simp only [hfr, append_assoc, singleton_append]
      exact h.frames
    · have hb := h.bytes
      have hw : s.reader.part = s.reader.frame := by
        rw [TailStreamReader.part, hf, ← hlen, take_length]
      rw [hw] at hb
      simpa [TailStreamReader.new, TailStreamReader.part] using hb
    · simp [TailStreamReader.new]
    · intro _
      exact ⟨Nat.zero_lt_succ _, .inl rfl⟩
    · intro total hs
      cases hs
    · exact fun _ => rfl
    · simp
    · simp
    · simp
    · intro other ho
      simp only [some.injEq, Except.ok.injEq] at ho
      simp [ho]

theorem holding_fillHead (hr : ∀ frame ∈ frames, IsTailFrame limits frame)
    (hs : stream <+: frames.flatten) (h : s.Split frames stream rest) (hl : s.last = none)
    (ht : s.reader.total = none) (hlen : s.reader.frame.length = tailFrameLengthPrefixBytes)
    (hi : s.reader.filled ≤ tailFrameLengthPrefixBytes) :
    ∃ rest, (s.fillHead limits).Holding frames stream rest := by
  have hp : s.reader.part.length = s.reader.filled := length_part (by omega)
  unfold fillHead
  split
  next hc =>
    refine ⟨rest, ⟨h.frames, h.bytes⟩, ⟨by simp only; omega, fun _ => ⟨hc, .inr hlen⟩, ?_⟩,
      fun _ => ⟨ht, hlen⟩, by simp, reported_of_none hl⟩
    intro total hb
    simp only at hb
    rw [ht] at hb
    cases hb
  next hc =>
    have hf : s.reader.filled = tailFrameLengthPrefixBytes := by omega
    have he : s.reader.part ≠ [] := by
      intro hn
      rw [hn, hf] at hp
      cases hp
    obtain ⟨frame, rest', rfl⟩ := h.next hs he
    have hm : frame ∈ frames := by
      rw [← h.frames]
      simp
    have hfr := hr frame hm
    have ho : tailFrameLengthPrefixBytes < frame.length :=
      Nat.lt_of_lt_of_le (by decide) (frameOverhead_le hfr)
    -- the full buffer is the head of the next frame
    have hw : s.reader.part = s.reader.frame := by
      rw [TailStreamReader.part, hf, ← hlen, take_length]
    have hh : s.reader.frame = frame.take tailFrameLengthPrefixBytes := by
      have ha := h.part_eq_take hs (by omega)
      rw [hp, hf, hw] at ha
      exact ha
    have hk : tailFrameLength s.reader.frame limits = .ok frame.length := by
      rw [hh]
      exact hfr
    simp only [afterHead, ht, hk]
    refine holding_fillBody hs (?_ : Split _ _ _ (frame :: rest')) hl rfl ?_ hf.ge ?_
    · refine ⟨h.frames, ?_⟩
      rw [← h.bytes]
      simp only [TailStreamReader.part, TailStreamReader.resize, hf]
      rw [take_append_of_le_length (by rw [length_take]; omega), take_take, Nat.min_eq_left ho.le]
    · simp only [TailStreamReader.resize, length_append, length_take, length_replicate]
      omega
    · simp only
      omega

theorem part_absorb (h : reader.filled ≤ reader.frame.length) (bytes : List UInt8) :
    (reader.absorb bytes).part = reader.part ++ bytes := by
  have hp := length_part h
  unfold TailStreamReader.part at hp
  simp only [TailStreamReader.absorb, TailStreamReader.part]
  exact take_left' (by rw [length_append, hp])

theorem length_absorb {bytes : List UInt8} (h : reader.filled + bytes.length ≤ reader.frame.length)
    : (reader.absorb bytes).frame.length = reader.frame.length := by
  simp only [TailStreamReader.absorb, length_append, length_take, length_drop]
  omega

theorem Split.absorb (h : s.Split frames stream rest) (hf : s.reader.filled ≤ s.reader.frame.length)
    (count : Nat) : (s.absorb count).Split frames stream rest := by
  refine ⟨h.frames, ?_⟩
  rw [← h.bytes]
  simp only [TailReading.absorb, part_absorb hf, append_assoc, take_append_drop]

section
variable (h : s.Holding frames stream rest)
include h

theorem Holding.last_eq_none (hp : s.point ≠ .idle) : s.last = none := by
  rcases hl : s.last with _ | result
  · rfl
  · exact absurd (h.reported.idle (by simp [hl])) hp

theorem Holding.issue (hr : ∀ frame ∈ frames, IsTailFrame limits frame)
    (ha : stream <+: frames.flatten) : ∃ rest, (s.issue limits).Holding frames stream rest := by
  have hf := h.inside.fits
  unfold TailReading.issue
  rcases ht : s.reader.total with _ | total
  · obtain ⟨ho, hp⟩ := h.inside.open_ ht
    by_cases hn : s.reader.frame = []
    · have hz : s.reader.filled = 0 := by
        rw [hn] at hf
        exact Nat.le_zero.1 hf
      rw [if_pos hn]
      refine holding_fillHead hr ha (?_ : Split _ _ _ rest) rfl ht ?_ ho.le
      · refine ⟨h.split.frames, ?_⟩
        rw [← h.split.bytes]
        simp [TailStreamReader.part, hz]
      · simp [TailStreamReader.resize, hn]
    · rw [if_neg hn]
      refine holding_fillHead hr ha (?_ : Split _ _ _ rest) rfl ht (hp.resolve_left hn) ho.le
      exact ⟨h.split.frames, h.split.bytes⟩
  · -- the length is known, so the future goes straight on with the body
    obtain ⟨frame, rest', rfl, rfl, hlen, hh, hl⟩ := h.inside.known total ht
    have he : s.reader.frame ≠ [] := by
      intro hn
      rw [hn, length_nil] at hlen
      omega
    rw [if_neg he]
    have hs : ¬ s.reader.filled < tailFrameLengthPrefixBytes := by omega
    simp only [fillHead, if_neg hs, afterHead, ht]
    refine holding_fillBody ha (?_ : Split _ _ _ (frame :: rest')) rfl ht hlen hh hl.le
    exact ⟨h.split.frames, h.split.bytes⟩

theorem Holding.read (ha : ∀ frame ∈ frames, IsTailFrame limits frame)
    (hd : stream <+: frames.flatten) (hn : s.point ≠ .idle) {count : Nat}
    (hr : count ≤ s.target - s.reader.filled) (hv : count ≤ s.remaining.length) :
    ∃ rest, ((s.absorb count).resume limits).Holding frames stream rest := by
  have hf := h.inside.fits
  have hl : (s.absorb count).last = none := h.last_eq_none hn
  have hs := h.split.absorb hf count
  have hb : (s.remaining.take count).length = count := by
    rw [length_take]
    omega
  have hi : (s.absorb count).reader.filled = s.reader.filled + count := by
    simp only [TailReading.absorb, TailStreamReader.absorb, hb]
  rcases hp : s.point
  · exact absurd hp hn
  · obtain ⟨ht, hlen⟩ := h.head hp
    have ho := (h.inside.open_ ht).1
    simp only [TailReading.target, hp] at hr
    have hc : (s.absorb count).resume limits = (s.absorb count).fillHead limits := by
      simp only [resume, TailReading.absorb, hp]
    rw [hc]
    refine holding_fillHead ha hd hs hl ht ?_ ?_
    · rw [← hlen]
      exact length_absorb (by omega)
    · omega
  · obtain ⟨total, ht⟩ := isSome_iff_exists.1 (h.body hp)
    obtain ⟨frame, rest', rfl, rfl, hlen, hh, he⟩ := h.inside.known total ht
    simp only [TailReading.target, hp, ht, getD_some] at hr
    have hc : (s.absorb count).resume limits = (s.absorb count).fillBody frame.length := by
      simp only [resume, TailReading.absorb, TailStreamReader.absorb, hp, ht, getD_some]
    rw [hc]
    refine holding_fillBody hd hs hl ht ?_ (by omega) (by omega)
    rw [← hlen]
    exact length_absorb (by omega)

theorem Holding.ended {last : Option (Except SnapshotConsumerError (List UInt8))}
    (hr : Reported { s with point := .idle, last }) :
    Holding frames stream { s with point := .idle, last } rest where
  split := ⟨h.split.frames, h.split.bytes⟩
  inside := h.inside
  head := by simp
  body := by simp
  reported := hr

theorem Holding.step (hf : ∀ frame ∈ frames, IsTailFrame limits frame)
    (hb : stream <+: frames.flatten) {turn : Turn}
    (hs : s.Step limits turn s') : ∃ rest, s'.Holding frames stream rest := by
  have hp := length_part h.inside.fits
  cases turn with
  | issue =>
    obtain ⟨-, rfl⟩ := hs
    exact h.issue hf hb
  | bytes count =>
    obtain ⟨ht, -, hr, ha, rfl⟩ := hs
    exact h.read hf hb ht hr ha
  | interrupted =>
    obtain ⟨-, rfl⟩ := hs
    exact ⟨rest, h⟩
  | eof =>
    obtain ⟨-, hc, rfl⟩ := hs
    refine ⟨rest, h.ended ?_⟩
    by_cases hz : s.reader.filled = 0
    · rw [if_pos hz]
      refine ⟨fun _ => rfl, fun _ => ⟨?_, hc⟩, by simp, by simp, by simp⟩
      exact length_eq_zero_iff.1 (hp.trans hz)
    rw [if_neg hz]
    refine ⟨fun _ => rfl, by simp, fun _ => ⟨?_, hc⟩, by simp, by simp⟩
    intro hn
    exact hz (hp.symm.trans (length_eq_zero_iff.2 hn))
  | failed =>
    obtain ⟨-, rfl⟩ := hs
    exact ⟨rest, h.ended ⟨fun _ => rfl, by simp, by simp, by simp, by simp⟩⟩
  | drop =>
    obtain ⟨ht, rfl⟩ := hs
    have hl := h.last_eq_none ht
    refine ⟨rest, h.ended (reported_of_none ?_)⟩
    exact hl

end

theorem holding_start (stream : List UInt8) : (start stream).Holding frames stream frames where
  split := ⟨rfl, rfl⟩
  inside := ⟨Nat.le_refl _, fun _ => ⟨Nat.zero_lt_succ _, .inl rfl⟩, nofun⟩
  head := by simp [start]
  body := by simp [start]
  reported := reported_of_none rfl

theorem Holding.part_lt (hf : ∀ frame ∈ frames, IsTailFrame limits frame)
    (h : s.Holding frames stream (frame :: rest')) : s.reader.part.length < frame.length := by
  rw [length_part h.inside.fits]
  rcases ht : s.reader.total with _ | total
  · have ho := (h.inside.open_ ht).1
    have hm : frame ∈ frames := by
      rw [← h.split.frames]
      simp
    have hv := frameOverhead_le (hf frame hm)
    simp only [frameOverheadBytes, tailFrameLengthPrefixBytes] at hv ho
    omega
  · obtain ⟨other, rest, heq, rfl, -, -, hl⟩ := h.inside.known total ht
    cases heq
    exact hl

theorem Holding.room (h : s.Holding frames stream rest) (hn : s.point ≠ .idle) :
    s.reader.filled < s.target := by
  rcases hp : s.point
  · exact absurd hp hn
  · simp only [TailReading.target, hp]
    exact (h.inside.open_ (h.head hp).1).1
  · obtain ⟨total, ht⟩ := isSome_iff_exists.1 (h.body hp)
    obtain ⟨frame, rest', rfl, rfl, -, -, hl⟩ := h.inside.known total ht
    simpa only [TailReading.target, hp, ht, getD_some] using hl

/-- However the reads of a stream of tail frames are cut, interrupted and
dropped, the reader returns the frames in order: every byte is in a returned
frame, in the frame in progress or unread, a close is reported between frames as
a disconnect and inside a frame as a truncation, and a stream read to its end
has returned every frame. -/
theorem tail_reader_returns_frames (limits : TailWireLimits) (frames : List (List UInt8))
    (hframes : ∀ frame ∈ frames, IsTailFrame limits frame) (stream : List UInt8)
    (hstream : stream <+: frames.flatten) (s : TailReading)
    (h : (tailReading limits stream).Reachable s) :
    (∃ rest, s.returned ++ rest = frames ∧
      s.returned.flatten ++ s.reader.part ++ s.remaining = stream ∧
      (rest = [] ∧ s.reader.part = [] ∨ ∃ frame rest', rest = frame :: rest' ∧
        s.reader.part <+: frame ∧ s.reader.part.length < frame.length)) ∧
    (s.last = some (.error .disconnected) → s.reader.part = [] ∧ s.remaining = []) ∧
    (s.last = some (.error .truncated) → s.reader.part ≠ [] ∧ s.remaining = []) ∧
    (∀ error, s.last ≠ some (.error (.tail error))) ∧
    (∀ frame, s.last = some (.ok frame) → s.returned.getLast? = some frame) ∧
    (s.point ≠ .idle → s.reader.filled < s.target) ∧
    (stream = frames.flatten → s.remaining = [] → s.returned = frames) := by
  obtain ⟨rest, hh⟩ : ∃ rest, s.Holding frames stream rest := by
    refine h.invariant (P := fun s => ∃ rest, s.Holding frames stream rest) ?_ ?_
    · rintro s rfl
      exact ⟨frames, holding_start stream⟩
    · rintro s turn s' ⟨rest, hh⟩ hstep
      exact hh.step hframes hstream hstep
  have hr := hh.reported
  refine ⟨⟨rest, hh.split.frames, hh.split.bytes, ?_⟩, hr.disconnected,
    hr.truncated, hr.clean, hr.whole, hh.room, ?_⟩
  · rcases rest with _ | ⟨frame, rest'⟩
    · have ha := hh.split.ahead hstream
      rw [flatten_nil, prefix_nil, append_eq_nil_iff] at ha
      exact .inl ⟨rfl, ha.1⟩
    have hl := hh.part_lt hframes
    have ht := hh.split.part_eq_take hstream hl.le
    exact .inr ⟨frame, rest', rfl, prefix_iff_eq_take.2 ht, hl⟩
  · intro hw he
    have hb := hh.split.bytes
    have hs := hh.split.frames
    rw [he, append_nil, hw, ← hs, flatten_append,
      append_cancel_left_eq] at hb
    rcases rest with _ | ⟨frame, rest'⟩
    · rw [← hs, append_nil]
    -- a frame still to come would be longer than the part read of it
    have hl := hh.part_lt hframes
    rw [hb, flatten_cons, length_append] at hl
    omega

def sampleTailLimits : TailWireLimits := ⟨128, 0, 0, 0⟩

/-- A frame without metadata or payload. -/
def sampleTailBytes : List UInt8 :=
  tailMagic ++ Fields.beBytes 2 1 ++ [2, 2] ++ Fields.beBytes 8 128 ++ replicate 108 0

/-- The length has been read, and the future awaits the rest. -/
def sampleHead : TailReading :=
  (((start sampleTailBytes).issue sampleTailLimits).absorb 20).resume sampleTailLimits

/-- The future was dropped there, and another one has read the rest. -/
def sampleReading : TailReading :=
  ((({ sampleHead with point := .idle } : TailReading).issue sampleTailLimits).absorb 108).resume
    sampleTailLimits

theorem tail_reader_returns_frames_sample :
    (tailReading sampleTailLimits sampleTailBytes).Reachable sampleReading ∧
      sampleReading.returned = [sampleTailBytes] := by
  have hi : (tailReading sampleTailLimits sampleTailBytes).Reachable
      ((start sampleTailBytes).issue sampleTailLimits) :=
    .step (.init rfl) (a := .issue) ⟨rfl, rfl⟩
  have hh : (tailReading sampleTailLimits sampleTailBytes).Reachable sampleHead :=
    .step hi (a := .bytes 20)
      ⟨by decide +kernel, by decide, by decide +kernel, by decide +kernel, rfl⟩
  have hd : (tailReading sampleTailLimits sampleTailBytes).Reachable
      { sampleHead with point := .idle } :=
    .step hh (a := .drop) ⟨by decide +kernel, rfl⟩
  have ha : (tailReading sampleTailLimits sampleTailBytes).Reachable
      (({ sampleHead with point := .idle } : TailReading).issue sampleTailLimits) :=
    .step hd (a := .issue) ⟨rfl, rfl⟩
  have hr : (tailReading sampleTailLimits sampleTailBytes).Reachable sampleReading :=
    .step ha (a := .bytes 108)
      ⟨by decide +kernel, by decide, by decide +kernel, by decide +kernel, rfl⟩
  have hf : ∀ frame ∈ [sampleTailBytes], IsTailFrame sampleTailLimits frame := by
    simp only [mem_singleton, forall_eq, IsTailFrame]
    decide +kernel
  have hs : sampleTailBytes = [sampleTailBytes].flatten := (flatten_singleton).symm
  refine ⟨hr, ?_⟩
  have hm := tail_reader_returns_frames _ _ hf _ (hs ▸ prefix_rfl) _ hr
  exact hm.2.2.2.2.2.2 hs (by decide +kernel)

end TailReading
end Ramjet
