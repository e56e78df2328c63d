import Ramjet.BlockDigest

/-!
# Usage of a stream

`usage.rs` reads server-sent events as they arrive; what follows the last line break of
a chunk waits for the next one.
-/

namespace Ramjet.StreamUsage
open List

def isAsciiWhitespace (byte : UInt8) : Bool :=
  byte = 0x09 || byte = 0x0a || byte = 0x0c || byte = 0x0d || byte = 0x20

def trimAscii (value : List UInt8) : List UInt8 :=
  ((value.dropWhile isAsciiWhitespace).reverse.dropWhile isAsciiWhitespace).reverse

-- `feed_json` reads the JSON of one event; nothing here depends on what it takes from it.
variable {α : Type} (feedJson : α → List UInt8 → α)

def feedSseLine (accumulator : α) (line : List UInt8) : α :=
  let line := trimAscii line
  if (asciiBytes "data:").isPrefixOf line then
    let payload := trimAscii (line.drop 5)
    if payload ≠ [] ∧ payload ≠ asciiBytes "[DONE]" then feedJson accumulator payload
    else accumulator
  else accumulator

def feedLines (tail : List UInt8) (accumulator : α) (consumed : Nat) : α × Nat :=
  match h : (tail.drop consumed).findIdx? (· == 0x0a) with
  | some relative =>
    feedLines tail (feedSseLine feedJson accumulator ((tail.drop consumed).take relative))
      (consumed + relative + 1)
  | none => (accumulator, consumed)
termination_by tail.length - consumed
decreasing_by
  obtain ⟨hi, -⟩ := findIdx?_eq_some_iff_getElem.1 h
  rw [length_drop] at hi
  omega

def feedSseChunk (state : α × List UInt8) (chunk : List UInt8) : α × List UInt8 :=
  let tail := state.2 ++ chunk
  let (accumulator, consumed) := feedLines feedJson tail state.1 0
  (accumulator, tail.drop consumed)

def completeLines (stream : List UInt8) : List (List UInt8) := (stream.splitOn 0x0a).dropLast

def openLine (stream : List UInt8) : List UInt8 := (stream.splitOn 0x0a).getLastD []

variable (s c : List UInt8)

theorem splitOn_eq : s.splitOn 0x0a = completeLines s ++ [openLine s] := by
  have hn : s.splitOn 0x0a ≠ [] := splitOnP_ne_nil _ s
  rw [completeLines, openLine, getLastD_eq_getLast?, getLast?_eq_some_getLast hn]
  exact (dropLast_append_getLast hn).symm

theorem splitOn_append : (s ++ c).splitOn 0x0a =
    completeLines s ++ (openLine s ++ c).splitOn 0x0a := by
  unfold completeLines openLine splitOn
  induction s with
  | nil => rfl
  | cons byte s ih =>
    rw [cons_append, splitOnP_cons_eq_if_modifyHead, splitOnP_cons_eq_if_modifyHead, ih]
    rcases hs : s.splitOnP (· == (0x0a : UInt8)) with _ | ⟨first, _ | ⟨second, rest⟩⟩
    · exact absurd hs (splitOnP_ne_nil _ s)
    · cases hb : byte == 0x0a with
      | true => simp
      | false => simp [splitOnP_cons_eq_if_modifyHead, hb]
    · cases hb : byte == 0x0a with
      | true => simp
      | false => simp

theorem completeLines_append :
    completeLines (s ++ c) = completeLines s ++ completeLines (openLine s ++ c) := by
  rw [completeLines, splitOn_append, splitOn_eq (openLine s ++ c), ← append_assoc, dropLast_concat]

theorem openLine_append : openLine (s ++ c) = openLine (openLine s ++ c) := by
  rw [openLine, splitOn_append, splitOn_eq (openLine s ++ c), ← append_assoc, getLastD_concat]

theorem feedLines_eq (tail : List UInt8) (acc : α) (consumed : Nat) :
    let (fed, stop) := feedLines feedJson tail acc consumed
    fed = (completeLines (tail.drop consumed)).foldl (feedSseLine feedJson) acc ∧
      tail.drop stop = openLine (tail.drop consumed) := by
  fun_induction feedLines feedJson tail acc consumed with
  | case1 acc consumed relative h ih =>
    obtain ⟨hi, hb, hf⟩ := findIdx?_eq_some_iff_getElem.1 h
    have hn : ∀ byte ∈ (tail.drop consumed).take relative, (byte == 0x0a) = false := by
      intro byte hm
      obtain ⟨i, hl, rfl⟩ := mem_take_iff_getElem.1 hm
      simpa using hf i (by omega)
    have hs : (tail.drop consumed).splitOn 0x0a = (tail.drop consumed).take relative ::
        (tail.drop (consumed + relative + 1)).splitOn 0x0a := by
      have hp := splitOnP_append_cons_of_forall_mem hn _ hb
        ((tail.drop consumed).drop (relative + 1))
      rw [← drop_eq_getElem_cons hi, take_append_drop, drop_drop] at hp
      exact hp
    rw [completeLines, openLine, hs, splitOn_eq, ← cons_append, dropLast_concat, getLastD_concat]
    exact ih
  | case2 acc consumed h =>
    have hs : (tail.drop consumed).splitOn 0x0a = [tail.drop consumed] :=
      splitOnP_eq_singleton fun byte hb => by simpa using findIdx?_eq_none_iff.1 h byte hb
    rw [completeLines, openLine, hs]
    exact ⟨rfl, rfl⟩

theorem feedSseChunk_eq (state : α × List UInt8) : feedSseChunk feedJson state c =
    ((completeLines (state.2 ++ c)).foldl (feedSseLine feedJson) state.1,
      openLine (state.2 ++ c)) := by
  obtain ⟨hf, hs⟩ := feedLines_eq feedJson (state.2 ++ c) state.1 0
  exact Prod.ext hf hs

theorem foldl_feedSseChunk (acc : α) (chunks : List (List UInt8)) :
    chunks.foldl (feedSseChunk feedJson)
        ((completeLines s).foldl (feedSseLine feedJson) acc, openLine s) =
      ((completeLines (s ++ chunks.flatten)).foldl (feedSseLine feedJson) acc,
        openLine (s ++ chunks.flatten)) := by
  induction chunks generalizing s with
  | nil => simp
  | cons c rest ih =>
    rw [foldl_cons, feedSseChunk_eq, ← foldl_append, ← completeLines_append,
      ← openLine_append, ih (s ++ c), append_assoc, flatten_cons]

/-- However a stream is cut, its chunks leave the accumulator that its complete lines leave,
and the line that it has not finished. -/
theorem stream_accounting (acc : α) (chunks : List (List UInt8)) :
    chunks.foldl (feedSseChunk feedJson) (acc, []) =
        feedSseChunk feedJson (acc, []) chunks.flatten ∧
      feedSseChunk feedJson (acc, []) chunks.flatten =
        ((completeLines chunks.flatten).foldl (feedSseLine feedJson) acc,
          openLine chunks.flatten) := by
  refine ⟨?_, feedSseChunk_eq ..⟩
  rw [feedSseChunk_eq]
  exact foldl_feedSseChunk feedJson [] acc chunks

end Ramjet.StreamUsage
