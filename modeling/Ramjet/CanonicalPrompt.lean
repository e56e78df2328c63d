import Ramjet.ExactIndex

/-!
# Canonical prompts

The bytes a request is recognised by and the hashes of their prefixes (`router.rs`).
-/

namespace Ramjet
open List

/-- A parsed body. Numbers are kept as `serde_json` prints them, strings and keys as
their bytes. -/
inductive Json where
  | null
  | bool (value : Bool)
  | number (text : List UInt8)
  | string (text : List UInt8)
  | array (values : List Json)
  | object (members : List (List UInt8 × Json))

namespace Json

def ascii (text : String) : List UInt8 := text.toList.map fun char => .ofNat char.toNat

def hexDigit (value : UInt8) : UInt8 := if value < 10 then 48 + value else 87 + value

/-- The escapes of `serde_json`. -/
def escape (byte : UInt8) : List UInt8 :=
  match byte with
  | 34 | 92 => [92, byte]
  | 8 => [92, 98]
  | 9 => [92, 116]
  | 10 => [92, 110]
  | 12 => [92, 102]
  | 13 => [92, 114]
  | byte => if byte < 32 then [92, 117, 48, 48, hexDigit (byte / 16), hexDigit (byte % 16)]
    else [byte]

def quote (text : List UInt8) : List UInt8 := 34 :: text.flatMap escape ++ [34]

mutual

/-- JSON text with the keys of every object in order. -/
def canonical : Json → List UInt8
  | .null => ascii "null"
  | .bool value => ascii (toString value)
  | .number text => text
  | .string text => quote text
  | .array values => 91 :: [44].intercalate (valueTexts values) ++ [93]
  | .object members =>
    let sorted := (memberTexts members).insertionSort fun left right => left.1 ≤ right.1
    123 :: [44].intercalate (sorted.map fun entry => quote entry.1 ++ 58 :: entry.2) ++ [125]

def valueTexts : List Json → List (List UInt8)
  | [] => []
  | value :: rest => value.canonical :: valueTexts rest

def memberTexts : List (List UInt8 × Json) → List (List UInt8 × List UInt8)
  | [] => []
  | (key, value) :: rest => (key, value.canonical) :: memberTexts rest

end

def get (members : List (List UInt8 × Json)) (key : String) : Option Json :=
  members.lookup (ascii key)

/-- A null field is an absent one. -/
def present : Option Json → Option Json
  | some .null => none
  | value => value

def text (value : Option Json) : Option (List UInt8) := (present value).map canonical

def appendField (key : String) (value : Option Json) : List UInt8 :=
  (text value).elim [] fun text => ascii key ++ 0 :: text ++ [0]

def messageKeys : List String :=
  ["role", "name", "content", "reasoning_content", "reasoning", "tool_calls", "function_call",
    "tool_call_id"]

def appendMessage (message : List (List UInt8 × Json)) : List UInt8 :=
  ascii "message" ++ 0 :: messageKeys.flatMap fun key => appendField key (get message key)

def requestKeys : List String :=
  ["chat_template_kwargs", "enable_thinking", "preserve_thinking", "mm_processor_kwargs",
    "add_generation_prompt", "continue_final_message", "tools", "functions", "tool_choice",
    "function_call", "parallel_tool_calls", "reasoning_effort", "thinking", "response_format"]

def leads : Json → Bool
  | .object message => match get message "role" with
    | some (.string role) => role = ascii "system" || role = ascii "developer"
    | _ => false
  | _ => false

def append : Json → List UInt8
  | .object message => appendMessage message
  | _ => []

def systemMessage (system : Json) : List (List UInt8 × Json) :=
  [(ascii "role", .string (ascii "system")), (ascii "content", system)]

def prompt (object : List (List UInt8 × Json)) (messages : List Json) : List UInt8 :=
  let system := (present (get object "system")).elim [] fun system =>
    appendMessage (systemMessage system)
  system ++ (messages.takeWhile leads).flatMap append ++
    requestKeys.flatMap (fun key => appendField key (get object key)) ++
    (messages.dropWhile leads).flatMap append

def canonicalPrompt (body : List UInt8) (object : Option (List (List UInt8 × Json)))
    (maxBytes : Nat) : List UInt8 :=
  match object with
  | none => body.take maxBytes
  | some object =>
    match get object "messages" with
    | none | some .null =>
      if (present (get object "system")).isNone then body.take maxBytes
      else (prompt object []).take maxBytes
    | some (.array messages) => (prompt object messages).take maxBytes
    | some _ => body.take maxBytes

def link (previous : UInt64) (chunk : List UInt8) : UInt64 :=
  let bytes := (range 8).map fun i => (previous >>> (8 * i).toUInt64).toUInt8
  (bytes ++ chunk).foldl (fun hash byte => (hash ^^^ byte.toUInt64) * 0x100000001b3)
    0xcbf29ce484222325

def chain (previous : UInt64) : List (List UInt8) → List UInt64
  | [] => []
  | chunk :: rest => link previous chunk :: chain (link previous chunk) rest

def chainFingerprints (prompt : List UInt8) (chunkBytes : Nat) : List UInt64 :=
  if prompt.isEmpty || chunkBytes = 0 then [] else chain 0 (chunks chunkBytes prompt)

variable {object object' : List (List UInt8 × Json)} {messages : List Json}

theorem chunks_go {size fuel : Nat} {p : List UInt8} (hs : 0 < size) (hp : size ≤ p.length)
    (hf : p.length ≤ fuel) :
    chunks.go size fuel p = p.take size :: chunks.go size (fuel - 1) (p.drop size) := by
  obtain ⟨fuel, rfl⟩ : ∃ k, fuel = k + 1 := ⟨fuel - 1, by omega⟩
  have hn : p ≠ [] := by
    rintro rfl
    exact absurd hs (Nat.not_lt.2 hp)
  rw [chunks.go, if_neg (by simpa using hn), Nat.add_sub_cancel]

theorem chain_append {size i fuel fuel' : Nat} {p t : List UInt8} {previous : UInt64}
    (hs : 0 < size) (hf : p.length ≤ fuel) (hf' : (p ++ t).length ≤ fuel')
    (hi : (i + 1) * size ≤ p.length) : (chain previous (chunks.go size fuel p))[i]? =
      (chain previous (chunks.go size fuel' (p ++ t)))[i]? := by
  induction i generalizing fuel fuel' p previous with
  | zero =>
    rw [chunks_go hs (by omega) hf, chunks_go hs (by simp; omega) hf',
      take_append_of_le_length (by omega)]
    rfl
  | succ i ih =>
    rw [Nat.add_mul, Nat.one_mul] at hi
    have he : size ≤ p.length := (Nat.le_add_left _ _).trans hi
    have hl : (p ++ t).length = p.length + t.length := length_append
    rw [chunks_go hs he hf, @chunks_go size fuel' (p ++ t) hs (by omega) hf',
      take_append_of_le_length he, drop_append_of_le_length he]
    apply ih
    · rw [length_drop]
      omega
    · rw [length_append, length_drop]
      omega
    · rw [length_drop]
      omega

theorem appendMessage_system {system system' : Json}
    (h : text (some system) = text (some system')) :
    appendMessage (systemMessage system) = appendMessage (systemMessage system') := by
  have hg : ∀ key, text (get (systemMessage system) key) =
      text (get (systemMessage system') key) := by
    intro key
    simp only [get, systemMessage, lookup]
    split
    · rfl
    split
    · exact h
    · rfl
  simp only [appendMessage, appendField, hg]

theorem present_of_eq_some {value : Option Json} {json : Json} (h : present value = some json) :
    value = some json := by
  unfold present at h
  split at h
  · cases h
  · exact h

theorem prompt_extends (hu : ∃ message ∈ messages, leads message = false)
    (hf : ∀ key ∈ "system" :: requestKeys, text (get object key) = text (get object' key))
    (more : List Json) : prompt object messages <+: prompt object' (messages ++ more) := by
  obtain ⟨message, hm, hn⟩ := hu
  have he : (messages.takeWhile leads).length ≠ messages.length := by
    intro hl
    have ha := ( takeWhile_prefix leads).eq_of_length hl
    rw [takeWhile_eq_self_iff.1 ha message hm] at hn
    cases hn
  have hd : ¬ (messages.dropWhile leads).isEmpty := by
    rw [List.isEmpty_iff, List.dropWhile_eq_nil_iff]
    intro ha
    rw [ha message hm] at hn
    cases hn
  have hy : ((present (get object "system")).elim [] fun s => appendMessage (systemMessage s)) =
      (present (get object' "system")).elim [] fun s => appendMessage (systemMessage s) := by
    have ht := hf _ mem_cons_self
    unfold text at ht
    rcases hs : present (get object "system") with _ | s <;>
      rcases hs' : present (get object' "system") with _ | s' <;> rw [hs, hs'] at ht
    · cases ht
    · cases ht
    · refine appendMessage_system ?_
      rw [← present_of_eq_some hs, ← present_of_eq_some hs', text, text, hs, hs']
      exact ht
  have hr : requestKeys.flatMap (fun key => appendField key (get object key)) =
      requestKeys.flatMap fun key => appendField key (get object' key) := by
    refine flatMap_congr fun key hk => ?_
    rw [appendField, appendField, hf key (mem_cons_of_mem _ hk)]
  refine ⟨more.flatMap append, ?_⟩
  simp only [prompt, hy, hr, takeWhile_append, if_neg he, dropWhile_append,
    if_neg hd, flatMap_append, append_assoc]

/-- In a longer conversation every fingerprint of a complete chunk stays where it is. -/
theorem fingerprints_stable (body body' : List UInt8) (more : List Json)
    (hm : get object "messages" = some (.array messages))
    (hm' : get object' "messages" = some (.array (messages ++ more)))
    (hturn : ∃ message ∈ messages, leads message = false)
    (hfields : ∀ key ∈ "system" :: requestKeys, text (get object key) = text (get object' key))
    (chunkBytes maxBytes i : Nat) (fingerprint : UInt64)
    (hcomplete : (i + 1) * chunkBytes ≤ (canonicalPrompt body (some object) maxBytes).length)
    (h : (chainFingerprints (canonicalPrompt body (some object) maxBytes) chunkBytes)[i]? =
      some fingerprint) :
    (chainFingerprints (canonicalPrompt body' (some object') maxBytes) chunkBytes)[i]? =
      some fingerprint := by
  simp only [canonicalPrompt, hm, hm'] at hcomplete h ⊢
  obtain ⟨t, ht⟩ := (prompt_extends hturn hfields more).take maxBytes
  rw [← ht]
  unfold chainFingerprints at h ⊢
  split at h
  · cases h
  rename_i hn
  simp only [Bool.or_eq_true, decide_eq_true_eq, not_or] at hn
  have hn' : ¬ ((prompt object messages).take maxBytes ++ t).isEmpty := fun he =>
    hn.1 (isEmpty_iff.2 (append_eq_nil_iff.1 (isEmpty_iff.1 he)).1)
  rw [if_neg (by simpa only [Bool.or_eq_true, decide_eq_true_eq, not_or] using ⟨hn', hn.2⟩), ← h]
  exact (chain_append (Nat.pos_of_ne_zero hn.2) le_rfl le_rfl hcomplete).symm

/-- A system message, a field of the request, and turns without any field. -/
def chat (turns : Nat) : List (List UInt8 × Json) :=
  [(ascii "thinking", .bool true), (ascii "messages", .array
    (.object [(ascii "role", .string (ascii "system"))] :: replicate turns (.object [])))]

theorem fingerprints_stable_chat : ∃ fingerprint,
    (chainFingerprints (canonicalPrompt [] (some (chat 1)) 64) 11)[3]? = some fingerprint ∧
      (chainFingerprints (canonicalPrompt [] (some (chat 2)) 64) 11)[3]? = some fingerprint := by
  have hu : (chainFingerprints (canonicalPrompt [] (some (chat 1)) 64) 11)[3]?.isSome := by
    decide +kernel
  obtain ⟨fingerprint, h⟩ := Option.isSome_iff_exists.1 hu
  refine ⟨fingerprint, h, fingerprints_stable [] [] [.object []] rfl rfl
    ⟨.object [], ?_, rfl⟩ (by decide +kernel) 11 64 3 fingerprint (by decide +kernel) h⟩
  exact mem_cons_of_mem _ (mem_singleton.2 rfl)

end Json
end Ramjet
