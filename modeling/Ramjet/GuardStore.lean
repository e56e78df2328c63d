import Ramjet.BlockDigest
import Ramjet.Lib.Runs

/-!
# Durable quarantine store

The state file of `dspark_guard_store.rs`. A replacement is written beside it, renamed
and synced; a failure before the rename changes nothing, one after it is unknown.
-/

namespace Ramjet
open Guards Function

inductive DsparkGuardStoreError where
  | invalidPath | unsafeParent | directoryLocked | unsafeFile | readFailed | malformed
  | nonCanonical | unsupportedSchema | capacity | duplicate | invalidReplica | upstreamMismatch
  | recordConflict | sameEngineCore | missingRecord | encodeFailed | publishFailed | commitUncertain
  deriving DecidableEq

inductive StoreMutation where
  | added | unchanged | removed
  deriving DecidableEq

structure QuarantineRecord where
  upstreamSha256 : Bytes 32
  engineCoreSha256 : Bytes 32
  deriving DecidableEq

structure WireRecord where
  replica : Nat
  upstreamSha256 : String
  engineCoreSha256 : String
  deriving DecidableEq

structure WireDocument where
  schemaVersion : Nat
  runtimeDirty : Bool
  quarantines : List WireRecord
  deriving DecidableEq

def schemaVersion : Nat := 1

def maxStateBytes : Nat := 4 * 1024

def maxReplicas : Nat := 64

def hexDigit (value : Nat) : Char :=
  ['0', '1', '2', '3', '4', '5', '6', '7', '8', '9', 'a', 'b', 'c', 'd', 'e', 'f'].getD value '0'

def hexPair (byte : UInt8) : List Char := [hexDigit (byte.toNat / 16), hexDigit (byte.toNat % 16)]

def hex (bytes : Bytes 32) : String := .ofList (bytes.toList.flatMap hexPair)

def nibble (c : Char) : Option Nat :=
  if '0' ≤ c ∧ c ≤ '9' then some (c.toNat - '0'.toNat)
  else if 'a' ≤ c ∧ c ≤ 'f' then some (c.toNat - 'a'.toNat + 10)
  else none

def decodePairs : List Char → Option (List UInt8)
  | high :: low :: rest => do
    let high ← nibble high
    let low ← nibble low
    let rest ← decodePairs rest
    return UInt8.ofNat (high * 16 + low) :: rest
  | _ => some []

def decodeSha256 (value : String) : Except DsparkGuardStoreError (Bytes 32) :=
  if value.toList.length ≠ 64 then .error .malformed
  else
    match decodePairs value.toList with
    | none => .error .malformed
    | some bytes => if h : bytes.length = 32 then .ok ⟨bytes, h⟩ else .error .malformed

/-- The text serde writes for a document. -/
def WireDocument.json (document : WireDocument) : String :=
  "\x7b\"schema_version\":" ++ toString document.schemaVersion ++
    ",\"runtime_dirty\":" ++ (if document.runtimeDirty then "true" else "false") ++
    ",\"quarantines\":[" ++
    ",".intercalate (document.quarantines.map fun record =>
      "\x7b\"replica\":" ++ toString record.replica ++
        ",\"upstream_sha256\":\"" ++ record.upstreamSha256 ++
        "\",\"engine_core_sha256\":\"" ++ record.engineCoreSha256 ++ "\"\x7d") ++
    "]\x7d"

abbrev QuarantineRecords (n : Nat) := Fin n → Option QuarantineRecord

def QuarantineRecord.wire {n : Nat} (replica : Fin n) (record : QuarantineRecord) : WireRecord :=
  ⟨replica, hex record.upstreamSha256, hex record.engineCoreSha256⟩

def encodeDocument {n : Nat} (records : QuarantineRecords n) (runtimeDirty : Bool) :
    WireDocument where
  schemaVersion
  runtimeDirty
  quarantines := (List.finRange n).filterMap fun replica =>
    (records replica).map (·.wire replica)

inductive FileContents where
  | malformed
  | text (document : WireDocument) (canonical : Bool)

section Decode
variable {n : Nat} (upstreams : Fin n → Bytes 32)

def decodeRecord (records : QuarantineRecords n) (wire : WireRecord) :
    Except DsparkGuardStoreError (QuarantineRecords n) := do
  if h : wire.replica < n then
    let upstreamSha256 ← decodeSha256 wire.upstreamSha256
    let engineCoreSha256 ← decodeSha256 wire.engineCoreSha256
    if upstreamSha256 ≠ upstreams ⟨wire.replica, h⟩ then throw .upstreamMismatch
    if (records ⟨wire.replica, h⟩).isSome ∨
        ∃ other, (records other).map (·.engineCoreSha256) = some engineCoreSha256 then
      throw .duplicate
    return update records ⟨wire.replica, h⟩ (some ⟨upstreamSha256, engineCoreSha256⟩)
  else throw .invalidReplica

def decodeDocument (contents : FileContents) :
    Except DsparkGuardStoreError (QuarantineRecords n × Bool) :=
  match contents with
  | .malformed => .error .malformed
  | .text document canonical => do
    if document.schemaVersion ≠ schemaVersion then throw .unsupportedSchema
    if document.quarantines.length > n ∨ document.quarantines.length > maxReplicas then
      throw .capacity
    let records ← document.quarantines.foldlM (decodeRecord upstreams) fun _ => none
    if encodeDocument records document.runtimeDirty ≠ document ∨ !canonical then
      throw .nonCanonical
    return (records, document.runtimeDirty)

end Decode

structure FileIdentity where
  device : Nat
  inode : Nat
  deriving DecidableEq

structure StateFile where
  contents : FileContents
  identity : FileIdentity

structure Disk where
  current : StateFile
  survivors : List StateFile

def Disk.rename (disk : Disk) (file : StateFile) (synced : Bool) : Disk where
  current := file
  survivors := if synced then [file] else file :: disk.survivors

inductive Publication where
  | failed (error : DsparkGuardStoreError)
  | renamed (identity : FileIdentity) (synced inspected : Bool)

structure StoreState (n : Nat) where
  records : QuarantineRecords n
  targetIdentity : FileIdentity
  runtimeDirty : Bool
  uncertainReplicas : Fin n → Bool
  poisonedReplicas : Fin n → Bool

/-- The store of a running process and the disk under it. -/
structure GuardStore (n : Nat) where
  state : StoreState n
  disk : Disk

namespace GuardStore
variable {n : Nat} (store : GuardStore n)

def poison (replica : Fin n) (poisoned : Bool) : GuardStore n :=
  { store with
    state.poisonedReplicas := update store.state.poisonedReplicas replica poisoned }

def setRecords (records : QuarantineRecords n) : GuardStore n :=
  { store with state.records := records }

def publishReplacement (records : QuarantineRecords n) (runtimeDirty : Bool) (io : Publication) :
    GuardStore n × Except DsparkGuardStoreError Unit :=
  let document := encodeDocument records runtimeDirty
  if document.json.utf8ByteSize > maxStateBytes then (store, .error .capacity)
  else if store.disk.current.identity ≠ store.state.targetIdentity then (store, .error .unsafeFile)
  else
    match io with
    | .failed error => (store, .error error)
    | .renamed identity synced inspected =>
      let disk := store.disk.rename ⟨.text document true, identity⟩ synced
      if !inspected then ({ store with disk }, .error .commitUncertain)
      else
        ({ state := { store.state with targetIdentity := identity, runtimeDirty }, disk },
          if synced then .ok () else .error .commitUncertain)

def armRuntime (io : Publication) : GuardStore n × Except DsparkGuardStoreError Unit :=
  if store.state.runtimeDirty then (store, .ok ())
  else store.publishReplacement store.state.records true io

def quarantinedEngineCore (replica : Fin n) : Option (Bytes 32) :=
  (store.state.records replica).map (·.engineCoreSha256)

def requiresUncertainFence (replica : Fin n) : Bool := store.state.uncertainReplicas replica

def poisonRuntime (replica : Fin n) : GuardStore n := store.poison replica true

def drop (io : Publication) : Disk :=
  if (∃ replica, store.state.poisonedReplicas replica) ∨
      (∃ replica, store.state.uncertainReplicas replica) ∨ !store.state.runtimeDirty then
    store.disk
  else (store.publishReplacement store.state.records false io).1.disk

variable (upstreams : Fin n → Bytes 32)

def persistQuarantine (replica : Fin n) (engineCoreSha256 : Bytes 32) (io : Publication) :
    GuardStore n × Except DsparkGuardStoreError StoreMutation :=
  let candidate : QuarantineRecord := ⟨upstreams replica, engineCoreSha256⟩
  match store.state.records replica with
  | some existing =>
    if existing = candidate then (store.poison replica false, .ok .unchanged)
    else (store.poison replica true, .error .recordConflict)
  | none =>
    if ∃ other, (store.state.records other).map (·.engineCoreSha256) = some engineCoreSha256 then
      (store.poison replica true, .error .duplicate)
    else
      let next := update store.state.records replica (some candidate)
      match store.publishReplacement next true io with
      | (store, .error error) => (store.poison replica true, .error error)
      | (store, .ok ()) => ((store.setRecords next).poison replica false, .ok .added)

def persistUncertainFence (replica : Fin n) (engineCoreSha256 : Bytes 32) (io : Publication) :
    GuardStore n × Except DsparkGuardStoreError StoreMutation :=
  match store.persistQuarantine upstreams replica engineCoreSha256 io with
  | (store, .error error) => (store, .error error)
  | (store, .ok mutation) =>
    ({ store with
        state.uncertainReplicas := update store.state.uncertainReplicas replica false },
      .ok mutation)

def persistRearm (replica : Fin n) (quarantinedEngineCore replacementEngineCore : Bytes 32)
    (io : Publication) : GuardStore n × Except DsparkGuardStoreError StoreMutation :=
  if quarantinedEngineCore = replacementEngineCore then (store, .error .sameEngineCore)
  else
    match store.state.records replica with
    | none => (store, .error .missingRecord)
    | some existing =>
      if existing.upstreamSha256 ≠ upstreams replica ∨
          existing.engineCoreSha256 ≠ quarantinedEngineCore then
        (store, .error .recordConflict)
      else
        let next := update store.state.records replica none
        match store.publishReplacement next true io with
        | (store, .error error) => (store.poison replica true, .error error)
        | (store, .ok ()) => ((store.setRecords next).poison replica false, .ok .removed)

end GuardStore

/-- How the checks around the file go before it is decoded. -/
inductive OpenCheck where
  | refused (error : DsparkGuardStoreError)
  | readable

def openGuardStore {n : Nat} (upstreams : Fin n → Bytes 32) (disk : Disk) (check : OpenCheck)
    (arm drop : Publication) : Disk × Except DsparkGuardStoreError (GuardStore n) :=
  if n = 0 ∨ n > maxReplicas then (disk, .error .capacity)
  else
    match check with
    | .refused error => (disk, .error error)
    | .readable =>
      match decodeDocument upstreams disk.current.contents with
      | .error error => (disk, .error error)
      | .ok (records, runtimeDirty) =>
        let store : GuardStore n :=
          { state :=
              { records
                targetIdentity := disk.current.identity
                runtimeDirty
                uncertainReplicas := fun replica => runtimeDirty && (records replica).isNone
                poisonedReplicas := fun _ => false }
            disk }
        match store.armRuntime arm with
        | (store, .error error) => (store.drop drop, .error error)
        | (store, .ok ()) => (store.disk, .ok store)

section Encoding

theorem hexDigit_injective : ∀ a < 16, ∀ b < 16, hexDigit a = hexDigit b → a = b := by
  decide

theorem hexPair_injective {a b : UInt8} (h : hexPair a = hexPair b) : a = b := by
  simp only [hexPair, List.cons.injEq, and_true] at h
  have ha := a.toNat_lt
  have hb := b.toNat_lt
  have hh := hexDigit_injective _ (by omega) _ (by omega) h.1
  have hl := hexDigit_injective _ (by omega) _ (by omega) h.2
  exact UInt8.toNat_inj.1 (by omega)

theorem flatMap_hexPair_injective : ∀ {a b : List UInt8},
    a.flatMap hexPair = b.flatMap hexPair → a = b
  | [], [], _ => rfl
  | [], _ :: _, h => by simp [hexPair] at h
  | _ :: _, [], h => by simp [hexPair] at h
  | x :: a, y :: b, h => by
    simp only [List.flatMap_cons] at h
    have hs := List.append_inj h (by simp [hexPair])
    rw [hexPair_injective hs.1, flatMap_hexPair_injective hs.2]

theorem hex_injective : Injective hex := by
  intro a b h
  have ht := congrArg String.toList h
  simp only [hex, String.toList_ofList] at ht
  exact Subtype.ext (flatMap_hexPair_injective ht)

variable {n : Nat}

theorem QuarantineRecord.wire_injective {i j : Fin n} {a b : QuarantineRecord}
    (h : a.wire i = b.wire j) : i = j ∧ a = b := by
  simp only [QuarantineRecord.wire, WireRecord.mk.injEq] at h
  have hup := hex_injective h.2.1
  have he := hex_injective h.2.2
  cases a
  cases b
  simp only at hup he
  exact ⟨Fin.ext h.1, by rw [hup, he]⟩

variable {records : QuarantineRecords n}

theorem mem_quarantines {dirty : Bool} {wire : WireRecord} :
    wire ∈ (encodeDocument records dirty).quarantines ↔
      ∃ i record, records i = some record ∧ record.wire i = wire := by
  simp [encodeDocument]

theorem record_of_quarantines {a b : QuarantineRecords n} {da db : Bool}
    (h : (encodeDocument a da).quarantines = (encodeDocument b db).quarantines) {i : Fin n}
    {record : QuarantineRecord} (hre : a i = some record) : b i = some record := by
  have hm : record.wire i ∈ (encodeDocument b db).quarantines := by
    rw [← h]
    exact mem_quarantines.2 ⟨i, record, hre, rfl⟩
  obtain ⟨j, other, ho, hw⟩ := mem_quarantines.1 hm
  obtain ⟨rfl, rfl⟩ := QuarantineRecord.wire_injective hw
  exact ho

theorem encodeDocument_injective {a b : QuarantineRecords n} {da db : Bool}
    (h : encodeDocument a da = encodeDocument b db) : a = b ∧ da = db := by
  refine ⟨?_, congrArg WireDocument.runtimeDirty h⟩
  have hl := congrArg WireDocument.quarantines h
  funext i
  rcases ha : a i with - | record
  · rcases hb : b i with - | record
    · rfl
    · rw [record_of_quarantines hl.symm hb] at ha
      cases ha
  · exact (record_of_quarantines hl ha).symm

variable {upstreams : Fin n → Bytes 32}

theorem decodeRecord_upstream {records' : QuarantineRecords n} {wire : WireRecord}
    (h : decodeRecord upstreams records wire = .ok records')
    (hr : ∀ u record, records u = some record → record.upstreamSha256 = upstreams u) :
    ∀ u record, records' u = some record → record.upstreamSha256 = upstreams u := by
  unfold decodeRecord at h
  split at h
  next hl =>
    obtain ⟨upstreamSha256, -, h⟩ := of_bind h
    obtain ⟨engineCoreSha256, -, h⟩ := of_bind h
    obtain ⟨hup, h⟩ := of_guard h
    obtain ⟨-, h⟩ := of_guard h
    cases h
    intro u record hre
    by_cases hu : u = ⟨wire.replica, hl⟩
    · subst hu
      rw [update_self] at hre
      cases hre
      exact not_not.1 hup
    · rw [update_of_ne hu] at hre
      exact hr u record hre
  · cases h

theorem foldlM_decodeRecord_upstream {wires : List WireRecord} {records' : QuarantineRecords n}
    (h : wires.foldlM (decodeRecord upstreams) records = .ok records')
    (hr : ∀ u record, records u = some record → record.upstreamSha256 = upstreams u) :
    ∀ u record, records' u = some record → record.upstreamSha256 = upstreams u := by
  induction wires generalizing records with
  | nil =>
    cases h
    exact hr
  | cons wire rest ih =>
    rw [List.foldlM_cons] at h
    obtain ⟨middle, hm, hs⟩ := of_bind h
    exact ih hs (decodeRecord_upstream hm hr)

/-- A file that opens is one the store could have written. -/
theorem decodeDocument_ok {contents : FileContents} {dirty : Bool}
    (h : decodeDocument upstreams contents = .ok (records, dirty)) :
    contents = .text (encodeDocument records dirty) true ∧
      ∀ u record, records u = some record → record.upstreamSha256 = upstreams u := by
  unfold decodeDocument at h
  split at h
  · cases h
  obtain ⟨-, h⟩ := of_guard h
  obtain ⟨-, h⟩ := of_guard h
  obtain ⟨decoded, hf, h⟩ := of_bind h
  obtain ⟨hcan, h⟩ := of_guard h
  cases h
  rw [not_or, not_not, Bool.not_eq_true', Bool.not_eq_false] at hcan
  rw [hcan.1, hcan.2]
  exact ⟨rfl, foldlM_decodeRecord_upstream hf nofun⟩

end Encoding
end Ramjet
