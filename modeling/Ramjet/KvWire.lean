import Mathlib

/-!
# KV events

The decoded events of one engine (`kv_wire.rs`) and fixed-width sequence arithmetic.
-/

namespace Ramjet

/-- The largest value of a 64-bit counter. -/
def u64Max : Nat := 2 ^ 64 - 1

variable (a b : Nat)

def divCeil : Nat := (a + b - 1) / b

def saturatingAdd : Nat := min (a + b) u64Max

def wrappingAdd : Nat := (a + b) % 2 ^ 64

theorem saturatingAdd_of_lt {a b : Nat} (h : a + b ≤ u64Max) : saturatingAdd a b = a + b :=
  Nat.min_eq_left h

inductive ExternalBlockHash where
  | bytes (value : List UInt8)
  | signed (value : Int64)
  | unsigned (value : UInt64)
  deriving DecidableEq

structure BlockStored where
  blockHashes : List ExternalBlockHash
  parentBlockHash : Option ExternalBlockHash
  tokenIds : List UInt32
  blockSize : Nat
  groupIdx : Option UInt32
  kvCacheSpecKind : Option String
  medium : Option String
  locality : Option String
  loraName : Option String
  cacheNamespace : Option String
  hasExtraKeys : Bool
  deriving DecidableEq

def storeTokens (tokenIds : List UInt32) (hashes : List UInt64) : BlockStored where
  blockHashes := hashes.map .unsigned
  parentBlockHash := none
  tokenIds
  blockSize := 1
  groupIdx := none
  kvCacheSpecKind := none
  medium := some "GPU"
  locality := none
  loraName := none
  cacheNamespace := none
  hasExtraKeys := false

structure BlockRemoved where
  blockHashes : List ExternalBlockHash
  groupIdx : Option UInt32
  medium : Option String
  locality : Option String
  deriving DecidableEq

def removal (hashes : List UInt64) : BlockRemoved where
  blockHashes := hashes.map .unsigned
  groupIdx := none
  medium := some "GPU"
  locality := none

inductive KvEvent where
  | blockStored (stored : BlockStored)
  | blockRemoved (removed : BlockRemoved)
  | allBlocksCleared
  deriving DecidableEq

structure KvEventBatch where
  events : List KvEvent
  dataParallelRank : Option UInt32
  deriving DecidableEq

inductive DecodeError where
  | payloadTooLarge | invalidMessagePack | invalidTimestamp | invalidDataParallelRank
  | tooManyEvents | tooManyBlockHashes | tooManyTokenIds | invalidBlockHash | invalidBlockSize
  | inconsistentBlockShape | invalidGroupIndex
  deriving DecidableEq

namespace KvEventBatch
variable (batch : KvEventBatch)

def clearsAll : Bool := batch.events.any (· = .allBlocksCleared)

/-- The rank the inventory files the batch's groups under. -/
def rank : UInt32 := batch.dataParallelRank.getD 0

theorem clearsAll_iff {batch : KvEventBatch} :
    batch.clearsAll ↔ KvEvent.allBlocksCleared ∈ batch.events := by
  simp [clearsAll]

end KvEventBatch
end Ramjet
