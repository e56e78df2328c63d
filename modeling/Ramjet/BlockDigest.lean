import Mathlib

/-!
# Block commitments

Keyed commitments to token blocks (`block_digest.rs`), over any SHA-256.
-/

namespace Ramjet

/-- A fixed-size byte array. -/
abbrev Bytes (n : Nat) := List.Vector UInt8 n

namespace Bytes

/-- The first bytes of a longer array. -/
def first {n m : Nat} (bytes : Bytes (n + m)) : Bytes n :=
  ⟨bytes.toList.take n, by simp⟩

def last {n m : Nat} (bytes : Bytes (n + m)) : Bytes m :=
  ⟨bytes.toList.drop n, by simp⟩

/-- The array as it is printed. -/
def ofHex {n : Nat} (value : Nat) : Bytes n :=
  .ofFn fun i => .ofNat (value >>> (8 * (n - 1 - i)))

end Bytes

/-- A byte string literal of the source. -/
def asciiBytes (text : String) : List UInt8 := text.toList.map fun c => UInt8.ofNat c.toNat

/-- `u32::to_le_bytes`. -/
def leBytes (value : UInt32) : List UInt8 :=
  [value.toUInt8, (value >>> 8).toUInt8, (value >>> 16).toUInt8, (value >>> 24).toUInt8]

def keyIdDomain : List UInt8 := asciiBytes "mini-dynamo:block-digest-key-id:v1" ++ [0]

def blockDomain : List UInt8 := asciiBytes "mini-dynamo:block-digest:v1" ++ [0]

def hmacSha256 (sha256 : List UInt8 → Bytes 32) (key message : List UInt8) : Bytes 32 :=
  let normalized := if 64 < key.length then (sha256 key).toList else key
  let normalized := normalized ++ List.replicate (64 - normalized.length) 0
  let innerPad := normalized.map (0x36 ^^^ ·)
  let outerPad := normalized.map (0x5c ^^^ ·)
  sha256 (outerPad ++ (sha256 (innerPad ++ message)).toList)

structure PrimaryCommitment where
  tokenCount : UInt32
  digest : Bytes 16
  deriving DecidableEq

structure BlockCommitment where
  primary : PrimaryCommitment
  guard : Bytes 16
  deriving DecidableEq

inductive BlockDigestError where
  | invalidSecretLength | tokenCountOverflow
  deriving DecidableEq

structure BlockDigester where
  sha256 : List UInt8 → Bytes 32
  secret : Bytes 32
  keyId : Bytes 32

namespace BlockDigester

def new (sha256 : List UInt8 → Bytes 32) (secret : Bytes 32) : BlockDigester where
  sha256
  secret
  keyId := sha256 (keyIdDomain ++ secret.toList)

def commit (self : BlockDigester) (tokenIds : List UInt32) :
    Except BlockDigestError BlockCommitment :=
  if tokenIds.length < 2 ^ 32 then
    let tokenCount := UInt32.ofNat tokenIds.length
    let digest := hmacSha256 self.sha256 self.secret.toList
      (blockDomain ++ leBytes tokenCount ++ tokenIds.flatMap leBytes)
    .ok ⟨⟨tokenCount, Bytes.first (n := 16) (m := 16) digest⟩,
      Bytes.last (n := 16) (m := 16) digest⟩
  else .error .tokenCountOverflow

theorem commit_ok_iff (self : BlockDigester) (tokenIds : List UInt32) :
    (∃ commitment, self.commit tokenIds = .ok commitment) ↔ tokenIds.length < 2 ^ 32 := by
  unfold commit
  split <;> simp_all

theorem tokenCount_of_commit {self : BlockDigester} {tokenIds : List UInt32}
    {commitment : BlockCommitment} (h : self.commit tokenIds = .ok commitment) :
    commitment.primary.tokenCount.toNat = tokenIds.length := by
  unfold commit at h
  split at h
  next hl =>
    cases h
    exact UInt32.toNat_ofNat_of_lt hl
  · cases h

end BlockDigester

/-- SHA-256 at the inner message of the sample key for the block of one token
`1`, `2` or `3`, by that token. -/
def sampleInner : Nat → Bytes 32
  | 1 => .ofHex 0x5b31d154d17dfc5e48fc47de6111cc679a01da15081cfb30d76500e19bdb6b6d
  | 2 => .ofHex 0x2b071df76c41be1cad86d6f0858a4f0dc37fc276a3dcbaa18dccde6f58e761b1
  | _ => .ofHex 0xeacfbe5e32f2f125125a3c0b5c51b282f50552ff4648f1754baaef741de4f4f2

/-- SHA-256 at the outer message, by the same token. -/
def sampleOuter : Nat → Bytes 32
  | 1 => .ofHex 0xe458e248972efa72deece75d996018f61513c00626c13b6b0a8df4977f7344d5
  | 2 => .ofHex 0xf661f43ec8ad6cd35501331f67d34fc3d896ab38a70fe2ef03bf83dec329b240
  | _ => .ofHex 0x2d18f6c5e9e5e2ca72fd3cc4636c30abf67671476140b5906ce95acda0581531

/-- The identity SHA-256 gives the sample key. -/
def sampleKeyId : Bytes 32 :=
  .ofHex 0x9cdad9041a32432136e7cf009f2f95fe1b409ccac6c47d6d3a0d991d8d8a2140

def sampleSha256 (message : List UInt8) : Bytes 32 :=
  if message.length = 100 then sampleInner (message.getD 96 0).toNat
  else if message.length = 96 then
    if message.drop 64 = (sampleInner 1).toList then sampleOuter 1
    else if message.drop 64 = (sampleInner 2).toList then sampleOuter 2
    else sampleOuter 3
  else sampleKeyId

/-- The repository's test secret. -/
def sampleSecret : Bytes 32 := ⟨asciiBytes "0123456789abcdef0123456789abcdef", by decide +kernel⟩

def sampleDigester : BlockDigester := .new sampleSha256 sampleSecret

example : (sampleDigester.commit [1]).toOption.map (·.primary.digest.toList) =
    some ((sampleOuter 1).toList.take 16) := by decide +kernel

/-- Reassemble a commitment from the digest a snapshot record carries. -/
def commitmentFromDigest (tokenCount : UInt32) (digest : Bytes 32) : BlockCommitment :=
  ⟨⟨tokenCount, Bytes.first (n := 16) (m := 16) digest⟩, Bytes.last (n := 16) (m := 16) digest⟩

end Ramjet
