import Ramjet.DigestSimulation
import Ramjet.SnapshotIndex

/-!
# Batches against the compact index

`snapshot_digest_delta.rs`: one batch of engine events applied to a digest index, whole
or not at all. Decoding at the adapter's limits is a parameter.
-/

namespace Ramjet

def groupMatches (eventGroup : Option UInt32) (selectedGroup : UInt32) : Bool :=
  eventGroup = some selectedGroup || (selectedGroup = 0 && eventGroup.isNone)

def localGpu (medium locality : Option String) : Bool :=
  medium.all (· = "GPU") && locality.all (· = "LOCAL")

def isMainAttention (value : String) : Bool :=
  value = "full_attention" || value = "mla_attention" || value = "sink_full_attention"

structure DigestDeltaSummary where
  storedBlocks : Nat
  removedBlocks : Nat
  filteredEvents : Nat
  clearEvents : Nat
  deriving DecidableEq

inductive SnapshotDigestDeltaError where
  | decode (error : DecodeError)
  | index (error : DigestIndexError)
  deriving DecidableEq

structure SnapshotDigestDeltaAdapter where
  group : SnapshotGroupKey
  decodeBatch : List UInt8 → Except DecodeError KvEventBatch

namespace SnapshotDigestDeltaAdapter
variable (adapter : SnapshotDigestDeltaAdapter) (rank : UInt32)

def acceptStore (event : BlockStored) : Bool :=
  rank = adapter.group.dataParallelRank && groupMatches event.groupIdx adapter.group.groupIdx &&
    localGpu event.medium event.locality &&
    event.kvCacheSpecKind.all isMainAttention &&
    event.loraName.isNone &&
    event.cacheNamespace.isNone &&
    !event.hasExtraKeys

def acceptRemove (event : BlockRemoved) : Bool :=
  rank = adapter.group.dataParallelRank && groupMatches event.groupIdx adapter.group.groupIdx &&
    localGpu event.medium event.locality

def applyEvent (index : DigestKvIndex) (summary : DigestDeltaSummary) :
    KvEvent → Except DigestIndexError DigestDeltaSummary × DigestKvIndex
  | .blockStored stored =>
    let filtered := { summary with filteredEvents := saturatingAdd summary.filteredEvents 1 }
    if adapter.acceptStore rank stored then
      match index.store stored with
      | (.ok blocks, index) =>
        (.ok { summary with storedBlocks := saturatingAdd summary.storedBlocks blocks }, index)
      -- a store under an absent parent is filtered, not fatal
      | (.error .parentNotFound, index) => (.ok filtered, index)
      | (.error error, index) => (.error error, index)
    else (.ok filtered, index)
  | .blockRemoved removed =>
    if adapter.acceptRemove rank removed then
      (.ok { summary with
        removedBlocks := saturatingAdd summary.removedBlocks (index.remove removed).1 },
        (index.remove removed).2)
    else
      (.ok { summary with filteredEvents := saturatingAdd summary.filteredEvents 1 }, index)
  | .allBlocksCleared =>
    if rank = adapter.group.dataParallelRank then
      (.ok { summary with clearEvents := saturatingAdd summary.clearEvents 1 }, index.clear)
    else
      (.ok { summary with filteredEvents := saturatingAdd summary.filteredEvents 1 }, index)

def applyEvents (rank : UInt32) (index : DigestKvIndex) (summary : DigestDeltaSummary) :
    List KvEvent → Except SnapshotDigestDeltaError DigestDeltaSummary × DigestKvIndex
  | [] => (.ok summary, index)
  | event :: rest =>
    match adapter.applyEvent rank index summary event with
    | (.ok summary, index) => applyEvents rank index summary rest
    | (.error error, index) => (.error (.index error), index.clear)

variable (index : DigestKvIndex)

def applyBatch (batch : KvEventBatch) :
    Except SnapshotDigestDeltaError DigestDeltaSummary × DigestKvIndex :=
  adapter.applyEvents (batch.dataParallelRank.getD 0) index ⟨0, 0, 0, 0⟩ batch.events

variable (payload : List UInt8)

def apply :
    Except SnapshotDigestDeltaError DigestDeltaSummary × DigestKvIndex :=
  match adapter.decodeBatch payload with
  | .error error => (.error (.decode error), index.clear)
  | .ok batch => adapter.applyBatch index batch

/-- The callback handed to the bootstrap actor. -/
def applyPayload : Option DigestKvIndex :=
  match adapter.apply index payload with
  | (.ok _, index) => some index
  | (.error _, _) => none

end SnapshotDigestDeltaAdapter
end Ramjet
