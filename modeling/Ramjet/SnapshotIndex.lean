import Ramjet.DigestIndex
import Ramjet.KvSnapshot

/-!
# Snapshots of the digest index

Export and import of `digest_index.rs`: written breadth first, read back into a scratch
index.
-/

namespace Ramjet

structure SnapshotGroupKey where
  dataParallelRank : UInt32
  groupIdx : UInt32

def externalHashToSnapshot : ExternalBlockHash → SnapshotBlockHash
  | .bytes value => .bytes value
  | .signed value => .signed value
  | .unsigned value => .unsigned value

def snapshotHash : SnapshotBlockHash → Except DigestIndexError ExternalBlockHash
  | .bytes [] => .error .invalidSnapshotRecord
  | .bytes value => .ok (.bytes value)
  | .signed value => .ok (.signed value)
  | .unsigned value => .ok (.unsigned value)

def ChildEntry.isPoisoned : ChildEntry → Bool
  | unique _ _ => false
  | poisoned _ => true

variable (node : DigestNode)

def childNodes : Except DigestIndexError (List Nat) :=
  if node.children.entries.any (·.2.isPoisoned) then .error .digestCollision
  else .ok (node.children.entries.map (·.2.node))

/-- The children of a node in the order an export queues them. -/
def sortedChildren : Except DigestIndexError (List Nat) :=
  (childNodes node).map (·.insertionSort (· ≤ ·))

namespace DigestKvIndex

structure ExportState where
  records : List DigestRecord
  recordForNode : Nat → Option Nat
  prefixForNode : Nat → Nat

def ExportState.new : ExportState := ⟨[], fun _ => none, fun _ => 0⟩

variable (index : DigestKvIndex)

def exportNode (state : ExportState) (parentId nodeId : Nat) :
    Except DigestIndexError (ExportState × List Nat) :=
  let node := index.node nodeId
  match node.block with
  | none => .error .invalidSnapshotRecord
  | some primary =>
    match (index.node parentId).children.lookup primary with
    | some (.unique guard child) =>
      let prefixTokenIds := state.prefixForNode parentId + primary.tokenCount.toNat
      if child ≠ nodeId then .error .invalidSnapshotRecord
      else if u64Max < prefixTokenIds then .error .capacityExceeded
      else if 2 ^ 32 ≤ state.records.length then .error .capacityExceeded
      else
        match node.externalHash with
        | none => .error .invalidSnapshotRecord
        | some externalHash =>
          let record : DigestRecord :=
            { groupSlot := 0
              parentRecord := if parentId = rootNode then none else state.recordForNode parentId
              externalHash := externalHashToSnapshot externalHash
              blockDigest := primary.digest.toList ++ guard.toList
              blockTokenIds := primary.tokenCount
              prefixTokenIds
              present := node.present }
          (sortedChildren node).map fun children =>
            ({ records := state.records ++ [record]
               recordForNode := Function.update state.recordForNode nodeId
                 (some state.records.length)
               prefixForNode := Function.update state.prefixForNode nodeId prefixTokenIds },
              children)
    | _ => .error .invalidSnapshotRecord

def exportLoop (index : DigestKvIndex) (cancelled : Nat → Bool) :
    Nat → List (Nat × Nat) → ExportState → Except DigestIndexError (List DigestRecord)
  | _, [], state => .ok state.records
  | 0, _ :: _, _ => .error .invalidSnapshotRecord
  | fuel + 1, (parentId, nodeId) :: queue, state =>
    if cancelled (1 + state.records.length) then .error .cancelled
    else
      match index.exportNode state parentId nodeId with
      | .error error => .error error
      | .ok (state, children) =>
        index.exportLoop cancelled fuel (queue ++ children.map (nodeId, ·)) state

def exportSnapshotWithCancel (engineIncarnation : EngineIncarnation)
    (watermark : Nat) (group : GroupMetadata) (cancelled : Nat → Bool) :
    Except DigestIndexError SnapshotBody :=
  if cancelled 0 then .error .cancelled
  else if index.poisonedEdges ≠ 0 then .error .digestCollision
  else
    match sortedChildren (index.node rootNode) with
    | .error error => .error error
    | .ok roots =>
      match index.exportLoop cancelled index.arena.slots.length (roots.map (rootNode, ·)) .new with
      | .error error => .error error
      | .ok records =>
        if records.length ≠ index.liveNodes then .error .invalidSnapshotRecord
        else
          let body : SnapshotBody :=
            { engineIncarnation
              watermark
              resetScope := .fullEngine
              digest :=
                { algorithm := .hmacSha256V1
                  keyId := index.digester.keyId.toList
                  digestBytes := 32 }
              capacity := ⟨0, 0, 0, 0⟩
              groups := [group]
              records }
          match body.refreshCapacity with
          | .error _ => .error .capacityExceeded
          | .ok body => .ok body

def insertSnapshotChild (parentId : Nat) (commitment : BlockCommitment)
    (externalHash : ExternalBlockHash) (present : Bool) :
    Except DigestIndexError (Nat × DigestKvIndex) :=
  if (index.byExternalHash.lookup externalHash).isSome then .error .duplicateHash
  else
    match (index.node parentId).children.lookup commitment.primary with
    | some _ => .error .digestCollision
    | none =>
      let logicalTokenIds := commitment.primary.tokenCount.toNat
      if !index.hasCapacity 1 logicalTokenIds (externalHashLen externalHash) then
        .error .capacityExceeded
      else
        let (nodeId, index) := index.insertChild parentId commitment externalHash logicalTokenIds
        .ok (nodeId,
          { index with
            arena := index.arena.modify nodeId fun node => { node with present }
            byExternalHash :=
              if present then index.byExternalHash.insert externalHash nodeId
              else index.byExternalHash })

structure ImportState where
  scratch : DigestKvIndex
  recordNodes : List (Option Nat)
  externalHashes : List ExternalBlockHash
  imported : Nat

def ImportState.new (limits : DigestIndexLimits) (digester : BlockDigester) : ImportState :=
  ⟨.new limits digester, [], [], 0⟩

/-- The node a record hangs from, among those of the earlier records. -/
def ImportState.parentId (state : ImportState) : Option Nat → Except DigestIndexError Nat
  | none => .ok rootNode
  | some parent =>
    match state.recordNodes[parent]? with
    | some (some node) => .ok node
    | _ => .error .invalidSnapshotRecord

variable (groupSlot : Nat)

def importRecord (state : ImportState) (record : DigestRecord) :
    Except DigestIndexError ImportState :=
  if record.groupSlot ≠ groupSlot then
    .ok { state with recordNodes := state.recordNodes ++ [none] }
  else do
    let parentId ← state.parentId record.parentRecord
    if record.blockTokenIds = 0 then throw .invalidSnapshotRecord
    if h : record.blockDigest.length = 32 then
      let externalHash ← snapshotHash record.externalHash
      if !state.scratch.validExternalHash externalHash then throw .capacityExceeded
      if externalHash ∈ state.externalHashes then throw .duplicateHash
      let commitment := commitmentFromDigest record.blockTokenIds ⟨record.blockDigest, h⟩
      let (nodeId, scratch) ←
        state.scratch.insertSnapshotChild parentId commitment externalHash record.present
      return { scratch
               recordNodes := state.recordNodes ++ [some nodeId]
               externalHashes := externalHash :: state.externalHashes
               imported := state.imported + 1 }
    else throw .invalidSnapshotRecord

def importRecords (groupSlot : Nat) (cancelled : Nat → Bool) :
    ImportState → List DigestRecord → Except DigestIndexError ImportState
  | state, [] => .ok state
  | state, record :: rest =>
    if cancelled state.recordNodes.length then .error .cancelled
    else
      match importRecord groupSlot state record with
      | .error error => .error error
      | .ok state => importRecords groupSlot cancelled state rest

def importSnapshot (body : SnapshotBody) (group : SnapshotGroupKey)
    (cancelled : Nat → Bool) : Except DigestIndexError ImportState :=
  if body.digest.algorithm ≠ .hmacSha256V1 ∨ body.digest.digestBytes ≠ 32 ∨
      index.digester.keyId.toList ≠ body.digest.keyId then
    .error .snapshotDigestMismatch
  else if body.resetScope ≠ .fullEngine then .error .invalidSnapshotScope
  else if index.limits.maxNodes < body.records.length then .error .capacityExceeded
  else
    match body.groups.zipIdx.filter fun candidate => candidate.1.disposition = .indexed with
    | [(onlyGroup, groupSlot)] =>
      if onlyGroup.dataParallelRank ≠ group.dataParallelRank ∨
          onlyGroup.groupIdx ≠ group.groupIdx then
        .error .snapshotGroupNotFound
      else importRecords groupSlot cancelled (.new index.limits index.digester) body.records
    | _ => .error .unsupportedSnapshotGroups

def replaceFromSnapshotWithCancel (body : SnapshotBody)
    (group : SnapshotGroupKey) (cancelled : Nat → Bool) :
    Except DigestIndexError Nat × DigestKvIndex :=
  match index.importSnapshot body group cancelled with
  | .error error => (.error error, index)
  | .ok state => (.ok state.imported, state.scratch)

def replaceFromSnapshot (body : SnapshotBody) (group : SnapshotGroupKey) :
    Except DigestIndexError Nat × DigestKvIndex :=
  index.replaceFromSnapshotWithCancel body group fun _ => false

end DigestKvIndex
end Ramjet
