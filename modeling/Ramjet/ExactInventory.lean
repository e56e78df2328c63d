import Ramjet.ExactIndex

/-!
# Exact inventory

An exact index behind the tier and group filters of `exact_index.rs`. Which removals pass
depends on the group kinds learned so far.
-/

namespace Ramjet

inductive FilterReason where
  | nonLocal | unsupportedMedium | namespaced | nonMainAttention | unknownAttentionKind
  | unlearnedAttentionGroup | unsupportedPartialBlock | orphanedParent
  deriving DecidableEq

namespace FilterReason

def all : List FilterReason :=
  [nonLocal, unsupportedMedium, namespaced, nonMainAttention, unknownAttentionKind,
    unlearnedAttentionGroup, unsupportedPartialBlock, orphanedParent]

def index : FilterReason → Nat
  | nonLocal => 0
  | unsupportedMedium => 1
  | namespaced => 2
  | nonMainAttention => 3
  | unknownAttentionKind => 4
  | unlearnedAttentionGroup => 5
  | unsupportedPartialBlock => 6
  | orphanedParent => 7

end FilterReason

/-- One count for each reason, in the order of `FilterReason.all`. -/
structure FilterCounts where
  counts : List Nat
  deriving DecidableEq

namespace FilterCounts

def zero : FilterCounts := ⟨FilterReason.all.map fun _ => 0⟩

def increment (self : FilterCounts) (reason : FilterReason) : FilterCounts :=
  ⟨self.counts.modify reason.index (saturatingAdd · 1)⟩

def merge (self other : FilterCounts) : FilterCounts :=
  ⟨self.counts.zipWith saturatingAdd other.counts⟩

end FilterCounts

structure BatchApplySummary where
  storedBlocks : Nat
  removedBlocks : Nat
  filteredEvents : Nat
  clearEvents : Nat
  filteredReasons : FilterCounts
  deriving DecidableEq

def BatchApplySummary.zero : BatchApplySummary := ⟨0, 0, 0, 0, .zero⟩

def mergeSummary (total next : BatchApplySummary) : BatchApplySummary where
  storedBlocks := total.storedBlocks + next.storedBlocks
  removedBlocks := total.removedBlocks + next.removedBlocks
  filteredEvents := total.filteredEvents + next.filteredEvents
  clearEvents := total.clearEvents + next.clearEvents
  filteredReasons := total.filteredReasons.merge next.filteredReasons

inductive ApplyOutcome where
  | stored (blocks : Nat)
  | removed (blocks : Nat)
  | cleared
  | filtered (reason : FilterReason)

def BatchApplySummary.count (summary : BatchApplySummary) : ApplyOutcome → BatchApplySummary
  | .stored blocks => { summary with storedBlocks := summary.storedBlocks + blocks }
  | .removed blocks => { summary with removedBlocks := summary.removedBlocks + blocks }
  | .cleared => { summary with clearEvents := summary.clearEvents + 1 }
  | .filtered reason =>
    { summary with
      filteredEvents := summary.filteredEvents + 1
      filteredReasons := summary.filteredReasons.increment reason }

inductive AttentionKind where
  | main | nonMain | unknown
  deriving DecidableEq

def AttentionKind.fromWire (value : String) : AttentionKind :=
  if value ∈ ["full_attention", "mla_attention", "sink_full_attention"] then .main
  else if value ∈ ["sliding_window", "sliding_window_mla", "mamba", "chunked_local_attention",
      "encoder_only_attention", "cross_attention"] then .nonMain
  else .unknown

/-- A data-parallel rank and a cache group. -/
abbrev GroupKey := UInt32 × UInt32

def commonFilter (medium locality : Option String) (groupIdx : Option UInt32)
    (explicitKind : Option String) (rank : UInt32) (groups : HashMap GroupKey AttentionKind) :
    Option FilterReason :=
  if locality.any (· ≠ "LOCAL") then some .nonLocal
  else if medium.any (· ≠ "GPU") then some .unsupportedMedium
  else
    match (explicitKind.map AttentionKind.fromWire).or
      (groupIdx.bind fun group => groups.lookup (rank, group)) with
    | some .main => none
    | some .nonMain => some .nonMainAttention
    | some .unknown => some .unknownAttentionKind
    | none => if groupIdx = none ∨ groupIdx = some 0 then none else some .unlearnedAttentionGroup

def filterStore (event : BlockStored) (rank : UInt32) (groups : HashMap GroupKey AttentionKind) :
    Option FilterReason :=
  (commonFilter event.medium event.locality event.groupIdx event.kvCacheSpecKind rank groups).or
    (if event.loraName.isSome || event.cacheNamespace.isSome || event.hasExtraKeys then
      some .namespaced
    else none)

def filterRemove (event : BlockRemoved) (rank : UInt32)
    (groups : HashMap GroupKey AttentionKind) : Option FilterReason :=
  commonFilter event.medium event.locality event.groupIdx none rank groups

/-- The cache groups observed, by what is known of them. -/
structure ExactCacheGroupCoverage where
  mainGroups : Nat
  nonMainGroups : Nat
  unknownGroups : Nat
  unlearnedGroups : Nat

def ExactCacheGroupCoverage.placementReady (self : ExactCacheGroupCoverage) : Bool :=
  let taggedGroups := saturatingAdd (saturatingAdd (saturatingAdd self.mainGroups
    self.nonMainGroups) self.unknownGroups) self.unlearnedGroups
  taggedGroups = 0 || 0 < self.mainGroups && self.unknownGroups = 0 && self.unlearnedGroups = 0

structure ExactKvInventory where
  index : ExactKvIndex
  groupKinds : HashMap GroupKey AttentionKind
  unlearnedGroups : Finset GroupKey
  groupBlockSizes : HashMap GroupKey Nat

namespace ExactKvInventory

def new (limits : ExactIndexLimits) : ExactKvInventory where
  index := .new limits
  groupKinds := ∅
  unlearnedGroups := ∅
  groupBlockSizes := ∅

def clear (self : ExactKvInventory) : ExactKvInventory := { self with index := self.index.clear }

def groupCoverage (self : ExactKvInventory) : ExactCacheGroupCoverage :=
  let kinds := self.groupKinds.entries.map (·.2)
  ⟨kinds.count .main, kinds.count .nonMain, kinds.count .unknown, self.unlearnedGroups.card⟩

def resetGeneration (self : ExactKvInventory) : ExactKvInventory where
  index := self.index.clear
  groupKinds := ∅
  unlearnedGroups := ∅
  groupBlockSizes := ∅

def ensureGroupCapacity (self : ExactKvInventory) (key : GroupKey) : Except ExactIndexError Unit :=
  if self.groupKinds.lookup key = none ∧ key ∉ self.unlearnedGroups ∧
      self.index.limits.maxNodes ≤ self.groupKinds.entries.length + self.unlearnedGroups.card then
    .error .capacityExceeded
  else .ok ()

def observeUnlearnedGroup (self : ExactKvInventory) (rank : UInt32) (group : Option UInt32) :
    Except ExactIndexError ExactKvInventory :=
  match group with
  | none => .ok self
  | some group =>
    if (self.groupKinds.lookup (rank, group)).isSome ∨ (rank, group) ∈ self.unlearnedGroups then
      .ok self
    else
      match self.ensureGroupCapacity (rank, group) with
      | .error error => .error error
      | .ok () => .ok { self with unlearnedGroups := insert (rank, group) self.unlearnedGroups }

/-- The writes of `learn_group` once its checks have passed. -/
def recordGroup (self : ExactKvInventory) (key : GroupKey) (observed : AttentionKind)
    (stored : BlockStored) : ExactKvInventory :=
  { self with
    groupKinds := self.groupKinds.insert key observed
    unlearnedGroups := self.unlearnedGroups.erase key
    groupBlockSizes :=
      if stored.parentBlockHash = none then
        self.groupBlockSizes.insert key
          ((self.groupBlockSizes.lookup key).elim stored.blockSize (max · stored.blockSize))
      else self.groupBlockSizes }

def learnGroup (self : ExactKvInventory) (rank : UInt32) (stored : BlockStored) :
    Except ExactIndexError ExactKvInventory :=
  match stored.groupIdx with
  | none => .ok self
  | some group =>
    match stored.kvCacheSpecKind with
    | none => self.observeUnlearnedGroup rank (some group)
    | some kind =>
      let observed := AttentionKind.fromWire kind
      match self.groupKinds.lookup (rank, group) with
      | some existing =>
        if existing ≠ observed then .error .conflictingGroupKind
        else .ok (self.recordGroup (rank, group) observed stored)
      | none =>
        match self.ensureGroupCapacity (rank, group) with
        | .error error => .error error
        | .ok () => .ok (self.recordGroup (rank, group) observed stored)

def isUnsupportedPartial (self : ExactKvInventory) (rank : UInt32) (stored : BlockStored) : Bool :=
  stored.groupIdx.any fun group =>
    (self.groupBlockSizes.lookup (rank, group)).any (stored.blockSize < ·)

def applyEvent (self : ExactKvInventory) (rank : UInt32) :
    KvEvent → Except ExactIndexError ApplyOutcome × ExactKvInventory
  | .blockStored stored =>
    match self.learnGroup rank stored with
    | .error error => (.error error, self)
    | .ok self =>
      match filterStore stored rank self.groupKinds with
      | some reason => (.ok (.filtered reason), self)
      | none =>
        match self.index.store stored with
        | (.ok blocks, index) => (.ok (.stored blocks), { self with index })
        | (.error .parentNotFound, index) =>
          let self := { self with index }
          (.ok (.filtered (if self.isUnsupportedPartial rank stored then .unsupportedPartialBlock
            else .orphanedParent)), self)
        | (.error error, index) => (.error error, { self with index })
  | .blockRemoved removed =>
    match self.observeUnlearnedGroup rank removed.groupIdx with
    | .error error => (.error error, self)
    | .ok self =>
      match filterRemove removed rank self.groupKinds with
      | some reason => (.ok (.filtered reason), self)
      | none =>
        let (blocks, index) := self.index.remove removed
        (.ok (.removed blocks), { self with index })
  | .allBlocksCleared => (.ok .cleared, { self with index := self.index.clear })

/-- The loop of `apply_batch`, from a summary so far. -/
def applyEvents (self : ExactKvInventory) (rank : UInt32) (summary : BatchApplySummary) :
    List KvEvent → Except ExactIndexError BatchApplySummary × ExactKvInventory
  | [] => (.ok summary, self)
  | event :: rest =>
    match self.applyEvent rank event with
    | (.error error, self) => (.error error, self)
    | (.ok outcome, self) => self.applyEvents rank (summary.count outcome) rest

def applyBatch (self : ExactKvInventory) (batch : KvEventBatch) :
    Except ExactIndexError BatchApplySummary × ExactKvInventory :=
  self.applyEvents batch.rank .zero batch.events

variable {rank : UInt32} {self self' : ExactKvInventory}

theorem index_observeUnlearnedGroup {group : Option UInt32}
    (h : self.observeUnlearnedGroup rank group = .ok self') : self'.index = self.index := by
  unfold observeUnlearnedGroup at h
  repeat' split at h
  all_goals cases h
  all_goals rfl

theorem index_learnGroup {stored : BlockStored}
    (h : self.learnGroup rank stored = .ok self') : self'.index = self.index := by
  simp only [learnGroup] at h
  split at h
  · cases h
    rfl
  split at h
  · exact index_observeUnlearnedGroup h
  repeat' split at h
  all_goals cases h
  all_goals rfl

@[simp] theorem limits_applyEvent (self : ExactKvInventory) (rank : UInt32) (event : KvEvent) :
    (self.applyEvent rank event).2.index.limits = self.index.limits := by
  cases event with
  | blockStored stored =>
    simp only [applyEvent]
    split
    · rfl
    rename_i learned hl
    rw [← index_learnGroup hl]
    have hs := ExactKvIndex.limits_store learned.index stored
    split
    · rfl
    · split <;> rename_i h <;> rw [h] at hs <;> exact hs
  | blockRemoved removed =>
    simp only [applyEvent]
    split
    · rfl
    rename_i observed ho
    rw [← index_observeUnlearnedGroup ho]
    split
    · rfl
    · exact ExactKvIndex.limits_removeHashes _ _
  | allBlocksCleared => rfl

@[simp] theorem limits_applyEvents (self : ExactKvInventory) (rank : UInt32)
    (summary : BatchApplySummary) (events : List KvEvent) :
    (self.applyEvents rank summary events).2.index.limits = self.index.limits := by
  induction events generalizing self summary with
  | nil => rfl
  | cons event rest ih =>
    have hs := limits_applyEvent self rank event
    rw [applyEvents]
    split <;> rename_i h <;> rw [h] at hs
    · exact hs
    · rw [ih]
      exact hs

@[simp] theorem limits_applyBatch (self : ExactKvInventory) (batch : KvEventBatch) :
    (self.applyBatch batch).2.index.limits = self.index.limits :=
  limits_applyEvents _ _ _ _

def findLongest (self : ExactKvInventory) (tokenIds : List UInt32) :
    Except ExactIndexError ExactMatch :=
  self.index.findLongest tokenIds

end ExactKvInventory
end Ramjet
