import Ramjet.FencedInventory

/-!
# Inventories that saw the same events

A clear keeps the learned cache groups. On the events of one engine an inventory that has
seen a clear and one that starts after it still keep the same index.
-/

namespace Ramjet
open ExactKvInventory Finset

def sinceClear (events : List KvEvent) : List KvEvent :=
  events.foldl (fun tail event => if event = .allBlocksCleared then [] else tail ++ [event]) []

theorem sinceClear_append_singleton (events : List KvEvent) (event : KvEvent) :
    sinceClear (events ++ [event]) =
      if event = .allBlocksCleared then [] else sinceClear events ++ [event] := by
  simp [sinceClear]

namespace ExactKvInventory

def groups (self : ExactKvInventory) : Finset GroupKey :=
  self.groupKinds.keys.toFinset ∪ self.unlearnedGroups

variable {self : ExactKvInventory} {key : GroupKey}

theorem mem_groups :
    key ∈ self.groups ↔ (self.groupKinds.lookup key).isSome ∨ key ∈ self.unlearnedGroups := by
  simp [groups, AList.lookup_isSome, AList.mem_keys]

def groupCount (self : ExactKvInventory) : Nat :=
  self.groupKinds.entries.length + self.unlearnedGroups.card

theorem card_keys (self : ExactKvInventory) :
    self.groupKinds.keys.toFinset.card = self.groupKinds.entries.length := by
  rw [List.toFinset_card_of_nodup self.groupKinds.keys_nodup]
  simp [AList.keys, List.keys]

theorem card_groups_le (self : ExactKvInventory) : self.groups.card ≤ self.groupCount := by
  have h := card_union_le self.groupKinds.keys.toFinset self.unlearnedGroups
  rwa [card_keys] at h

theorem card_groups (self : ExactKvInventory)
    (h : ∀ key ∈ self.unlearnedGroups, self.groupKinds.lookup key = none) :
    self.groups.card = self.groupCount := by
  have hd : Disjoint self.groupKinds.keys.toFinset self.unlearnedGroups := by
    rw [disjoint_right]
    intro key hk hm
    rw [List.mem_toFinset, ← AList.mem_keys, ← AList.lookup_isSome, h key hk] at hm
    cases hm
  rw [groups, card_union_of_disjoint hd, card_keys, groupCount]

theorem ensureGroupCapacity_ok : self.ensureGroupCapacity key = .ok () ↔
      key ∈ self.groups ∨ self.groupCount < self.index.limits.maxNodes := by
  rw [mem_groups, ensureGroupCapacity, groupCount]
  cases hk : self.groupKinds.lookup key <;> by_cases hu : key ∈ self.unlearnedGroups <;>
    simp [hu]

/-- Within its limits: what every inventory keeps, clear or no clear. -/
structure Sane (limits : ExactIndexLimits) (inventory : ExactKvInventory) : Prop where
  limits_eq : inventory.index.limits = limits
  bounded : inventory.groupCount ≤ limits.maxNodes

structure Covers (act ref : ExactKvInventory) : Prop where
  index : act.index = ref.index
  kinds : ∀ key kind, ref.groupKinds.lookup key = some kind → act.groupKinds.lookup key = some kind
  groups : ref.groups ⊆ act.groups
  apart : ∀ key ∈ ref.unlearnedGroups, ref.groupKinds.lookup key = none

variable {lim : ExactIndexLimits} {act act' ref : ExactKvInventory} {rank : UInt32}

theorem Covers.ensure (hc : Covers act ref) (hs : Sane lim act)
    (h : key ∈ act.groups ∨ act.groupCount < act.index.limits.maxNodes) :
    ref.ensureGroupCapacity key = .ok () := by
  rw [ensureGroupCapacity_ok]
  by_cases hk : key ∈ ref.groups
  · exact .inl hk
  refine .inr ?_
  rw [← card_groups ref hc.apart, ← hc.index]
  have hl := card_groups_le act
  rcases h with h | h
  · have ht := Finset.card_lt_card (Finset.ssubset_iff_subset_ne.2 ⟨hc.groups, fun e => hk (e ▸ h)⟩)
    have hb := hs.bounded
    rw [hs.limits_eq]
    omega
  · have := card_le_card hc.groups
    omega

variable {self' : ExactKvInventory}

theorem observeUnlearnedGroup_ok {group : UInt32} :
    self.observeUnlearnedGroup rank (some group) = .ok self' ↔
      (rank, group) ∈ self.groups ∧ self' = self ∨
      (rank, group) ∉ self.groups ∧ self.groupCount < self.index.limits.maxNodes ∧
        self' = { self with unlearnedGroups := insert (rank, group) self.unlearnedGroups } := by
  simp only [observeUnlearnedGroup, ← mem_groups]
  by_cases hk : (rank, group) ∈ self.groups
  · simp [hk, eq_comm]
  rcases hc : self.ensureGroupCapacity (rank, group) with error | ⟨⟩
  · have hf : ¬ self.groupCount < self.index.limits.maxNodes := by
      intro hl
      rw [ensureGroupCapacity_ok.2 (.inr hl)] at hc
      cases hc
    simp [hk, hf]
  · have hr := (ensureGroupCapacity_ok.1 hc).resolve_left hk
    simp [hk, hr, eq_comm]

variable {stored : BlockStored}

theorem learnGroup_ok {group : UInt32} {kind : String} (hg : stored.groupIdx = some group)
    (hi : stored.kvCacheSpecKind = some kind) : self.learnGroup rank stored = .ok self' ↔
      (self.groupKinds.lookup (rank, group) = some (.fromWire kind) ∨
        self.groupKinds.lookup (rank, group) = none ∧
          self.ensureGroupCapacity (rank, group) = .ok ()) ∧
      self' = self.recordGroup (rank, group) (.fromWire kind) stored := by
  simp only [learnGroup, hg, hi]
  rcases hk : self.groupKinds.lookup (rank, group) with _ | existing
  · rcases hc : self.ensureGroupCapacity (rank, group) with error | ⟨⟩ <;> simp [eq_comm]
  · by_cases he : existing = .fromWire kind <;> simp [he, eq_comm]

@[simp] theorem mem_groups_recordGroup {key' : GroupKey} {observed : AttentionKind} :
    key' ∈ (self.recordGroup key observed stored).groups ↔ key' = key ∨ key' ∈ self.groups := by
  simp only [mem_groups, recordGroup, AList.lookup_insert_eq, mem_erase]
  by_cases h : key' = key <;> simp [h]

theorem groupCount_recordGroup_le (observed : AttentionKind) (stored : BlockStored) {bound : Nat}
    (hb : self.groupCount ≤ bound) (h : key ∈ self.groups ∨ self.groupCount < bound) :
    (self.recordGroup key observed stored).groupCount ≤ bound := by
  have he : (self.groupKinds.insert key observed).keys.toFinset =
      insert key self.groupKinds.keys.toFinset := by
    ext key'
    rw [mem_insert, List.mem_toFinset, List.mem_toFinset, ← AList.mem_keys,
      ← AList.mem_keys, AList.mem_insert]
  have hlen := card_keys (self.recordGroup key observed stored)
  simp only [recordGroup, he] at hlen
  simp only [groupCount, recordGroup] at hb h ⊢
  rw [← hlen, ← card_keys] at *
  by_cases hk : key ∈ self.groupKinds.keys.toFinset
  · have := card_erase_le (s := self.unlearnedGroups) (a := key)
    rw [insert_eq_of_mem hk]
    omega
  rw [card_insert_of_notMem hk]
  by_cases hu : key ∈ self.unlearnedGroups
  · have := card_erase_add_one hu
    omega
  rw [erase_eq_of_notMem hu]
  have hn : key ∉ self.groups := by simp [groups, hk, hu]
  have := h.resolve_left hn
  omega

theorem Covers.recordGroup (hc : Covers act ref) (key : GroupKey) (observed : AttentionKind)
    (stored : BlockStored) :
    Covers (act.recordGroup key observed stored) (ref.recordGroup key observed stored) where
  index := hc.index
  kinds key' kind h := by
    simp only [ExactKvInventory.recordGroup, AList.lookup_insert_eq] at h ⊢
    by_cases he : key' = key
    · simpa [he] using h
    · simp only [he, if_false] at h ⊢
      exact hc.kinds key' kind h
  groups key' h := by
    rw [mem_groups_recordGroup] at h ⊢
    exact h.imp_right fun h => hc.groups h
  apart key' h := by
    simp only [ExactKvInventory.recordGroup, mem_erase] at h
    simp only [ExactKvInventory.recordGroup, AList.lookup_insert_eq, if_neg h.1]
    exact hc.apart key' h.2

theorem applyEvents_append {summary summary' : BatchApplySummary} {events : List KvEvent}
    (later : List KvEvent) (h : self.applyEvents rank summary events = (.ok summary', self')) :
    self.applyEvents rank summary (events ++ later) = self'.applyEvents rank summary' later := by
  induction events generalizing self summary with
  | nil =>
    cases h
    rfl
  | cons event rest ih =>
    rw [applyEvents] at h
    rw [List.cons_append, applyEvents]
    rcases hsp : self.applyEvent rank event with ⟨error | out, next⟩
    · rw [hsp] at h
      cases h
    · rw [hsp] at h
      exact ih h

theorem sane_observe (hs : Sane lim act) {group : Option UInt32}
    (h : act.observeUnlearnedGroup rank group = .ok act') : Sane lim act' := by
  cases group with
  | none =>
    cases h
    exact hs
  | some group =>
    rcases observeUnlearnedGroup_ok.1 h with ⟨-, rfl⟩ | ⟨hk, hr, rfl⟩
    · exact hs
    refine ⟨hs.limits_eq, ?_⟩
    have hc := card_insert_le (rank, group) act.unlearnedGroups
    rw [hs.limits_eq] at hr
    simp only [groupCount] at hr ⊢
    omega

theorem sane_learnGroup (hs : Sane lim act) (h : act.learnGroup rank stored = .ok act') :
    Sane lim act' := by
  rcases hg : stored.groupIdx with _ | group
  · simp only [learnGroup, hg, Except.ok.injEq] at h
    exact h ▸ hs
  rcases hi : stored.kvCacheSpecKind with _ | kind
  · simp only [learnGroup, hg, hi] at h
    exact sane_observe hs h
  obtain ⟨hr, rfl⟩ := (learnGroup_ok hg hi).1 h
  refine ⟨hs.limits_eq, groupCount_recordGroup_le _ _ hs.bounded ?_⟩
  rcases hr with hk | ⟨-, hr⟩
  · exact .inl (mem_groups.2 (.inl (by simp [hk])))
  · rw [← hs.limits_eq]
    exact ensureGroupCapacity_ok.1 hr

theorem sane_applyEvent (hs : Sane lim act) {event : KvEvent} {out : ApplyOutcome}
    (h : act.applyEvent rank event = (.ok out, act')) : Sane lim act' := by
  cases event with
  | blockStored stored =>
    simp only [applyEvent] at h
    rcases hl : act.learnGroup rank stored with error | learned
    · simp [hl] at h
    have hs' := sane_learnGroup hs hl
    rw [hl] at h
    simp only at h
    split at h
    · cases h
      exact hs'
    have hm := ExactKvIndex.limits_store learned.index stored
    split at h <;> rename_i ht <;> rw [ht] at hm <;> cases h <;>
      exact ⟨hm.trans hs'.limits_eq, hs'.bounded⟩
  | blockRemoved removed =>
    simp only [applyEvent] at h
    rcases ho : act.observeUnlearnedGroup rank removed.groupIdx with error | observed
    · simp [ho] at h
    have hs' := sane_observe hs ho
    rw [ho] at h
    simp only at h
    split at h
    · cases h
      exact hs'
    · cases h
      exact ⟨(ExactKvIndex.limits_removeHashes _ _).trans hs'.limits_eq, hs'.bounded⟩
  | allBlocksCleared =>
    cases h
    exact ⟨hs.limits_eq, hs.bounded⟩

theorem Covers.observe (hc : Covers act ref) (hs : Sane lim act) {group : Option UInt32}
    (h : act.observeUnlearnedGroup rank group = .ok act') :
    ∃ ref', ref.observeUnlearnedGroup rank group = .ok ref' ∧ Covers act' ref' ∧
      ref'.index = ref.index ∧ ref'.groupKinds = ref.groupKinds := by
  cases group with
  | none =>
    cases h
    exact ⟨ref, rfl, hc, rfl, rfl⟩
  | some group =>
    -- the larger inv ends up knowing the group in both cases
    have ha : act'.index = act.index ∧ act'.groupKinds = act.groupKinds ∧
        act.groups ⊆ act'.groups ∧ (rank, group) ∈ act'.groups ∧
        ((rank, group) ∈ act.groups ∨ act.groupCount < act.index.limits.maxNodes) := by
      rcases observeUnlearnedGroup_ok.1 h with ⟨hk, rfl⟩ | ⟨-, hr, rfl⟩
      · exact ⟨rfl, rfl, subset_rfl, hk, .inl hk⟩
      refine ⟨rfl, rfl, ?_, ?_, .inr hr⟩
      · intro key hk
        rw [mem_groups] at hk ⊢
        exact hk.imp_right fun h => mem_insert_of_mem h
      · rw [mem_groups]
        exact .inr (mem_insert_self _ _)
    obtain ⟨hx, hi, hu, hm, hr⟩ := ha
    by_cases hk : (rank, group) ∈ ref.groups
    · refine ⟨ref, observeUnlearnedGroup_ok.2 (.inl ⟨hk, rfl⟩), ?_, rfl, rfl⟩
      exact ⟨hx.trans hc.index, by rw [hi]; exact hc.kinds, hc.groups.trans hu, hc.apart⟩
    have he := (ensureGroupCapacity_ok.1 (hc.ensure hs hr)).resolve_left hk
    refine ⟨_, observeUnlearnedGroup_ok.2 (.inr ⟨hk, he, rfl⟩), ?_, rfl, rfl⟩
    rw [mem_groups, not_or] at hk
    refine ⟨hx.trans hc.index, by rw [hi]; exact hc.kinds, ?_, ?_⟩
    · intro key h
      rw [mem_groups, mem_insert] at h
      rcases h with h | rfl | h
      · exact hu (hc.groups (mem_groups.2 (.inl h)))
      · exact hm
      · exact hu (hc.groups (mem_groups.2 (.inr h)))
    · intro key h
      rcases mem_insert.1 h with rfl | h
      · simpa using hk.1
      · exact hc.apart key h

theorem Covers.learnGroup (hc : Covers act ref) (hs : Sane lim act)
    (ht : stored.groupIdx.isSome → stored.kvCacheSpecKind.isSome)
    (h : act.learnGroup rank stored = .ok act') :
    ∃ ref', ref.learnGroup rank stored = .ok ref' ∧ Covers act' ref' ∧ ref'.index = ref.index ∧
      ∀ group, stored.groupIdx = some group ∨ (ref.groupKinds.lookup (rank, group)).isSome →
        (ref'.groupKinds.lookup (rank, group)).isSome := by
  rcases hg : stored.groupIdx with _ | group
  · simp only [ExactKvInventory.learnGroup, hg, Except.ok.injEq] at h ⊢
    subst h
    exact ⟨ref, rfl, hc, rfl, by simp⟩
  obtain ⟨kind, hi⟩ := Option.isSome_iff_exists.1 (ht (by simp [hg]))
  obtain ⟨hr, rfl⟩ := (learnGroup_ok hg hi).1 h
  refine ⟨_, (learnGroup_ok hg hi).2 ⟨?_, rfl⟩, hc.recordGroup _ _ _, rfl, ?_⟩
  · rcases hk : ref.groupKinds.lookup (rank, group) with _ | existing
    · refine .inr ⟨rfl, hc.ensure hs ?_⟩
      rcases hr with hr | ⟨-, hr⟩
      · exact .inl (mem_groups.2 (.inl (by simp [hr])))
      · exact ensureGroupCapacity_ok.1 hr
    · have ha := hc.kinds _ _ hk
      rcases hr with hr | ⟨hr, -⟩
      · exact .inl (ha.symm.trans hr)
      · rw [hr] at ha
        cases ha
  · intro group' h
    simp only [ExactKvInventory.recordGroup, AList.lookup_insert_eq, Prod.mk.injEq, true_and]
    by_cases he : group' = group
    · simp [he]
    · simp only [he, if_false]
      exact h.resolve_left fun e => he (Option.some.inj e).symm

end ExactKvInventory

/-- The batches one engine publishes, with their sequence numbers.  A hash is
removed under the group index it was stored under, an absent index counting as
one.  That every group has one kind is not needed. -/
structure EngineLog where
  batches : List (Nat × KvEventBatch)
  rank : UInt32
  increasing : batches.Pairwise fun a b => a.1 < b.1
  below_max : ∀ batch ∈ batches, batch.1 < u64Max
  one_rank : ∀ batch ∈ batches, batch.2.rank = rank
  tagged : ∀ batch ∈ batches, ∀ stored, .blockStored stored ∈ batch.2.events →
    stored.groupIdx.isSome → stored.kvCacheSpecKind.isSome
  one_group : ∀ batch ∈ batches, ∀ stored, .blockStored stored ∈ batch.2.events →
    ∀ batch' ∈ batches, ∀ removed, .blockRemoved removed ∈ batch'.2.events →
    ∀ hash ∈ stored.blockHashes, hash ∈ removed.blockHashes → removed.groupIdx.isSome →
      stored.groupIdx = removed.groupIdx

namespace EngineLog
variable (log : EngineLog)

def Has (event : KvEvent) : Prop := ∃ batch ∈ log.batches, event ∈ batch.2.events

def before (sequence : Nat) : List KvEvent :=
  (log.batches.filter (·.1 < sequence)).flatMap (·.2.events)

/-- The batches of an inclusive sequence interval. -/
def range (start through : Nat) : List (Nat × KvEventBatch) :=
  log.batches.filter fun batch => start ≤ batch.1 ∧ batch.1 ≤ through

variable {stored : BlockStored} {removed : BlockRemoved}

theorem one_group_of_has {log : EngineLog} {hash : ExternalBlockHash} {group : UInt32}
    (hs : log.Has (.blockStored stored)) (hr : log.Has (.blockRemoved removed))
    (ht : hash ∈ stored.blockHashes) (he : hash ∈ removed.blockHashes)
    (hg : removed.groupIdx = some group) : stored.groupIdx = some group := by
  obtain ⟨batch, hb, hs⟩ := hs
  obtain ⟨batch', hb', hr⟩ := hr
  rw [← hg]
  exact log.one_group batch hb stored hs batch' hb' removed hr hash ht he (by simp [hg])

def Learned (inventory : ExactKvInventory) : Prop :=
  ∀ hash ∈ inventory.index.byExternalHash, ∃ stored, log.Has (.blockStored stored) ∧
    hash ∈ stored.blockHashes ∧
    ∀ group, stored.groupIdx = some group → (inventory.groupKinds.lookup (log.rank, group)).isSome

def Tracks (limits : ExactIndexLimits) (act : ExactKvInventory) (events : List KvEvent) : Prop :=
  ∃ summary ref, (new limits).applyEvents log.rank .zero (sinceClear events) =
    (.ok summary, ref) ∧ act.Covers ref ∧ log.Learned ref

variable {log} {lim : ExactIndexLimits} {act act' ref : ExactKvInventory}

theorem filterStore_congr {rank : UInt32}
    (ht : stored.groupIdx.isSome → stored.kvCacheSpecKind.isSome)
    (kinds kinds' : HashMap GroupKey AttentionKind) :
    filterStore stored rank kinds = filterStore stored rank kinds' := by
  rcases hg : stored.groupIdx with _ | group
  · simp [filterStore, commonFilter, hg]
  · obtain ⟨kind, hk⟩ := Option.isSome_iff_exists.1 (ht (by simp [hg]))
    simp [filterStore, commonFilter, hk]

theorem filterRemove_congr {rank : UInt32} {kinds kinds' : HashMap GroupKey AttentionKind}
    (h : ∀ group, removed.groupIdx = some group →
      kinds.lookup (rank, group) = kinds'.lookup (rank, group)) :
    filterRemove removed rank kinds = filterRemove removed rank kinds' := by
  rcases hg : removed.groupIdx with _ | group
  · simp [filterRemove, commonFilter, hg]
  · simp [filterRemove, commonFilter, hg, h group hg]

variable {out : ApplyOutcome}

theorem agree_stored (hc : act.Covers ref) (hs : act.Sane lim) (hl : log.Learned ref)
    (hv : log.Has (.blockStored stored))
    (h : act.applyEvent log.rank (.blockStored stored) = (.ok out, act')) :
    ∃ out' ref', ref.applyEvent log.rank (.blockStored stored) = (.ok out', ref') ∧
      act'.Covers ref' ∧ log.Learned ref' := by
  have ht : stored.groupIdx.isSome → stored.kvCacheSpecKind.isSome := by
    obtain ⟨batch, hb, he⟩ := hv
    exact log.tagged batch hb stored he
  simp only [applyEvent] at h ⊢
  rcases hr : act.learnGroup log.rank stored with error | act₁
  · simp [hr] at h
  obtain ⟨ref₁, hf, hc₁, hx, hk⟩ := hc.learnGroup hs ht hr
  have hl₁ : log.Learned ref₁ := by
    intro hash hh
    rw [hx] at hh
    obtain ⟨st, ha, hm, hp⟩ := hl hash hh
    exact ⟨st, ha, hm, fun group hg => hk group (.inr (hp group hg))⟩
  rw [hr] at h
  rw [hf]
  simp only at h ⊢
  rw [filterStore_congr ht _ ref₁.groupKinds, hc₁.index] at h
  split at h
  · cases h
    exact ⟨_, _, rfl, hc₁, hl₁⟩
  -- the same store on the same index
  have hm : ∀ hash ∈ (ref₁.index.store stored).2.byExternalHash, ∃ st,
      log.Has (.blockStored st) ∧ hash ∈ st.blockHashes ∧ ∀ group, st.groupIdx = some group →
        (ref₁.groupKinds.lookup (log.rank, group)).isSome := by
    intro hash hh
    rcases ExactKvIndex.mem_store hh with hh | hh
    · exact hl₁ hash hh
    · exact ⟨stored, hv, hh, fun group hg => hk group (.inl hg)⟩
  split at h <;> rename_i ha <;> rw [ha] at hm <;> cases h <;>
    exact ⟨_, _, rfl, ⟨rfl, hc₁.kinds, hc₁.groups, hc₁.apart⟩, hm⟩

theorem agree_removed (hc : act.Covers ref) (hs : act.Sane lim) (hl : log.Learned ref)
    (hv : log.Has (.blockRemoved removed))
    (h : act.applyEvent log.rank (.blockRemoved removed) = (.ok out, act')) :
    ∃ out' ref', ref.applyEvent log.rank (.blockRemoved removed) = (.ok out', ref') ∧
      act'.Covers ref' ∧ log.Learned ref' := by
  simp only [applyEvent] at h ⊢
  rcases hb : act.observeUnlearnedGroup log.rank removed.groupIdx with error | act₁
  · simp [hb] at h
  obtain ⟨ref₁, hr, hc₁, hx, hi⟩ := hc.observe hs hb
  have hl₁ : log.Learned ref₁ := by
    intro hash hh
    rw [hx] at hh
    rw [hi]
    exact hl hash hh
  have hl₂ : log.Learned { ref₁ with index := (ref₁.index.remove removed).2 } :=
    fun hash hh => hl₁ hash (ExactKvIndex.mem_removeHashes hh)
  rw [hb] at h
  rw [hr]
  simp only at h ⊢
  by_cases hd : ∀ group, removed.groupIdx = some group →
      (ref₁.groupKinds.lookup (log.rank, group)).isSome
  · -- both know the group, so both filter alike
    have hj : filterRemove removed log.rank act₁.groupKinds =
        filterRemove removed log.rank ref₁.groupKinds := by
      refine filterRemove_congr fun group he => ?_
      obtain ⟨kind, hk⟩ := Option.isSome_iff_exists.1 (hd group he)
      rw [hc₁.kinds _ _ hk, hk]
    rw [hj, hc₁.index] at h
    split at h
    · cases h
      exact ⟨_, _, rfl, hc₁, hl₁⟩
    · cases h
      exact ⟨_, _, rfl, ⟨rfl, hc₁.kinds, hc₁.groups, hc₁.apart⟩, hl₂⟩
  · -- nothing was stored under the group since the clear, so the removal finds nothing
    simp only [not_forall] at hd
    obtain ⟨group, he, hn⟩ := hd
    have hf : ∀ hash ∈ removed.blockHashes, hash ∉ ref₁.index.byExternalHash := by
      intro hash hm hp
      obtain ⟨st, hq, ht, hg⟩ := hl₁ hash hp
      exact hn (hg group (one_group_of_has hq hv ht hm he))
    have ho : ref₁.index.remove removed = (0, ref₁.index) :=
      ExactKvIndex.removeHashes_of_absent hf
    have ha : act' = act₁ := by
      rw [hc₁.index, ho] at h
      simp only [← hc₁.index] at h
      split at h <;> cases h <;> rfl
    subst ha
    split
    · exact ⟨_, _, rfl, hc₁, hl₁⟩
    · rw [ho]
      exact ⟨_, _, rfl, hc₁, hl₁⟩

variable {events : List KvEvent}

theorem tracks_of_empty (log : EngineLog) {act : ExactKvInventory}
    (hx : act.index = .new lim) (he : sinceClear events = []) : log.Tracks lim act events := by
  refine ⟨.zero, .new lim, by rw [he]; rfl, ⟨hx, ?_, ?_, ?_⟩, ?_⟩
  · simp [new]
  · intro key hk
    simp [mem_groups, new] at hk
  · simp [new]
  · intro hash hh
    simp [new, ExactKvIndex.new] at hh

theorem tracks_applyEvent {event : KvEvent} (hs : act.Sane lim)
    (ht : log.Tracks lim act events ∨ event = .allBlocksCleared) (he : log.Has event)
    (h : act.applyEvent log.rank event = (.ok out, act')) :
    log.Tracks lim act' (events ++ [event]) := by
  cases event with
  | allBlocksCleared =>
    cases h
    refine tracks_of_empty log ?_ (by rw [sinceClear_append_singleton]; rfl)
    rw [← hs.limits_eq]
    rfl
  | blockStored stored =>
    obtain ⟨summary, ref, hr, hc, hl⟩ := ht.resolve_right (by simp)
    obtain ⟨out', ref', hsp, hc', hl'⟩ := agree_stored hc hs hl he h
    refine ⟨summary.count out', ref', ?_, hc', hl'⟩
    rw [sinceClear_append_singleton, if_neg (by simp), applyEvents_append _ hr, applyEvents, hsp]
    rfl
  | blockRemoved removed =>
    obtain ⟨summary, ref, hr, hc, hl⟩ := ht.resolve_right (by simp)
    obtain ⟨out', ref', hsp, hc', hl'⟩ := agree_removed hc hs hl he h
    refine ⟨summary.count out', ref', ?_, hc', hl'⟩
    rw [sinceClear_append_singleton, if_neg (by simp), applyEvents_append _ hr, applyEvents, hsp]
    rfl

theorem tracks_applyEvents {past : List KvEvent} {summary summary' : BatchApplySummary}
    (hs : act.Sane lim) (hv : ∀ event ∈ events, log.Has event)
    (h : act.applyEvents log.rank summary events = (.ok summary', act')) :
    act'.Sane lim ∧ (log.Tracks lim act past ∨ KvEvent.allBlocksCleared ∈ events →
      log.Tracks lim act' (past ++ events)) := by
  induction events generalizing act summary past with
  | nil =>
    cases h
    exact ⟨hs, by simp⟩
  | cons event rest ih =>
    rw [applyEvents] at h
    rcases hsp : act.applyEvent log.rank event with ⟨error | out, next⟩
    · rw [hsp] at h
      cases h
    rw [hsp] at h
    simp only [List.forall_mem_cons] at hv
    have hs' := sane_applyEvent hs hsp
    rw [List.append_cons]
    refine ⟨(@ih _ past _ hs' hv.2 h).1, fun ht => (ih hs' hv.2 h).2 ?_⟩
    rcases ht with ht | ht
    · exact .inl (tracks_applyEvent hs (.inl ht) hv.1 hsp)
    rcases List.mem_cons.1 ht with he | ht
    · exact .inl (tracks_applyEvent hs (.inr he.symm) hv.1 hsp)
    · exact .inr ht

end EngineLog
end Ramjet
