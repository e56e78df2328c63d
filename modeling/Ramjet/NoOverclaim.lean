import Ramjet.HeldPaths
import Ramjet.ExactInventory

/-!
# The compact stream against the exact inventory

An exact inventory and a digest index behind its adapter read the same batches through
different filters. Where these agree, the inventory holds each hash of the digest index
at the same blocks.
-/

namespace Ramjet
open ExactKvInventory List DigestKvIndex Prod

/-- No two blocks of `S` have the same commitment. -/
def Distinguishes (digester : BlockDigester) (S : Set (List UInt32)) : Prop :=
  ∀ block ∈ S, ∀ block' ∈ S, ∀ c, digester.commit block = .ok c → digester.commit block' = .ok c →
    block = block'

/-! ## Edges of an index that nothing poisons -/

namespace DigestKvIndex
variable {index : DigestKvIndex}

/-- The digester is the same, and no edge was poisoned in between. -/
structure Unpoisoned (index index' : DigestKvIndex) : Prop where
  digester : index'.digester = index.digester
  edges : index'.poisonedEdges = index.poisonedEdges

theorem unpoisoned_insertPath (index : DigestKvIndex) (cursor : Nat)
    (items : List ((BlockCommitment × ExternalBlockHash) × Nat)) :
    index.Unpoisoned (index.insertPath cursor items).2 := by
  induction items generalizing index cursor with
  | nil => exact ⟨rfl, rfl⟩
  | cons item rest ih =>
    obtain ⟨⟨commitment, ext⟩, length⟩ := item
    rw [insertPath_cons]
    split
    · exact ⟨(ih _ _).digester, (ih _ _).edges⟩
    · exact ⟨rfl, rfl⟩
    · exact ⟨(ih _ _).digester, (ih _ _).edges⟩

theorem unpoisoned_store {event : BlockStored} {blocks : Nat} {index' : DigestKvIndex}
    (h : index.store event = (.ok blocks, index')) : index.Unpoisoned index' := by
  unfold store at h
  split at h
  · cases h
  · cases h
  · simp only [Prod.mk.injEq] at h
    obtain ⟨-, rfl⟩ := h
    exact unpoisoned_insertPath _ _ _

theorem unpoisoned_pruneFrom (index : DigestKvIndex) (fuel id : Nat) :
    index.Unpoisoned (index.pruneFrom fuel id) := by
  induction fuel generalizing index id with
  | zero => exact ⟨rfl, rfl⟩
  | succ fuel ih =>
    rw [pruneFrom_succ]
    split
    · exact ⟨rfl, rfl⟩
    split
    · exact ⟨rfl, rfl⟩
    split
    · split
      · exact ⟨rfl, rfl⟩
      · exact ⟨(ih _ _).digester, (ih _ _).edges⟩
    · exact ⟨rfl, rfl⟩

theorem unpoisoned_removeHash (index : DigestKvIndex) (hash : ExternalBlockHash) :
    index.Unpoisoned (index.removeHash hash).2 := by
  simp only [removeHash]
  split
  · exact ⟨rfl, rfl⟩
  split
  · exact ⟨rfl, rfl⟩
  · exact ⟨(unpoisoned_pruneFrom _ _ _).digester, (unpoisoned_pruneFrom _ _ _).edges⟩

theorem unpoisoned_removeHashes (index : DigestKvIndex) (hashes : List ExternalBlockHash) :
    index.Unpoisoned (index.removeHashes hashes).2 := by
  induction hashes generalizing index with
  | nil => exact ⟨rfl, rfl⟩
  | cons hash rest ih =>
    have hf := index.unpoisoned_removeHash hash
    have hr := ih (index.removeHash hash).2
    exact ⟨hr.digester.trans hf.digester, hr.edges.trans hf.edges⟩

theorem lookup_children (index : DigestKvIndex) (id : Nat) (key : PrimaryCommitment) :
    (index.node id).children.lookup key = index.entryAt id key := by
  rcases h : index.arena.get? id with _ | node
  · simp [node, entryAt, h, DigestNode.root]
  · simp [DigestKvIndex.node, entryAt, h]

theorem Wf.walk_of_live (h : index.Wf) (hd : index.poisonedEdges = 0) {id : Nat}
    (hl : index.arena.Live id) : ∃ ks, Walk.walk index.childAt rootNode ks = some id := by
  obtain ⟨depth, -, ha⟩ := h.tree.rank
  induction hn : depth id using Nat.strong_induction_on generalizing id with
  | _ n ih =>
    subst hn
    obtain ⟨node, ho⟩ := Slab.live_iff.1 hl
    by_cases hr : id = rootNode
    · exact ⟨[], by rw [hr]; rfl⟩
    obtain ⟨p, key, entry, -, -, he, hi⟩ := h.tree.parent id node ho hr
    have hup := ha p key entry he
    obtain ⟨parent, hp, -⟩ := entryAt_eq_some.1 he
    obtain ⟨ks, hk⟩ := ih (depth p) (by rw [← hi]; omega) (Slab.live_iff.2 ⟨parent, hp⟩) rfl
    rcases entry with ⟨guard, child⟩ | child
    · refine ⟨ks ++ [⟨key, guard⟩], Walk.walk_snoc.2 ⟨p, hk, ?_⟩⟩
      rw [childAt_eq_some, he, ← hi]
      rfl
    · exact absurd he (h.counted hd p key child)

end DigestKvIndex

/-! ## One index covered by the other -/

section Covers
variable {D : BlockDigester} {S : Set (List UInt32)} {e : ExactKvIndex} {d : DigestKvIndex}

theorem Distinguishes.labelled_eq (hi : Distinguishes D S) {path path' : List (List UInt32)}
    {ks : List BlockCommitment} (h : Forall₂ (Labels D S) path ks)
    (h' : Forall₂ (Labels D S) path' ks) : path = path' := by
  induction h generalizing path' with
  | nil =>
    cases h'
    rfl
  | cons hf _ ih =>
    cases h' with
    | cons hf' hr' =>
      rw [hi _ hf.1 _ hf'.1 _ hf.2 hf'.2, ih hr']

structure CoveredBy (digester : BlockDigester) (S : Set (List UInt32)) (e : ExactKvIndex)
    (d : DigestKvIndex) : Prop where
  exact_wf : e.Wf
  digest_wf : d.Wf
  digester_eq : d.digester = digester
  edges : d.poisonedEdges = 0
  held : ∀ hash ks, d.HoldsAt hash ks →
    ∃ path, e.HoldsAt hash path ∧ Forall₂ (Labels digester S) path ks

theorem CoveredBy.new (limits : ExactIndexLimits) (digestLimits : DigestIndexLimits) :
    CoveredBy D S (.new limits) (.new digestLimits D) where
  exact_wf := .new limits
  digest_wf := .new digestLimits D
  digester_eq := rfl
  edges := rfl
  held hash ks := by
    rintro ⟨id, hl, -⟩
    cases hl

theorem CoveredBy.clear (h : CoveredBy D S e d) : CoveredBy D S e.clear d.clear where
  exact_wf := .clear e
  digest_wf := h.digest_wf.clear
  digester_eq := h.digester_eq
  edges := rfl
  held hash ks := by
    rintro ⟨id, hl, -⟩
    cases hl

variable {event : BlockStored} {e' : ExactKvIndex}

section
variable (h : CoveredBy D S e d)
include h

theorem CoveredBy.store_exact {blocks : Nat}
    (hs : e.store event = (.ok blocks, e')) : CoveredBy D S e' d := by
  have hwf := h.exact_wf.store event
  rw [hs] at hwf
  refine ⟨hwf, h.digest_wf, h.digester_eq, h.edges, ?_⟩
  intro hash ks hh
  obtain ⟨path, hp, hl⟩ := h.held hash ks hh
  exact ⟨path, (h.exact_wf.holdsAt_store hs).1.holdsAt hp, hl⟩

theorem CoveredBy.remove_exact {event : BlockRemoved}
    (hg : ∀ hash ∈ event.blockHashes, d.byExternalHash.lookup hash = none) :
    CoveredBy D S (e.remove event).2 d := by
  refine ⟨h.exact_wf.remove event, h.digest_wf, h.digester_eq, h.edges, ?_⟩
  intro hash ks hh
  obtain ⟨path, hp, hl⟩ := h.held hash ks hh
  refine ⟨path, h.exact_wf.holdsAt_removeHashes hp ?_, hl⟩
  intro hm
  obtain ⟨id, hk, -⟩ := hh
  rw [hg hash hm] at hk
  cases hk

theorem CoveredBy.remove (event : BlockRemoved) :
    CoveredBy D S (e.remove event).2 (d.remove event).2 := by
  have hk := d.unpoisoned_removeHashes event.blockHashes
  refine ⟨h.exact_wf.remove event, h.digest_wf.remove event, hk.digester.trans h.digester_eq,
    hk.edges.trans h.edges, ?_⟩
  intro hash ks hh
  obtain ⟨hold, hn⟩ := h.digest_wf.holdsAt_of_removeHashes hh
  obtain ⟨path, hp, hl⟩ := h.held hash ks hold
  exact ⟨path, h.exact_wf.holdsAt_removeHashes hp hn, hl⟩

theorem CoveredBy.remove_digest (event : BlockRemoved) : CoveredBy D S e (d.remove event).2 := by
  have hk := d.unpoisoned_removeHashes event.blockHashes
  refine ⟨h.exact_wf, h.digest_wf.remove event, hk.digester.trans h.digester_eq,
    hk.edges.trans h.edges, ?_⟩
  intro hash ks hh
  exact h.held hash ks (h.digest_wf.holdsAt_of_removeHashes hh).1

end

variable {commitments : List BlockCommitment}

theorem labels_commitAll (hd : d.digester = D) (hc : d.commit = commitBlock)
    {blocks : List (List UInt32)} (hs : ∀ block ∈ blocks, block ∈ S)
    (h : d.commitAll blocks = .ok commitments) : Forall₂ (Labels D S) blocks commitments := by
  induction blocks generalizing commitments with
  | nil =>
    cases h
    exact .nil
  | cons block rest ih =>
    rw [forall_mem_cons] at hs
    simp only [commitAll, hc, commitBlock, hd] at h
    rcases hb : D.commit block with error | commitment
    · simp [hb] at h
    rcases hr : d.commitAll rest with error | commitments'
    · simp [hb, hr, Except.map] at h
    simp only [hb, hr, Except.map, Except.ok.injEq] at h
    subst h
    exact .cons ⟨hs.1, hb⟩ (ih hs.2 hr)

theorem zip_labelled {blocks : List (List UInt32)}
    (h : Forall₂ (Labels D S) blocks commitments) {hashes : List ExternalBlockHash}
    {front back : List (BlockCommitment × ExternalBlockHash)} {commitment : BlockCommitment}
    {hash : ExternalBlockHash} (hz : commitments.zip hashes = front ++ (commitment, hash) :: back)
    : ∃ front' block back', blocks.zip hashes = front' ++ (block, hash) :: back' ∧
      Forall₂ (Labels D S) (front'.map fst ++ [block])
        (front.map fst ++ [commitment]) := by
  induction h generalizing hashes front with
  | nil => simp at hz
  | cons hf hr ih =>
    rename_i block c blocks commitments
    rcases hashes with _ | ⟨first, hashes⟩
    · simp at hz
    rcases front with _ | ⟨entry, front⟩
    · simp only [zip_cons_cons, nil_append, cons.injEq, Prod.mk.injEq] at hz
      obtain ⟨⟨rfl, rfl⟩, -⟩ := hz
      exact ⟨[], block, blocks.zip hashes, rfl, .cons hf .nil⟩
    simp only [zip_cons_cons, cons_append, cons.injEq] at hz
    obtain ⟨rfl, hz⟩ := hz
    obtain ⟨front', block', back', hz', hl⟩ := ih hz
    exact ⟨(block, first) :: front', block', back', by simp [hz'], .cons hf hl⟩

variable {d' : DigestKvIndex}

theorem CoveredBy.store (h : CoveredBy D S e d)
    (hs : ∀ block ∈ chunks event.blockSize event.tokenIds, block ∈ S) {n m : Nat}
    (he : e.store event = (.ok n, e')) (hd : d.store event = (.ok m, d')) :
    CoveredBy D S e' d' := by
  have hc := h.store_exact he
  have hwf := h.digest_wf.store event
  have hk := unpoisoned_store hd
  rw [hd] at hwf
  refine ⟨hc.exact_wf, hwf, hk.digester.trans h.digester_eq, hk.edges.trans h.edges, ?_⟩
  intro hash ks hh
  rcases h.digest_wf.holdsAt_of_store hd hh with
    hold | ⟨commitments, above, front, commitment, back, hf, ha, hz, rfl⟩
  · exact hc.held hash ks hold
  have hl := labels_commitAll h.digester_eq h.digest_wf.commit hs hf
  obtain ⟨front', block, back', hz', hg⟩ := zip_labelled hl hz
  -- the parent is held at the same blocks, or is the root of both
  have hb : ∃ path, e.ParentAt event.parentBlockHash path ∧
      Forall₂ (Labels D S) path above := by
    rcases hp : event.parentBlockHash with _ | par
    · rw [hp] at ha
      cases ha
      exact ⟨[], rfl, .nil⟩
    · rw [hp] at ha
      exact h.held par above ha
  obtain ⟨path, hi, ht⟩ := hb
  refine ⟨path ++ front'.map fst ++ [block],
    (h.exact_wf.holdsAt_store he).2 path hi front' block hash back' hz', ?_⟩
  rw [append_assoc, append_assoc]
  exact rel_append ht hg

theorem CoveredBy.exact_parent (h : CoveredBy D S e d) {m : Nat}
    (hd : d.store event = (.ok m, d')) :
    ∃ id, event.parentBlockHash.elim (some rootNode) e.byExternalHash.lookup = some id := by
  have hk : ∃ found, d.checkStore event = .ok found := by
    unfold DigestKvIndex.store at hd
    split at hd
    · cases hd
    · cases hd
    next hk =>
      exact ⟨_, hk⟩
  obtain ⟨⟨parentId, commitments⟩, hk⟩ := hk
  obtain ⟨path, hc⟩ := checked_of_checkStore h.digest_wf.commit hk
  rcases hp : event.parentBlockHash with _ | par
  · exact ⟨rootNode, rfl⟩
  have ha := hc.parent
  rw [hp, Option.elim_some] at ha
  obtain ⟨node, hn, -⟩ := (h.digest_wf.hashed _ _).1 ha
  obtain ⟨ks, hs⟩ := h.digest_wf.walk_of_live h.edges (Slab.live_iff.2 ⟨node, hn⟩)
  obtain ⟨path', ⟨id, hi, -⟩, -⟩ := h.held par ks ⟨parentId, ha, hs⟩
  exact ⟨id, hi⟩

theorem existingPath_error {cursor : Nat} {items : List (List UInt32 × ExternalBlockHash)}
    {error : ExactIndexError} (h : e.existingPath cursor items = .error error) :
    error = .conflictingPath := by
  induction items generalizing cursor with
  | nil => cases h
  | cons item rest ih =>
    obtain ⟨block, hash⟩ := item
    simp only [ExactKvIndex.existingPath] at h
    split at h
    · cases h
    rename_i childId _
    split at h
    · cases h
      rfl
    split at h
    · cases h
      rfl
    rcases hr : e.existingPath childId rest with error' | path
    · simp only [hr, Except.map, Except.error.injEq] at h
      subst h
      exact ih hr
    · simp [hr, Except.map] at h

theorem ExactKvIndex.store_error {error : ExactIndexError} (h : e.store event = (.error error, e'))
    : e' = e := by
  unfold ExactKvIndex.store at h
  split at h
  · cases h
    rfl
  · cases h

/-- A store under an unknown parent poisons nothing. -/
theorem DigestKvIndex.Wf.store_error_orphan (hwf : d.Wf)
    (h : d.store event = (.error .parentNotFound, d')) : d' = d := by
  unfold DigestKvIndex.store at h
  split at h
  · cases h
    rfl
  next error parentId primary hk =>
    simp only [Prod.mk.injEq, Except.error.injEq] at h
    rw [h.1] at hk
    simp only [checkStore] at hk
    repeat' split at hk
    all_goals cases hk
  next parentId commitments hk =>
    obtain ⟨path, hc⟩ := checked_of_checkStore hwf.commit hk
    simp only [((hc.pending hwf).insertPath hwf).1, Except.map, Prod.mk.injEq] at h
    cases h.1

theorem CoveredBy.store_ne_orphan (h : CoveredBy D S e d) {m : Nat}
    (hd : d.store event = (.ok m, d')) : (e.store event).1 ≠ .error .parentNotFound := by
  obtain ⟨id, hi⟩ := h.exact_parent hd
  intro ho
  have hc : e.checkStore event = .error .parentNotFound := by
    unfold ExactKvIndex.store at ho
    split at ho
    next error hc =>
      cases ho
      exact hc
    · cases ho
  simp only [ExactKvIndex.checkStore, hi] at hc
  split at hc
  · cases hc
  split at hc
  · cases hc
  split at hc
  next error hw =>
    cases hc
    exact absurd (existingPath_error hw) (by decide)
  split at hc
  · cases hc
  split at hc
  · cases hc
  · cases hc

/-! ## Lookups -/

structure Spelled (d : DigestKvIndex) (S : Set (List UInt32)) (tokenIds : List UInt32)
    (path : List (List UInt32)) (ks : List BlockCommitment) (frame : PrefixSearch.Frame Nat) :
    Prop where
  walk : Walk.walk d.childAt rootNode ks = some frame.node
  tokens : path.flatten = tokenIds.take frame.offset
  fits : frame.offset ≤ tokenIds.length
  labels : Forall₂ (Labels d.digester S) path ks
  held : ∀ front, front <+: ks → front ≠ [] → ∃ hash, d.HoldsAt hash front

variable {tokenIds : List UInt32}

theorem Spelled.snoc (hwf : d.Wf)
    (hb : ∀ start stop, start < stop → stop ≤ tokenIds.length → slice tokenIds start stop ∈ S)
    {path : List (List UInt32)} {ks : List BlockCommitment} {a b : PrefixSearch.Frame Nat}
    (h : Spelled d S tokenIds path ks a)
    (hs : PrefixSearch.Step (d.lookupGraph tokenIds) tokenIds.length a b) :
    ∃ block c, Spelled d S tokenIds (path ++ [block]) (ks ++ [c]) b := by
  obtain ⟨length, -, hm, he, ho, -⟩ := hs
  rw [← ho] at he
  simp only [lookupGraph, hwf.commit, commitBlock] at he
  rcases hc : d.digester.commit (slice tokenIds a.offset b.offset) with error | c
  · simp [hc] at he
  simp only [hc, Except.ok.injEq] at he
  obtain ⟨hd, hr⟩ : d.childAt a.node c = some b.node ∧ (d.node b.node).present := by
    rw [lookup_children] at he
    split at he
    next guard child ha =>
      split at he
      next hu =>
        cases he
        exact ⟨childAt_eq_some.2 (hu.1 ▸ ha), hu.2⟩
      · cases he
    · cases he
  have ha := childAt_eq_some.1 hd
  obtain ⟨node, hn, -, hk⟩ := hwf.tree.child _ _ _ ha
  have ht : b.node ≠ rootNode := hwf.tree.parent_ne_root ha
  have hl := hwf.tree.labelled _ _ hn ht
  -- an empty block labels no edge
  have hp : a.offset < b.offset := by
    have hg := (hl.tokens _ hk).2
    rw [BlockDigester.tokenCount_of_commit hc, length_slice (by omega)] at hg
    omega
  refine ⟨slice tokenIds a.offset b.offset, c, Walk.walk_snoc.2 ⟨a.node, h.walk, hd⟩, ?_,
    by omega, ?_, ?_⟩
  · rw [flatten_append, h.tokens, flatten_singleton, take_append_slice _ hp.le]
  · exact rel_append h.labels (.cons ⟨hb _ _ hp (by omega), hc⟩ .nil)
  · intro front hf hi
    rcases prefix_concat_iff.1 hf with rfl | hj
    · obtain ⟨hash, hh, -⟩ := hl.hash
      refine ⟨hash, b.node, (hwf.hashed _ _).2 ⟨node, hn, ?_, hh⟩,
        Walk.walk_snoc.2 ⟨a.node, h.walk, hd⟩⟩
      simp only [ChildEntry.node] at hn
      rwa [node_of_get? hn] at hr
    · exact h.held front hj hi

theorem spelled_of_reaches (hwf : d.Wf)
    (hl : ∀ start stop, start < stop → stop ≤ tokenIds.length → slice tokenIds start stop ∈ S)
    {frame : PrefixSearch.Frame Nat}
    (h : PrefixSearch.Reaches (d.lookupGraph tokenIds) tokenIds.length ⟨rootNode, 0, 0⟩ frame) :
    ∃ path ks, Spelled d S tokenIds path ks frame := by
  induction h with
  | refl =>
    refine ⟨[], [], rfl, rfl, Nat.zero_le _, .nil, ?_⟩
    intro front hf hn
    exact absurd (prefix_nil.1 hf) hn
  | tail _ hs ih =>
    obtain ⟨path, ks, hp⟩ := ih
    obtain ⟨block, c, hx⟩ := hp.snoc hwf hl hs
    exact ⟨_, _, hx⟩

theorem CoveredBy.findLongest_le (h : CoveredBy D S e d) (hi : Distinguishes D S)
    (hc : ∀ start stop, start < stop → stop ≤ tokenIds.length → slice tokenIds start stop ∈ S)
    {a : ExactMatch} {b : DigestMatch} (he : e.findLongest tokenIds = .ok a)
    (hd : d.findLongest tokenIds = .ok b) : b.tokenIds ≤ a.tokenIds := by
  obtain ⟨frame, ha, hfr⟩ : ∃ frame, PrefixSearch.Reaches (d.lookupGraph tokenIds)
      tokenIds.length ⟨rootNode, 0, 0⟩ frame ∧ b.tokenIds = frame.offset := by
    unfold DigestKvIndex.findLongest at hd
    rcases ho : PrefixSearch.longest (d.lookupGraph tokenIds) d.limits.maxLookupSteps
      tokenIds.length .lookupBudgetExceeded rootNode with error | best
    · simp [ho, Except.map] at hd
    obtain ⟨-, frame, ha, rfl⟩ := PrefixSearch.longest_ok ho
    simp only [ho, Except.map, Except.ok.injEq] at hd
    exact ⟨frame, ha, by rw [← hd]⟩
  obtain ⟨path, ks, hs⟩ := spelled_of_reaches h.digest_wf hc ha
  have hl := hs.labels
  rw [h.digester_eq] at hl
  -- each block of the path is held by the exact index at the blocks before it
  have hp : e.PresentPath path := by
    apply h.exact_wf.presentPath_of_holdsAt
    intro front hb hn
    have hk : front = path.take front.length := prefix_iff_eq_take.1 hb
    have hr : Forall₂ (Labels D S) front (ks.take front.length) := by
      have := forall₂_take front.length hl
      rwa [← hk] at this
    have hksNe : ks.take front.length ≠ [] := by
      intro hg
      rw [hg] at hr
      cases hr
      exact hn rfl
    obtain ⟨hash, hh⟩ := hs.held _ ( take_prefix _ _) hksNe
    obtain ⟨path', hh', hl'⟩ := h.held hash _ hh
    rw [hi.labelled_eq hr hl']
    exact ⟨hash, hh'⟩
  have ht : path.flatten <+: tokenIds := by
    rw [hs.tokens]
    exact take_prefix _ _
  have hj := (ExactKvIndex.findLongest_greatest h.exact_wf.tree he hp ht).1
  rw [hs.tokens, length_take] at hj
  have hf := hs.fits
  omega

end Covers

/-! ## Batches on both sides -/

namespace SnapshotDigestDeltaAdapter
variable (adapter : SnapshotDigestDeltaAdapter)

def FiltersAgree (rank : UInt32) (inventory : ExactKvInventory) (index : DigestKvIndex) :
    KvEvent → Prop
  | .blockStored stored => adapter.acceptStore rank stored →
      filterStore stored rank inventory.groupKinds = none
  | .blockRemoved removed => filterRemove removed rank inventory.groupKinds = none →
      adapter.acceptRemove rank removed ∨
        ∀ hash ∈ removed.blockHashes, index.byExternalHash.lookup hash = none
  | .allBlocksCleared => True

def FiltersAgreeOn (rank : UInt32) (inventory : ExactKvInventory) (index : DigestKvIndex) :
    List KvEvent → Prop
  | [] => True
  | event :: rest => adapter.FiltersAgree rank inventory index event ∧
      FiltersAgreeOn rank (inventory.applyEvent rank event).2
        (adapter.applyEvent rank index ⟨0, 0, 0, 0⟩ event).2 rest

def BatchAgrees (inventory : ExactKvInventory) (index : DigestKvIndex) (batch : KvEventBatch) :
    Prop :=
  adapter.FiltersAgreeOn batch.rank inventory index batch.events

/-- The summary does not steer the index. -/
theorem index_applyEvent (rank : UInt32) (index : DigestKvIndex)
    (summary summary' : DigestDeltaSummary) (event : KvEvent) :
    (adapter.applyEvent rank index summary event).2 =
      (adapter.applyEvent rank index summary' event).2 := by
  cases event with
  | blockStored stored =>
    simp only [applyEvent]
    split
    · rcases index.store stored with ⟨error | blocks, index'⟩
      · cases error <;> rfl
      · rfl
    · rfl
  | blockRemoved removed =>
    simp only [applyEvent]
    split <;> rfl
  | allBlocksCleared =>
    simp only [applyEvent]
    split <;> rfl

end SnapshotDigestDeltaAdapter

def KvEvent.blocks : KvEvent → List (List UInt32)
  | .blockStored stored => chunks stored.blockSize stored.tokenIds
  | _ => []

theorem groupKinds_observeUnlearnedGroup {self self' : ExactKvInventory} {rank : UInt32}
    {group : Option UInt32} (h : self.observeUnlearnedGroup rank group = .ok self') :
    self'.groupKinds = self.groupKinds := by
  unfold observeUnlearnedGroup at h
  repeat' split at h
  all_goals cases h
  all_goals rfl

theorem filterStore_learnGroup {self self' : ExactKvInventory} {rank : UInt32}
    {stored : BlockStored} (h : self.learnGroup rank stored = .ok self') :
    filterStore stored rank self'.groupKinds = filterStore stored rank self.groupKinds := by
  rcases hk : stored.kvCacheSpecKind with _ | kind
  · have hs : self'.groupKinds = self.groupKinds := by
      unfold learnGroup at h
      rw [hk] at h
      split at h
      · cases h
        rfl
      · exact groupKinds_observeUnlearnedGroup h
    rw [hs]
  · -- an explicit kind decides alone
    simp only [filterStore, commonFilter, hk, Option.map_some, Option.some_or]

section Batches
variable {adapter : SnapshotDigestDeltaAdapter} {S : Set (List UInt32)}
  {D : BlockDigester} {inv inv' : ExactKvInventory} {d d' : DigestKvIndex}
  {rank : UInt32} {outcome : ApplyOutcome} {summary summary' : DigestDeltaSummary}

theorem coveredBy_stored (h : CoveredBy D S inv.index d) {stored : BlockStored}
    (hb : ∀ block ∈ chunks stored.blockSize stored.tokenIds, block ∈ S)
    (ha : adapter.FiltersAgree rank inv d (.blockStored stored))
    (he : inv.applyEvent rank (.blockStored stored) = (.ok outcome, inv'))
    (hd : adapter.applyEvent rank d summary (.blockStored stored) = (.ok summary', d')) :
    CoveredBy D S inv'.index d' := by
  rcases hl : inv.learnGroup rank stored with error | learned
  · simp [applyEvent, hl] at he
  have hx := index_learnGroup hl
  simp only [applyEvent, hl] at he
  simp only [SnapshotDigestDeltaAdapter.applyEvent] at hd
  -- what the digest index did
  have hg : d' = d ∨ adapter.acceptStore rank stored ∧
      ∃ m, d.store stored = (.ok m, d') := by
    split at hd
    next hc =>
      split at hd
      next m index hs =>
        cases hd
        exact .inr ⟨hc, m, hs⟩
      next index hs =>
        cases hd
        exact .inl (h.digest_wf.store_error_orphan hs)
      · cases hd
    · cases hd
      exact .inl rfl
  rw [← hx] at h
  split at he
  next reason hf =>
    cases he
    rcases hg with rfl | ⟨hc, -⟩
    · exact h
    · rw [filterStore_learnGroup hl, ha hc] at hf
      cases hf
  split at he
  next n index hs =>
    cases he
    rcases hg with rfl | ⟨-, m, hd'⟩
    · exact h.store_exact hs
    · exact h.store hb hs hd'
  next index hs =>
    cases he
    rcases hg with rfl | ⟨-, m, hd'⟩
    · rw [ExactKvIndex.store_error hs]
      exact h
    · exact absurd (by rw [hs]) (h.store_ne_orphan hd')
  · cases he

theorem coveredBy_removed (h : CoveredBy D S inv.index d) {removed : BlockRemoved}
    (ha : adapter.FiltersAgree rank inv d (.blockRemoved removed))
    (he : inv.applyEvent rank (.blockRemoved removed) = (.ok outcome, inv'))
    (hd : adapter.applyEvent rank d summary (.blockRemoved removed) = (.ok summary', d')) :
    CoveredBy D S inv'.index d' := by
  rcases ho : inv.observeUnlearnedGroup rank removed.groupIdx with error | observed
  · simp [applyEvent, ho] at he
  have hx := index_observeUnlearnedGroup ho
  have hk := groupKinds_observeUnlearnedGroup ho
  simp only [applyEvent, ho, hk] at he
  simp only [SnapshotDigestDeltaAdapter.applyEvent] at hd
  rw [← hx] at h
  split at he
  · cases he
    split at hd
    · cases hd
      exact h.remove_digest removed
    · cases hd
      exact h
  next hp =>
    cases he
    split at hd
    · cases hd
      exact h.remove removed
    rename_i hr
    cases hd
    rcases ha hp with hc | hg
    · exact absurd hc hr
    · exact h.remove_exact hg

theorem coveredBy_event (hr : rank = adapter.group.dataParallelRank)
    (h : CoveredBy D S inv.index d) {event : KvEvent} (hb : ∀ block ∈ event.blocks, block ∈ S)
    (ha : adapter.FiltersAgree rank inv d event)
    (he : inv.applyEvent rank event = (.ok outcome, inv'))
    (hd : adapter.applyEvent rank d summary event = (.ok summary', d')) :
    CoveredBy D S inv'.index d' := by
  cases event with
  | blockStored stored => exact coveredBy_stored h hb ha he hd
  | blockRemoved removed => exact coveredBy_removed h ha he hd
  | allBlocksCleared =>
    simp only [SnapshotDigestDeltaAdapter.applyEvent, hr, if_true] at hd
    cases he
    cases hd
    exact h.clear

theorem coveredBy_events (ha : rank = adapter.group.dataParallelRank) {events : List KvEvent}
    (h : CoveredBy D S inv.index d) (hb : ∀ event ∈ events, ∀ block ∈ event.blocks, block ∈ S)
    (hg : adapter.FiltersAgreeOn rank inv d events) {summary summary' : BatchApplySummary}
    (he : inv.applyEvents rank summary events = (.ok summary', inv'))
    {delta delta' : DigestDeltaSummary}
    (hd : adapter.applyEvents rank d delta events = (.ok delta', d')) :
    CoveredBy D S inv'.index d' := by
  induction events generalizing inv d summary delta with
  | nil =>
    cases he
    cases hd
    exact h
  | cons event rest ih =>
    rw [forall_mem_cons] at hb
    obtain ⟨hf, hr⟩ := hg
    rcases hv : inv.applyEvent rank event with ⟨error | outcome, next⟩
    · simp [applyEvents, hv] at he
    rcases hl : adapter.applyEvent rank d delta event with ⟨error | delta'', next'⟩
    · simp [SnapshotDigestDeltaAdapter.applyEvents, hl] at hd
    have hs := adapter.index_applyEvent rank d delta ⟨0, 0, 0, 0⟩ event
    rw [hv, ← hs, hl] at hr
    simp only [applyEvents, hv] at he
    simp only [SnapshotDigestDeltaAdapter.applyEvents, hl] at hd
    exact ih (coveredBy_event ha h hb.1 hf hv hl) hb.2 hr he hd

end Batches

/-- An exact inventory and a digest index under the same batches of the adapter's
rank, none of which has failed on either, over blocks from `S`; every batch
meets `C` where it is applied. -/
def compactStream (limits : ExactIndexLimits) (digestLimits : DigestIndexLimits)
    (digester : BlockDigester) (adapter : SnapshotDigestDeltaAdapter) (S : Set (List UInt32))
    (C : ExactKvInventory → DigestKvIndex → KvEventBatch → Prop) :
    TransitionSystem (ExactKvInventory × DigestKvIndex) KvEventBatch where
  init s := s = (.new limits, .new digestLimits digester)
  step s batch s' := batch.rank = adapter.group.dataParallelRank ∧
    (∀ event ∈ batch.events, ∀ block ∈ event.blocks, block ∈ S) ∧ C s.1 s.2 batch ∧
    (∃ summary, s.1.applyBatch batch = (.ok summary, s'.1)) ∧
    ∃ summary, adapter.applyBatch s.2 batch = (.ok summary, s'.2)

/-- Where the two filters agree on every event, the digest index never reports a
longer match than the exact inventory. -/
theorem compact_stream_never_overclaims (limits : ExactIndexLimits)
    (digestLimits : DigestIndexLimits) (digester : BlockDigester)
    (adapter : SnapshotDigestDeltaAdapter) (S : Set (List UInt32))
    (hinj : Distinguishes digester S) (inventory : ExactKvInventory) (index : DigestKvIndex)
    (h : (compactStream limits digestLimits digester adapter S adapter.BatchAgrees).Reachable
      (inventory, index))
    (tokenIds : List UInt32)
    (hslices : ∀ start stop, start < stop → stop ≤ tokenIds.length → slice tokenIds start stop ∈ S)
    (a : ExactMatch) (b : DigestMatch) (ha : inventory.findLongest tokenIds = .ok a)
    (hb : index.findLongest tokenIds = .ok b) : b.tokenIds ≤ a.tokenIds := by
  have hc : CoveredBy digester S inventory.index index := by
    refine h.invariant (P := fun s => CoveredBy digester S s.1.index s.2) ?_ ?_
    · rintro s rfl
      exact .new limits digestLimits
    rintro ⟨inventory, index⟩ batch ⟨inventory', index'⟩ hc
      ⟨hr, hl, hg, ⟨summary, he⟩, delta, hd⟩
    exact coveredBy_events hr hc hl hg he hd
  exact hc.findLongest_le hinj hslices ha hb

/-- A store of one block in cache group 1, without an attention kind. -/
def groupStore : KvEventBatch :=
  ⟨[.blockStored { storeTokens [1] [7] with groupIdx := some 1 }], none⟩

/-- The group is learned, a block of it that names no kind is stored and then removed. -/
def learnedGroup : KvEventBatch :=
  ⟨[.blockStored
      { storeTokens [1] [7] with groupIdx := some 1, kvCacheSpecKind := some "full_attention" },
    .blockStored
      { storeTokens [1] [8] with parentBlockHash := some (.unsigned 7), groupIdx := some 1 },
    .blockRemoved { removal [8] with groupIdx := some 1 }], none⟩

def groupAdapter : SnapshotDigestDeltaAdapter where
  group := ⟨0, 1⟩
  decodeBatch _ := .error .invalidMessagePack

def exactAfter (batch : KvEventBatch) : ExactKvInventory := ((new ⟨8, 8, 8⟩).applyBatch batch).2

def digestAfter (batch : KvEventBatch) : DigestKvIndex :=
  (groupAdapter.applyBatch (.new ⟨8, 8, 8, 8, 64⟩ sampleDigester) batch).2

theorem distinguishes_one : Distinguishes sampleDigester {[1]} := by
  rintro block rfl block' rfl c _ _
  rfl

theorem slices_one (start stop : Nat) (ht : start < stop) (hl : stop ≤ ([1] : List UInt32).length) :
    slice [1] start stop ∈ ({[1]} : Set (List UInt32)) := by
  have hl' : stop ≤ 1 := hl
  obtain rfl : start = 0 := by omega
  obtain rfl : stop = 1 := by omega
  rfl

theorem compact_stream_never_overclaims_sample :
    (compactStream ⟨8, 8, 8⟩ ⟨8, 8, 8, 8, 64⟩ sampleDigester groupAdapter {[1]}
      groupAdapter.BatchAgrees).Reachable (exactAfter learnedGroup, digestAfter learnedGroup) ∧
    (exactAfter learnedGroup).findLongest [1] = .ok ⟨1, 1⟩ ∧
    (digestAfter learnedGroup).findLongest [1] = .ok ⟨1, 1⟩ ∧ 1 ≤ 1 := by
  have hr : (compactStream ⟨8, 8, 8⟩ ⟨8, 8, 8, 8, 64⟩ sampleDigester groupAdapter {[1]}
      groupAdapter.BatchAgrees).Reachable (exactAfter learnedGroup, digestAfter learnedGroup) := by
    refine .step (.init rfl) (a := learnedGroup) ⟨rfl, ?_, ⟨?_, ?_, ?_, trivial⟩,
      ⟨⟨2, 1, 0, 0, .zero⟩, ?_⟩, ⟨⟨2, 1, 0, 0⟩, ?_⟩⟩
    · simp [learnedGroup, KvEvent.blocks, storeTokens, chunks, chunks.go]
    · intro _
      decide +kernel
    · intro _
      decide +kernel
    · intro _
      decide +kernel
    · refine Prod.ext ?_ rfl
      decide +kernel
    · refine Prod.ext ?_ (by rw [digestAfter])
      decide +kernel
  have he : (exactAfter learnedGroup).findLongest [1] = .ok ⟨1, 1⟩ := by decide +kernel
  have hd : (digestAfter learnedGroup).findLongest [1] = .ok ⟨1, 1⟩ := by decide +kernel
  exact ⟨hr, he, hd, compact_stream_never_overclaims _ _ _ _ _ distinguishes_one _ _ hr [1]
    slices_one _ _ he hd⟩

/-- A store of cache group 1 that names no attention kind: the adapter of group
1 takes it, the inventory has not learned the group and filters it. -/
theorem compact_stream_overclaims :
    (compactStream ⟨8, 8, 8⟩ ⟨8, 8, 8, 8, 64⟩ sampleDigester groupAdapter {[1]}
      fun _ _ _ => True).Reachable (exactAfter groupStore, digestAfter groupStore) ∧
    Distinguishes sampleDigester {[1]} ∧
    (exactAfter groupStore).findLongest [1] = .ok ⟨0, 0⟩ ∧
    (digestAfter groupStore).findLongest [1] = .ok ⟨1, 1⟩ := by
  refine ⟨?_, distinguishes_one, by decide +kernel, by decide +kernel⟩
  refine .step (.init rfl) (a := groupStore) ⟨rfl, ?_, trivial,
    ⟨⟨0, 0, 1, 0, FilterCounts.zero.increment .unlearnedAttentionGroup⟩, ?_⟩,
    ⟨⟨1, 0, 0, 0⟩, ?_⟩⟩
  · simp [groupStore, KvEvent.blocks, storeTokens, chunks, chunks.go]
  · refine Prod.ext ?_ rfl
    decide +kernel
  · refine Prod.ext ?_ rfl
    decide +kernel

end Ramjet
