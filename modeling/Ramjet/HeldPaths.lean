import Ramjet.ExactPaths
import Ramjet.DigestDelta

/-!
# Where hashes are held

Each resident hash names the end of one path from the root. Stores extend these paths,
removals take hashes away, and neither touches the path of another hash.
-/

namespace Ramjet
open List DigestKvIndex Prod AList

namespace ExactKvIndex
variable {index : ExactKvIndex}

def HoldsAt (index : ExactKvIndex) (hash : ExternalBlockHash) (path : List (List UInt32)) : Prop :=
  ∃ id, index.byExternalHash.lookup hash = some id ∧ Walk.walk index.childAt rootNode path = some id

/-- The path that a store continues. -/
def ParentAt (index : ExactKvIndex) (parent : Option ExternalBlockHash)
    (path : List (List UInt32)) : Prop :=
  parent.elim (path = []) fun hash => index.HoldsAt hash path

/-- Nothing that was there is lost. -/
structure Extends (index final : ExactKvIndex) : Prop where
  lookup : ∀ hash id, index.byExternalHash.lookup hash = some id →
    final.byExternalHash.lookup hash = some id
  child : ∀ p block i, index.childAt p block = some i → final.childAt p block = some i

variable {hash : ExternalBlockHash} {path : List (List UInt32)} {final : ExactKvIndex}

theorem Extends.holdsAt (h : index.Extends final)
    (hold : index.HoldsAt hash path) : final.HoldsAt hash path := by
  obtain ⟨id, hl, hw⟩ := hold
  exact ⟨id, h.lookup hash id hl, Walk.walk_mono h.child hw⟩

variable {cursor child : Nat} {items : List (List UInt32 × ExternalBlockHash)}

/-- Every written position is held below the cursor. -/
def HoldsBelow (final : ExactKvIndex) (cursor : Nat)
    (items : List (List UInt32 × ExternalBlockHash)) : Prop :=
  ∀ front block hash back, items = front ++ (block, hash) :: back →
    ∃ id, Walk.walk final.childAt cursor (front.map fst ++ [block]) = some id ∧
      final.byExternalHash.lookup hash = some id

theorem Extends.turn {next : ExactKvIndex} {block : List UInt32} (h : index.Extends next)
    (hf : ∀ id, next.byExternalHash.lookup hash = some id → child = id)
    (hc : next.childAt cursor block = some child)
    (hr : (next.writeHash child hash).Extends final ∧ final.HoldsBelow child items) :
    index.Extends final ∧ final.HoldsBelow cursor ((block, hash) :: items) := by
  have hl : next.Extends final := by
    refine ⟨fun hash' id hl => hr.1.lookup hash' id ?_, fun p key i hi => hr.1.child p key i ?_⟩
    · rw [lookup_writeHash]
      split
      next he =>
        subst he
        rw [hf id hl]
      · exact hl
    · rw [childAt_writeHash]
      exact hi
  refine ⟨⟨fun hash' id hi => hl.lookup hash' id (h.lookup hash' id hi),
    fun p key i hi => hl.child p key i (h.child p key i hi)⟩, ?_⟩
  have hc := hl.child _ _ _ hc
  intro front block' hash' back ht
  rcases front with _ | ⟨⟨block'', hash''⟩, front⟩
  · simp only [nil_append, cons.injEq] at ht
    obtain ⟨⟨rfl, rfl⟩, -⟩ := ht
    refine ⟨child, Walk.walk_cons.2 ⟨child, hc, rfl⟩, hr.1.lookup _ _ ?_⟩
    rw [lookup_writeHash, if_pos rfl]
  · simp only [cons_append, cons.injEq] at ht
    obtain ⟨⟨rfl, rfl⟩, ht⟩ := ht
    obtain ⟨id, hw, hd⟩ := hr.2 front block' hash' back ht
    exact ⟨id, Walk.walk_cons.2 ⟨child, hc, hw⟩, hd⟩

theorem Pending.extends_and_holds {path : List Nat} (h : index.Wf)
    (hp : index.Pending cursor items path) : index.Extends (index.insertPath cursor items) ∧
      (index.insertPath cursor items).HoldsBelow cursor items := by
  refine hp.induct (motive := fun index cursor items final => index.Extends final ∧
    final.HoldsBelow cursor items) ?_ ?_ ?_ h
  · intro index cursor _ _
    exact ⟨⟨fun _ _ h => h, fun _ _ _ h => h⟩, fun front block hash back ht => by simp at ht⟩
  · intro index cursor block externalHash rest path childId final hwf hp he hr
    have hf := (hashesAgree_iff.1 hp.agree).1
    obtain ⟨child, path', rfl, -, -, -⟩ := hp.found hwf he
    refine Extends.turn ⟨fun _ _ h => h, fun _ _ _ h => h⟩ (fun id hl => ?_) he hr
    simpa using hf id hl
  · intro index cursor block externalHash rest path final hwf hp ho hr
    have hf := (hashesAgree_iff.1 hp.agree).1
    have hw := hp.walk
    simp only [existingPath, lookup_children, ho, Except.ok.injEq] at hw
    subst hw
    have hx : index.Extends (index.insertChild cursor block externalHash).2 := by
      refine ⟨fun _ _ h => h, fun p key i hi => ?_⟩
      rw [childAt_insertChild hwf.tree.slab hp.live, if_neg]
      · exact hi
      rintro ⟨rfl, rfl⟩
      rw [ho] at hi
      cases hi
    refine hx.turn (fun id hl => ?_) ?_ hr
    · simpa using hf id hl
    · rw [childAt_insertChild hwf.tree.slab hp.live, if_pos ⟨rfl, rfl⟩]

theorem Wf.holdsAt_store (h : index.Wf) {event : BlockStored} {blocks : Nat}
    (hs : index.store event = (.ok blocks, final)) :
    index.Extends final ∧ ∀ path, index.ParentAt event.parentBlockHash path →
      ∀ front block hash back, (chunks event.blockSize event.tokenIds).zip event.blockHashes =
          front ++ (block, hash) :: back →
        final.HoldsAt hash (path ++ front.map fst ++ [block]) := by
  unfold ExactKvIndex.store at hs
  split at hs
  · cases hs
  rename_i parentId hk
  cases hs
  obtain ⟨known, hc⟩ := checked_of_checkStore hk
  obtain ⟨he, hh⟩ := (hc.pending h).extends_and_holds h
  refine ⟨he, ?_⟩
  intro path ha front block hash back hi
  obtain ⟨id, hw, hl⟩ := hh front block hash back hi
  refine ⟨id, hl, ?_⟩
  rw [append_assoc]
  refine Walk.walk_append.2 ⟨parentId, ?_, hw⟩
  have hf := hc.parent
  rcases hp : event.parentBlockHash with _ | par
  · rw [hp] at hf ha
    cases hf
    cases ha
    rfl
  · rw [hp] at hf ha
    obtain ⟨id', hl', hw'⟩ := ha
    rw [Option.elim_some] at hf
    rw [hf] at hl'
    cases hl'
    exact Walk.walk_mono he.child hw'

theorem Wf.holdsAt_removeHash (h : index.Wf) {removed : ExternalBlockHash}
    (hold : index.HoldsAt hash path) (hb : hash ≠ removed) :
    (index.removeHash removed).2.HoldsAt hash path := by
  rw [h.removeHash_eq]
  rcases hk : index.byExternalHash.lookup removed with _ | id
  · exact hold
  obtain ⟨node, hn, -, hh⟩ := (h.filed _ _).1 hk
  have hwf := h.vacate hn hh hk
  have hv : (index.vacate id removed).HoldsAt hash path := by
    obtain ⟨id', hc', hw⟩ := hold
    refine ⟨id', ?_, Walk.walk_mono ?_ hw⟩
    · simp only [ExactKvIndex.vacate, lookup_erase_eq, if_neg hb]
      exact hc'
    intro p block i hi
    rw [ExactKvIndex.vacate, childAt_modify (fun _ => by rfl)]
    exact hi
  refine (hwf.pruneFrom_induct (motive := fun index => index.HoldsAt hash path) ?_ hv _ _).2
  -- the leaf that goes is not resident, so no walk to a held hash needs it
  rintro index id parentId node hwf hg ht hr he ha ⟨i, hi, hw⟩
  refine ⟨i, hi, ?_⟩
  have hl : ∀ p block j, index.childAt p block = some j → ¬ p = id := by
    rintro p block j hj rfl
    rw [childAt_of_get? hg, (entries_isEmpty_iff node.children).1 he] at hj
    cases hj
  refine Walk.walk_keep (· = id) ?_ hl hw ?_
  · intro p block j hj hd
    obtain ⟨p', hp', hf⟩ := hwf.tree.parent id node hg ht
    rw [ha] at hp'
    cases hp'
    rw [childAt_dropLeaf hg he, if_neg]
    · exact hj
    rintro ⟨rfl, rfl⟩
    rw [hf] at hj
    exact hd (Option.some.inj hj).symm
  · rintro rfl
    obtain ⟨node', hn', hr', -⟩ := (hwf.filed _ _).1 hi
    rw [hg] at hn'
    cases hn'
    rw [hr] at hr'
    cases hr'

theorem Wf.holdsAt_removeHashes (h : index.Wf) {hashes : List ExternalBlockHash}
    (hold : index.HoldsAt hash path) (hn : hash ∉ hashes) :
    (index.removeHashes hashes).2.HoldsAt hash path := by
  induction hashes generalizing index with
  | nil => exact hold
  | cons removed rest ih =>
    rw [mem_cons, not_or] at hn
    exact ih (h.removeHash removed) (h.holdsAt_removeHash hold hn.1) hn.2

theorem Wf.presentPath_of_holdsAt (h : index.Wf)
    (hh : ∀ front, front <+: path → front ≠ [] → ∃ hash, index.HoldsAt hash front) :
    index.PresentPath path := by
  induction path using reverseRecOn with
  | nil => exact ⟨rootNode, rfl⟩
  | append_singleton path block ih =>
    obtain ⟨id, hd⟩ := ih fun front hfr he =>
      hh front (hfr.trans (prefix_append _ _)) he
    obtain ⟨hash, i, hi, hw⟩ := hh _ (prefix_rfl) (by simp)
    obtain ⟨p, hp, ha⟩ := Walk.walk_snoc.1 hw
    -- the resident walk is the walk
    have hm : Walk.walk index.childAt rootNode path = some id :=
      Walk.walk_mono (fun p block i hi => (presentChild_eq_some.1 hi).1) hd
    rw [hm] at hp
    cases hp
    obtain ⟨node, hn, hr, -⟩ := (h.filed _ _).1 hi
    refine ⟨i, Walk.walk_snoc.2 ⟨id, hd, presentChild_eq_some.2 ⟨ha, ?_⟩⟩⟩
    rw [node_of_get? hn]
    exact hr

end ExactKvIndex

namespace DigestKvIndex
variable {index : DigestKvIndex}

/-- The child along a commitment; a poisoned edge leads nowhere. -/
def childAt (index : DigestKvIndex) (id : Nat) (commitment : BlockCommitment) : Option Nat :=
  match index.entryAt id commitment.primary with
  | some (.unique guard child) => if guard = commitment.guard then some child else none
  | _ => none

theorem childAt_eq_some {id child : Nat} {commitment : BlockCommitment} :
    index.childAt id commitment = some child ↔
      index.entryAt id commitment.primary = some (.unique commitment.guard child) := by
  unfold childAt
  rcases index.entryAt id commitment.primary with _ | ⟨guard, node⟩ | node
  · simp
  · by_cases hgd : guard = commitment.guard
    · simp [hgd]
    · simp [hgd]
  · simp

theorem childAt_congr {index' : DigestKvIndex} {i : Nat} {commitment : BlockCommitment}
    (h : index'.entryAt i commitment.primary = index.entryAt i commitment.primary) :
    index'.childAt i commitment = index.childAt i commitment := by
  simp only [childAt, h]

theorem Tree.rooted (h : index.Tree) : Walk.Rooted index.childAt rootNode where
  top p commitment hd := h.parent_ne_root (childAt_eq_some.1 hd) rfl
  one p c p' c' i hd hd' := by
    have he := childAt_eq_some.1 hd
    have he' := childAt_eq_some.1 hd'
    obtain ⟨rfl, hp⟩ := h.entry_unique he he' rfl
    rw [hp, he'] at he
    refine ⟨rfl, ?_⟩
    cases c
    cases c'
    simp_all

def HoldsAt (index : DigestKvIndex) (hash : ExternalBlockHash) (path : List BlockCommitment) :
    Prop :=
  ∃ id, index.byExternalHash.lookup hash = some id ∧ Walk.walk index.childAt rootNode path = some id

/-- The path that a store continues. -/
def ParentAt (index : DigestKvIndex) (parent : Option ExternalBlockHash)
    (path : List BlockCommitment) : Prop :=
  parent.elim (path = []) fun hash => index.HoldsAt hash path

variable {hash : ExternalBlockHash} {path : List BlockCommitment}

theorem holdsAt_of_pruneFrom {fuel id : Nat} (h : (index.pruneFrom fuel id).HoldsAt hash path) :
    index.HoldsAt hash path := by
  induction fuel generalizing index id with
  | zero => exact h
  | succ fuel ih =>
    rw [pruneFrom_succ] at h
    split at h
    · exact h
    split at h
    · exact h
    split at h
    next parentId block hp hb =>
      split at h
      · exact h
      obtain ⟨i, hi, hw⟩ := ih h
      refine ⟨i, hi, Walk.walk_mono ?_ hw⟩
      intro p commitment j hj
      rw [childAt_eq_some, entryAt_eq_some] at hj
      obtain ⟨other, ho, hl⟩ := hj
      rw [get?_dropLeaf] at ho
      split at ho
      · cases ho
      rw [childAt_eq_some, entryAt_eq_some]
      split at ho
      · obtain ⟨old, hold, rfl⟩ := Option.map_eq_some_iff.1 ho
        rw [lookup_erase_eq] at hl
        split at hl
        · cases hl
        · exact ⟨old, hold, hl⟩
      · exact ⟨other, ho, hl⟩
    · exact h

theorem Wf.holdsAt_of_removeHash (h : index.Wf) {removed : ExternalBlockHash}
    (hold : (index.removeHash removed).2.HoldsAt hash path) :
    index.HoldsAt hash path ∧ hash ≠ removed := by
  rw [h.removeHash_eq] at hold
  rcases hl : index.byExternalHash.lookup removed with _ | id
  · rw [hl] at hold
    refine ⟨hold, ?_⟩
    rintro rfl
    obtain ⟨i, hi, -⟩ := hold
    rw [hl] at hi
    cases hi
  · rw [hl] at hold
    obtain ⟨i, hi, hw⟩ := holdsAt_of_pruneFrom hold
    simp only [DigestKvIndex.vacate, lookup_erase_eq] at hi
    split at hi
    · cases hi
    rename_i hn
    refine ⟨⟨i, hi, Walk.walk_mono ?_ hw⟩, hn⟩
    intro p commitment j hj
    rw [childAt_congr] at hj
    · exact hj
    · exact entryAt_modify (fun _ => by rfl) _ _ _ _

theorem Wf.holdsAt_of_removeHashes (h : index.Wf) {hashes : List ExternalBlockHash}
    (hold : (index.removeHashes hashes).2.HoldsAt hash path) :
    index.HoldsAt hash path ∧ hash ∉ hashes := by
  induction hashes generalizing index with
  | nil => exact ⟨hold, by simp⟩
  | cons removed rest ih =>
    obtain ⟨hr, hn⟩ := ih (h.removeHash removed) hold
    obtain ⟨hf, he⟩ := h.holdsAt_of_removeHash hr
    exact ⟨hf, by simp [he, hn]⟩

section Store
variable {cursor : Nat} {commitment : BlockCommitment} {externalHash : ExternalBlockHash}
  {length : Nat} {rest : List ((BlockCommitment × ExternalBlockHash) × Nat)} {path : List Nat}
  {event : BlockStored} {childId : Nat} {guard : Bytes 16} {ks : List BlockCommitment}

theorem commitAll_of_checkStore {parentId : Nat} {commitments : List BlockCommitment}
    (hc : index.checkStore event = .ok (parentId, commitments)) :
    index.commitAll (chunks event.blockSize event.tokenIds) = .ok commitments := by
  simp only [checkStore] at hc
  split at hc
  · cases hc
  split at hc
  · cases hc
  split at hc
  · cases hc
  split at hc
  · cases hc
  split at hc
  · cases hc
  rename_i ha
  rw [ha]
  split at hc
  · cases hc
  split at hc
  · cases hc
  split at hc
  · cases hc
  · cases hc
    rfl

theorem Pending.guard_of_found
    (hp : index.Pending cursor (((commitment, externalHash), length) :: rest) path)
    (he : index.entryAt cursor commitment.primary = some (.unique guard childId)) :
    index.childAt cursor commitment = some childId := by
  obtain ⟨node, hn⟩ := Slab.live_iff.1 hp.live
  have hw := hp.walk
  have hl := he
  rw [entryAt_of_get? hn] at hl
  simp only [map_cons, existingPath, node_of_get? hn, hl] at hw
  split at hw
  · cases hw
  rename_i hgd
  rw [not_not] at hgd
  rw [childAt_eq_some, he, hgd]

theorem childAt_grow (h : index.Wf) (hl : index.arena.Live cursor)
    (commitment : BlockCommitment) (externalHash : ExternalBlockHash) (length i : Nat)
    (key : BlockCommitment) : ((index.insertChild cursor commitment externalHash length).2.writeHash
      (index.insertChild cursor commitment externalHash length).1 externalHash).childAt i key =
    if i = cursor ∧ key.primary = commitment.primary then if commitment.guard = key.guard then
        some (index.insertChild cursor commitment externalHash length).1 else none
    else index.childAt i key := by
  rw [childAt, writeHash, entryAt_modify (fun _ => by rfl), entryAt_insertChild h.tree.slab hl]
  by_cases hi : i = cursor ∧ key.primary = commitment.primary
  · simp [hi]
  · simp only [hi, if_false]
    rfl

structure Written (index next : DigestKvIndex) (cursor childId : Nat)
    (commitment : BlockCommitment) (hash : ExternalBlockHash) : Prop where
  below : ∀ ks, Walk.walk next.childAt rootNode ks = some childId →
    ∃ front, ks = front ++ [commitment] ∧ Walk.walk index.childAt rootNode front = some cursor
  held : ∀ hash' ks, next.HoldsAt hash' ks → index.HoldsAt hash' ks ∨ hash' = hash ∧
    ∃ front, ks = front ++ [commitment] ∧ Walk.walk index.childAt rootNode front = some cursor

theorem Pending.written_reuse (h : index.Wf)
    (hp : index.Pending cursor (((commitment, externalHash), length) :: rest) path)
    (he : index.entryAt cursor commitment.primary = some (.unique guard childId)) :
    Written index (index.writeHash childId externalHash) cursor childId commitment
      externalHash := by
  have hd := hp.guard_of_found he
  have hs : ∀ p key i, (index.writeHash childId externalHash).childAt p key = some i →
      index.childAt p key = some i := by
    intro p key i hi
    rw [childAt_congr] at hi
    · exact hi
    · exact entryAt_modify (fun _ => by rfl) _ _ _ _
  have hb : ∀ ks, Walk.walk (index.writeHash childId externalHash).childAt rootNode ks =
      some childId → ∃ front, ks = front ++ [commitment] ∧
        Walk.walk index.childAt rootNode front = some cursor :=
    fun ks hw => h.tree.rooted.snoc_of_child (Walk.walk_mono hs hw) hd
  refine ⟨hb, ?_⟩
  rintro hash' ks ⟨id, hl, hw⟩
  simp only [writeHash, lookup_insert_eq] at hl
  split at hl
  next heq =>
    cases hl
    exact .inr ⟨heq, hb ks hw⟩
  · exact .inl ⟨id, hl, Walk.walk_mono hs hw⟩

theorem Pending.written_grow (h : index.Wf)
    (hp : index.Pending cursor (((commitment, externalHash), length) :: rest) path)
    (ho : index.entryAt cursor commitment.primary = none) : Written index
      ((index.insertChild cursor commitment externalHash length).2.writeHash
        (index.insertChild cursor commitment externalHash length).1 externalHash)
      cursor (index.insertChild cursor commitment externalHash length).1 commitment
      externalHash := by
  obtain ⟨hwf, -⟩ := hp.grow h ho
  have hf := insertChild_fresh h.tree.slab cursor commitment externalHash length
  have hg := childAt_grow h hp.live commitment externalHash length
  have hh : (index.insertChild cursor commitment externalHash length).2.byExternalHash =
      index.byExternalHash := rfl
  generalize index.insertChild cursor commitment externalHash length = added at hwf hf hg hh ⊢
  have hj : (added.2.writeHash added.1 externalHash).childAt cursor commitment = some added.1 := by
    rw [hg, if_pos ⟨rfl, rfl⟩, if_pos rfl]
  have hv : ∀ i node, index.arena.get? i = some node → i ≠ added.1 := by
    rintro i node hn rfl
    rw [hf] at hn
    cases hn
  have hc : cursor ≠ added.1 := by
    obtain ⟨node, hn⟩ := Slab.live_iff.1 hp.live
    exact hv cursor node hn
  -- the leaf is nobody's parent, and no other edge is new
  have hk : ∀ p key i, (added.2.writeHash added.1 externalHash).childAt p key = some i →
      ¬ i = added.1 → index.childAt p key = some i := by
    intro p key i hi hd
    rw [hg] at hi
    split at hi
    · split at hi
      · exact absurd (Option.some.inj hi).symm hd
      · cases hi
    · exact hi
  have hl : ∀ p key i, (added.2.writeHash added.1 externalHash).childAt p key = some i →
      ¬ p = added.1 := by
    rintro p key i hi rfl
    rw [hg, if_neg (fun he => hc he.1.symm), childAt_eq_some, entryAt_eq_some] at hi
    obtain ⟨node, hn, -⟩ := hi
    exact hv _ node hn rfl
  have hold : ∀ ks id, Walk.walk (added.2.writeHash added.1 externalHash).childAt rootNode ks =
      some id → id ≠ added.1 → Walk.walk index.childAt rootNode ks = some id :=
    fun ks id hw hm => Walk.walk_keep (· = added.1) hk hl hw hm
  have hb : ∀ ks, Walk.walk (added.2.writeHash added.1 externalHash).childAt rootNode ks =
      some added.1 → ∃ front, ks = front ++ [commitment] ∧
        Walk.walk index.childAt rootNode front = some cursor := by
    intro ks hw
    obtain ⟨front, rfl, hfr⟩ := hwf.tree.rooted.snoc_of_child hw hj
    exact ⟨front, rfl, hold front cursor hfr hc⟩
  refine ⟨hb, ?_⟩
  rintro hash' ks ⟨id, ha, hw⟩
  simp only [writeHash, lookup_insert_eq, hh] at ha
  split at ha
  next heq =>
    cases ha
    exact .inr ⟨heq, hb ks hw⟩
  · obtain ⟨node, hn, -⟩ := (h.hashed _ _).1 ha
    exact .inl ⟨id, ha, hold ks id hw (hv id node hn)⟩

theorem Pending.holdsAt_of_insertPath {items : List ((BlockCommitment × ExternalBlockHash) × Nat)}
    (h : index.Wf) (hp : index.Pending cursor items path) {hash : ExternalBlockHash}
    (hold : (index.insertPath cursor items).2.HoldsAt hash ks) :
    index.HoldsAt hash ks ∨ ∃ above front commitment back,
      Walk.walk index.childAt rootNode above = some cursor ∧
      items.map fst = front ++ (commitment, hash) :: back ∧
      ks = above ++ front.map fst ++ [commitment] := by
  induction items generalizing index cursor path with
  | nil => exact .inl hold
  | cons item rest ih =>
    obtain ⟨⟨commitment, externalHash⟩, length⟩ := item
    -- what the rest of the path adds lies below what this position added
    have turn : ∀ {next : DigestKvIndex} {childId : Nat} {path' : List Nat}, next.Wf →
        next.Pending childId rest path' →
        Written index next cursor childId commitment externalHash →
        (next.insertPath childId rest).2.HoldsAt hash ks →
        index.HoldsAt hash ks ∨ ∃ above front key back,
          Walk.walk index.childAt rootNode above = some cursor ∧
          (((commitment, externalHash), length) :: rest).map fst = front ++ (key, hash) :: back ∧
          ks = above ++ front.map fst ++ [key] := by
      intro next childId path' hwf hn hr hf
      rcases ih hwf hn hf with hh | ⟨above, front, key, back, hw, hi, rfl⟩
      · rcases hr.held hash ks hh with hh | ⟨rfl, above, rfl, hw⟩
        · exact .inl hh
        · exact .inr ⟨above, [], commitment, rest.map fst, hw, rfl, by simp⟩
      obtain ⟨above', rfl, hw'⟩ := hr.below above hw
      exact .inr ⟨above', (commitment, externalHash) :: front, key, back, hw',
        by simp [hi], by simp⟩
    obtain ⟨node, ho⟩ := Slab.live_iff.1 hp.live
    rw [insertPath_cons, node_of_get? ho, ← entryAt_of_get? ho] at hold
    rcases he : index.entryAt cursor commitment.primary with _ | ⟨guard, childId⟩ | childId
    · rw [he] at hold
      obtain ⟨hwf, hn⟩ := hp.grow h he
      exact turn hwf hn (hp.written_grow h he) hold
    · rw [he] at hold
      obtain ⟨hwf, hn⟩ := hp.reuse h he
      exact turn hwf hn (hp.written_reuse h he) hold
    · rw [he] at hold
      exact .inl hold

theorem Wf.holdsAt_of_store (h : index.Wf) {blocks : Nat}
    {final : DigestKvIndex} (hs : index.store event = (.ok blocks, final))
    {hash : ExternalBlockHash} (hold : final.HoldsAt hash ks) :
    index.HoldsAt hash ks ∨ ∃ commitments above front commitment back,
      index.commitAll (chunks event.blockSize event.tokenIds) = .ok commitments ∧
      index.ParentAt event.parentBlockHash above ∧
      commitments.zip event.blockHashes = front ++ (commitment, hash) :: back ∧
      ks = above ++ front.map fst ++ [commitment] := by
  unfold DigestKvIndex.store at hs
  split at hs
  · cases hs
  · cases hs
  rename_i parentId commitments hk
  simp only [Prod.mk.injEq] at hs
  obtain ⟨-, rfl⟩ := hs
  obtain ⟨known, hc⟩ := checked_of_checkStore h.commit hk
  have hd := hc.pending h
  rcases hd.holdsAt_of_insertPath h hold with hh | ⟨above, front, key, back, hw, hi, hb⟩
  · exact .inl hh
  refine .inr ⟨commitments, above, front, key, back, ?_, ?_, ?_, hb⟩
  · exact commitAll_of_checkStore hk
  · have ha := hc.parent
    rcases hp : event.parentBlockHash with _ | par
    · rw [hp] at ha
      cases ha
      exact h.tree.rooted.walk_injective hw rfl
    · rw [hp] at ha
      exact ⟨parentId, ha, hw⟩
  · rw [← hi]
    refine (map_fst_zip ?_).symm
    rw [length_zip, length_map, hc.blocks.length_eq, hc.hashes, Nat.min_self]

end Store
end DigestKvIndex
end Ramjet
