import Ramjet.DigestIndex
import Ramjet.Lib.Runs

/-!
# The digest index refines the exact index

Driven by the same operations the two indices hand out the same node ids, so they are
related slot by slot.
-/

namespace Ramjet
open DigestKvIndex BlockDigester List AList Option Bool

/-- The blocks that occur can be committed to, and their primary commitments
tell them apart. -/
structure Committed (digester : BlockDigester) (S : Set (List UInt32)) : Prop where
  short : ∀ block ∈ S, block.length < 2 ^ 32
  primary_inj : ∀ block ∈ S, ∀ block' ∈ S, ∀ c c',
    digester.commit block = .ok c → digester.commit block' = .ok c' →
      c.primary = c'.primary → block = block'

def Labels (digester : BlockDigester) (S : Set (List UInt32)) (block : List UInt32)
    (c : BlockCommitment) : Prop :=
  block ∈ S ∧ digester.commit block = .ok c

variable {D : BlockDigester} {S : Set (List UInt32)} {block : List UInt32} {c : BlockCommitment}

theorem commitBlock_of_labels (h : Labels D S block c) : commitBlock D block = .ok c := by
  simp [commitBlock, h.2]

theorem Committed.labels (hc : Committed D S) (h : block ∈ S) : ∃ c, Labels D S block c := by
  obtain ⟨c, ho⟩ := (commit_ok_iff _ _).2 (hc.short block h)
  exact ⟨c, h, ho⟩

theorem Committed.eq_iff (hc : Committed D S) {block' : List UInt32} {c' : BlockCommitment}
    (h : Labels D S block c) (h' : Labels D S block' c') :
    c.primary = c'.primary ↔ block = block' := by
  constructor
  · exact hc.primary_inj block h.1 block' h'.1 c c' h.2 h'.2
  rintro rfl
  have := h.2.symm.trans h'.2
  cases this
  rfl

theorem Labels.unique {c' : BlockCommitment} (h : Labels D S block c)
    (h' : Labels D S block c') : c = c' := by
  have := h.2.symm.trans h'.2
  cases this
  rfl

structure NodeRel (digester : BlockDigester) (S : Set (List UInt32)) (e : ExactNode)
    (d : DigestNode) : Prop where
  parent : d.parent = e.parent
  externalHash : d.externalHash = e.externalHash
  present : d.present = e.present
  childLengths : d.childLengths = e.childLengths
  block : ∀ parentId, e.parent = some parentId →
    ∃ c, Labels digester S e.block c ∧ d.block = some c.primary
  children : ∀ block c, Labels digester S block c →
    d.children.lookup c.primary = (e.children.lookup block).map (.unique c.guard)
  exact_keys : ∀ block id, e.children.lookup block = some id → ∃ c, Labels digester S block c
  digest_keys : ∀ key entry, d.children.lookup key = some entry →
    ∃ block c, Labels digester S block c ∧ c.primary = key

theorem NodeRel.root (D : BlockDigester) (S : Set (List UInt32)) : NodeRel D S .root .root where
  parent := rfl
  externalHash := rfl
  present := rfl
  childLengths := rfl
  block := by simp [ExactNode.root]
  children := by simp [ExactNode.root, DigestNode.root]
  exact_keys := by simp [ExactNode.root]
  digest_keys := by simp [DigestNode.root]

variable {d : DigestNode}

theorem NodeRel.isEmpty {e : ExactNode} (h : NodeRel D S e d) :
    d.children.entries.isEmpty = e.children.entries.isEmpty := by
  rw [Bool.eq_iff_iff, entries_isEmpty_iff, entries_isEmpty_iff]
  constructor
  · intro hd block
    rcases he : e.children.lookup block with _ | id
    · rfl
    obtain ⟨c, hc⟩ := h.exact_keys block id he
    have := h.children block c hc
    rw [hd, he] at this
    cases this
  · intro he key
    rcases hd : d.children.lookup key with _ | entry
    · rfl
    obtain ⟨block, c, hc, rfl⟩ := h.digest_keys key entry hd
    rw [h.children block c hc, he] at hd
    cases hd

theorem NodeRel.addChild {e : ExactNode} (h : NodeRel D S e d) (hc : Committed D S)
    {chunk : List UInt32} (hl : Labels D S chunk c) (id : Nat) : NodeRel D S { e with
        children := e.children.insert chunk id
        childLengths := addLength e.childLengths chunk.length }
      { d with
        children := d.children.insert c.primary (.unique c.guard id)
        childLengths := addLength d.childLengths c.primary.tokenCount.toNat } where
  parent := h.parent
  externalHash := h.externalHash
  present := h.present
  childLengths := by
    simp only [h.childLengths, tokenCount_of_commit hl.2]
  block := h.block
  children block c' hl' := by
    simp only [lookup_insert_eq, hc.eq_iff hl' hl]
    split
    next he =>
      subst he
      rw [hl.unique hl']
      rfl
    · exact h.children block c' hl'
  exact_keys block id' hi := by
    simp only [lookup_insert_eq] at hi
    split at hi
    next he =>
      exact ⟨c, he ▸ hl⟩
    · exact h.exact_keys block id' hi
  digest_keys key entry hn := by
    simp only [lookup_insert_eq] at hn
    split at hn
    next he =>
      exact ⟨chunk, c, hl, he.symm⟩
    · exact h.digest_keys key entry hn

theorem NodeRel.eraseChild {e : ExactNode} (h : NodeRel D S e d) (hc : Committed D S)
    {chunk : List UInt32} (hl : Labels D S chunk c) :
    NodeRel D S { e with children := e.children.erase chunk }
      { d with children := d.children.erase c.primary } where
  parent := h.parent
  externalHash := h.externalHash
  present := h.present
  childLengths := h.childLengths
  block := h.block
  children block c' hl' := by
    simp only [lookup_erase_eq, hc.eq_iff hl' hl]
    split
    · rfl
    · exact h.children block c' hl'
  exact_keys block id' hi := by
    simp only [lookup_erase_eq] at hi
    split at hi
    · cases hi
    · exact h.exact_keys block id' hi
  digest_keys key entry he := by
    simp only [lookup_erase_eq] at he
    split at he
    · cases he
    · exact h.digest_keys key entry he

structure IndexRel (digester : BlockDigester) (S : Set (List UInt32)) (e : ExactKvIndex)
    (d : DigestKvIndex) : Prop where
  arena : Slab.Rel (NodeRel digester S) e.arena d.arena
  byExternalHash : d.byExternalHash = e.byExternalHash
  digester_eq : d.digester = digester
  commit_eq : d.commit = commitBlock

theorem IndexRel.node {e : ExactKvIndex} {d : DigestKvIndex} (h : IndexRel D S e d)
    (id : Nat) : NodeRel D S (e.node id) (d.node id) :=
  h.arena.getD (NodeRel.root D S) id

section Operations
variable {e : ExactKvIndex} {d : DigestKvIndex}

section
variable (h : IndexRel D S e d)
include h

theorem IndexRel.clear : IndexRel D S e.clear d.clear :=
  ⟨Slab.Rel.singleton (NodeRel.root D S), rfl, h.digester_eq, h.commit_eq⟩

theorem IndexRel.insertChild (hc : Committed D S) {chunk : List UInt32}
    {c : BlockCommitment} (hl : Labels D S chunk c) (pid : Nat) (hash : ExternalBlockHash)
    (length : Nat) : (d.insertChild pid c hash length).1 = (e.insertChild pid chunk hash).1 ∧
      IndexRel D S (e.insertChild pid chunk hash).2 (d.insertChild pid c hash length).2 := by
  have hw : NodeRel D S ⟨some pid, chunk, ∅, [], some hash, true⟩
      ⟨some pid, some c.primary, ∅, [], some hash, true, length⟩ :=
    ⟨rfl, rfl, rfl, rfl, fun _ _ => ⟨c, hl, rfl⟩, by simp, by simp, by simp⟩
  obtain ⟨hi, ha⟩ := h.arena.alloc hw
  refine ⟨hi.symm, ?_, h.byExternalHash, h.digester_eq, h.commit_eq⟩
  simp only [ExactKvIndex.insertChild, DigestKvIndex.insertChild, ← hi]
  exact ha.modify fun a b _ _ hb => hb.addChild hc hl _

theorem IndexRel.write (id : Nat) (hash : ExternalBlockHash) : IndexRel D S { e with
        arena := e.arena.modify id fun child =>
          { child with present := true, externalHash := some hash }
        byExternalHash := e.byExternalHash.insert hash id }
      { d with
        arena := d.arena.modify id fun child =>
          { child with present := true, externalHash := some hash }
        byExternalHash := d.byExternalHash.insert hash id } := by
  refine ⟨h.arena.modify fun a b _ _ ha => ?_, by simp [h.byExternalHash], h.digester_eq,
    h.commit_eq⟩
  exact ⟨ha.parent, rfl, rfl, ha.childLengths, ha.block, ha.children, ha.exact_keys, ha.digest_keys⟩

end

variable {blocks : List (List UInt32)} {commitments : List BlockCommitment}

section
variable (h : IndexRel D S e d)
include h

theorem IndexRel.insertPath (hc : Committed D S) (hl : Forall₂ (Labels D S) blocks commitments)
    (hashes : List ExternalBlockHash) (lengths : List Nat) (hlen : lengths.length = blocks.length)
    (cursor : Nat) : (d.insertPath cursor ((commitments.zip hashes).zip lengths)).1 = .ok () ∧
      IndexRel D S (e.insertPath cursor (blocks.zip hashes))
        (d.insertPath cursor ((commitments.zip hashes).zip lengths)).2 := by
  induction hl generalizing e d hashes lengths cursor with
  | nil => exact ⟨rfl, h⟩
  | @cons chunk c blocks commitments ha _ ih =>
    rcases hashes with _ | ⟨hash, hashes⟩
    · exact ⟨rfl, h⟩
    rcases lengths with _ | ⟨length, lengths⟩
    · cases hlen
    simp only [zip_cons_cons, insertPath, ExactKvIndex.insertPath]
    have hh := (h.node cursor).children chunk c ha
    rcases hk : (e.node cursor).children.lookup chunk with _ | childId
    · rw [hk] at hh
      obtain ⟨hi, hr⟩ := h.insertChild hc ha cursor hash length
      simp only [hh, map_none, hi]
      exact ih (hr.write _ hash) hashes lengths (by simpa using hlen) _
    · rw [hk] at hh
      simp only [hh, map_some]
      exact ih (h.write childId hash) hashes lengths (by simpa using hlen) childId

theorem IndexRel.commitAll (hc : Committed D S) (hb : ∀ block ∈ blocks, block ∈ S) :
    ∃ commitments, d.commitAll blocks = .ok commitments ∧
      Forall₂ (Labels D S) blocks commitments := by
  induction blocks with
  | nil => exact ⟨[], rfl, .nil⟩
  | cons block rest ih =>
    simp only [forall_mem_cons] at hb
    obtain ⟨c, hl⟩ := hc.labels hb.1
    obtain ⟨commitments, ha, hr⟩ := ih hb.2
    refine ⟨c :: commitments, ?_, .cons hl hr⟩
    simp [DigestKvIndex.commitAll, h.commit_eq, h.digester_eq, commitBlock_of_labels hl, ha,
      Except.map]

theorem IndexRel.existingPath
    (hl : List.Forall₂ (Labels D S) blocks commitments) (hashes : List ExternalBlockHash)
    (cursor : Nat) : (∀ path, e.existingPath cursor (blocks.zip hashes) = .ok path →
      d.existingPath cursor (commitments.zip hashes) = .ok path) ∧
    (∀ path, d.existingPath cursor (commitments.zip hashes) = .ok path →
      hashesAgree d.byExternalHash hashes path →
        e.existingPath cursor (blocks.zip hashes) = .ok path) := by
  induction hl generalizing hashes cursor with
  | nil => simp [ExactKvIndex.existingPath, DigestKvIndex.existingPath]
  | @cons chunk c blocks commitments ha _ ih =>
    rcases hashes with _ | ⟨hash, hashes⟩
    · simp [ExactKvIndex.existingPath, DigestKvIndex.existingPath]
    have hc := (h.node cursor).children chunk c ha
    simp only [zip_cons_cons, ExactKvIndex.existingPath, DigestKvIndex.existingPath]
    rcases hk : (e.node cursor).children.lookup chunk with _ | childId <;> rw [hk] at hc
    · simp [hc]
    obtain ⟨ih1, ih2⟩ := ih hashes childId
    simp only [hc, Option.map_some, ne_eq, not_true_eq_false, if_false,
      (h.node childId).externalHash]
    by_cases hh : (e.node childId).externalHash = some hash
    · simp only [hh, not_true_eq_false, if_false]
      constructor
      · intro path hp
        split at hp
        · cases hp
        rcases hr : e.existingPath childId (blocks.zip hashes) with error | rest
        · simp [hr, Except.map] at hp
        · rw [ih1 rest hr]
          simpa [hr, Except.map] using hp
      · intro path hp hg
        rcases hr : d.existingPath childId (commitments.zip hashes) with error | rest
        · simp [hr, Except.map] at hp
        simp only [hr, Except.map, Except.ok.injEq] at hp
        subst hp
        simp only [hashesAgree, head?_cons, tail_cons, and_eq_true,
          Option.all_eq_true, h.byExternalHash, decide_eq_true_eq, Option.some.injEq] at hg
        have ho : (e.byExternalHash.lookup hash).any (fun id => id ≠ childId) = false := by
          rcases hi : e.byExternalHash.lookup hash with _ | id
          · rfl
          · simp [hg.1 id hi]
        rw [ih2 rest hr (by rw [h.byExternalHash]; exact hg.2), ho, if_neg Bool.false_ne_true]
        rfl
    · simp [hh]

theorem IndexRel.pruneFrom (hc : Committed D S)
    (fuel id : Nat) : IndexRel D S (e.pruneFrom fuel id) (d.pruneFrom fuel id) := by
  induction fuel generalizing e d id with
  | zero => exact h
  | succ fuel ih =>
    have hn := h.node id
    simp only [ExactKvIndex.pruneFrom, pruneFrom, hn.present, hn.isEmpty, hn.parent]
    split
    · exact h
    split
    · exact h
    rcases hp : (e.node id).parent with _ | pid
    · exact h
    obtain ⟨c, hl, hb⟩ := hn.block pid hp
    -- related nodes have no poisoned edge
    have he : ¬ (d.node pid).children.lookup c.primary = some (.poisoned id) := by
      rw [(h.node pid).children _ c hl]
      cases (e.node pid).children.lookup (e.node id).block <;> simp
    simp only [hb, he, if_false]
    apply ih
    refine ⟨?_, h.byExternalHash, h.digester_eq, h.commit_eq⟩
    exact (h.arena.release id).modify fun a b _ _ ha => ha.eraseChild hc hl

theorem IndexRel.removeHash (hc : Committed D S)
    (hash : ExternalBlockHash) : (d.removeHash hash).1 = (e.removeHash hash).1 ∧
      IndexRel D S (e.removeHash hash).2 (d.removeHash hash).2 := by
  simp only [ExactKvIndex.removeHash, DigestKvIndex.removeHash, h.byExternalHash]
  rcases hi : e.byExternalHash.lookup hash with _ | id
  · exact ⟨rfl, h⟩
  have he : IndexRel D S
      { e with byExternalHash := e.byExternalHash.erase hash }
      { d with byExternalHash := e.byExternalHash.erase hash } :=
    ⟨h.arena, rfl, h.digester_eq, h.commit_eq⟩
  have hn := he.node id
  simp only [hn.present, hn.externalHash]
  split
  · exact ⟨rfl, he⟩
  refine ⟨rfl, ?_⟩
  simp only [Slab.length_modify, ← h.arena.length]
  apply IndexRel.pruneFrom _ hc
  refine ⟨h.arena.modify fun a b _ _ ha => ?_, rfl, h.digester_eq, h.commit_eq⟩
  exact ⟨ha.parent, ha.externalHash, rfl, ha.childLengths, ha.block, ha.children,
    ha.exact_keys, ha.digest_keys⟩

theorem IndexRel.remove (hc : Committed D S)
    (event : BlockRemoved) : (d.remove event).1 = (e.remove event).1 ∧
      IndexRel D S (e.remove event).2 (d.remove event).2 := by
  unfold ExactKvIndex.remove DigestKvIndex.remove
  generalize event.blockHashes = hashes
  induction hashes generalizing e d with
  | nil => exact ⟨rfl, h⟩
  | cons hash rest ih =>
    obtain ⟨h1, h2⟩ := h.removeHash hc hash
    obtain ⟨h3, h4⟩ := ih h2
    simp only [ExactKvIndex.removeHashes, removeHashes]
    exact ⟨by rw [h1, h3], h4⟩

theorem IndexRel.checkStore {event : BlockStored}
    (hj : d.commitAll (chunks event.blockSize event.tokenIds) = .ok commitments)
    (hl : List.Forall₂ (Labels D S) (chunks event.blockSize event.tokenIds) commitments)
    (he : e.checkStore event ≠ .error .capacityExceeded)
    (hd : d.checkStore event ≠ .error (.capacityExceeded, none)) :
    (∃ pid, e.checkStore event = .ok pid ∧ d.checkStore event = .ok (pid, commitments)) ∨
    (∃ error, e.checkStore event = .error error) ∧ ∃ error, d.checkStore event = .error error := by
  simp only [ExactKvIndex.checkStore, DigestKvIndex.checkStore, h.byExternalHash, hj] at he hd ⊢
  split
  · exact .inr ⟨⟨_, rfl⟩, _, rfl⟩
  rename_i hs
  simp only [hs, if_false] at he hd
  by_cases hv : (!event.blockHashes.all d.validExternalHash) = true
  · simp [hv] at hd
  simp only [hv, false_eq_true, if_false] at hd ⊢
  rcases hk : event.parentBlockHash.elim (some rootNode) e.byExternalHash.lookup with
    _ | pid
  · exact .inr ⟨⟨_, rfl⟩, _, rfl⟩
  simp only [hk] at he hd ⊢
  split
  · exact .inr ⟨⟨_, rfl⟩, _, rfl⟩
  rename_i hn
  simp only [hn, if_false] at he hd
  obtain ⟨hf, hb⟩ := h.existingPath hl event.blockHashes pid
  rw [h.byExternalHash] at hb
  rcases hp : e.existingPath pid
    ((chunks event.blockSize event.tokenIds).zip event.blockHashes) with error | path
  · -- the digest walk fails as well, or its hashes do not agree
    refine .inr ⟨⟨_, rfl⟩, ?_⟩
    rcases hg : d.existingPath pid (commitments.zip event.blockHashes) with edge | path
    · exact ⟨_, rfl⟩
    have hi : hashesAgree e.byExternalHash event.blockHashes path = false := by
      by_contra ht
      rw [not_eq_false] at ht
      rw [hb path hg ht] at hp
      cases hp
    simp [hi]
  · rw [hf path hp] at hd ⊢
    simp only [hp] at he hd ⊢
    split
    · exact .inr ⟨⟨_, rfl⟩, _, rfl⟩
    rename_i hi
    simp only [hi, false_eq_true, if_false] at he hd
    split at he
    · simp at he
    split at hd
    · simp at hd
    rename_i hc ha
    exact .inl ⟨pid, if_neg hc, if_neg ha⟩

theorem IndexRel.store (hc : Committed D S) {event : BlockStored}
    (hs : ∀ block ∈ chunks event.blockSize event.tokenIds, block ∈ S)
    (he : (e.store event).1 ≠ .error .capacityExceeded)
    (hd : (d.store event).1 ≠ .error .capacityExceeded) :
    ((e.store event).1 = .ok event.blockHashes.length ∧
      (d.store event).1 = .ok event.blockHashes.length ∧
      IndexRel D S (e.store event).2 (d.store event).2) ∨
    (∃ error, (e.store event).1 = .error error) ∧ ∃ error, (d.store event).1 = .error error := by
  obtain ⟨commitments, hf, hl⟩ := h.commitAll hc hs
  have he' : e.checkStore event ≠ .error .capacityExceeded := by
    intro hk
    simp [ExactKvIndex.store, hk] at he
  have hd' : d.checkStore event ≠ .error (.capacityExceeded, none) := by
    intro hk
    simp [DigestKvIndex.store, hk] at hd
  rcases h.checkStore hf hl he' hd' with ⟨pid, hb, ha⟩ | ⟨⟨error, hb⟩, error', ha⟩
  · obtain ⟨ho, hr⟩ := h.insertPath hc hl event.blockHashes
      ((chunks event.blockSize event.tokenIds).map length) (by simp) pid
    refine .inl ?_
    simp only [ExactKvIndex.store, DigestKvIndex.store, hb, ha, ho]
    exact ⟨trivial, rfl, hr⟩
  · refine .inr ⟨⟨error, by simp [ExactKvIndex.store, hb]⟩, ?_⟩
    obtain ⟨error', _ | ⟨pid, primary⟩⟩ := error'
    · exact ⟨error', by simp [DigestKvIndex.store, ha]⟩
    · exact ⟨error', by simp [DigestKvIndex.store, ha]⟩

theorem IndexRel.edge_iff (hc : Committed D S) {toks : List UInt32} {start stop : Nat}
    (hs : start < stop → slice toks start stop ∈ S) (hb : start ≤ stop) (id child : Nat) :
    (e.lookupGraph toks).edge id start stop = .ok (some child) ↔
      (d.lookupGraph toks).edge id start stop = .ok (some child) := by
  by_cases hm : slice toks start stop ∈ S
  · obtain ⟨c, hl⟩ := hc.labels hm
    simp only [ExactKvIndex.lookupGraph, lookupGraph, h.commit_eq, h.digester_eq,
      commitBlock_of_labels hl, (h.node id).children _ c hl]
    rcases (e.node id).children.lookup (slice toks start stop) with _ | childId
    · simp
    · simp [(h.node childId).present]
  · -- only the empty slice may lie outside, and no edge is labelled with it
    have ha : slice toks start stop = [] := by
      have : start = stop := by
        by_contra hn
        exact hm (hs (by omega))
      simp [slice, this]
    obtain ⟨c, ho⟩ := (@commit_ok_iff D []).2 (by simp)
    have he : (e.node id).children.lookup (slice toks start stop) = none := by
      rcases hk : (e.node id).children.lookup (slice toks start stop) with _ | childId
      · rfl
      · obtain ⟨c', hl⟩ := (h.node id).exact_keys _ _ hk
        exact absurd hl.1 hm
    have hd : (d.node id).children.lookup c.primary = none := by
      rcases hk : (d.node id).children.lookup c.primary with _ | entry
      · rfl
      obtain ⟨block, c', hl, hp⟩ := (h.node id).digest_keys _ _ hk
      have ht := tokenCount_of_commit hl.2
      rw [hp, tokenCount_of_commit ho, length_nil] at ht
      rw [length_eq_zero_iff.1 ht.symm] at hl
      exact absurd hl.1 (ha ▸ hm)
    simp only [ExactKvIndex.lookupGraph, he]
    simp [lookupGraph, h.commit_eq, h.digester_eq, commitBlock, ha, ho, hd]

theorem IndexRel.findLongest (hc : Committed D S) {toks : List UInt32}
    (ha : ∀ start stop, start < stop → stop ≤ toks.length → slice toks start stop ∈ S)
    {a : ExactMatch} {b : DigestMatch} (he : e.findLongest toks = .ok a)
    (hd : d.findLongest toks = .ok b) : a.blocks = b.blocks ∧ a.tokenIds = b.tokenIds := by
  have hs : ∀ x y, PrefixSearch.Step (e.lookupGraph toks) toks.length x y ↔
      PrefixSearch.Step (d.lookupGraph toks) toks.length x y := by
    intro x y
    have hl : (d.lookupGraph toks).lengths x.node =
        (e.lookupGraph toks).lengths x.node := (h.node x.node).childLengths
    simp only [PrefixSearch.Step, PrefixSearch.Successor, hl]
    refine exists_congr fun length => and_congr_right fun _ => and_congr_right fun hf => ?_
    rw [h.edge_iff hc (fun ht => ha _ _ ht hf) (Nat.le_add_right _ _)]
  unfold ExactKvIndex.findLongest at he
  unfold DigestKvIndex.findLongest at hd
  rcases hg : PrefixSearch.longest (e.lookupGraph toks) e.limits.maxLookupSteps
    toks.length .lookupBudgetExceeded rootNode with error | best
  · simp [hg, Except.map] at he
  rcases hi : PrefixSearch.longest (d.lookupGraph toks) d.limits.maxLookupSteps
    toks.length .lookupBudgetExceeded rootNode with error | best'
  · simp [hi, Except.map] at hd
  have hb : best = best' := by
    refine PrefixSearch.longest_congr (· = ·) rfl ?_ ?_ hg hi
    · rintro x _ y rfl hx
      exact ⟨y.node, rfl, (hs _ _).1 hx⟩
    · rintro _ x y rfl hx
      exact ⟨y.node, rfl, (hs _ _).2 hx⟩
  simp only [hg, hi, Except.map, Except.ok.injEq] at he hd
  subst he hd hb
  exact ⟨rfl, rfl⟩

end
end Operations

inductive IndexOp where
  | store (event : BlockStored)
  | remove (event : BlockRemoved)
  | clear

namespace IndexOp

def blocks : IndexOp → List (List UInt32)
  | store event => chunks event.blockSize event.tokenIds
  | _ => []

def onExact (e : ExactKvIndex) : IndexOp → Except ExactIndexError Nat × ExactKvIndex
  | store event => e.store event
  | remove event => (.ok (e.remove event).1, (e.remove event).2)
  | clear => (.ok 0, e.clear)

def onDigest (d : DigestKvIndex) : IndexOp → Except DigestIndexError Nat × DigestKvIndex
  | store event => d.store event
  | remove event => (.ok (d.remove event).1, (d.remove event).2)
  | clear => (.ok 0, d.clear)

/-- Both indices run the same operations, none of which has failed on either,
over blocks from `S`. -/
def lockstep (exactLimits : ExactIndexLimits) (digestLimits : DigestIndexLimits)
    (digester : BlockDigester) (S : Set (List UInt32)) :
    TransitionSystem (ExactKvIndex × DigestKvIndex) IndexOp where
  init s := s = (.new exactLimits, .new digestLimits digester)
  step s op s' := (∀ block ∈ op.blocks, block ∈ S) ∧ (∃ n, (op.onExact s.1).1 = .ok n) ∧
    (∃ n, (op.onDigest s.2).1 = .ok n) ∧ s' = ((op.onExact s.1).2, (op.onDigest s.2).2)

theorem indexRel_step {e : ExactKvIndex} {d : DigestKvIndex} {op : IndexOp}
    (h : IndexRel D S e d) (hc : Committed D S) (hb : ∀ block ∈ op.blocks, block ∈ S)
    (he : (op.onExact e).1 ≠ .error .capacityExceeded)
    (hd : (op.onDigest d).1 ≠ .error .capacityExceeded) :
    ((∃ n, (op.onExact e).1 = .ok n) ↔ ∃ n, (op.onDigest d).1 = .ok n) ∧
      ((∃ n, (op.onExact e).1 = .ok n) → IndexRel D S (op.onExact e).2 (op.onDigest d).2) := by
  cases op with
  | store event =>
    rcases h.store hc hb he hd with ⟨ho, hk, hr⟩ | ⟨⟨error, ha⟩, error', hf⟩
    · exact ⟨⟨fun _ => ⟨_, hk⟩, fun _ => ⟨_, ho⟩⟩, fun _ => hr⟩
    · simp only [onExact, onDigest, ha, hf]
      simp
  | remove event => exact ⟨by simp [onExact, onDigest], fun _ => (h.remove hc event).2⟩
  | clear => exact ⟨by simp [onExact, onDigest], fun _ => h.clear⟩

theorem indexRel_of_reachable {exactLimits : ExactIndexLimits} {digestLimits : DigestIndexLimits}
    (hc : Committed D S) {s : ExactKvIndex × DigestKvIndex}
    (h : (lockstep exactLimits digestLimits D S).Reachable s) : IndexRel D S s.1 s.2 := by
  refine h.invariant (P := fun s => IndexRel D S s.1 s.2) ?_ ?_
  · rintro s rfl
    exact ⟨Slab.Rel.singleton (NodeRel.root D S), rfl, rfl, rfl⟩
  · rintro s op s' hr ⟨hb, ⟨n, ho⟩, ⟨n', hk⟩, rfl⟩
    exact (indexRel_step hr hc hb (by simp [ho]) (by simp [hk])).2 ⟨n, ho⟩

/-- While no operation has failed, the next one succeeds on both indices or on
neither, capacity aside, and lookups within budget agree. -/
theorem digest_refines_exact (exactLimits : ExactIndexLimits) (digestLimits : DigestIndexLimits)
    (digester : BlockDigester) (S : Set (List UInt32)) (hc : Committed digester S)
    {e : ExactKvIndex} {d : DigestKvIndex}
    (hreach : (lockstep exactLimits digestLimits digester S).Reachable (e, d)) :
    (∀ op : IndexOp, (∀ block ∈ op.blocks, block ∈ S) →
      (op.onExact e).1 ≠ .error .capacityExceeded →
      (op.onDigest d).1 ≠ .error .capacityExceeded →
      ((∃ n, (op.onExact e).1 = .ok n) ↔ ∃ n, (op.onDigest d).1 = .ok n)) ∧
    ∀ (tokenIds : List UInt32) (a : ExactMatch) (b : DigestMatch),
      (∀ start stop, start < stop → stop ≤ tokenIds.length → slice tokenIds start stop ∈ S) →
      e.findLongest tokenIds = .ok a → d.findLongest tokenIds = .ok b →
        a.blocks = b.blocks ∧ a.tokenIds = b.tokenIds := by
  have hr := indexRel_of_reachable hc hreach
  refine ⟨fun op hl he hd => (indexRel_step hr hc hl he hd).1, ?_⟩
  intro tokenIds a b hs ha hb
  exact hr.findLongest hc hs ha hb

/-- A hash that tells messages apart in its last sixteen bytes only. -/
def collidingSha256 (message : List UInt8) : Bytes 32 :=
  ⟨replicate 16 0 ++ (message.reverse ++ replicate 16 0).take 16, by simp⟩

def collidingDigester : BlockDigester := .new collidingSha256 sampleDigester.secret

/-- Where two blocks share only the primary part of their commitments, the exact
index takes the second store and the digest index refuses it. -/
theorem primary_collision_breaks_refinement : (∀ block ∈ [[1], [2]], ∀ block' ∈ [[1], [2]],
      collidingDigester.commit block = collidingDigester.commit block' → block = block') ∧
    ∃ e d, (lockstep ⟨8, 8, 8⟩ ⟨8, 8, 8, 8, 64⟩ collidingDigester {[1], [2]}).Reachable (e, d) ∧
      ((store (storeTokens [2] [8])).onExact e).1 = .ok 1 ∧
      ((store (storeTokens [2] [8])).onDigest d).1 = .error .digestCollision := by
  refine ⟨by decide +kernel, _, _, .step (.init rfl) (a := store (storeTokens [1] [7]))
    ⟨?_, ⟨1, ?_⟩, ⟨1, ?_⟩, rfl⟩, ?_, ?_⟩
  · intro block h
    exact .inl (by simpa [blocks, storeTokens, chunks, chunks.go] using h)
  all_goals decide +kernel

/-- The sample key commits to the blocks `[1]` and `[2]`. -/
theorem committed_sample : Committed sampleDigester {[1], [2]} where
  short := by simp
  primary_inj := by
    have hn : ∀ block ∈ ([[1], [2]] : List (List UInt32)), ∀ block' ∈ [[1], [2]],
        (sampleDigester.commit block).map (·.primary) =
          (sampleDigester.commit block').map (·.primary) → block = block' := by
      decide +kernel
    intro block h block' h' c c' hc hc' hp
    refine hn block (by simpa using h) block' (by simpa using h') ?_
    rw [hc, hc', Except.map, Except.map, hp]

theorem digest_refines_exact_sample :
    ∃ e d, (lockstep ⟨8, 8, 8⟩ ⟨8, 8, 8, 8, 64⟩ sampleDigester {[1], [2]}).Reachable (e, d) ∧
      e.findLongest [1] = .ok ⟨1, 1⟩ ∧ d.findLongest [1] = .ok ⟨1, 1⟩ ∧
      ((∃ n, ((store (storeTokens [2] [8])).onExact e).1 = .ok n) ↔
        ∃ n, ((store (storeTokens [2] [8])).onDigest d).1 = .ok n) := by
  have hr : (lockstep ⟨8, 8, 8⟩ ⟨8, 8, 8, 8, 64⟩ sampleDigester {[1], [2]}).Reachable
      (((store (storeTokens [1] [7])).onExact (.new ⟨8, 8, 8⟩)).2,
        ((store (storeTokens [1] [7])).onDigest (.new ⟨8, 8, 8, 8, 64⟩ sampleDigester)).2) := by
    refine .step (.init rfl) (a := store (storeTokens [1] [7])) ⟨?_, ⟨1, ?_⟩, ⟨1, ?_⟩, rfl⟩
    · intro block h
      exact .inl (by simpa [blocks, storeTokens, chunks, chunks.go] using h)
    all_goals decide +kernel
  refine ⟨_, _, hr, by decide +kernel, by decide +kernel, ?_⟩
  refine (digest_refines_exact _ _ _ _ committed_sample hr).1 _ ?_ ?_ ?_
  · intro block h
    exact .inr (by simpa [blocks, storeTokens, chunks, chunks.go] using h)
  all_goals decide +kernel

end IndexOp
end Ramjet
