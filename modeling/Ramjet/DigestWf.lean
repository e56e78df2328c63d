import Ramjet.DigestTree

/-!
# Stores and removals keep the digest index well-formed
-/

namespace Ramjet
open List Slab

theorem length_chunks {α : Type} {size : Nat} (hs : 0 < size) (items : List α) :
    (chunks size items).length = divCeil items.length size := by
  have hg : ∀ fuel (items : List α), items.length ≤ fuel →
      (chunks.go size fuel items).length = divCeil items.length size := by
    intro fuel
    induction fuel with
    | zero =>
      intro items h
      have : items.length = 0 := by omega
      simp only [chunks.go, divCeil, this, length_nil]
      rw [Nat.div_eq_of_lt (by omega)]
    | succ fuel ih =>
      intro items h
      rcases items with _ | ⟨a, rest⟩
      · simp only [chunks.go, divCeil, isEmpty_nil, if_true, length_nil]
        rw [Nat.div_eq_of_lt (by omega)]
      simp only [chunks.go, isEmpty_cons, Bool.false_eq_true, if_false, length_cons]
      rw [ih _ (by simp only [length_drop, length_cons] at h ⊢; omega)]
      simp only [divCeil, length_drop, length_cons]
      by_cases hl : size ≤ rest.length + 1
      · rw [show rest.length + 1 + size - 1 = rest.length + 1 - size + size - 1 + size by omega,
          Nat.add_div_right _ hs]
      have ho : (rest.length + 1 + size - 1) / size = 1 :=
        Nat.div_eq_of_lt_le (by omega) (by omega)
      rw [ho, Nat.div_eq_of_lt (by omega)]
  exact hg _ items le_rfl

theorem ne_nil_of_mem_chunks {α : Type} {size : Nat} (hs : 0 < size) {items chunk : List α}
    (h : chunk ∈ chunks size items) : chunk ≠ [] := by
  have hg : ∀ fuel (items : List α), chunk ∈ chunks.go size fuel items → chunk ≠ [] := by
    intro fuel
    induction fuel with
    | zero => simp [chunks.go]
    | succ fuel ih =>
      intro items h
      rcases items with _ | ⟨a, rest⟩
      · simp [chunks.go] at h
      simp only [chunks.go, isEmpty_cons, Bool.false_eq_true, if_false, mem_cons] at h
      rcases h with rfl | h
      · simp [take_eq_nil_iff]
        omega
      · exact ih _ h
  exact hg _ items h

namespace DigestKvIndex
variable {index : DigestKvIndex}

theorem existingPath_congr {index' : DigestKvIndex}
    (h : ∀ id, (index'.node id).children = (index.node id).children ∧
      (index'.node id).externalHash = (index.node id).externalHash)
    (cur : Nat) (items : List (BlockCommitment × ExternalBlockHash)) :
    index'.existingPath cur items = index.existingPath cur items := by
  induction items generalizing cur with
  | nil => rfl
  | cons item rest ih => simp only [existingPath, (h _).1, (h _).2, ih]

variable {id : Nat}

theorem existingPath_of_leaf (h : ∀ key, (index.node id).children.lookup key = none)
    (items : List (BlockCommitment × ExternalBlockHash)) :
    index.existingPath id items = .ok [] := by
  rcases items with _ | ⟨⟨com, hash⟩, rest⟩
  · rfl
  · simp only [existingPath, h]

variable {byExternalHash : HashMap ExternalBlockHash Nat} {hash : ExternalBlockHash}

theorem hashesAgree_iff {rest : List ExternalBlockHash} {path : List Nat} :
    hashesAgree byExternalHash (hash :: rest) path ↔
      (∀ id, byExternalHash.lookup hash = some id → path.head? = some id) ∧
        hashesAgree byExternalHash rest path.tail := by
  simp [hashesAgree, Option.all_eq_true]

theorem hashesAgree_insert {hashes : List ExternalBlockHash} (h : hash ∉ hashes) (path : List Nat) :
    hashesAgree (byExternalHash.insert hash id) hashes path =
      hashesAgree byExternalHash hashes path := by
  induction hashes generalizing path with
  | nil => rfl
  | cons other rest ih =>
    rw [mem_cons, not_or] at h
    simp only [hashesAgree, AList.lookup_insert_eq, if_neg (Ne.symm h.1), ih h.2]

/-- What a store has checked before it writes the rest of its path. -/
structure Pending (index : DigestKvIndex) (cursor : Nat)
    (items : List ((BlockCommitment × ExternalBlockHash) × Nat)) (path : List Nat) : Prop where
  live : index.arena.Live cursor
  walk : index.existingPath cursor (items.map (·.1)) = .ok path
  agree : hashesAgree index.byExternalHash (items.map (·.1.2)) path
  nodup : (items.map (·.1.2)).Nodup
  shape : ∀ item ∈ items, item.2 = item.1.1.primary.tokenCount.toNat ∧
    0 < item.1.1.primary.tokenCount.toNat ∧ index.validExternalHash item.1.2
  capacity : index.hasCapacity (items.length - path.length)
    (((items.drop path.length).map (·.2)).sum)
    (((items.drop path.length).map (externalHashLen ·.1.2)).sum)

theorem insertPath_cons (cur : Nat) (com : BlockCommitment) (externalHash : ExternalBlockHash)
    (length : Nat) (rest : List ((BlockCommitment × ExternalBlockHash) × Nat)) :
    index.insertPath cur (((com, externalHash), length) :: rest) =
      match (index.node cur).children.lookup com.primary with
      | some (.unique _ cid) => (index.writeHash cid externalHash).insertPath cid rest
      | some (.poisoned _) => (.error .digestCollision, index)
      | none =>
        ((index.insertChild cur com externalHash length).2.writeHash
          (index.insertChild cur com externalHash length).1 externalHash).insertPath
          (index.insertChild cur com externalHash length).1 rest := by
  rw [insertPath]
  rfl

variable {cur : Nat} {com : BlockCommitment} {externalHash : ExternalBlockHash}
  {length : Nat} {rest : List ((BlockCommitment × ExternalBlockHash) × Nat)} {path : List Nat}
  {node : DigestNode}

theorem node_writeHash (id : Nat) (hash : ExternalBlockHash)
    (hg : index.arena.get? id = some node) (hh : node.externalHash = some hash) (i : Nat) :
    ((index.writeHash id hash).node i).children = (index.node i).children ∧
      ((index.writeHash id hash).node i).externalHash = (index.node i).externalHash := by
  simp only [DigestKvIndex.node, writeHash, get?_modify]
  split
  next hi =>
    subst hi
    simp [hg, hh]
  · exact ⟨rfl, rfl⟩

section
variable (hp : index.Pending cur (((com, externalHash), length) :: rest) path)
include hp

variable {guard : Bytes 16}

theorem Pending.found (h : index.Wf) {cid : Nat}
    (he : index.entryAt cur com.primary = some (.unique guard cid)) :
    ∃ child path', path = cid :: path' ∧ index.arena.get? cid = some child ∧
      child.externalHash = some externalHash ∧
      index.existingPath cid (rest.map (·.1)) = .ok path' := by
  obtain ⟨node, hn⟩ := live_iff.1 hp.live
  obtain ⟨child, hc, -, -⟩ := h.tree.child _ _ _ he
  simp only [ChildEntry.node] at hc
  have hw := hp.walk
  rw [entryAt_of_get? hn] at he
  simp only [map_cons, existingPath, node_of_get? hn, he] at hw
  split at hw
  · cases hw
  split at hw
  · cases hw
  rename_i hgd hh
  rw [not_not, node_of_get? hc] at hh
  rcases hr : index.existingPath cid (rest.map (·.1)) with error | path'
  · simp [hr, Except.map] at hw
  · simp only [hr, Except.map, Except.ok.injEq] at hw
    exact ⟨child, path', hw.symm, hc, hh, hr⟩

theorem Pending.missing (ho : index.entryAt cur com.primary = none) : path = [] := by
  obtain ⟨node, hn⟩ := live_iff.1 hp.live
  have hw := hp.walk
  rw [entryAt_of_get? hn] at ho
  simp only [map_cons, existingPath, node_of_get? hn, ho, Except.ok.injEq] at hw
  exact hw.symm

theorem Pending.reuse (h : index.Wf) {cid : Nat}
    (he : index.entryAt cur com.primary = some (.unique guard cid)) :
    (index.writeHash cid externalHash).Wf ∧
      (index.writeHash cid externalHash).Pending cid rest path.tail := by
  obtain ⟨child, path', rfl, hc, hh, hr⟩ := hp.found h he
  obtain ⟨hf, hg⟩ := hashesAgree_iff.1 hp.agree
  have hn := nodup_cons.1 hp.nodup
  refine ⟨?_, ?_⟩
  · refine wf_writeHash h.tree h.commit hc hh (fun hash i _ => h.hashed hash i) ?_ h.counted
    intro i hi
    have := hf i hi
    simpa [eq_comm] using this
  · refine ⟨?_, ?_, ?_, hn.2, ?_, ?_⟩
    · simp [Live, writeHash, hc]
    · rw [existingPath_congr (node_writeHash cid externalHash hc hh)]
      exact hr
    · rw [writeHash, hashesAgree_insert hn.1]
      exact hg
    · intro item ht
      exact hp.shape item (mem_cons_of_mem _ ht)
    · have ha := hp.capacity
      simp only [length_cons, drop_succ_cons, Nat.add_sub_add_right] at ha
      exact ha

end

theorem Wf.hashedBut_insertChild (h : index.Wf) (hl : index.arena.Live cur)
    (com : BlockCommitment) (externalHash : ExternalBlockHash) (length : Nat) :
    (index.insertChild cur com externalHash length).2.HashedBut
      (index.insertChild cur com externalHash length).1 externalHash := by
  exact NameView.Filed.grow (N := nameView) h.hashed h.tree.slab hl
    (l := leaf cur com externalHash length) rfl (g := addChild com)
    fun _ _ => ⟨rfl, rfl⟩

theorem Wf.counted_insertChild (h : index.Wf) (hl : index.arena.Live cur)
    (com : BlockCommitment) (externalHash : ExternalBlockHash) (length : Nat) :
    (index.insertChild cur com externalHash length).2.Counted := by
  intro hz p key child
  rw [entryAt_insertChild h.tree.slab hl]
  split
  · simp
  · exact h.counted hz p key child

theorem Pending.grow (h : index.Wf)
    (hp : index.Pending cur (((com, externalHash), length) :: rest) path)
    (hn : index.entryAt cur com.primary = none) :
    let added := index.insertChild cur com externalHash length
    (added.2.writeHash added.1 externalHash).Wf ∧
      (added.2.writeHash added.1 externalHash).Pending added.1 rest [] := by
  intro added
  obtain rfl := hp.missing hn
  obtain ⟨hlen, hs, hv⟩ := hp.shape _ (mem_cons_self ..)
  obtain ⟨hf, ha⟩ := hashesAgree_iff.1 hp.agree
  have hd := nodup_cons.1 hp.nodup
  have hc := hp.capacity
  simp only [length_cons, length_nil, Nat.sub_zero, drop_zero, map_cons,
    sum_cons, hasCapacity, Bool.and_eq_true, decide_eq_true_eq] at hc
  have ht : added.2.Tree := by
    refine h.tree.insertChild hp.live hn hlen hs hv ?_
    simp only [hasCapacity, Bool.and_eq_true, decide_eq_true_eq]
    omega
  have hg := get?_insertChild h.tree.slab hp.live com externalHash length
  have hl : added.2.arena.get? added.1 = some (leaf cur com externalHash length) := by
    rw [hg, if_pos rfl]
  refine ⟨wf_writeHash ht h.commit hl rfl (h.hashedBut_insertChild hp.live _ _ _) ?_
    (h.counted_insertChild hp.live _ _ _), ?_, ?_, ?_, hd.2, ?_, ?_⟩
  · intro i hi
    simpa using hf i hi
  · simp [Live, writeHash, hl]
  · apply existingPath_of_leaf
    intro key
    rw [(node_writeHash _ _ hl rfl _).1, node_of_get? hl]
    rfl
  · rw [writeHash, hashesAgree_insert hd.1]
    exact ha
  · intro item he
    exact hp.shape item (mem_cons_of_mem _ he)
  · simp only [length_nil, Nat.sub_zero, drop_zero, hasCapacity, Bool.and_eq_true,
      decide_eq_true_eq]
    simp only [added, writeHash, insertChild]
    omega

variable {items : List ((BlockCommitment × ExternalBlockHash) × Nat)}

theorem Pending.induct
    {motive : DigestKvIndex → List ((BlockCommitment × ExternalBlockHash) × Nat) → List Nat → Prop}
    (reuse : ∀ (index : DigestKvIndex) (cur : Nat) (com : BlockCommitment)
      (externalHash : ExternalBlockHash) (length : Nat)
      (rest : List ((BlockCommitment × ExternalBlockHash) × Nat)) (path : List Nat)
      (guard : Bytes 16) (cid : Nat), index.Wf →
      index.Pending cur (((com, externalHash), length) :: rest) path →
      index.entryAt cur com.primary = some (.unique guard cid) →
      motive index (((com, externalHash), length) :: rest) path →
      motive (index.writeHash cid externalHash) rest path.tail)
    (grow : ∀ (index : DigestKvIndex) (cur : Nat) (com : BlockCommitment)
      (externalHash : ExternalBlockHash) (length : Nat)
      (rest : List ((BlockCommitment × ExternalBlockHash) × Nat)) (path : List Nat), index.Wf →
      index.Pending cur (((com, externalHash), length) :: rest) path →
      index.entryAt cur com.primary = none →
      motive index (((com, externalHash), length) :: rest) path →
      motive ((index.insertChild cur com externalHash length).2.writeHash
        (index.insertChild cur com externalHash length).1 externalHash) rest [])
    (h : index.Wf) (hp : index.Pending cur items path) (hm : motive index items path) :
    (index.insertPath cur items).1 = .ok () ∧ (index.insertPath cur items).2.Wf ∧
      ∃ path', motive (index.insertPath cur items).2 [] path' := by
  induction items generalizing index cur path with
  | nil => exact ⟨rfl, h, path, hm⟩
  | cons item rest ih =>
    obtain ⟨⟨com, externalHash⟩, length⟩ := item
    obtain ⟨node, ho⟩ := live_iff.1 hp.live
    rw [insertPath_cons, node_of_get? ho, ← entryAt_of_get? ho]
    rcases he : index.entryAt cur com.primary with _ | ⟨guard, cid⟩ | cid
    · obtain ⟨hwf, hn⟩ := hp.grow h he
      exact ih hwf hn (grow _ _ _ _ _ _ _ h hp he hm)
    · obtain ⟨hwf, hn⟩ := hp.reuse h he
      exact ih hwf hn (reuse _ _ _ _ _ _ _ _ _ h hp he hm)
    · have hw := hp.walk
      rw [entryAt_of_get? ho] at he
      simp [existingPath, node_of_get? ho, he] at hw

theorem Pending.insertPath (h : index.Wf) (hp : index.Pending cur items path) :
    (index.insertPath cur items).1 = .ok () ∧ (index.insertPath cur items).2.Wf := by
  obtain ⟨ho, hwf, -⟩ := hp.induct (motive := fun _ _ _ => True)
    (fun _ _ _ _ _ _ _ _ _ _ _ _ _ => trivial) (fun _ _ _ _ _ _ _ _ _ _ _ => trivial) h trivial
  exact ⟨ho, hwf⟩

variable {commitments : List BlockCommitment}

theorem commitAll_lengths (h : index.commit = commitBlock) {blocks : List (List UInt32)}
    (ha : index.commitAll blocks = .ok commitments) :
    Forall₂ (fun block (c : BlockCommitment) => c.primary.tokenCount.toNat = block.length)
      blocks commitments := by
  induction blocks generalizing commitments with
  | nil =>
    cases ha
    exact .nil
  | cons block rest ih =>
    simp only [commitAll, h, commitBlock] at ha
    rcases hb : index.digester.commit block with error | com
    · simp [hb] at ha
    rcases hr : index.commitAll rest with error | commitments'
    · simp [hb, hr, Except.map] at ha
    simp only [hb, hr, Except.map, Except.ok.injEq] at ha
    subst ha
    exact .cons (BlockDigester.tokenCount_of_commit hb) (ih hr)

/-- What a store has found when all its checks pass. -/
structure Checked (index : DigestKvIndex) (event : BlockStored) (parentId : Nat)
    (commitments : List BlockCommitment) (path : List Nat) : Prop where
  size : 0 < event.blockSize
  hashes : commitments.length = event.blockHashes.length
  parent : event.parentBlockHash.elim (some rootNode) index.byExternalHash.lookup = some parentId
  valid : event.blockHashes.all index.validExternalHash
  nodup : event.blockHashes.Nodup
  blocks : Forall₂
    (fun block (c : BlockCommitment) => c.primary.tokenCount.toNat = block.length)
    (chunks event.blockSize event.tokenIds) commitments
  walk : index.existingPath parentId (commitments.zip event.blockHashes) = .ok path
  agree : hashesAgree index.byExternalHash event.blockHashes path
  capacity : index.hasCapacity (commitments.length - path.length)
    (((chunks event.blockSize event.tokenIds).drop path.length).map List.length).sum
    ((event.blockHashes.drop path.length).map externalHashLen).sum

variable {parentId : Nat} {event : BlockStored}

theorem checked_of_checkStore (h : index.commit = commitBlock)
    (hc : index.checkStore event = .ok (parentId, commitments)) :
    ∃ path, index.Checked event parentId commitments path := by
  simp only [checkStore] at hc
  split at hc
  · cases hc
  rename_i hh
  split at hc
  · cases hc
  rename_i hv
  rcases hd : event.parentBlockHash.elim (some rootNode) index.byExternalHash.lookup with
    _ | parent
  · simp [hd] at hc
  simp only [hd] at hc
  split at hc
  · cases hc
  rename_i hn
  rcases ha : index.commitAll (chunks event.blockSize event.tokenIds) with error | commitments'
  · simp [ha] at hc
  simp only [ha] at hc
  rcases hw : index.existingPath parent (commitments'.zip event.blockHashes) with edge | path
  · simp [hw] at hc
  simp only [hw] at hc
  split at hc
  · cases hc
  rename_i hg
  split at hc
  · cases hc
  rename_i he
  cases hc
  simp only [not_or, ne_eq, not_not] at hh hn
  have hs : 0 < event.blockSize := Nat.pos_of_ne_zero hh.1
  have hb := commitAll_lengths h ha
  refine ⟨path, hs, ?_, hd, by simpa using hv, ?_, hb, hw, by simpa using hg, by simpa using he⟩
  · rw [← hb.length_eq, length_chunks hs]
    exact hh.2.2.2
  · exact (nodup_append.1 hn).2.1

theorem Checked.pending (h : index.Wf) (hc : index.Checked event parentId commitments path) :
    index.Pending parentId ((commitments.zip event.blockHashes).zip
      ((chunks event.blockSize event.tokenIds).map List.length)) path := by
  have hb := hc.blocks.length_eq
  have ha : (commitments.zip event.blockHashes).length =
      ((chunks event.blockSize event.tokenIds).map length).length := by
    rw [length_zip, length_map, hb, hc.hashes, Nat.min_self]
  generalize hs : (commitments.zip event.blockHashes).zip
    ((chunks event.blockSize event.tokenIds).map length) = items
  have hf : items.map (·.1) = commitments.zip event.blockHashes := by
    rw [← hs]
    exact map_fst_zip (by rw [ha])
  have hh : items.map (·.1.2) = event.blockHashes := by
    have hm : items.map (·.1.2) = (items.map (·.1)).map Prod.snd := by simp
    rw [hm, hf]
    exact map_snd_zip (by rw [hc.hashes])
  have hl : items.map (·.2) = (chunks event.blockSize event.tokenIds).map length := by
    rw [← hs]
    exact map_snd_zip (by rw [ha])
  refine ⟨?_, by rw [hf]; exact hc.walk, by rw [hh]; exact hc.agree,
    by rw [hh]; exact hc.nodup, ?_, ?_⟩
  · have hd := hc.parent
    rcases hp : event.parentBlockHash with _ | hash
    · rw [hp] at hd
      cases hd
      obtain ⟨root, hr, -⟩ := h.tree.root
      exact live_iff.2 ⟨root, hr⟩
    · rw [hp] at hd
      obtain ⟨node, hn, -⟩ := (h.hashed _ _).1 hd
      exact live_iff.2 ⟨node, hn⟩
  · intro item ht
    rw [← hs] at ht
    obtain ⟨i, hi, rfl⟩ := mem_iff_getElem.1 ht
    have hi' : i < commitments.length := by
      simp only [length_zip] at hi
      omega
    have hk := hc.blocks.get (hb ▸ hi') hi'
    simp only [get_eq_getElem] at hk
    simp only [getElem_zip, getElem_map, hk, true_and]
    refine ⟨length_pos_of_ne_nil ?_, all_eq_true.1 hc.valid _ (by simp)⟩
    exact ne_nil_of_mem_chunks hc.size (getElem_mem _)
  · have he := hc.capacity
    have hg : items.length = commitments.length := by
      rw [← length_map (f := (·.2)), hl, length_map, hb]
    have hy : (items.drop path.length).map (externalHashLen ·.1.2) =
        (event.blockHashes.drop path.length).map externalHashLen := by
      rw [← hh, map_drop, map_drop, map_map]
      rfl
    have hz : (items.drop path.length).map (·.2) =
        ((chunks event.blockSize event.tokenIds).drop path.length).map length := by
      rw [map_drop, hl, map_drop]
    rw [hg, hy, hz]
    exact he

theorem Wf.store (h : index.Wf) (event : BlockStored) : (index.store event).2.Wf := by
  unfold DigestKvIndex.store
  split
  · exact h
  · exact h.poison _ _
  next parentId commitments hk =>
    obtain ⟨path, hc⟩ := checked_of_checkStore h.commit hk
    exact ((hc.pending h).insertPath h).2

theorem pruneFrom_succ (fuel id : Nat) : index.pruneFrom (fuel + 1) id = if id = rootNode then index
    else if (index.node id).present || !(index.node id).children.entries.isEmpty then index
    else
      match (index.node id).parent, (index.node id).block with
      | some parentId, some block =>
        if (index.node parentId).children.lookup block = some (.poisoned id) then index
        else (index.dropLeaf id (index.node id) parentId block).pruneFrom fuel parentId
      | _, _ => index := rfl

theorem Wf.dropLeaf (h : index.Wf) {block : PrimaryCommitment}
    (hg : index.arena.get? id = some node) (hr : id ≠ rootNode) (ha : node.present = false)
    (he : node.children.entries.isEmpty) (hb : node.parent = some parentId)
    (hk : node.block = some block) : (index.dropLeaf id node parentId block).Wf := by
  refine ⟨h.tree.dropLeaf hg hr he hb hk, ?_, ?_, h.commit⟩
  rotate_left
  · intro hz p key child
    rw [entryAt_dropLeaf hg he]
    split
    · simp
    · exact h.counted hz p key child
  refine NameView.Filed.drop (N := nameView) h.hashed hg ha (fun _ => ?_) parentId
  exact ⟨rfl, rfl⟩

theorem total_dropLeaf {i : Nat} {m : DigestNode} (hm : index.arena.get? i = some m) (p : Nat)
    (block : PrimaryCommitment) :
    ((index.dropLeaf i m p block).arena.total fun _ => 1) + 1 = index.arena.total fun _ => 1 := by
  exact total_drop (fun _ => 1) hm fun _ => rfl

theorem Wf.pruneFrom (h : index.Wf) (fuel : Nat) (hv : index.arena.Live id) :
    (index.pruneFrom fuel id).Wf := by
  induction fuel generalizing index id with
  | zero => exact h
  | succ fuel ih =>
    obtain ⟨node, hn⟩ := live_iff.1 hv
    rw [pruneFrom_succ, node_of_get? hn]
    split
    · exact h
    rename_i hr
    split
    · exact h
    rename_i hl
    obtain ⟨parentId, block, entry, ha, hb, he, hi⟩ :=
      h.tree.parent id node hn hr
    simp only [ha, hb]
    split
    · exact h
    simp only [Bool.or_eq_true, not_or, Bool.not_eq_true, Bool.not_eq_eq_eq_not,
      Bool.not_true] at hl
    obtain ⟨parent, hg, -⟩ := entryAt_eq_some.1 he
    have hc : id ≠ parentId := by
      rintro rfl
      obtain ⟨depth, -, hd⟩ := h.tree.rank
      have := hd _ _ _ he
      rw [hi] at this
      omega
    obtain ⟨other, ho, -⟩ := live_dropLeaf hc hg node parentId block
    exact ih (h.dropLeaf hn hr hl.1 (by simpa using hl.2) ha hb) (live_iff.2 ⟨other, ho⟩)

/-- The index between the removal of a hash and the pruning. -/
def vacate (index : DigestKvIndex) (id : Nat) (externalHash : ExternalBlockHash) : DigestKvIndex :=
  { index with
    arena := index.arena.modify id fun node => { node with present := false }
    byExternalHash := index.byExternalHash.erase externalHash }

section
variable (h : index.Wf)
include h

theorem Wf.vacate (hg : index.arena.get? id = some node) (hh : node.externalHash = some hash)
    (hl : index.byExternalHash.lookup hash = some id) : (index.vacate id hash).Wf := by
  refine ⟨h.tree.modify (fun _ _ => ?_)
    (fun hi => absurd hi (h.tree.ne_root_of_hash hg hh)) _ _, ?_, ?_, h.commit⟩
  · exact ⟨rfl, rfl, rfl, rfl, rfl, fun _ => rfl⟩
  rotate_left
  · intro hz p key child
    rw [DigestKvIndex.vacate, entryAt_modify]
    · exact h.counted hz p key child
    · exact fun _ => rfl
  exact NameView.Filed.erase (N := nameView) h.hashed hg hh hl rfl

theorem Wf.removeHash_eq (hash : ExternalBlockHash) : index.removeHash hash =
      match index.byExternalHash.lookup hash with
      | none => (false, index)
      | some id =>
        (true, (index.vacate id hash).pruneFrom (index.vacate id hash).arena.slots.length id) := by
  unfold DigestKvIndex.removeHash
  rcases hl : index.byExternalHash.lookup hash with _ | id
  · rfl
  · obtain ⟨node, hn, hr, hh⟩ := (h.hashed _ _).1 hl
    simp [DigestKvIndex.node, hn, hr, hh, DigestKvIndex.vacate]

theorem Wf.removeHash (hash : ExternalBlockHash) : (index.removeHash hash).2.Wf := by
  rw [h.removeHash_eq]
  rcases hl : index.byExternalHash.lookup hash with _ | id
  · exact h
  obtain ⟨node, hn, -, hh⟩ := (h.hashed _ _).1 hl
  refine (h.vacate hn hh hl).pruneFrom _ ?_
  simp [Live, DigestKvIndex.vacate, hn]

theorem Wf.removeHashes (hashes : List ExternalBlockHash) : (index.removeHashes hashes).2.Wf := by
  induction hashes generalizing index with
  | nil => exact h
  | cons hash rest ih => exact ih (h.removeHash hash)

theorem Wf.remove (event : BlockRemoved) : (index.remove event).2.Wf :=
  h.removeHashes event.blockHashes

end
end DigestKvIndex
end Ramjet
