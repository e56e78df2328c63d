import Ramjet.DigestWf

/-!
# Digest indices that differ in their node identifiers

Indices may number their nodes differently. A relation between live nodes that edges,
hashes and counters respect is kept by every operation; related indices answer alike.
-/

namespace Ramjet
open DigestKvIndex Slab PrefixSearch AList
namespace DigestKvIndex

inductive EntrySim (ρ : Nat → Nat → Prop) : ChildEntry → ChildEntry → Prop where
  | unique {guard : Bytes 16} {i j : Nat} (h : ρ i j) :
    EntrySim ρ (.unique guard i) (.unique guard j)
  | poisoned {i j : Nat} (h : ρ i j) : EntrySim ρ (.poisoned i) (.poisoned j)

structure NodeSim (ρ : Nat → Nat → Prop) (m n : DigestNode) : Prop where
  parent : Option.Rel ρ m.parent n.parent
  block : n.block = m.block
  externalHash : n.externalHash = m.externalHash
  present : n.present = m.present
  logicalTokenIds : n.logicalTokenIds = m.logicalTokenIds
  children : ∀ key, Option.Rel (EntrySim ρ) (m.children.lookup key) (n.children.lookup key)

structure Simulates (ρ : Nat → Nat → Prop) (a b : DigestKvIndex) : Prop where
  root : ρ rootNode rootNode
  unique : ∀ i j i' j', ρ i j → ρ i' j' → (i = i' ↔ j = j')
  get : ∀ i j, ρ i j → ∃ m n, a.arena.get? i = some m ∧ b.arena.get? j = some n ∧ NodeSim ρ m n
  hashes : ∀ hash, Option.Rel ρ (a.byExternalHash.lookup hash) (b.byExternalHash.lookup hash)
  limits : b.limits = a.limits
  digester : b.digester = a.digester
  liveNodes : b.liveNodes = a.liveNodes
  logicalTokenIds : b.logicalTokenIds = a.logicalTokenIds
  externalHashBytes : b.externalHashBytes = a.externalHashBytes
  poisonedEdges : b.poisonedEdges = a.poisonedEdges

/-- Related indices, both well-formed. -/
structure Similar (a b : DigestKvIndex) : Prop where
  left : a.Wf
  right : b.Wf
  sim : ∃ ρ, Simulates ρ a b

variable {ρ : Nat → Nat → Prop} {a b : DigestKvIndex} {x y : ChildEntry} {ρ' : Nat → Nat → Prop}

theorem EntrySim.mono (hρ : ∀ i j, ρ i j → ρ' i j) (h : EntrySim ρ x y) : EntrySim ρ' x y := by
  cases h with
  | unique h => exact .unique (hρ _ _ h)
  | poisoned h => exact .poisoned (hρ _ _ h)

theorem EntrySim.node (h : EntrySim ρ x y) : ρ x.node y.node := by
  cases h <;> assumption

theorem optionRel_mono {α β : Type} {R R' : α → β → Prop} {x : Option α} {y : Option β}
    (h : Option.Rel R x y) (hR : ∀ a b, x = some a → y = some b → R a b → R' a b) :
    Option.Rel R' x y := by
  cases h with
  | some h => exact .some (hR _ _ rfl rfl h)
  | none => exact .none

variable {m n : DigestNode}

theorem NodeSim.mono (hρ : ∀ i j, ρ i j → ρ' i j) (h : NodeSim ρ m n) : NodeSim ρ' m n :=
  { h with
    parent := optionRel_mono h.parent fun _ _ _ _ => hρ _ _
    children := fun key => optionRel_mono (h.children key) fun _ _ _ _ => EntrySim.mono hρ }

theorem NodeSim.isEmpty (h : NodeSim ρ m n) :
    n.children.entries.isEmpty = m.children.entries.isEmpty := by
  rw [Bool.eq_iff_iff, entries_isEmpty_iff, entries_isEmpty_iff]
  refine forall_congr' fun key => ?_
  have hk := h.children key
  generalize m.children.lookup key = x at *
  generalize n.children.lookup key = y at *
  cases hk <;> simp

variable {i j : Nat}

theorem Simulates.live (h : Simulates ρ a b) (hij : ρ i j) : a.arena.Live i ∧ b.arena.Live j := by
  obtain ⟨m, n, hm, hn, -⟩ := h.get i j hij
  exact ⟨live_iff.2 ⟨m, hm⟩, live_iff.2 ⟨n, hn⟩⟩

theorem Simulates.node (h : Simulates ρ a b) (hij : ρ i j) : NodeSim ρ (a.node i) (b.node j) := by
  obtain ⟨m, n, hm, hn, hs⟩ := h.get i j hij
  rw [node_of_get? hm, node_of_get? hn]
  exact hs

theorem Simulates.clear (a b : DigestKvIndex) (hl : b.limits = a.limits)
    (hd : b.digester = a.digester) :
    Simulates (fun i j => i = rootNode ∧ j = rootNode) a.clear b.clear where
  root := ⟨rfl, rfl⟩
  unique := by
    rintro i j i' j' ⟨rfl, rfl⟩ ⟨rfl, rfl⟩
    simp
  get := by
    rintro i j ⟨rfl, rfl⟩
    refine ⟨.root, .root, rfl, rfl, .none, rfl, rfl, rfl, rfl, fun key => ?_⟩
    simp only [DigestNode.root, lookup_empty]
    exact .none
  hashes hash := by
    simp only [DigestKvIndex.clear, lookup_empty]
    exact .none
  limits := hl
  digester := hd
  liveNodes := rfl
  logicalTokenIds := rfl
  externalHashBytes := rfl
  poisonedEdges := rfl

section
variable (h : Simulates ρ a b)
include h

theorem Simulates.modify (hij : ρ i j) (f g : DigestNode → DigestNode)
    (ha hashesB : HashMap ExternalBlockHash Nat) (poisoned : Nat)
    (hf : ∀ m n, a.arena.get? i = some m → b.arena.get? j = some n → NodeSim ρ m n →
      NodeSim ρ (f m) (g n)) (hh : ∀ hash, Option.Rel ρ (ha.lookup hash) (hashesB.lookup hash)) :
    Simulates ρ
      { a with
        arena := a.arena.modify i f
        byExternalHash := ha
        poisonedEdges := poisoned }
      { b with
        arena := b.arena.modify j g
        byExternalHash := hashesB
        poisonedEdges := poisoned } where
  root := h.root
  unique := h.unique
  get i' j' hij' := by
    obtain ⟨m, n, hm, hn, hs⟩ := h.get i' j' hij'
    simp only [get?_modify]
    by_cases hi : i = i'
    · have hj : j = j' := (h.unique _ _ _ _ hij hij').1 hi
      subst hi hj
      exact ⟨f m, g n, by simp [hm], by simp [hn], hf m n hm hn hs⟩
    · have hj : j ≠ j' := fun hj => hi ((h.unique _ _ _ _ hij hij').2 hj)
      exact ⟨m, n, by simp [hi, hm], by simp [hj, hn], hs⟩
  hashes := hh
  limits := h.limits
  digester := h.digester
  liveNodes := h.liveNodes
  logicalTokenIds := h.logicalTokenIds
  externalHashBytes := h.externalHashBytes
  poisonedEdges := rfl

/-! ## Stores -/

theorem Simulates.writeHash (hij : ρ i j) (hash : ExternalBlockHash) :
    Simulates ρ (a.writeHash i hash) (b.writeHash j hash) := by
  have hs := h.modify hij
    (fun child => { child with present := true, externalHash := some hash })
    (fun child => { child with present := true, externalHash := some hash })
    (a.byExternalHash.insert hash i) (b.byExternalHash.insert hash j) a.poisonedEdges ?_ ?_
  · exact { hs with poisonedEdges := h.poisonedEdges }
  · intro m n _ _ hm
    exact { hm with externalHash := rfl, present := rfl }
  · intro hash'
    rw [lookup_insert_eq, lookup_insert_eq]
    split
    · exact .some hij
    · exact h.hashes hash'

theorem Simulates.poison (hij : ρ i j) (primary : PrimaryCommitment) :
    Simulates ρ (a.poison i primary) (b.poison j primary) := by
  have he := (h.node hij).children primary
  unfold DigestKvIndex.poison
  generalize (a.node i).children.lookup primary = x at he
  generalize (b.node j).children.lookup primary = y at he
  rcases he with ⟨⟨hc⟩ | ⟨hc⟩⟩ | _
  next guard childA childB =>
    have hs := h.modify hij (fun parent => { parent with
        children := parent.children.insert primary (.poisoned childA) })
      (fun parent => { parent with
        children := parent.children.insert primary (.poisoned childB) })
      a.byExternalHash b.byExternalHash (a.poisonedEdges + 1) ?_ h.hashes
    · simpa only [h.poisonedEdges] using hs
    intro m n _ _ hm
    refine { hm with children := fun key => ?_ }
    rw [lookup_insert_eq, lookup_insert_eq]
    split
    · exact .some (.poisoned hc)
    · exact hm.children key
  · exact h
  · exact h

theorem Simulates.insertChild (ha : a.arena.Wf) (hb : b.arena.Wf)
    (hij : ρ i j) (cm : BlockCommitment) (hash : ExternalBlockHash) (length : Nat) :
    let addedA := a.insertChild i cm hash length
    let addedB := b.insertChild j cm hash length
    Simulates (fun x y => ρ x y ∨ x = addedA.1 ∧ y = addedB.1) addedA.2 addedB.2 := by
  intro addedA addedB
  obtain ⟨hl, hv⟩ := h.live hij
  have hgetA := get?_insertChild ha hl cm hash length
  have hgetB := get?_insertChild hb hv cm hash length
  have hg : a.arena.get? addedA.1 = none := insertChild_fresh ha _ _ _ _
  have hf : b.arena.get? addedB.1 = none := insertChild_fresh hb _ _ _ _
  -- the new nodes are in no pair of the old relation
  have he : ∀ x y, ρ x y → x ≠ addedA.1 ∧ y ≠ addedB.1 := by
    intro x y hc
    obtain ⟨m, n, hm, hn, -⟩ := h.get x y hc
    constructor
    · rintro rfl
      rw [hg] at hm
      cases hm
    rintro rfl
    rw [hf] at hn
    cases hn
  have ho : ∀ x y, ρ x y → ρ x y ∨ x = addedA.1 ∧ y = addedB.1 := fun _ _ => .inl
  refine ⟨.inl h.root, ?_, ?_, ?_, h.limits, h.digester, ?_, ?_, ?_, h.poisonedEdges⟩
  · rintro x y x' y' (hc | ⟨rfl, rfl⟩) (hc' | ⟨rfl, rfl⟩)
    · exact h.unique _ _ _ _ hc hc'
    · exact iff_of_false (he x y hc).1 (he x y hc).2
    · exact iff_of_false (he x' y' hc').1.symm (he x' y' hc').2.symm
    · simp
  · rintro x y (hc | ⟨rfl, rfl⟩)
    · obtain ⟨m, n, hm, hn, hd⟩ := h.get x y hc
      rw [hgetA, hgetB, if_neg (he x y hc).1.symm, if_neg (he x y hc).2.symm, hm, hn]
      by_cases hx : i = x
      · have hy : j = y := (h.unique _ _ _ _ hij hc).1 hx
        rw [if_pos hx, if_pos hy]
        refine ⟨_, _, rfl, rfl, ?_⟩
        refine { hd.mono ho with children := fun key => ?_ }
        simp only [addChild, lookup_insert_eq]
        split
        · exact .some (.unique (.inr ⟨rfl, rfl⟩))
        · exact (hd.mono ho).children key
      · have hy : j ≠ y := fun hy => hx ((h.unique _ _ _ _ hij hc).2 hy)
        rw [if_neg hx, if_neg hy]
        exact ⟨m, n, rfl, rfl, hd.mono ho⟩
    · rw [hgetA, hgetB, if_pos rfl, if_pos rfl]
      refine ⟨_, _, rfl, rfl, .some (.inl hij), rfl, rfl, rfl, rfl, fun key => ?_⟩
      simp only [leaf, lookup_empty]
      exact .none
  · intro hash'
    exact optionRel_mono (h.hashes hash') fun _ _ _ _ => ho _ _
  · exact congrArg (· + 1) h.liveNodes
  · exact congrArg (· + length) h.logicalTokenIds
  · exact congrArg (· + externalHashLen hash) h.externalHashBytes

theorem Simulates.insertPath (ha : a.arena.Wf) (hb : b.arena.Wf) (hij : ρ i j)
    (items : List ((BlockCommitment × ExternalBlockHash) × Nat)) :
    (a.insertPath i items).1 = (b.insertPath j items).1 ∧
      ∃ ρ', Simulates ρ' (a.insertPath i items).2 (b.insertPath j items).2 := by
  induction items generalizing ρ a b i j with
  | nil => exact ⟨rfl, ρ, h⟩
  | cons item rest ih =>
    obtain ⟨⟨cm, hash⟩, length⟩ := item
    have he := (h.node hij).children cm.primary
    rw [insertPath_cons, insertPath_cons]
    generalize (a.node i).children.lookup cm.primary = x at he
    generalize (b.node j).children.lookup cm.primary = y at he
    rcases he with ⟨⟨hc⟩ | ⟨hc⟩⟩ | _
    · exact ih (h.writeHash hc hash) (modify_wf ha _ _) (modify_wf hb _ _) hc
    · exact ⟨rfl, ρ, h⟩
    · have hd := h.insertChild ha hb hij cm hash length
      refine ih (hd.writeHash (.inr ⟨rfl, rfl⟩) hash) ?_ ?_ (.inr ⟨rfl, rfl⟩)
      · exact modify_wf (modify_wf (alloc_wf ha _) _ _) _ _
      · exact modify_wf (modify_wf (alloc_wf hb _) _ _) _ _

end

inductive WalkSim (ρ : Nat → Nat → Prop) : Except (Option (Nat × PrimaryCommitment)) (List Nat) →
      Except (Option (Nat × PrimaryCommitment)) (List Nat) → Prop where
  | ok {path path' : List Nat} (h : List.Forall₂ ρ path path') : WalkSim ρ (.ok path) (.ok path')
  | poisoned : WalkSim ρ (.error none) (.error none)
  | collision {i j : Nat} {key : PrimaryCommitment} (h : ρ i j) :
      WalkSim ρ (.error (some (i, key))) (.error (some (j, key)))

section
variable (h : Simulates ρ a b)
include h

theorem Simulates.existingPath (hij : ρ i j) (items : List (BlockCommitment × ExternalBlockHash)) :
    WalkSim ρ (a.existingPath i items) (b.existingPath j items) := by
  induction items generalizing i j with
  | nil => exact .ok .nil
  | cons item rest ih =>
    obtain ⟨cm, hash⟩ := item
    have he := (h.node hij).children cm.primary
    simp only [existingPath]
    generalize (a.node i).children.lookup cm.primary = x at he
    generalize (b.node j).children.lookup cm.primary = y at he
    rcases he with ⟨⟨hc⟩ | ⟨hc⟩⟩ | _
    next guard childA childB =>
      simp only
      rw [(h.node hc).externalHash]
      split
      · exact .collision hij
      split
      · exact .collision hij
      have hr := ih hc
      generalize a.existingPath childA rest = x at hr
      generalize b.existingPath childB rest = y at hr
      cases hr with
      | ok hp => exact .ok (.cons hc hp)
      | poisoned => exact .poisoned
      | collision h => exact .collision h
    · exact .poisoned
    · exact .ok .nil

theorem Simulates.hashesAgree {path path' : List Nat} (hp : List.Forall₂ ρ path path')
    (hashes : List ExternalBlockHash) : Ramjet.hashesAgree a.byExternalHash hashes path =
      Ramjet.hashesAgree b.byExternalHash hashes path' := by
  induction hashes generalizing path path' with
  | nil => rfl
  | cons hash rest ih =>
    simp only [Ramjet.hashesAgree]
    have ht : List.Forall₂ ρ path.tail path'.tail := by
      cases hp with
      | nil => exact .nil
      | cons _ h => exact h
    rw [ih ht]
    congr 1
    have hh := h.hashes hash
    generalize a.byExternalHash.lookup hash = x at hh
    generalize b.byExternalHash.lookup hash = y at hh
    cases hh with
    | none => rfl
    | some hij =>
      cases hp with
      | nil => rfl
      | cons hx _ => simp [h.unique _ _ _ _ hx hij]

theorem Simulates.commitAll (hc : b.commit = a.commit)
    (blocks : List (List UInt32)) : b.commitAll blocks = a.commitAll blocks := by
  induction blocks with
  | nil => rfl
  | cons block rest ih => simp only [DigestKvIndex.commitAll, hc, h.digester, ih]

end

inductive CheckSim (ρ : Nat → Nat → Prop) :
    Except (DigestIndexError × Option (Nat × PrimaryCommitment)) (Nat × List BlockCommitment) →
      Except (DigestIndexError × Option (Nat × PrimaryCommitment)) (Nat × List BlockCommitment) →
        Prop where
  | ok {i j : Nat} {commitments : List BlockCommitment} (h : ρ i j) :
      CheckSim ρ (.ok (i, commitments)) (.ok (j, commitments))
  | error (e : DigestIndexError) : CheckSim ρ (.error (e, none)) (.error (e, none))
  | collision {i j : Nat} {key : PrimaryCommitment} (e : DigestIndexError) (h : ρ i j) :
      CheckSim ρ (.error (e, some (i, key))) (.error (e, some (j, key)))

section
variable (h : Simulates ρ a b)
include h

theorem Simulates.checkStore (hc : b.commit = a.commit)
    (event : BlockStored) : CheckSim ρ (a.checkStore event) (b.checkStore event) := by
  have hv : b.validExternalHash = a.validExternalHash := by
    funext hash
    simp only [validExternalHash, h.limits]
  have hb : ∀ x y z, b.hasCapacity x y z = a.hasCapacity x y z := by
    intro x y z
    simp only [hasCapacity, h.limits, h.liveNodes, h.logicalTokenIds, h.externalHashBytes]
  simp only [DigestKvIndex.checkStore, hv, hb, h.commitAll hc]
  split
  · exact .error _
  split
  · exact .error _
  have hp : Option.Rel ρ (event.parentBlockHash.elim (some rootNode) a.byExternalHash.lookup)
      (event.parentBlockHash.elim (some rootNode) b.byExternalHash.lookup) := by
    rcases event.parentBlockHash with _ | hash
    · exact .some h.root
    · exact h.hashes hash
  generalize event.parentBlockHash.elim (some rootNode) a.byExternalHash.lookup = x at hp
  generalize event.parentBlockHash.elim (some rootNode) b.byExternalHash.lookup = y at hp
  cases hp with
  | none => exact .error _
  | @some i j hij =>
    simp only
    split
    · exact .error _
    rcases a.commitAll (chunks event.blockSize event.tokenIds) with error | commitments
    · exact .error _
    simp only
    have hw := h.existingPath hij (commitments.zip event.blockHashes)
    generalize a.existingPath i (commitments.zip event.blockHashes) = x at hw
    generalize b.existingPath j (commitments.zip event.blockHashes) = y at hw
    cases hw with
    | ok ha =>
      simp only
      rw [h.hashesAgree ha, ha.length_eq]
      split
      · exact .error _
      split
      · exact .error _
      · exact .ok hij
    | poisoned => exact .error _
    | collision he => exact .collision _ he

theorem Simulates.store (ha : a.Wf) (hb : b.Wf) (event : BlockStored) :
    (a.store event).1 = (b.store event).1 ∧
      ∃ ρ', Simulates ρ' (a.store event).2 (b.store event).2 := by
  have hc := h.checkStore (hb.commit.trans ha.commit.symm) event
  unfold DigestKvIndex.store
  generalize a.checkStore event = x at hc
  generalize b.checkStore event = y at hc
  cases hc with
  | error e => exact ⟨rfl, ρ, h⟩
  | collision e he => exact ⟨rfl, ρ, h.poison he _⟩
  | ok hij =>
    rename_i commitments
    obtain ⟨hr, hs⟩ := h.insertPath ha.tree.slab hb.tree.slab hij
      ((commitments.zip event.blockHashes).zip
        ((chunks event.blockSize event.tokenIds).map List.length))
    exact ⟨congrArg (Except.map _) hr, hs⟩

/-! ## Removals -/

theorem Simulates.dropLeaf (ha : a.Wf) {p q : Nat} (hij : ρ i j) (hz : ρ p q)
    {block : PrimaryCommitment} (hm : a.arena.get? i = some m) (hn : b.arena.get? j = some n)
    (ht : i ≠ rootNode) (hpr : m.present = false) (hem : m.children.entries.isEmpty)
    (hg : m.parent = some p) (hbk : m.block = some block) :
    Simulates (fun x y => ρ x y ∧ x ≠ i) (a.dropLeaf i m p block) (b.dropLeaf j n q block) := by
  obtain ⟨m', n', hm', hn', hv⟩ := h.get i j hij
  rw [hm] at hm'
  rw [hn] at hn'
  cases hm'
  cases hn'
  have hsm : ∀ x y, ρ x y → (i = x ↔ j = y) := fun x y => h.unique i j x y hij
  have hs : ∀ x y, ρ x y → (p = x ↔ q = y) := fun x y => h.unique p q x y hz
  -- no node but the parent, under the block, has an entry that leads to `i`
  have hen : ∀ x key e, a.entryAt x key = some e → e.node = i → x = p ∧ key = block := by
    intro x key e he hj
    obtain ⟨p', key', e', hp', hk', he', hid⟩ := ha.tree.parent i m hm ht
    rw [hg] at hp'
    rw [hbk] at hk'
    cases hp'
    cases hk'
    exact ha.tree.entry_unique he he' (hj.trans hid.symm)
  refine ⟨⟨h.root, ht.symm⟩, ?_, ?_, ?_, h.limits, h.digester, ?_, ?_, ?_, h.poisonedEdges⟩
  · rintro x y x' y' ⟨hb, -⟩ ⟨hb', -⟩
    exact h.unique _ _ _ _ hb hb'
  · rintro x y ⟨hb, hx⟩
    obtain ⟨mx, ny, hc, hny, hi⟩ := h.get x y hb
    have hy : j ≠ y := fun hy => hx ((hsm x y hb).2 hy).symm
    have hh : ∀ key, ¬ (p = x ∧ key = block) →
        Option.Rel (EntrySim fun x y => ρ x y ∧ x ≠ i) (mx.children.lookup key)
          (ny.children.lookup key) := by
      intro key hk
      refine optionRel_mono (hi.children key) ?_
      intro e e' he _ hee
      have hw : e.node ≠ i := by
        intro hj
        have := hen x key e ((entryAt_of_get? hc key).trans he) hj
        exact hk ⟨this.1.symm, this.2⟩
      cases hee with
      | unique h => exact .unique ⟨h, hw⟩
      | poisoned h => exact .poisoned ⟨h, hw⟩
    have hup : Option.Rel (fun x y => ρ x y ∧ x ≠ i) mx.parent ny.parent := by
      refine optionRel_mono hi.parent ?_
      rintro u v hu - huv
      refine ⟨huv, ?_⟩
      rintro rfl
      have hl : x ≠ rootNode := by
        rintro rfl
        obtain ⟨r, hr, hno, -⟩ := ha.tree.root
        rw [hr] at hc
        cases hc
        rw [hno] at hu
        cases hu
      obtain ⟨p', key, e, hp', -, he, -⟩ := ha.tree.parent x mx hc hl
      rw [hu] at hp'
      cases hp'
      rw [entryAt_of_get? hm, (entries_isEmpty_iff m.children).1 hem] at he
      cases he
    rw [get?_dropLeaf, get?_dropLeaf, if_neg (Ne.symm hx), if_neg hy, hc, hny]
    by_cases hd : p = x
    · rw [if_pos hd, if_pos ((hs x y hb).1 hd)]
      refine ⟨_, _, rfl, rfl, ?_⟩
      refine { hi with parent := hup, children := fun key => ?_ }
      rw [lookup_erase_eq, lookup_erase_eq]
      split
      · exact .none
      next hk =>
        exact hh key fun h => hk h.2
    · rw [if_neg hd, if_neg fun hq => hd ((hs x y hb).2 hq)]
      exact ⟨mx, ny, rfl, rfl, { hi with
        parent := hup, children := fun key => hh key fun h => hd h.1 }⟩
  · intro hash
    refine optionRel_mono (h.hashes hash) ?_
    intro x y hx _ hb
    refine ⟨hb, ?_⟩
    rintro rfl
    obtain ⟨node, ho, hf, -⟩ := (ha.hashed hash x).1 hx
    rw [hm] at ho
    cases ho
    rw [hpr] at hf
    cases hf
  · exact congrArg (· - 1) h.liveNodes
  · simp only [DigestKvIndex.dropLeaf, h.logicalTokenIds, hv.logicalTokenIds]
  · simp only [DigestKvIndex.dropLeaf, h.externalHashBytes, hv.externalHash]

theorem Simulates.pruneFrom (ha : a.Wf) {fuelA fuelB : Nat} (hij : ρ i j)
    (hi : (a.arena.total fun _ => 1) ≤ fuelA) (hu : (b.arena.total fun _ => 1) ≤ fuelB) :
    ∃ ρ', Simulates ρ' (a.pruneFrom fuelA i) (b.pruneFrom fuelB j) := by
  induction fuelA generalizing ρ a b fuelB i j with
  | zero =>
    obtain ⟨m, n, hm, -⟩ := h.get i j hij
    have := le_total (fun _ => 1) hm
    omega
  | succ fuelA ih =>
    obtain ⟨m, n, hm, hn, hb⟩ := h.get i j hij
    obtain ⟨fuelB, rfl⟩ : ∃ k, fuelB = k + 1 := by
      have := le_total (fun _ => 1) hn
      exact ⟨fuelB - 1, by omega⟩
    have hr : j = rootNode ↔ i = rootNode := (h.unique _ _ _ _ hij h.root).symm
    rw [pruneFrom_succ, pruneFrom_succ, node_of_get? hm, node_of_get? hn, hb.present,
      hb.isEmpty, hb.block]
    simp only [hr]
    split
    · exact ⟨ρ, h⟩
    rename_i hc
    split
    · exact ⟨ρ, h⟩
    rename_i hl
    simp only [Bool.or_eq_true, not_or, Bool.not_eq_true, Bool.not_eq_eq_eq_not,
      Bool.not_true] at hl
    obtain ⟨p, key, e, hp, hk, he, hj⟩ := ha.tree.parent i m hm hc
    have hup := hb.parent
    rw [hp] at hup
    rcases hq : n.parent with _ | q
    · rw [hq] at hup
      cases hup
    rw [hq] at hup
    have hf : ρ p q := by
      cases hup
      assumption
    simp only [hp, hk]
    have hg := (h.node hf).children key
    have ho : (b.node q).children.lookup key = some (.poisoned j) ↔
        (a.node p).children.lookup key = some (.poisoned i) := by
      generalize (a.node p).children.lookup key = x at hg
      generalize (b.node q).children.lookup key = y at hg
      rcases hg with ⟨⟨hh⟩ | ⟨hh⟩⟩ | _
      · simp
      · simp [h.unique _ _ _ _ hh hij]
      · simp
    simp only [ho]
    split
    · exact ⟨ρ, h⟩
    have hs : p ≠ i := by
      rintro rfl
      obtain ⟨depth, -, hd⟩ := ha.tree.rank
      have := hd _ _ _ he
      rw [hj] at this
      omega
    refine ih (h.dropLeaf ha hij hf hm hn hc hl.1 (by simpa using hl.2) hp hk)
      (ha.dropLeaf hm hc hl.1 (by simpa using hl.2) hp hk) ⟨hf, hs⟩ ?_ ?_
    · have := total_dropLeaf hm p key
      omega
    · have := total_dropLeaf hn q key
      omega

theorem Simulates.vacate (hij : ρ i j) (hash : ExternalBlockHash) :
    Simulates ρ (a.vacate i hash) (b.vacate j hash) := by
  have hs := h.modify hij (fun node => { node with present := false })
    (fun node => { node with present := false })
    (a.byExternalHash.erase hash) (b.byExternalHash.erase hash) a.poisonedEdges ?_ ?_
  · exact { hs with poisonedEdges := h.poisonedEdges }
  · intro m n _ _ hm
    exact { hm with present := rfl }
  · intro hash'
    rw [lookup_erase_eq, lookup_erase_eq]
    split
    · exact .none
    · exact h.hashes hash'

end

section
variable (h : Similar a b)
include h

theorem Similar.clear : Similar a.clear b.clear := by
  obtain ⟨ρ, hs⟩ := h.sim
  exact ⟨h.left.clear, h.right.clear, _, .clear a b hs.limits hs.digester⟩

theorem Similar.store (event : BlockStored) :
    (a.store event).1 = (b.store event).1 ∧ Similar (a.store event).2 (b.store event).2 := by
  obtain ⟨ρ, hs⟩ := h.sim
  obtain ⟨hr, hn⟩ := hs.store h.left h.right event
  exact ⟨hr, h.left.store event, h.right.store event, hn⟩

theorem Similar.removeHash (hash : ExternalBlockHash) :
    (a.removeHash hash).1 = (b.removeHash hash).1 ∧
      Similar (a.removeHash hash).2 (b.removeHash hash).2 := by
  obtain ⟨ρ, hs⟩ := h.sim
  suffices hm : (a.removeHash hash).1 = (b.removeHash hash).1 ∧
      ∃ ρ', Simulates ρ' (a.removeHash hash).2 (b.removeHash hash).2 from
    ⟨hm.1, h.left.removeHash hash, h.right.removeHash hash, hm.2⟩
  rw [h.left.removeHash_eq, h.right.removeHash_eq]
  have hl := hs.hashes hash
  rcases ha : a.byExternalHash.lookup hash with _ | i
  · rw [ha] at hl
    generalize b.byExternalHash.lookup hash = y at hl
    cases hl
    exact ⟨rfl, ρ, hs⟩
  · rcases hb : b.byExternalHash.lookup hash with _ | j
    · rw [ha, hb] at hl
      cases hl
    rw [ha, hb] at hl
    have hij : ρ i j := by
      cases hl
      assumption
    obtain ⟨node, hn, -, hh⟩ := (h.left.hashed _ _).1 ha
    exact ⟨rfl, (hs.vacate hij hash).pruneFrom (h.left.vacate hn hh ha) hij
      (total_one_le_length _) (total_one_le_length _)⟩

theorem Similar.remove (event : BlockRemoved) :
    (a.remove event).1 = (b.remove event).1 ∧ Similar (a.remove event).2 (b.remove event).2 := by
  unfold DigestKvIndex.remove
  induction event.blockHashes generalizing a b with
  | nil => exact ⟨rfl, h⟩
  | cons hash rest ih =>
    obtain ⟨hr, hn⟩ := h.removeHash hash
    obtain ⟨hc, hl⟩ := ih hn
    simp only [removeHashes]
    exact ⟨by rw [hr, hc], hl⟩

end

/-! ## Lookups -/

variable {toks : List UInt32}

theorem length_slice {start length : Nat} (h : start + length ≤ toks.length) :
    (slice toks start (start + length)).length = length := by
  simp only [slice, List.length_take, List.length_drop]
  omega

theorem edge_eq_some_iff (h : a.commit = commitBlock) {id child start stop : Nat} :
    (a.lookupGraph toks).edge id start stop = .ok (some child) ↔
      ∃ c, a.digester.commit (slice toks start stop) = .ok c ∧
        (a.node id).children.lookup c.primary = some (.unique c.guard child) ∧
        (a.node child).present := by
  simp only [lookupGraph, h, commitBlock]
  rcases a.digester.commit (slice toks start stop) with error | c
  · simp
  simp only [Except.ok.injEq, exists_eq_left']
  rcases (a.node id).children.lookup c.primary with _ | ⟨guard, node⟩ | node
  · simp
  · simp only [Option.some.injEq, ChildEntry.unique.injEq]
    split
    next hgd =>
      simp only [Option.some.injEq]
      constructor
      · rintro rfl
        exact ⟨⟨hgd.1, rfl⟩, hgd.2⟩
      · rintro ⟨⟨-, rfl⟩, -⟩
        rfl
    next hgd =>
      simp only [reduceCtorEq, false_iff]
      rintro ⟨⟨rfl, rfl⟩, hp⟩
      exact hgd ⟨rfl, hp⟩
  · simp

theorem Simulates.step (h : Simulates ρ a b) (ha : a.Wf) (hb : b.Wf) {x y : Frame Nat}
    (hij : ρ x.node j) (hs : Step (a.lookupGraph toks) toks.length x y) :
    ∃ j', ρ y.node j' ∧ Step (b.lookupGraph toks) toks.length
      ⟨j, x.offset, x.edges⟩ ⟨j', y.offset, y.edges⟩ := by
  obtain ⟨length, hk, hf, hj, ho, hd⟩ := hs
  obtain ⟨c, hg, hl, hp⟩ := (edge_eq_some_iff ha.commit).1 hj
  have he := (h.node hij).children c.primary
  rw [hl] at he
  rcases hb' : (b.node j).children.lookup c.primary with _ | e
  · rw [hb'] at he
    cases he
  rw [hb'] at he
  obtain ⟨j', rfl, hc⟩ : ∃ j', e = .unique c.guard j' ∧ ρ y.node j' := by
    rcases he with ⟨⟨hc⟩⟩
    exact ⟨_, rfl, hc⟩
  obtain ⟨m, n, hm, hn, -⟩ := h.get _ _ hij
  rw [node_of_get? hn] at hb'
  refine ⟨j', hc, length, ?_, hf, ?_, ho, hd⟩
  · have hi := hb.tree.lengths _ _ _ _ hn hb'
    rw [BlockDigester.tokenCount_of_commit hg, length_slice hf] at hi
    simpa only [lookupGraph, node_of_get? hn] using hi
  refine (edge_eq_some_iff hb.commit).2 ⟨c, h.digester ▸ hg, ?_, ?_⟩
  · rw [node_of_get? hn]
    exact hb'
  · exact (h.node hc).present.trans hp

theorem Simulates.symm (h : Simulates ρ a b) : Simulates (fun i j => ρ j i) b a := by
  have hr : ∀ {α β : Type} {R : α → β → Prop} {x : Option α} {y : Option β},
      Option.Rel R x y → Option.Rel (fun a b => R b a) y x := by
    intro α β R x y hx
    cases hx with
    | some h => exact .some h
    | none => exact .none
  refine ⟨h.root, ?_, ?_, fun hash => hr (h.hashes hash), h.limits.symm, h.digester.symm,
    h.liveNodes.symm, h.logicalTokenIds.symm, h.externalHashBytes.symm, h.poisonedEdges.symm⟩
  · intro i j i' j' hij hij'
    exact (h.unique _ _ _ _ hij hij').symm
  intro i j hij
  obtain ⟨m, n, hm, hn, ha⟩ := h.get j i hij
  refine ⟨n, m, hn, hm, hr ha.parent, ha.block.symm, ha.externalHash.symm,
    ha.present.symm, ha.logicalTokenIds.symm, fun key => ?_⟩
  refine optionRel_mono (hr (ha.children key)) fun _ _ _ _ hx => ?_
  cases hx with
  | unique h => exact .unique h
  | poisoned h => exact .poisoned h

theorem Wf.findLongest_error (h : a.Wf) {e : DigestIndexError}
    (he : a.findLongest toks = .error e) : e = .lookupBudgetExceeded := by
  unfold findLongest at he
  rcases hl : longest (a.lookupGraph toks) a.limits.maxLookupSteps
    toks.length .lookupBudgetExceeded rootNode with error | best
  · simp only [hl, Except.map, Except.error.injEq] at he
    subst he
    refine longest_error ?_ hl
    intro id offset length ha hf
    have hsho : length < 2 ^ 32 := by
      simp only [lookupGraph, node] at ha
      rcases hg : a.arena.get? id with _ | node
      · simp [hg, DigestNode.root] at ha
      · rw [hg] at ha
        exact h.tree.shortLengths id node hg length ha
    obtain ⟨c, hc⟩ := (BlockDigester.commit_ok_iff a.digester
      (slice toks offset (offset + length))).2 (by rwa [length_slice hf])
    simp [lookupGraph, h.commit, commitBlock, hc]
  · simp [hl, Except.map] at he

theorem Similar.findLongest (h : Similar a b) {x y : DigestMatch}
    (hx : a.findLongest toks = .ok x) (hy : b.findLongest toks = .ok y) : x = y := by
  obtain ⟨ρ, hi⟩ := h.sim
  unfold DigestKvIndex.findLongest at hx hy
  rcases hA : longest (a.lookupGraph toks) a.limits.maxLookupSteps
    toks.length .lookupBudgetExceeded rootNode with error | best
  · simp [hA, Except.map] at hx
  rcases hB : longest (b.lookupGraph toks) b.limits.maxLookupSteps
    toks.length .lookupBudgetExceeded rootNode with error | best'
  · simp [hB, Except.map] at hy
  have hb : best = best' := by
    refine longest_congr ρ hi.root ?_ ?_ hA hB
    · intro u v w hu hs
      exact hi.step h.left h.right hu hs
    · intro u v w hu hs
      exact hi.symm.step h.right h.left hu hs
  simp only [hA, hB, Except.map, Except.ok.injEq] at hx hy
  rw [← hx, ← hy, hb]

end DigestKvIndex
end Ramjet
