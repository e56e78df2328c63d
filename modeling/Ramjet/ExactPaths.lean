import Ramjet.ExactTree
import Ramjet.DigestRefinement

/-!
# Paths of the exact index

A lookup of `exact_index.rs` reaches exactly the prefixes of the request that a path of
resident blocks spells out, so its answer is the longest of them.
-/

namespace Ramjet
open PrefixSearch List
variable {start stop : Nat}

theorem take_append_slice (tokens : List UInt32) (h : start ≤ stop) :
    tokens.take start ++ slice tokens start stop = tokens.take stop := by
  rw [slice, ← take_add, Nat.add_sub_cancel' h]

theorem length_slice {tokens : List UInt32} (h : stop ≤ tokens.length) :
    (slice tokens start stop).length = stop - start := by
  simp only [slice, length_take, length_drop]
  omega

namespace ExactKvIndex
variable {index : ExactKvIndex} {tokenIds : List UInt32}

def presentChild (index : ExactKvIndex) (id : Nat) (block : List UInt32) : Option Nat :=
  (index.childAt id block).filter fun child => (index.node child).present

variable {block : List UInt32} {id child : Nat} {frame : Frame Nat}

theorem presentChild_eq_some : index.presentChild id block = some child ↔
      index.childAt id block = some child ∧ (index.node child).present :=
  Option.filter_eq_some_iff

/-- The blocks label a path of resident nodes from the root. -/
def PresentPath (index : ExactKvIndex) (path : List (List UInt32)) : Prop :=
  ∃ id, Walk.walk index.presentChild rootNode path = some id

/-- The lengths a lookup tries at the end of a path. -/
def pathProbes (index : ExactKvIndex) (path : List (List UInt32)) : Nat :=
  (Walk.walk index.presentChild rootNode path).elim 0 fun id => (index.node id).childLengths.length

theorem edge_lookupGraph (id start stop : Nat) : (index.lookupGraph tokenIds).edge id start stop =
      .ok (index.presentChild id (slice tokenIds start stop)) := by
  simp only [lookupGraph, lookup_children, presentChild]
  rcases index.childAt id (slice tokenIds start stop) with _ | child
  · rfl
  · simp [Option.filter]

theorem lengths_lookupGraph (h : index.Tree) (id : Nat) :
    ((index.lookupGraph tokenIds).lengths id).Nodup := by
  change (index.node id).childLengths.Nodup
  rcases hg : index.arena.get? id with _ | node
  · simp [ExactKvIndex.node, hg, ExactNode.root]
  · rw [node_of_get? hg]
    exact h.lengths id node hg

theorem tried_of_presentChild (h : index.Tree) (he : index.presentChild id block = some child) :
    block.length ∈ (index.node id).childLengths := by
  obtain ⟨node, hg, hl⟩ := childAt_eq_some.1 (presentChild_eq_some.1 he).1
  rw [node_of_get? hg]
  exact h.tried id node block child hg hl

/-- A frame spells out a prefix of the request. -/
structure Spells (index : ExactKvIndex) (tokenIds : List UInt32) (path : List (List UInt32))
    (frame : Frame Nat) : Prop where
  walk : Walk.walk index.presentChild rootNode path = some frame.node
  tokens : path.flatten = tokenIds.take frame.offset
  fits : frame.offset ≤ tokenIds.length
  blocks : frame.edges = path.length

variable {path : List (List UInt32)}

theorem Spells.snoc {a b : Frame Nat} {lengths : List Nat} (h : index.Spells tokenIds path a)
    (hs : Successor (index.lookupGraph tokenIds) tokenIds.length lengths a b) :
    index.Spells tokenIds (path ++ [slice tokenIds a.offset b.offset]) b := by
  obtain ⟨length, -, hf, he, ho, hd⟩ := hs
  rw [edge_lookupGraph, ← ho] at he
  refine ⟨Walk.walk_snoc.2 ⟨a.node, h.walk, Except.ok.inj he⟩, ?_, by omega, ?_⟩
  · have hl : a.offset ≤ b.offset := by omega
    rw [flatten_append, h.tokens, flatten_singleton, take_append_slice _ hl]
  · rw [hd, h.blocks, length_append, length_singleton]

theorem spells_root : index.Spells tokenIds [] ⟨rootNode, 0, 0⟩ :=
  ⟨rfl, rfl, Nat.zero_le _, rfl⟩

theorem spells_of_reaches
    (h : Reaches (index.lookupGraph tokenIds) tokenIds.length ⟨rootNode, 0, 0⟩ frame) :
    ∃ path, index.Spells tokenIds path frame := by
  induction h with
  | refl => exact ⟨[], spells_root⟩
  | tail _ hs ih =>
    obtain ⟨path, hp⟩ := ih
    exact ⟨_, hp.snoc hs⟩

theorem spells_of_leads {trail : List Nat}
    (h : Leads (index.lookupGraph tokenIds) tokenIds.length rootNode trail frame) :
    ∃ path, index.Spells tokenIds path frame ∧ path.map length = trail := by
  induction h with
  | nil => exact ⟨[], spells_root, rfl⟩
  | snoc h _ hs ih =>
    obtain ⟨path, hp, ht⟩ := ih
    refine ⟨_, hp.snoc hs, ?_⟩
    obtain ⟨length, hl, hf, -, ho, -⟩ := hs
    rw [mem_singleton] at hl
    subst hl
    rw [map_append, ht, map_singleton, length_slice (by omega), ho, Nat.add_sub_cancel_left]

theorem reaches_of_walk (h : index.Tree) {id : Nat}
    (hw : Walk.walk index.presentChild rootNode path = some id) (hk : path.flatten <+: tokenIds) :
    Reaches (index.lookupGraph tokenIds) tokenIds.length ⟨rootNode, 0, 0⟩
      ⟨id, path.flatten.length, path.length⟩ := by
  induction path using reverseRecOn generalizing id with
  | nil =>
    cases hw
    exact .refl
  | append_singleton path block ih =>
    obtain ⟨p, hp, he⟩ := Walk.walk_snoc.1 hw
    rw [flatten_append, flatten_singleton] at hk ⊢
    obtain ⟨tail, ht⟩ := hk
    have hb : path.flatten <+: tokenIds := ⟨block ++ tail, by rw [← ht, append_assoc]⟩
    refine (ih hp hb).tail ⟨block.length, tried_of_presentChild h he, ?_, ?_, ?_, ?_⟩
    · rw [← ht]
      simp
    · rw [edge_lookupGraph]
      have hs : slice tokenIds path.flatten.length (path.flatten.length + block.length) =
          block := by
        rw [← ht, slice]
        simp
      rw [hs, he]
    · simp
    · simp

variable {found : ExactMatch}

theorem longest_of_findLongest (h : index.findLongest tokenIds = .ok found) :
    longest (index.lookupGraph tokenIds) index.limits.maxLookupSteps tokenIds.length
      .lookupBudgetExceeded rootNode = .ok ⟨found.blocks, found.tokenIds⟩ := by
  unfold findLongest at h
  rcases hl : longest (index.lookupGraph tokenIds) index.limits.maxLookupSteps
    tokenIds.length .lookupBudgetExceeded rootNode with error | best
  · simp [hl, Except.map] at h
  simp only [hl, Except.map, Except.ok.injEq] at h
  subst h
  rfl

theorem findLongest_spelled (h : index.findLongest tokenIds = .ok found) :
    ∃ path, index.PresentPath path ∧ path.flatten = tokenIds.take found.tokenIds ∧
      found.tokenIds ≤ tokenIds.length ∧ path.length = found.blocks := by
  obtain ⟨-, frame, hr, he⟩ := longest_ok (longest_of_findLongest h)
  simp only [Best.mk.injEq] at he
  obtain ⟨hb, ht⟩ := he
  obtain ⟨path, hp⟩ := spells_of_reaches hr
  rw [hb, ht]
  exact ⟨path, ⟨_, hp.walk⟩, hp.tokens, hp.fits, hp.blocks.symm⟩

theorem findLongest_greatest (hwf : index.Tree) (h : index.findLongest tokenIds = .ok found)
    (hp : index.PresentPath path) (ht : path.flatten <+: tokenIds) :
    path.flatten.length ≤ found.tokenIds ∧
      (path.flatten.length = found.tokenIds → path.length ≤ found.blocks) := by
  obtain ⟨hc, -⟩ := longest_ok (longest_of_findLongest h)
  obtain ⟨id, hw⟩ := hp
  have := hc _ (reaches_of_walk hwf hw ht)
  simp only [Best.Covers] at this
  omega

theorem findLongest_over_budget (hwf : index.Tree) {error : ExactIndexError}
    (h : index.findLongest tokenIds = .error error) :
    error = .lookupBudgetExceeded ∧ ∃ paths : List (List (List UInt32)), paths.Nodup ∧
      (∀ path ∈ paths, index.PresentPath path ∧ path.flatten <+: tokenIds) ∧
      index.limits.maxLookupSteps < (paths.map index.pathProbes).sum := by
  have he : ∀ node offset length, length ∈ (index.lookupGraph tokenIds).lengths node →
      offset + length ≤ tokenIds.length → ∃ found,
        (index.lookupGraph tokenIds).edge node offset (offset + length) = .ok found :=
    fun node offset length _ _ => ⟨_, edge_lookupGraph _ _ _⟩
  have hl : longest (index.lookupGraph tokenIds) index.limits.maxLookupSteps
      tokenIds.length .lookupBudgetExceeded rootNode = .error error := by
    unfold findLongest at h
    rcases hl : longest (index.lookupGraph tokenIds)
      index.limits.maxLookupSteps tokenIds.length .lookupBudgetExceeded rootNode with error' | best
    · simpa [hl, Except.map] using h
    · simp [hl, Except.map] at h
  refine ⟨longest_error he hl, ?_⟩
  obtain ⟨visited, hd, hb, hu⟩ :=
    longest_over_budget he (lengths_lookupGraph hwf) hl
  have hs : ∀ entry ∈ visited, ∃ path, index.Spells tokenIds path entry.2 ∧
      path.map length = entry.1 := fun entry hn => spells_of_leads (hb entry hn)
  choose! pathOf hp using hs
  refine ⟨visited.map pathOf, ?_, ?_, ?_⟩
  · -- different trails have different lengths, so different paths
    have ha : (visited.map pathOf).map (map length) = visited.map Prod.fst := by
      rw [map_map]
      exact map_congr_left fun entry hn => (hp entry hn).2
    apply Nodup.of_map (map length)
    rw [ha]
    exact hd
  · intro path hc
    obtain ⟨entry, hn, rfl⟩ := mem_map.1 hc
    have hs := (hp entry hn).1
    refine ⟨⟨_, hs.walk⟩, ?_⟩
    rw [hs.tokens]
    exact take_prefix _ _
  · have hr : (visited.map pathOf).map index.pathProbes =
        visited.map fun entry => ((index.lookupGraph tokenIds).lengths entry.2.node).length := by
      rw [map_map]
      refine map_congr_left fun entry hn => ?_
      simp only [Function.comp_apply, pathProbes, (hp entry hn).1.walk]
      rfl
    rw [hr]
    exact hu

/-- An index under stores, removals and clears, whatever they answer. -/
def operations (limits : ExactIndexLimits) : TransitionSystem ExactKvIndex IndexOp where
  init index := index = .new limits
  step index op index' := index' = (op.onExact index).2

theorem wf_onExact (h : index.Wf) (op : IndexOp) : (op.onExact index).2.Wf := by
  cases op with
  | store event => exact h.store event
  | remove event => exact h.remove event
  | clear => exact .clear index

theorem limits_onExact (index : ExactKvIndex) (op : IndexOp) :
    (op.onExact index).2.limits = index.limits := by
  cases op with
  | store event => exact limits_store _ _
  | remove event => exact limits_removeHashes _ _
  | clear => rfl

theorem wf_of_reachable {limits : ExactIndexLimits} (h : (operations limits).Reachable index) :
    index.Wf ∧ index.limits = limits := by
  refine h.invariant (P := fun index => index.Wf ∧ index.limits = limits) ?_ ?_
  · rintro index rfl
    exact ⟨.new limits, rfl⟩
  · rintro index op index' ⟨hwf, hl⟩ rfl
    exact ⟨wf_onExact hwf op, (limits_onExact index op).trans hl⟩

/-- In every index that stores, removals and clears lead to, a lookup returns
the longest prefix of the request that resident blocks spell out, in the
greatest number of blocks, and gives up only over budget. -/
theorem find_longest_exact (limits : ExactIndexLimits) (index : ExactKvIndex)
    (h : (operations limits).Reachable index) (tokenIds : List UInt32) :
    (∀ found, index.findLongest tokenIds = .ok found →
      (∃ path, index.PresentPath path ∧ path.flatten = tokenIds.take found.tokenIds ∧
        found.tokenIds ≤ tokenIds.length ∧ path.length = found.blocks) ∧
      ∀ path, index.PresentPath path → path.flatten <+: tokenIds →
        path.flatten.length ≤ found.tokenIds ∧
          (path.flatten.length = found.tokenIds → path.length ≤ found.blocks)) ∧
    ∀ error, index.findLongest tokenIds = .error error →
      error = .lookupBudgetExceeded ∧ ∃ paths : List (List (List UInt32)), paths.Nodup ∧
        (∀ path ∈ paths, index.PresentPath path ∧ path.flatten <+: tokenIds) ∧
        limits.maxLookupSteps < (paths.map index.pathProbes).sum := by
  obtain ⟨hwf, hl⟩ := wf_of_reachable h
  refine ⟨?_, ?_⟩
  · intro found hf
    refine ⟨findLongest_spelled hf, ?_⟩
    intro path hp ht
    exact findLongest_greatest hwf.tree hf hp ht
  · intro error he
    rw [← hl]
    exact findLongest_over_budget hwf.tree he

/-- Two blocks under one another, found in a request for three. -/
theorem find_longest_exact_sample : ∃ index, (operations ⟨8, 8, 8⟩).Reachable index ∧
      index.findLongest [1, 2, 3] = .ok ⟨2, 2⟩ ∧
      ∃ path, index.PresentPath path ∧ path.flatten = [1, 2] ∧ path.length = 2 := by
  have hr : (operations ⟨8, 8, 8⟩).Reachable
      ((IndexOp.store (storeTokens [1, 2] [7, 8])).onExact (.new ⟨8, 8, 8⟩)).2 :=
    .step (.init rfl) (a := .store (storeTokens [1, 2] [7, 8])) rfl
  have hf : ExactKvIndex.findLongest
      ((IndexOp.store (storeTokens [1, 2] [7, 8])).onExact (.new ⟨8, 8, 8⟩)).2 [1, 2, 3] =
        .ok ⟨2, 2⟩ := by
    decide +kernel
  refine ⟨_, hr, hf, ?_⟩
  obtain ⟨⟨path, hp, ht, -, hb⟩, -⟩ :=
    (find_longest_exact _ _ hr [1, 2, 3]).1 _ hf
  exact ⟨path, hp, ht, hb⟩

end ExactKvIndex
end Ramjet
