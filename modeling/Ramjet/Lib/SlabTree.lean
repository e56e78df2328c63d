import Ramjet.Lib.Slab

/-!
# Trees in a slab

A node says under which parent and key it hangs, and the parent's entry leads back to it.
-/

namespace Slab
variable {ν : Type} {s : Slab ν} {i j : Nat} {a b : ν} {f : ν → ν}

theorem get?_singleton_eq_some (h : (singleton a).get? i = some b) : i = 0 ∧ b = a := by
  rw [get?_singleton] at h
  split at h
  · cases h
    exact ⟨by assumption, rfl⟩
  · cases h

variable {P : Nat → ν → Prop}

theorem forall_modify (h : ∀ j a, s.get? j = some a → P j a)
    (hf : ∀ a, s.get? i = some a → P i (f a)) (j : Nat) (b : ν)
    (hg : (s.modify i f).get? j = some b) : P j b := by
  rw [get?_modify] at hg
  split at hg
  next hij =>
    subst hij
    obtain ⟨a, ha, rfl⟩ := Option.map_eq_some_iff.1 hg
    exact hf a ha
  · exact h j b hg

theorem forall_alloc (hs : s.Wf) (h : ∀ j a, s.get? j = some a → P j a) (ha : ∀ j, P j a) (j : Nat)
    (b : ν) (hg : (s.alloc a).2.get? j = some b) : P j b := by
  rw [get?_alloc hs] at hg
  split at hg
  · cases hg
    exact ha j
  · exact h j b hg

theorem forall_release (h : ∀ j a, s.get? j = some a → P j a) (i j : Nat) (b : ν)
    (hg : (s.release i).get? j = some b) : P j b := by
  rw [get?_release] at hg
  split at hg
  · cases hg
  · exact h j b hg

section Modify
variable {R : ν → ν → Prop} (hrefl : ∀ a, R a a) (hf : ∀ a, s.get? i = some a → R a (f a))
include hrefl hf

/-- After a rewrite every node is related to the one before. -/
theorem modify_back (h : (s.modify i f).get? j = some b) : ∃ a, s.get? j = some a ∧ R a b :=
  forall_modify (P := fun j b => ∃ a, s.get? j = some a ∧ R a b)
    (fun _ a ha => ⟨a, ha, hrefl a⟩) (fun a ha => ⟨a, ha, hf a ha⟩) j b h

theorem modify_forth (h : s.get? j = some a) : ∃ b, (s.modify i f).get? j = some b ∧ R a b := by
  rw [get?_modify]
  split
  next hij =>
    subst hij
    exact ⟨f a, by rw [h]; rfl, hf a h⟩
  · exact ⟨a, h, hrefl a⟩

end Modify

/-- Put a node into the slab and tell its parent the position. -/
def grow (s : Slab ν) (l : ν) (p : Nat) (g : Nat → ν → ν) : Nat × Slab ν :=
  ((s.alloc l).1, (s.alloc l).2.modify p (g (s.alloc l).1))

def drop (s : Slab ν) (id p : Nat) (f : ν → ν) : Slab ν := (s.release id).modify p f

section Grow
variable {l : ν} {p : Nat} {g : Nat → ν → ν}

theorem grow_ne (hs : s.Wf) (h : s.get? i = some a) (l : ν) (p : Nat) (g : Nat → ν → ν) :
    (s.grow l p g).1 ≠ i := by
  rintro rfl
  have hr : s.get? (s.grow l p g).1 = none := alloc_fresh hs l
  rw [h] at hr
  cases hr

theorem get?_grow (hs : s.Wf) (hl : s.Live p) (l : ν) (g : Nat → ν → ν) (i : Nat) :
    (s.grow l p g).2.get? i = if (s.grow l p g).1 = i then some l
      else if p = i then (s.get? i).map (g (s.grow l p g).1) else s.get? i := by
  obtain ⟨parent, ha⟩ := live_iff.1 hl
  have hn := grow_ne hs ha l p g
  simp only [grow] at hn ⊢
  rw [get?_modify, get?_alloc hs]
  by_cases hi : (s.alloc l).1 = i
  · have hp : p ≠ i := fun h => hn (hi.trans h.symm)
    simp only [hi, hp, if_true, if_false]
  · simp only [hi, if_false]

theorem forall_grow {P : Nat → ν → Prop} (hs : s.Wf) (h : ∀ j a, s.get? j = some a → P j a)
    (hlf : ∀ j, P j l) (hadd : ∀ id a, P p a → P p (g id a)) (j : Nat) (b : ν)
    (hg : (s.grow l p g).2.get? j = some b) : P j b :=
  forall_modify (forall_alloc hs h hlf) (fun a ha => hadd _ a (forall_alloc hs h hlf p a ha)) j b hg

theorem total_grow (size : ν → Nat) (hs : s.Wf) (hadd : ∀ id a, size (g id a) = size a) :
    (s.grow l p g).2.total size = s.total size + size l :=
  (total_modify size fun a _ => hadd _ a).trans (total_alloc size hs l)

end Grow

section Drop
variable {p : Nat}

theorem get?_drop (s : Slab ν) (id p : Nat) (f : ν → ν) (i : Nat) : (s.drop id p f).get? i =
    if id = i then none else if p = i then (s.get? i).map f else s.get? i := by
  simp only [drop, get?_modify, get?_release]
  by_cases hi : id = i
  · simp [hi]
  · simp [hi]

theorem forall_drop {P : Nat → ν → Prop} (h : ∀ j a, s.get? j = some a → P j a)
    (hf : ∀ a, P p a → P p (f a)) (j : Nat) (b : ν) (hg : (s.drop i p f).get? j = some b) :
    P j b :=
  forall_modify (forall_release h i) (fun a ha => hf a (forall_release h i p a ha)) j b hg

theorem total_drop (size : ν → Nat) (hg : s.get? i = some a) (hf : ∀ a, size (f a) = size a) :
    (s.drop i p f).total size + size a = s.total size := by
  rw [← total_release size hg]
  exact congrArg (· + size a) (total_modify size fun b _ => hf b)

end Drop
end Slab

structure NodeView (ν κ ε : Type) where
  Hangs : ν → Nat → κ → Prop
  entry : ν → κ → Option ε
  target : ε → Nat
  hangs_unique : ∀ {node p key p' key'}, Hangs node p key → Hangs node p' key' → p = p' ∧ key = key'

namespace NodeView
variable {ν κ ε : Type} {V : NodeView ν κ ε} {s : Slab ν} {root id p : Nat} {key : κ}
  {node l : ν} {f : ν → ν}

def entryAt (V : NodeView ν κ ε) (s : Slab ν) (id : Nat) (key : κ) : Option ε :=
  (s.get? id).bind (V.entry · key)

theorem entryAt_eq_some {e : ε} :
    V.entryAt s id key = some e ↔ ∃ node, s.get? id = some node ∧ V.entry node key = some e := by
  simp [entryAt, Option.bind_eq_some_iff]

theorem entryAt_singleton (h : ∀ k, V.entry node k = none) (i : Nat) (key : κ) :
    V.entryAt (.singleton node) i key = none := by
  rw [entryAt, Slab.get?_singleton]
  split
  · exact h key
  · rfl

structure Tree (V : NodeView ν κ ε) (root : Nat) (s : Slab ν) : Prop where
  slab : s.Wf
  child : ∀ p key e, V.entryAt s p key = some e →
    ∃ node, s.get? (V.target e) = some node ∧ V.Hangs node p key
  parent : ∀ id node, s.get? id = some node → id ≠ root →
    ∃ p key e, V.Hangs node p key ∧ V.entryAt s p key = some e ∧ V.target e = id

/-- Depths grow by one along the entries. -/
def Ranked (V : NodeView ν κ ε) (root : Nat) (s : Slab ν) : Prop :=
  ∃ depth : Nat → Nat, depth root = 0 ∧
    ∀ p key e, V.entryAt s p key = some e → depth (V.target e) = depth p + 1

/-- Two nodes in the same place of the tree. -/
structure Same (V : NodeView ν κ ε) (node node' : ν) : Prop where
  hangs : ∀ p key, V.Hangs node p key → V.Hangs node' p key
  entry : ∀ key, (V.entry node' key).map V.target = (V.entry node key).map V.target

theorem Same.rfl : V.Same node node := ⟨fun _ _ h => h, fun _ => Eq.refl _⟩

section Modify
variable (hf : ∀ node, s.get? id = some node → V.Same node (f node))
include hf

theorem target_modify (p : Nat) (key : κ) :
    (V.entryAt (s.modify id f) p key).map V.target = (V.entryAt s p key).map V.target := by
  rcases hg : s.get? p with _ | node
  · simp [entryAt, hg]
  obtain ⟨node', hg', hm⟩ := Slab.modify_forth (fun _ => Same.rfl) hf hg
  simp only [entryAt, hg, hg', Option.bind_some]
  exact hm.entry key

theorem entryAt_modify {e' : ε} (h : V.entryAt (s.modify id f) p key = some e') :
    ∃ e, V.entryAt s p key = some e ∧ V.target e = V.target e' := by
  have ht := target_modify hf p key
  rw [h, Option.map_some] at ht
  exact Option.map_eq_some_iff.1 ht.symm

theorem Tree.modify (h : V.Tree root s) : V.Tree root (s.modify id f) := by
  refine ⟨Slab.modify_wf h.slab _ _, fun p key e' he' => ?_, fun i node' hn' hi => ?_⟩
  · obtain ⟨e, he, ht⟩ := entryAt_modify hf he'
    obtain ⟨node, hn, hh⟩ := h.child p key e he
    obtain ⟨node', hn', hm⟩ := Slab.modify_forth (fun _ => Same.rfl) hf hn
    exact ⟨node', ht ▸ hn', hm.hangs p key hh⟩
  · obtain ⟨node, hn, hm⟩ := Slab.modify_back (fun _ => Same.rfl) hf hn'
    obtain ⟨p, key, e, hh, he, hd⟩ := h.parent i node hn hi
    have ht := target_modify hf p key
    rw [he, Option.map_some] at ht
    obtain ⟨e', he', ht⟩ := Option.map_eq_some_iff.1 ht
    exact ⟨p, key, e', hm.hangs p key hh, he', ht.trans hd⟩

theorem Ranked.modify (h : V.Ranked root s) : V.Ranked root (s.modify id f) := by
  obtain ⟨depth, hr, hd⟩ := h
  refine ⟨depth, hr, fun p key e' he' => ?_⟩
  obtain ⟨e, he, ht⟩ := entryAt_modify hf he'
  rw [← ht]
  exact hd p key e he

end Modify

structure Rewires [DecidableEq κ] (V : NodeView ν κ ε) (f : ν → ν) (key : κ) (e : Option ε) :
    Prop where
  hangs : ∀ node p key, V.Hangs node p key → V.Hangs (f node) p key
  entry : ∀ node k, V.entry (f node) k = if k = key then e else V.entry node k

variable [DecidableEq κ]

section Grow
variable {g : Nat → ν → ν} {edge : Nat → ε} (hs : s.Wf) (hl : s.Live p)
  (hlf : ∀ k, V.entry l k = none) (hadd : ∀ id, V.Rewires (g id) key (some (edge id)))

include hs hl hlf hadd

theorem entryAt_grow (i : Nat) (k : κ) : V.entryAt (s.grow l p g).2 i k =
    if i = p ∧ k = key then some (edge (s.grow l p g).1) else V.entryAt s i k := by
  obtain ⟨parent, hp⟩ := Slab.live_iff.1 hl
  have hn := Slab.grow_ne hs hp l p g
  have hr : s.get? (s.grow l p g).1 = none := Slab.alloc_fresh hs l
  rw [entryAt, Slab.get?_grow hs hl]
  split
  next hi =>
    subst hi
    simp [entryAt, hr, hn, hlf]
  split
  next hi =>
    subst hi
    simp [entryAt, hp, (hadd _).entry]
  next hi =>
    simp [entryAt, Ne.symm hi]

/-- A new leaf where there was no entry. -/
theorem Tree.grow (h : V.Tree root s) (ho : V.entryAt s p key = none) (ha : V.Hangs l p key)
    (ht : ∀ id, V.target (edge id) = id) : V.Tree root (s.grow l p g).2 := by
  have hb := entryAt_grow hs hl hlf hadd
  have hg := Slab.get?_grow hs hl l g
  refine ⟨Slab.modify_wf (Slab.alloc_wf hs _) _ _, fun q k e he => ?_, ?_⟩
  · rw [hb] at he
    split at he
    next hq =>
      obtain ⟨rfl, rfl⟩ := hq
      cases he
      exact ⟨l, by rw [hg, ht, if_pos rfl], ha⟩
    · obtain ⟨node, hn, hh⟩ := h.child q k e he
      rw [hg, if_neg (Slab.grow_ne hs hn l p g), hn]
      split
      · exact ⟨_, rfl, (hadd _).hangs _ _ _ hh⟩
      · exact ⟨_, rfl, hh⟩
  · intro i node' hn' hi
    rw [hg] at hn'
    split at hn'
    next hd =>
      cases hn'
      exact ⟨p, key, edge _, ha, by rw [hb, if_pos ⟨rfl, rfl⟩], (ht _).trans hd⟩
    obtain ⟨node, hn, hk⟩ : ∃ node, s.get? i = some node ∧
        ∀ q k, V.Hangs node q k → V.Hangs node' q k := by
      split at hn'
      · obtain ⟨node, hn, rfl⟩ := Option.map_eq_some_iff.1 hn'
        exact ⟨node, hn, (hadd _).hangs node⟩
      · exact ⟨node', hn', fun _ _ hh => hh⟩
    obtain ⟨q, k, e, hh, he, hd⟩ := h.parent i node hn hi
    refine ⟨q, k, e, hk q k hh, ?_, hd⟩
    -- the leaf took a place that was free
    rw [hb, if_neg, he]
    rintro ⟨rfl, rfl⟩
    rw [ho] at he
    cases he

theorem Ranked.grow (h : V.Ranked root s) (ha : V.Tree root s) (hr : s.Live root)
    (ht : ∀ id, V.target (edge id) = id) : V.Ranked root (s.grow l p g).2 := by
  obtain ⟨depth, hz, hd⟩ := h
  have hold : ∀ i, s.Live i → i ≠ (s.grow l p g).1 := by
    intro i hi
    obtain ⟨node, hn⟩ := Slab.live_iff.1 hi
    exact (Slab.grow_ne hs hn l p g).symm
  refine ⟨Function.update depth (s.grow l p g).1 (depth p + 1), ?_, fun q k e he => ?_⟩
  · rw [Function.update_of_ne (hold root hr), hz]
  rw [entryAt_grow hs hl hlf hadd] at he
  split at he
  next hq =>
    obtain ⟨rfl, rfl⟩ := hq
    cases he
    rw [ht, Function.update_self, Function.update_of_ne (hold q hl)]
  · obtain ⟨node, hn, -⟩ := ha.child q k e he
    obtain ⟨parent, hp, -⟩ := entryAt_eq_some.1 he
    rw [Function.update_of_ne (hold _ (Slab.live_iff.2 ⟨node, hn⟩)),
      Function.update_of_ne (hold _ (Slab.live_iff.2 ⟨parent, hp⟩))]
    exact hd q k e he

end Grow

section Drop
variable (hg : s.get? id = some node) (hem : ∀ k, V.entry node k = none)
  (hf : V.Rewires f key none)

include hg hem hf

theorem entryAt_drop (p i : Nat) (k : κ) : V.entryAt (s.drop id p f) i k =
    if i = p ∧ k = key then none else V.entryAt s i k := by
  rw [entryAt, Slab.get?_drop]
  by_cases hi : id = i
  · subst hi
    simp [entryAt, hg, hem]
  rw [if_neg hi]
  by_cases hp : p = i
  · subst hp
    rcases ha : s.get? p with _ | parent
    · simp [entryAt, ha]
    · simp [entryAt, ha, hf.entry]
  · simp [hp, Ne.symm hp, entryAt]

/-- The loss of a leaf, with the entry that led to it. -/
theorem Tree.drop (h : V.Tree root s) (hr : id ≠ root) (hn : V.Hangs node p key) :
    V.Tree root (s.drop id p f) := by
  have hb := entryAt_drop hg hem hf p
  obtain ⟨q, k, edge, hh, hd, hj⟩ := h.parent id node hg hr
  obtain ⟨rfl, rfl⟩ := V.hangs_unique hn hh
  refine ⟨Slab.modify_wf (Slab.release_wf h.slab (Slab.live_iff.2 ⟨node, hg⟩)) _ _,
    fun q k e he => ?_, fun i other ho hi => ?_⟩
  · rw [hb] at he
    split at he
    · cases he
    rename_i ha
    obtain ⟨child, hc, hh⟩ := h.child q k e he
    -- the lost entry was the only one that led to the leaf
    have ht : id ≠ V.target e := by
      rintro rfl
      rw [hg] at hc
      cases hc
      obtain ⟨rfl, rfl⟩ := V.hangs_unique hn hh
      exact ha ⟨rfl, rfl⟩
    rw [Slab.get?_drop, if_neg ht, hc]
    split
    · exact ⟨_, rfl, hf.hangs _ _ _ hh⟩
    · exact ⟨_, rfl, hh⟩
  · rw [Slab.get?_drop] at ho
    split at ho
    · cases ho
    rename_i ha
    obtain ⟨old, hold, hk⟩ : ∃ old, s.get? i = some old ∧
        ∀ q k, V.Hangs old q k → V.Hangs other q k := by
      split at ho
      · obtain ⟨old, hold, rfl⟩ := Option.map_eq_some_iff.1 ho
        exact ⟨old, hold, hf.hangs old⟩
      · exact ⟨other, ho, fun _ _ hh => hh⟩
    obtain ⟨q, k, e, hh, he, ht⟩ := h.parent i old hold hi
    refine ⟨q, k, e, hk q k hh, ?_, ht⟩
    rw [hb, if_neg, he]
    rintro ⟨rfl, rfl⟩
    rw [hd] at he
    cases he
    exact ha (hj.symm.trans ht)

theorem Ranked.drop (h : V.Ranked root s) (p : Nat) : V.Ranked root (s.drop id p f) := by
  obtain ⟨depth, hz, hd⟩ := h
  refine ⟨depth, hz, fun q k e he => ?_⟩
  rw [entryAt_drop hg hem hf] at he
  split at he
  · cases he
  · exact hd q k e he

end Drop
end NodeView

/-- What a reverse lookup reads of a node. -/
structure NameView (ν η : Type) where
  name : ν → Option η
  present : ν → Bool

namespace NameView
variable {ν η : Type} {N : NameView ν η} {s : Slab ν} {m : HashMap η Nat} {id : Nat} {node : ν}
  {hash : η} {f : ν → ν}

def Names (N : NameView ν η) (s : Slab ν) (hash : η) (id : Nat) : Prop :=
  ∃ node, s.get? id = some node ∧ N.present node ∧ N.name node = some hash

theorem names_of_ne {i : Nat} (hi : i ≠ id) (hash : η) :
    N.Names (s.modify id f) hash i ↔ N.Names s hash i := by
  simp only [Names, Slab.get?_modify, if_neg hi.symm]

variable [DecidableEq η]

def Filed (N : NameView ν η) (s : Slab ν) (m : HashMap η Nat) : Prop :=
  ∀ hash id, m.lookup hash = some id ↔ N.Names s hash id

def FiledBut (N : NameView ν η) (s : Slab ν) (m : HashMap η Nat) (id : Nat) (hash : η) : Prop :=
  ∀ hash' i, i ≠ id ∨ hash' ≠ hash → (m.lookup hash' = some i ↔ N.Names s hash' i)

theorem Filed.singleton (h : N.name node = none) : N.Filed (.singleton node) ∅ := by
  intro hash id
  refine ⟨nofun, ?_⟩
  rintro ⟨other, ho, -, hn⟩
  rw [(Slab.get?_singleton_eq_some ho).2, h] at hn
  cases hn

/-- A rewrite that keeps names and presence keeps the lookup. -/
theorem Filed.modify (h : N.Filed s m)
    (hf : ∀ a, N.present (f a) = N.present a ∧ N.name (f a) = N.name a) (id : Nat) :
    N.Filed (s.modify id f) m := by
  intro hash i
  refine (h hash i).trans ?_
  simp only [Names, Slab.get?_modify]
  split
  · simp only [Option.map_eq_some_iff, exists_exists_and_eq_and, (hf _).1, (hf _).2]
  · rfl

/-- A node comes under its name. -/
theorem FiledBut.insert (h : N.FiledBut s m id hash) (hg : s.get? id = some node)
    (ha : N.name node = some hash) (hf : N.present (f node) ∧ N.name (f node) = some hash)
    (he : ∀ i, m.lookup hash = some i → i = id) : N.Filed (s.modify id f) (m.insert hash id) := by
  intro hash' i
  rw [AList.lookup_insert_eq]
  by_cases hi : i = id
  · subst hi
    have hm : N.Names (s.modify i f) hash' i ↔ hash' = hash := by
      simp only [Names, Slab.get?_modify, hg, if_true, Option.map_some, Option.some.injEq,
        exists_eq_left', hf.1, hf.2, true_and]
      exact eq_comm
    rw [hm]
    by_cases heq : hash' = hash
    · simp [heq]
    have hn : ¬ N.Names s hash' i := by
      rintro ⟨other, ho, -, ha'⟩
      rw [hg] at ho
      cases ho
      exact heq (Option.some.inj (ha'.symm.trans ha))
    simp [heq, h hash' i (.inr heq), hn]
  · rw [names_of_ne hi, ← h hash' i (.inl hi)]
    split
    next heq =>
      subst heq
      exact ⟨fun hb => absurd (Option.some.inj hb).symm hi, fun hb => absurd (he i hb) hi⟩
    · rfl

/-- A node goes from the lookup. -/
theorem Filed.erase (h : N.Filed s m) (hg : s.get? id = some node)
    (hn : N.name node = some hash) (hk : m.lookup hash = some id)
    (hf : N.present (f node) = false) : N.Filed (s.modify id f) (m.erase hash) := by
  intro hash' i
  rw [AList.lookup_erase_eq]
  by_cases hi : i = id
  · subst hi
    have ha : ¬ N.Names (s.modify i f) hash' i := by
      simp [Names, hg, hf]
    refine ⟨fun hb => ?_, fun hw => absurd hw ha⟩
    split at hb
    · cases hb
    rename_i heq
    obtain ⟨other, ho, -, hn'⟩ := (h hash' i).1 hb
    rw [hg] at ho
    cases ho
    exact absurd (Option.some.inj (hn'.symm.trans hn)) heq
  · rw [names_of_ne hi, ← h hash' i]
    split
    next heq =>
      subst heq
      simp [hk, Ne.symm hi]
    · rfl

/-- A new leaf is the only node the lookup does not know yet. -/
theorem Filed.grow (h : N.Filed s m) (hs : s.Wf) {p : Nat} (hl : s.Live p) {l : ν}
    (hlf : N.name l = some hash) {g : Nat → ν → ν}
    (hadd : ∀ id a, N.present (g id a) = N.present a ∧ N.name (g id a) = N.name a) :
    N.FiledBut (s.grow l p g).2 m (s.grow l p g).1 hash := by
  have hr : s.get? (s.grow l p g).1 = none := Slab.alloc_fresh hs l
  intro hash' i ho
  refine (h hash' i).trans ?_
  simp only [Names]
  rw [Slab.get?_grow hs hl]
  split
  next hi =>
    subst hi
    have hn : hash' ≠ hash := by simpa using ho
    simp [hr, hlf, Ne.symm hn]
  split
  · simp only [Option.map_eq_some_iff, exists_exists_and_eq_and, (hadd _ _).1, (hadd _ _).2]
  · rfl

/-- A leaf that is not present may go. -/
theorem Filed.drop (h : N.Filed s m) (hg : s.get? id = some node) (hp : N.present node = false)
    (hf : ∀ a, N.present (f a) = N.present a ∧ N.name (f a) = N.name a) (p : Nat) :
    N.Filed (s.drop id p f) m := by
  intro hash i
  refine (h hash i).trans ?_
  simp only [Names, Slab.get?_drop]
  split
  next hi =>
    subst hi
    simp [hg, hp]
  split
  · simp only [Option.map_eq_some_iff, exists_exists_and_eq_and, (hf _).1, (hf _).2]
  · rfl

end NameView
