import Mathlib

/-!
# Reordering lists

A stable sort by a key, and the two ways to bring one place to the front.
-/

namespace StableSort
open List
variable {α ι κ : Type}

def byKey [LinearOrder κ] (key : α → κ) (l : List α) : List α :=
  l.insertionSort fun a b => key a ≤ key b

section
variable [LinearOrder κ] (key : α → κ)

theorem byKey_perm (l : List α) : (byKey key l).Perm l :=
  perm_insertionSort _ l

theorem pairwise_byKey (l : List α) : (byKey key l).Pairwise fun a b => key a ≤ key b := by
  have : Std.Total fun a b : α => key a ≤ key b := ⟨fun a b => le_total (key a) (key b)⟩
  have : IsTrans α fun a b => key a ≤ key b := ⟨fun _ _ _ => le_trans⟩
  exact pairwise_insertionSort _ l

/-- Elements with one key stay in order. -/
theorem filter_byKey (k : κ) (l : List α) :
    (byKey key l).filter (fun a => key a = k) = l.filter fun a => key a = k := by
  have hk : (l.filter fun a => key a = k).Pairwise fun a b => key a ≤ key b := by
    refine pairwise_of_forall_mem_list fun a ha b hb => ?_
    simp only [mem_filter, decide_eq_true_eq] at ha hb
    exact (ha.2.trans hb.2.symm).le
  have hs := (sublist_insertionSort hk filter_sublist).filter fun a => key a = k
  rw [filter_filter, funext fun a => Bool.and_self _] at hs
  exact (hs.eq_of_length ((byKey_perm key l).filter _).length_eq.symm).symm

/-- A sorted list has the keys below a bound first. -/
theorem eq_filter_append_of_pairwise {key : α → κ} {l : List α}
    (h : l.Pairwise fun a b => key a ≤ key b) (bound : κ) :
    l = l.filter (fun a => key a < bound) ++ l.filter (fun a => ¬ key a < bound) := by
  induction l with
  | nil => rfl
  | cons a l ih =>
    obtain ⟨ha, hl⟩ := pairwise_cons.1 h
    by_cases ht : key a < bound
    · rw [filter_cons_of_pos (by simpa using ht), filter_cons_of_neg (by simpa using ht)]
      rw [cons_append, ← ih hl]
    -- nothing after a large key is small
    have hn : ∀ b ∈ a :: l, ¬ key b < bound := by
      intro b hb
      rcases mem_cons.1 hb with rfl | hb
      · exact ht
      · exact not_lt.2 ((not_lt.1 ht).trans (ha b hb))
    rw [filter_eq_nil_iff.2 fun b hb => by simpa using hn b hb,
      filter_eq_self.2 fun b hb => by simpa using hn b hb, nil_append]

end

/-- A sort by a flag is a partition. -/
theorem byKey_bool (flag : α → Bool) (l : List α) :
    byKey flag l = l.filter (fun a => !flag a) ++ l.filter flag := by
  rw [eq_filter_append_of_pairwise (pairwise_byKey flag l) true]
  have hf := filter_byKey flag false l
  have ht := filter_byKey flag true l
  simp only [Bool.decide_eq_false, Bool.decide_eq_true] at hf ht
  simp [Bool.lt_iff, hf, ht]

variable {l : List α}

/-- Sorting by the place in a list brings that list to the front. -/
theorem byKey_idxOf [DecidableEq ι] {order : List ι} (ho : order.Nodup) {index : α → ι}
    (hl : (l.map index).Nodup) (hm : ∀ i ∈ order, i ∈ l.map index) :
    order <+: (byKey (fun a => order.idxOf (index a)) l).map index := by
  have hp : ((byKey (fun a => order.idxOf (index a)) l).map index).Perm (l.map index) :=
    (byKey_perm _ l).map index
  have hs : ((byKey (fun a => order.idxOf (index a)) l).map index).Pairwise
      fun i j => order.idxOf i ≤ order.idxOf j :=
    pairwise_map.2 (pairwise_byKey _ l)
  generalize (byKey (fun a => order.idxOf (index a)) l).map index = t at hp hs ⊢
  have hc := eq_filter_append_of_pairwise hs order.length
  have he : ∀ i, i ∈ t.filter (fun i => order.idxOf i < order.length) ↔ i ∈ order := by
    intro i
    rw [mem_filter, decide_eq_true_eq, idxOf_lt_length_iff]
    exact ⟨fun h => h.2, fun h => ⟨hp.mem_iff.2 (hm i h), h⟩⟩
  have hfr : t.filter (fun i => order.idxOf i < order.length) = order := by
    have hn : (t.filter fun i => order.idxOf i < order.length).Nodup :=
      ((hp.nodup_iff.2 hl).filter _)
    refine Perm.eq_of_pairwise ?_ (hs.filter _) ?_ ((perm_ext_iff_of_nodup hn ho).2 he)
    · intro i j hi hj hij hd
      exact (idxOf_inj ((he i).1 hi)).1 (Nat.le_antisymm hij hd)
    rw [pairwise_iff_getElem]
    intro a b ha hb hf
    rw [ho.idxOf_getElem a ha, ho.idxOf_getElem b hb]
    omega
  rw [hfr] at hc
  exact ⟨_, hc.symm⟩

/-- Exchange the first place and another. -/
def swapFront (l : List α) (i : Nat) : List α :=
  match l.head?, l[i]? with
  | some a, some b => (l.set 0 b).set i a
  | _, _ => l

/-- Take a place out and put it first. -/
def moveFront (l : List α) (i : Nat) : List α :=
  match l[i]? with
  | some b => b :: l.eraseIdx i
  | none => l

theorem map_swapFront (f : α → ι) (l : List α) (i : Nat) :
    (swapFront l i).map f = swapFront (l.map f) i := by
  rcases l with _ | ⟨a, l⟩
  · rfl
  simp only [swapFront, head?_cons, getElem?_map]
  rcases (a :: l)[i]? with _ | b
  · rfl
  · simp only [Option.map_some, map_set]
    rfl

theorem map_moveFront (f : α → ι) (l : List α) (i : Nat) :
    (moveFront l i).map f = moveFront (l.map f) i := by
  simp only [moveFront, getElem?_map]
  rcases l[i]? with _ | b
  · rfl
  · simp only [Option.map_some, map_cons, eraseIdx_map]

theorem swapFront_perm (l : List α) (i : Nat) : (swapFront l i).Perm l := by
  rcases l with _ | ⟨a, l⟩
  · rfl
  rcases i with _ | i
  · rfl
  simp only [swapFront, head?_cons, getElem?_cons_succ]
  rcases hg : l[i]? with _ | b
  · rfl
  obtain ⟨hl, rfl⟩ := List.getElem?_eq_some_iff.1 hg
  simp only [set_cons_zero, set_cons_succ]
  have ha : (l.set i a).Perm (a :: l.eraseIdx i) := set_perm_cons_eraseIdx hl a
  have hs : (l[i] :: a :: l.eraseIdx i).Perm (a :: l[i] :: l.eraseIdx i) := .swap _ _ _
  exact (ha.cons _).trans (hs.trans ((getElem_cons_eraseIdx_perm hl).cons _))

theorem swapFront_eq_cons_erase [DecidableEq α] {l : List α} (hl : l.Nodup) {i : Nat} {u : α}
    (hi : l[i]? = some u) : swapFront l i = u :: l.erase u ↔ i < 2 := by
  rcases l with _ | ⟨a, l⟩
  · cases hi
  rcases i with _ | i
  · cases hi
    simp [swapFront]
  obtain ⟨ha, hl⟩ := nodup_cons.1 hl
  have hu : a ≠ u := fun h => ha (h ▸ mem_of_getElem? hi)
  have he : (a :: l).erase u = a :: l.erase u := erase_cons_tail (by simpa using hu)
  rw [getElem?_cons_succ] at hi
  simp only [swapFront, head?_cons, getElem?_cons_succ, hi, he, set_cons_zero, set_cons_succ,
    cons.injEq, true_and]
  rcases l with _ | ⟨b, l⟩
  · cases hi
  rcases i with _ | i
  · cases hi
    simp
  rw [set_cons_succ]
  constructor
  · intro h
    exact absurd (cons.inj h).1 (ne_of_mem_of_not_mem mem_cons_self ha)
  · intro h
    omega

theorem moveFront_perm (l : List α) (i : Nat) : (moveFront l i).Perm l := by
  unfold moveFront
  rcases hg : l[i]? with _ | b
  · rfl
  · obtain ⟨hl, rfl⟩ := List.getElem?_eq_some_iff.1 hg
    exact getElem_cons_eraseIdx_perm hl

theorem swapFront_isPrefix {m : List α} (h : l <+: m) {i : Nat} (hi : i < l.length) :
    swapFront l i <+: swapFront m i := by
  obtain ⟨rest, rfl⟩ := h
  rcases l with _ | ⟨a, l⟩
  · cases hi
  simp only [swapFront, cons_append, head?_cons]
  rw [← cons_append, getElem?_append_left hi]
  rcases hg : (a :: l)[i]? with _ | b
  · exact ⟨rest, rfl⟩
  refine ⟨rest, ?_⟩
  dsimp only
  rw [set_append_left _ _ (Nat.succ_pos _), set_append_left _ _ (by simpa using hi)]

theorem moveFront_isPrefix {m : List α} (h : l <+: m) {i : Nat} (hi : i < l.length) :
    moveFront l i <+: moveFront m i := by
  obtain ⟨rest, rfl⟩ := h
  simp only [moveFront]
  rw [getElem?_append_left hi]
  rcases hg : l[i]? with _ | b
  · exact ⟨rest, rfl⟩
  refine ⟨rest, ?_⟩
  dsimp only
  rw [cons_append, eraseIdx_append_of_lt_length hi]

end StableSort
