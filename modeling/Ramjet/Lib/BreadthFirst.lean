import Mathlib

/-!
# Breadth-first order

No node is queued twice, depths never decrease, and once the queue is empty the visited
nodes are closed under successors.
-/

namespace BreadthFirst
open List
variable {α : Type}

structure Layered (next : α → List α) (depth : α → Nat) : Prop where
  nodup : ∀ x, (next x).Nodup
  disjoint : ∀ x y z, z ∈ next x → z ∈ next y → x = y
  deeper : ∀ x, ∀ y ∈ next x, depth y = depth x + 1

structure Frontier (next : α → List α) (depth : α → Nat) (root : α) (visited queue : List α) :
    Prop where
  root_mem : root ∈ visited ++ queue
  nodup : (visited ++ queue).Nodup
  closed : ∀ x ∈ visited, ∀ y ∈ next x, y ∈ visited ++ queue
  origin : ∀ y ∈ visited ++ queue, y = root ∨ ∃ x ∈ visited, y ∈ next x
  sorted : (visited ++ queue).Pairwise (depth · ≤ depth ·)
  within : ∀ x ∈ queue.head?, ∀ y ∈ queue, depth y ≤ depth x + 1

variable {next : α → List α} {depth : α → Nat} {root : α}

theorem Frontier.start (next : α → List α) (depth : α → Nat) (root : α) :
    Frontier next depth root [] [root] where
  root_mem := by simp
  nodup := by simp
  closed := by simp
  origin := by simp
  sorted := by simp
  within := by simp

variable {visited queue : List α}

theorem Frontier.not_mem_next (h : Layered next depth) (hr : depth root = 0) {x : α}
    (hf : Frontier next depth root visited (x :: queue)) :
    ∀ y ∈ next x, y ∉ visited ++ x :: queue := by
  intro y hy hm
  rcases hf.origin y hm with rfl | ⟨x', hx', hy'⟩
  · have := h.deeper x y hy
    omega
  rw [← h.disjoint x x' y hy hy'] at hx'
  have hd := (nodup_append.1 hf.nodup).2.2
  exact hd x hx' x (by simp) rfl

theorem Frontier.depth_le {x : α} (hf : Frontier next depth root visited (x :: queue)) :
    ∀ y ∈ visited ++ x :: queue, depth y ≤ depth x + 1 := by
  intro y hy
  rcases mem_append.1 hy with hy | hy
  · have := (pairwise_append.1 hf.sorted).2.2 y hy x (by simp)
    omega
  · exact hf.within x rfl y hy

theorem Frontier.step (h : Layered next depth) (hr : depth root = 0) {x : α}
    (hf : Frontier next depth root visited (x :: queue)) :
    Frontier next depth root (visited ++ [x]) (queue ++ next x) := by
  have hl : (visited ++ [x]) ++ (queue ++ next x) = (visited ++ x :: queue) ++ next x := by simp
  refine ⟨?_, ?_, ?_, ?_, ?_, ?_⟩
  · rw [hl]
    exact mem_append_left _ hf.root_mem
  · rw [hl, nodup_append]
    refine ⟨hf.nodup, h.nodup x, ?_⟩
    intro a ha b hb hc
    exact hf.not_mem_next h hr b hb (hc ▸ ha)
  · intro a ha y hy
    rw [hl]
    rcases mem_append.1 ha with ha | ha
    · exact mem_append_left _ (hf.closed a ha y hy)
    · rw [mem_singleton] at ha
      exact mem_append_right _ (ha ▸ hy)
  · intro y hy
    rw [hl] at hy
    rcases mem_append.1 hy with hy | hy
    · rcases hf.origin y hy with hy | ⟨a, ha, hd⟩
      · exact .inl hy
      · exact .inr ⟨a, mem_append_left _ ha, hd⟩
    · exact .inr ⟨x, by simp, hy⟩
  · rw [hl, pairwise_append]
    refine ⟨hf.sorted, ?_, ?_⟩
    · apply pairwise_of_forall_mem_list
      intro a ha b hb
      exact Nat.le_of_eq ((h.deeper x a ha).trans (h.deeper x b hb).symm)
    intro a ha b hb
    rw [h.deeper x b hb]
    exact hf.depth_le a ha
  · intro a ha y hy
    have hh : depth x ≤ depth a := by
      rcases mem_append.1 (mem_of_mem_head? ha) with ha | ha
      · have hs := (pairwise_append.1 hf.sorted).2.1
        exact (pairwise_cons.1 hs).1 a ha
      · have := h.deeper x a ha
        omega
    have hy' : depth y ≤ depth x + 1 := by
      rcases mem_append.1 hy with hy | hy
      · exact hf.within x rfl y (by simp [hy])
      · exact Nat.le_of_eq (h.deeper x y hy)
    omega

/-- A finished walk has visited every node that hangs from the root. -/
theorem Frontier.covers (h : Layered next depth) (hf : Frontier next depth root visited [])
    {S : α → Prop} (hS : ∀ y, S y → y = root ∨ ∃ x, S x ∧ y ∈ next x) (y : α) (hy : S y) :
    y ∈ visited := by
  induction hd : depth y using Nat.strongRecOn generalizing y with
  | _ d ih =>
    rcases hS y hy with rfl | ⟨x, hx, ha⟩
    · simpa using hf.root_mem
    have hl : depth x < d := by
      have := h.deeper x y ha
      omega
    simpa using hf.closed x (ih _ hl x hx rfl) y ha

end BreadthFirst
