import Mathlib

/-!
# Budgeted longest-prefix search

A depth-first search for the frame that consumed the most input, under a budget of one
step for every edge length tried. The order of the visit does not affect its answer.
-/

namespace PrefixSearch
open List Prod

structure Best where
  edges : Nat
  consumed : Nat

/-- A node, the input consumed on the way to it, and the edges taken. -/
structure Frame (ν : Type) where
  node : ν
  offset : Nat
  edges : Nat

structure Graph (ν ε : Type) where
  lengths : ν → List Nat
  edge : ν → Nat → Nat → Except ε (Option ν)

variable {ν ν' ε ε' : Type}

def Best.improve (best : Best) (frame : Frame ν) : Best :=
  if best.consumed < frame.offset ∨ frame.offset = best.consumed ∧ best.edges < frame.edges then
    ⟨frame.edges, frame.offset⟩
  else best

section Search
variable (g : Graph ν ε) (budget total : Nat) (overBudget : ε)

/-- Try every edge length at a frame, pushing the frames found. -/
def expand (frame : Frame ν) : List Nat → Nat → List (Frame ν) → Except ε (Nat × List (Frame ν))
  | [], steps, stack => .ok (steps, stack)
  | length :: rest, steps, stack =>
    if budget < steps + 1 then .error overBudget
    else if frame.offset + length ≤ total then
      match g.edge frame.node frame.offset (frame.offset + length) with
      | .error e => .error e
      | .ok none => expand frame rest (steps + 1) stack
      | .ok (some node) =>
        expand frame rest (steps + 1) (⟨node, frame.offset + length, frame.edges + 1⟩ :: stack)
    else expand frame rest (steps + 1) stack

def search : Nat → Nat → List (Frame ν) → Best → Except ε Best
  | 0, _, _, best => .ok best
  | _ + 1, _, [], best => .ok best
  | fuel + 1, steps, frame :: stack, best =>
    match expand g budget total overBudget frame (g.lengths frame.node) steps stack with
    | .error e => .error e
    | .ok (steps, stack) => search fuel steps stack (best.improve frame)

def longest (root : ν) : Except ε Best :=
  search g budget total overBudget (budget + 2) 0 [⟨root, 0, 0⟩] ⟨0, 0⟩

end Search

def Successor (g : Graph ν ε) (total : Nat) (lengths : List Nat) (a b : Frame ν) : Prop :=
  ∃ length ∈ lengths, a.offset + length ≤ total ∧
    g.edge a.node a.offset (a.offset + length) = .ok (some b.node) ∧
    b.offset = a.offset + length ∧ b.edges = a.edges + 1

/-- One edge of the search. -/
def Step (g : Graph ν ε) (total : Nat) (a b : Frame ν) : Prop :=
  Successor g total (g.lengths a.node) a b

abbrev Reaches (g : Graph ν ε) (total : Nat) : Frame ν → Frame ν → Prop :=
  Relation.ReflTransGen (Step g total)

def Best.Covers (best : Best) (frame : Frame ν) : Prop :=
  frame.offset < best.consumed ∨ frame.offset = best.consumed ∧ frame.edges ≤ best.edges

theorem Best.covers_improve_self (best : Best) (frame : Frame ν) :
    (best.improve frame).Covers frame := by
  unfold Best.improve
  split
  · exact .inr ⟨rfl, Nat.le_refl _⟩
  · unfold Best.Covers
    omega

variable {frame : Frame ν} {best : Best} {stack' : List (Frame ν)} {steps' : Nat} {trail : List Nat}

theorem Best.covers_improve {other : Frame ν} (h : best.Covers other) :
    (best.improve frame).Covers other := by
  unfold Best.improve
  unfold Best.Covers at h
  split
  · show _ < frame.offset ∨ _ = frame.offset ∧ _ ≤ frame.edges
    omega
  · exact h

theorem Best.improve_eq (best : Best) (frame : Frame ν) :
    best.improve frame = best ∨ best.improve frame = ⟨frame.edges, frame.offset⟩ := by
  unfold Best.improve
  split <;> simp

variable {g : Graph ν ε} {budget total : Nat} {overBudget : ε} {lengths : List Nat} {steps : Nat}
  {stack : List (Frame ν)}

theorem expand_ok
    (h : expand g budget total overBudget frame lengths steps stack = .ok (steps', stack')) :
    steps' = steps + lengths.length ∧ (lengths ≠ [] → steps' ≤ budget) ∧
      ∃ pushed, stack' = pushed ++ stack ∧ pushed.length ≤ lengths.length ∧
        ∀ b, b ∈ pushed ↔ Successor g total lengths frame b := by
  induction lengths generalizing steps stack with
  | nil =>
    simp only [expand, Except.ok.injEq, mk.injEq] at h
    obtain ⟨rfl, rfl⟩ := h
    exact ⟨rfl, by simp, [], by simp [Successor]⟩
  | cons length rest ih =>
    simp only [expand] at h
    split at h
    · cases h
    rename_i hb
    -- one more length was tried within budget, whatever became of it
    have extend : ∀ {stack}, expand g budget total overBudget frame rest (steps + 1) stack =
        .ok (steps', stack') → steps' = steps + (rest.length + 1) ∧ steps' ≤ budget := by
      intro stack hr
      obtain ⟨h1, h2, -⟩ := ih hr
      refine ⟨by omega, ?_⟩
      rcases rest with _ | ⟨r, rs⟩
      · simp only [length_nil] at h1
        omega
      · exact h2 (by simp)
    -- a length without an edge adds no successor
    have skip : (∀ b, ¬ Successor g total [length] frame b) →
        ∀ b, Successor g total (length :: rest) frame b ↔ Successor g total rest frame b := by
      intro hn b
      have := hn b
      simp only [Successor, mem_singleton, exists_eq_left] at this
      simp [Successor, this]
    split at h
    next hf =>
      split at h
      · cases h
      next he =>
        obtain ⟨-, -, pushed, h3, h4, h5⟩ := ih h
        obtain ⟨h1, h2⟩ := extend h
        refine ⟨h1, fun _ => h2, pushed, h3, by simp only [length_cons]; omega, fun b => ?_⟩
        rw [h5, skip (by simp [Successor, he])]
      next node he =>
        obtain ⟨-, -, pushed, h3, h4, h5⟩ := ih h
        obtain ⟨h1, h2⟩ := extend h
        refine ⟨h1, fun _ => h2, pushed ++ [⟨node, frame.offset + length, frame.edges + 1⟩],
          by simp [h3], by simp; omega, fun b => ?_⟩
        have hs : b = ⟨node, frame.offset + length, frame.edges + 1⟩ ↔
            node = b.node ∧ b.offset = frame.offset + length ∧ b.edges = frame.edges + 1 := by
          cases b
          simp [eq_comm]
        rw [mem_append, mem_singleton, h5, hs]
        simp only [Successor, mem_cons, exists_eq_or_imp, hf, he, true_and,
          Except.ok.injEq, Option.some.injEq]
        exact or_comm
    next hf =>
      obtain ⟨-, -, pushed, h3, h4, h5⟩ := ih h
      obtain ⟨h1, h2⟩ := extend h
      refine ⟨h1, fun _ => h2, pushed, h3, by simp only [length_cons]; omega, fun b => ?_⟩
      rw [h5, skip (by simp [Successor, hf])]

theorem search_ok {fuel : Nat} {best answer : Best} (hu : (budget - steps) + stack.length < fuel)
    (h : search g budget total overBudget fuel steps stack best = .ok answer) :
    (∀ f, best.Covers f → answer.Covers (f : Frame ν)) ∧
      (∀ f ∈ stack, ∀ f', Reaches g total f f' → answer.Covers f') ∧
      (answer = best ∨ ∃ f ∈ stack, ∃ f', Reaches g total f f' ∧
        answer = ⟨f'.edges, f'.offset⟩) := by
  induction fuel generalizing steps stack best with
  | zero => omega
  | succ fuel ih =>
    cases stack with
    | nil =>
      simp only [search, Except.ok.injEq] at h
      subst h
      exact ⟨fun _ h => h, by simp, .inl rfl⟩
    | cons frame stack =>
      simp only [search] at h
      split at h
      · cases h
      rename_i steps' stack' he
      obtain ⟨h1, h2, pushed, rfl, h4, h5⟩ := expand_ok he
      have hm : (budget - steps') + (pushed ++ stack).length < fuel := by
        simp only [length_append, length_cons] at hu ⊢
        rcases hl : g.lengths frame.node with _ | ⟨l, ls⟩
        · rw [hl] at h1 h4
          simp only [length_nil] at h1 h4
          omega
        · have ha := h2 (by simp [hl])
          omega
      obtain ⟨hb, hs, ht⟩ := ih hm h
      refine ⟨fun f hf => hb f (Best.covers_improve hf), ?_, ?_⟩
      · intro f hf f' hr
        rcases mem_cons.1 hf with rfl | hf
        · rcases hr.cases_head with rfl | ⟨c, hc, hr⟩
          · exact hb _ (Best.covers_improve_self _ _)
          · exact hs c (mem_append_left _ ((h5 c).2 hc)) f' hr
        · exact hs f (mem_append_right _ hf) f' hr
      · rcases ht with hw | ⟨f, hf, f', hr, hw⟩
        · rcases Best.improve_eq best frame with hi | hi
          · exact .inl (hw.trans hi)
          · exact .inr ⟨frame, by simp, frame, .refl, hw.trans hi⟩
        rcases mem_append.1 hf with hf | hf
        · exact .inr ⟨frame, by simp, f', .head ((h5 f).1 hf) hr, hw⟩
        · exact .inr ⟨f, by simp [hf], f', hr, hw⟩

variable {e : ε}

/-- No edge lookup within the input fails. -/
def Graph.Total (g : Graph ν ε) (total : Nat) : Prop :=
  ∀ node offset length, length ∈ g.lengths node → offset + length ≤ total →
    ∃ found, g.edge node offset (offset + length) = .ok found

/-- Where no edge lookup fails, an expansion that gives up has too many lengths to try. -/
theorem expand_error (hd : g.Total total) (he : ∀ l ∈ lengths, l ∈ g.lengths frame.node)
    (h : expand g budget total overBudget frame lengths steps stack = .error e) :
    e = overBudget ∧ budget < steps + lengths.length := by
  induction lengths generalizing steps stack with
  | nil => cases h
  | cons length rest ih =>
    have hn : ∀ stack, expand g budget total overBudget frame rest (steps + 1) stack = .error e →
        e = overBudget ∧ budget < steps + (length :: rest).length := by
      intro stack hr
      obtain ⟨ho, hb⟩ := ih (fun l hl => he l (mem_cons_of_mem _ hl)) hr
      rw [length_cons]
      exact ⟨ho, by omega⟩
    simp only [expand] at h
    split at h
    · cases h
      rw [length_cons]
      exact ⟨rfl, by omega⟩
    split at h
    next hf =>
      obtain ⟨found, hu⟩ := hd frame.node frame.offset length (he _ (by simp)) hf
      rw [hu] at h
      rcases found with _ | node
      · exact hn _ h
      · exact hn _ h
    · exact hn _ h

variable {root : ν}

theorem longest_error (hd : g.Total total)
    (h : longest g budget total overBudget root = .error e) : e = overBudget := by
  have hs : ∀ fuel steps stack best,
      search g budget total overBudget fuel steps stack best = .error e → e = overBudget := by
    intro fuel
    induction fuel with
    | zero =>
      intro steps stack best h
      cases h
    | succ fuel ih =>
      intro steps stack best h
      rcases stack with _ | ⟨frame, stack⟩
      · cases h
      simp only [search] at h
      split at h
      next error he =>
        cases h
        exact (expand_error hd (fun _ hl => hl) he).1
      · exact ih _ _ _ h
  exact hs _ _ _ _ h

/-- A search within budget returns the greatest reachable frame. -/
theorem longest_ok {answer : Best} (h : longest g budget total overBudget root = .ok answer) :
    (∀ f, Reaches g total ⟨root, 0, 0⟩ f → answer.Covers f) ∧
      ∃ f, Reaches g total ⟨root, 0, 0⟩ f ∧ answer = ⟨f.edges, f.offset⟩ := by
  obtain ⟨-, hc, hi⟩ := search_ok (by simp) h
  refine ⟨hc _ (by simp), ?_⟩
  rcases hi with hw | ⟨f, hf, f', hr, hw⟩
  · exact ⟨⟨root, 0, 0⟩, .refl, hw⟩
  rw [mem_singleton] at hf
  subst hf
  exact ⟨f', hr, hw⟩

theorem longest_congr {g' : Graph ν' ε'} {budget' : Nat} {overBudget' : ε'} (R : ν → ν' → Prop)
    {root' : ν'} (ht : R root root') (ho : ∀ a a' b, R a.node a' → Step g total a b →
      ∃ b', R b.node b' ∧ Step g' total ⟨a', a.offset, a.edges⟩ ⟨b', b.offset, b.edges⟩)
    (ha : ∀ a a' b', R a a'.node → Step g' total a' b' →
      ∃ b, R b b'.node ∧ Step g total ⟨a, a'.offset, a'.edges⟩ ⟨b, b'.offset, b'.edges⟩)
    {answer answer' : Best} (h : longest g budget total overBudget root = .ok answer)
    (h' : longest g' budget' total overBudget' root' = .ok answer') : answer = answer' := by
  have forth : ∀ f, Reaches g total ⟨root, 0, 0⟩ f →
      ∃ n', R f.node n' ∧ Reaches g' total ⟨root', 0, 0⟩ ⟨n', f.offset, f.edges⟩ := by
    intro f hf
    induction hf with
    | refl => exact ⟨root', ht, .refl⟩
    | tail _ hsp ih =>
      obtain ⟨n', hn, hr⟩ := ih
      obtain ⟨b', hb, hs⟩ := ho _ _ _ hn hsp
      exact ⟨b', hb, hr.tail hs⟩
  have back : ∀ f, Reaches g' total ⟨root', 0, 0⟩ f →
      ∃ n, R n f.node ∧ Reaches g total ⟨root, 0, 0⟩ ⟨n, f.offset, f.edges⟩ := by
    intro f hf
    induction hf with
    | refl => exact ⟨root, ht, .refl⟩
    | tail _ hsp ih =>
      obtain ⟨n, hn, hr⟩ := ih
      obtain ⟨b, hb, hs⟩ := ha _ _ _ hn hsp
      exact ⟨b, hb, hr.tail hs⟩
  obtain ⟨hc, f, hf, rfl⟩ := longest_ok h
  obtain ⟨hc', f', hf', rfl⟩ := longest_ok h'
  obtain ⟨n', -, hn'⟩ := forth f hf
  obtain ⟨n, -, hn⟩ := back f' hf'
  have h1 := hc _ hn
  have h2 := hc' _ hn'
  simp only [Best.Covers] at h1 h2
  simp only [Best.mk.injEq]
  omega

inductive Leads (g : Graph ν ε) (total : Nat) (root : ν) : List Nat → Frame ν → Prop
  | nil : Leads g total root [] ⟨root, 0, 0⟩
  | snoc {trail : List Nat} {a b : Frame ν} {length : Nat} (h : Leads g total root trail a)
      (hlen : length ∈ g.lengths a.node) (hsp : Successor g total [length] a b) :
      Leads g total root (trail ++ [length]) b

def follow (g : Graph ν ε) (total : Nat) (frame : Frame ν) (length : Nat) : Option (Frame ν) :=
  if frame.offset + length ≤ total then
    match g.edge frame.node frame.offset (frame.offset + length) with
    | .ok (some node) => some ⟨node, frame.offset + length, frame.edges + 1⟩
    | _ => none
  else none

theorem successor_of_follow {b : Frame ν} {length : Nat} (h : follow g total frame length = some b)
    : Successor g total [length] frame b := by
  unfold follow at h
  split at h
  next hf =>
    split at h
    next node he =>
      cases h
      exact ⟨length, by simp, hf, he, rfl, rfl⟩
    · cases h
  · cases h

theorem expand_stack
    (h : expand g budget total overBudget frame lengths steps stack = .ok (steps', stack')) :
    stack' = (lengths.filterMap (follow g total frame)).reverse ++ stack := by
  induction lengths generalizing steps stack with
  | nil =>
    cases h
    rfl
  | cons length rest ih =>
    simp only [expand] at h
    split at h
    · cases h
    split at h
    next hf =>
      split at h
      · cases h
      next he =>
        rw [ih h]
        simp [follow, hf, he]
      next node he =>
        rw [ih h]
        simp [follow, hf, he]
    next hf =>
      rw [ih h]
      simp [follow, hf]

def probes (g : Graph ν ε) (visited : List (List Nat × Frame ν)) : Nat :=
  (visited.map fun entry => (g.lengths entry.2.node).length).sum

structure Explored (g : Graph ν ε) (total : Nat) (root : ν)
    (visited pending : List (List Nat × Frame ν)) : Prop where
  nodup : ((visited ++ pending).map fst).Nodup
  leads : ∀ entry ∈ visited ++ pending, Leads g total root entry.1 entry.2
  closed : ∀ entry ∈ visited ++ pending, ∀ trail length, entry.1 = trail ++ [length] →
    trail ∈ visited.map fst

/-- The entries that an expansion pushes, last first. -/
def pushes (g : Graph ν ε) (total : Nat) (trail : List Nat) (frame : Frame ν) :
    List (List Nat × Frame ν) :=
  (g.lengths frame.node).filterMap fun length =>
    (follow g total frame length).map fun next => (trail ++ [length], next)

theorem mem_pushes {entry : List Nat × Frame ν} :
    entry ∈ pushes g total trail frame ↔ ∃ length ∈ g.lengths frame.node,
      follow g total frame length = some entry.2 ∧ entry.1 = trail ++ [length] := by
  obtain ⟨trail', next⟩ := entry
  simp only [pushes, mem_filterMap, Option.map_eq_some_iff, mk.injEq]
  constructor
  · rintro ⟨length, hlen, next', hn, rfl, rfl⟩
    exact ⟨length, hlen, hn, rfl⟩
  · rintro ⟨length, hlen, hn, rfl⟩
    exact ⟨length, hlen, next, hn, rfl, rfl⟩

theorem nodup_pushes (hl : ∀ node, (g.lengths node).Nodup) (trail : List Nat)
    (frame : Frame ν) : ((pushes g total trail frame).map fst).Nodup := by
  have hf : (pushes g total trail frame).map fst =
      ((g.lengths frame.node).filter fun length => (follow g total frame length).isSome).map
        fun length => trail ++ [length] := by
    unfold pushes
    induction g.lengths frame.node with
    | nil => rfl
    | cons length rest ih =>
      rcases hn : follow g total frame length with _ | next
      · simp [hn, ih]
      · simp [hn, ih]
  rw [hf]
  apply Nodup.map
  · intro a b ha
    simpa using ha
  · exact (hl frame.node).filter _

variable {visited pending : List (List Nat × Frame ν)}

theorem Explored.step (hl : ∀ node, (g.lengths node).Nodup)
    (h : Explored g total root visited ((trail, frame) :: pending)) :
    Explored g total root (visited ++ [(trail, frame)])
      ((pushes g total trail frame).reverse ++ pending) := by
  have hs : Leads g total root trail frame := h.leads (trail, frame) (by simp)
  -- the popped trail is new, so nothing seen so far lies below it
  have hb : trail ∉ visited.map fst := by
    have hd := h.nodup
    rw [map_append, map_cons, nodup_append] at hd
    intro hm
    exact hd.2.2 trail hm trail (mem_cons_self ..) rfl
  have he : (visited ++ [(trail, frame)] ++ ((pushes g total trail frame).reverse ++ pending)).Perm
      ((visited ++ (trail, frame) :: pending) ++ pushes g total trail frame) := by
    have hw : ((pushes g total trail frame).reverse ++ pending).Perm
        (pending ++ pushes g total trail frame) :=
      perm_append_comm.trans (Perm.append_left _ (reverse_perm _))
    simpa using Perm.append_left (visited ++ [(trail, frame)]) hw
  have hm : ∀ entry, entry ∈ visited ++ [(trail, frame)] ++
      ((pushes g total trail frame).reverse ++ pending) →
      entry ∈ visited ++ (trail, frame) :: pending ∨ entry ∈ pushes g total trail frame := by
    intro entry hn
    exact mem_append.1 (he.mem_iff.1 hn)
  refine ⟨?_, ?_, ?_⟩
  · rw [(he.map fst).nodup_iff, map_append, nodup_append]
    refine ⟨h.nodup, nodup_pushes hl trail frame, ?_⟩
    rintro seen ha pushed hu rfl
    obtain ⟨old, hold, hf⟩ := mem_map.1 ha
    obtain ⟨entry, hn, hf'⟩ := mem_map.1 hu
    obtain ⟨length, -, -, ht⟩ := mem_pushes.1 hn
    exact hb (h.closed old hold trail length (hf.trans (hf'.symm.trans ht)))
  · intro entry hn
    rcases hm entry hn with hold | hu
    · exact h.leads entry hold
    obtain ⟨length, hlen, hx, ht⟩ := mem_pushes.1 hu
    rw [ht]
    exact hs.snoc hlen (successor_of_follow hx)
  · intro entry hn parent length ht
    rw [map_append, mem_append]
    rcases hm entry hn with hold | hu
    · exact .inl (h.closed entry hold parent length ht)
    obtain ⟨length', -, -, ht'⟩ := mem_pushes.1 hu
    rw [ht'] at ht
    have hp := (append_inj' ht rfl).1
    exact .inr (by simp [hp])

theorem snd_pushes (trail : List Nat) (frame : Frame ν) : (pushes g total trail frame).map snd =
      (g.lengths frame.node).filterMap (follow g total frame) := by
  unfold pushes
  induction g.lengths frame.node with
  | nil => rfl
  | cons length rest ih =>
    rcases hn : follow g total frame length with _ | next
    · simp [hn, ih]
    · simp [hn, ih]

theorem search_over_budget (hd : g.Total total) (he : ∀ node, (g.lengths node).Nodup) {fuel : Nat}
    (hx : Explored g total root visited pending) (hs : steps = probes g visited)
    (h : search g budget total overBudget fuel steps (pending.map snd) best = .error e) :
    ∃ visited pending, Explored g total root visited pending ∧ budget < probes g visited := by
  induction fuel generalizing steps best visited pending with
  | zero => cases h
  | succ fuel ih =>
    rcases pending with _ | ⟨⟨trail, frame⟩, pending⟩
    · cases h
    have hn := hx.step he
    have hp : probes g (visited ++ [(trail, frame)]) = steps + (g.lengths frame.node).length := by
      simp [probes, hs]
    simp only [map_cons, search] at h
    split at h
    next error hr =>
      refine ⟨_, _, hn, ?_⟩
      rw [hp]
      exact (expand_error hd (fun _ hl => hl) hr).2
    next steps' stack' ho =>
      obtain ⟨hs', -, -⟩ := expand_ok ho
      have ht := expand_stack ho
      rw [← snd_pushes trail frame, ← map_reverse, ← map_append] at ht
      rw [ht] at h
      exact ih hn (by rw [hp, hs']) h

theorem longest_over_budget (hd : g.Total total) (hl : ∀ node, (g.lengths node).Nodup)
    (h : longest g budget total overBudget root = .error e) :
    ∃ visited : List (List Nat × Frame ν), (visited.map fst).Nodup ∧
      (∀ entry ∈ visited, Leads g total root entry.1 entry.2) ∧ budget < probes g visited := by
  have ha : Explored g total root [] [([], ⟨root, 0, 0⟩)] := by
    refine ⟨by simp, ?_, ?_⟩
    · intro entry he
      rw [nil_append, mem_singleton] at he
      subst he
      exact .nil
    · intro entry he trail length ht
      rw [nil_append, mem_singleton] at he
      subst he
      simp at ht
  obtain ⟨visited, pending, hx, hb⟩ :=
    search_over_budget hd hl ha rfl h
  refine ⟨visited, ?_, ?_, hb⟩
  · have hn := hx.nodup
    rw [map_append] at hn
    exact (nodup_append.1 hn).1
  · intro entry he
    exact hx.leads entry (mem_append_left _ he)

end PrefixSearch
