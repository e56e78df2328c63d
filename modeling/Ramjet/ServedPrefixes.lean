import Ramjet.Lib.Runs
import Ramjet.Router

/-!
# Prefixes that were served

`Router::observe_at` and `Router::forget`: what a response writes into an upstream's
index, and when a block was last served.
-/

namespace Ramjet
open Function List
namespace UpstreamState
variable (state : UpstreamState) (fingerprints : List UInt64)

/-- `horizon` is the upstream's estimator with the call's fill recorded. -/
def observeAt (horizon : Nat → Option Nat) (now : Nat) : UpstreamState :=
  { state with
    horizon
    lru := fingerprints.foldl (fun lru fingerprint => lru.push fingerprint now) state.lru }

/-- What was served after `servedBefore` is kept. -/
def forget (servedBefore : Option Nat) :
    UpstreamState :=
  { state with
    lru := fingerprints.foldl (fun lru fingerprint =>
        let evicted := match lru.peek fingerprint, servedBefore with
          | some _, none => true
          | some seen, some before => decide (seen ≤ before)
          | none, _ => false
        if evicted then lru.pop fingerprint else lru)
      state.lru }

def present (fingerprint : UInt64) : Bool :=
  (state.lru.peek fingerprint).isSome

theorem peek_forget (fps : List UInt64)
    (servedBefore : Option Nat) (f : UInt64) : (state.forget fps servedBefore).lru.peek f = none ∨
      (state.forget fps servedBefore).lru.peek f = state.lru.peek f := by
  unfold forget
  generalize state.lru = lru
  induction fps generalizing lru with
  | nil => exact .inr rfl
  | cons first rest ih =>
    refine (ih _).elim .inl fun hk => ?_
    rw [foldl_cons, hk]
    dsimp only
    split_ifs with he
    · rw [Lru.peek_pop]
      split
      · exact .inl rfl
      · exact .inr rfl
    · exact .inr rfl

end UpstreamState

structure ObservedChains where
  state : UpstreamState
  chains : List (List UInt64)

namespace ObservedChains

/-- Equal hashes have equal prefixes. -/
def Chained (chains : List (List UInt64)) : Prop :=
  ∀ l ∈ chains, ∀ l' ∈ chains, ∀ i < l.length, ∀ j < l'.length, l[i]? = l'[j]? →
    l.take i = l'.take j

variable (s : ObservedChains)

/-- Every block before a present one is present. -/
def Closed : Prop :=
  ∀ l ∈ s.chains, ∀ j < l.length, l[j]?.any s.state.present →
    (l.take j).all s.state.present

def system : TransitionSystem ObservedChains (List UInt64 × (Nat → Option Nat) × Nat) where
  init s := s.state.lru.entries = [] ∧ s.chains = []
  step s a s' := Chained (a.1 :: s.chains) ∧ a.1.length ≤ s.state.lru.capacity ∧
    s' = ⟨s.state.observeAt a.1 a.2.1 a.2.2, a.1 :: s.chains⟩

def sparesSuccessors (chains : List (List UInt64)) (now : Nat) :
    Lru UInt64 Nat → List UInt64 → Bool
  | _, [] => true
  | lru, key :: rest =>
    let pushed := lru.push key now
    lru.keys.all (fun evicted => evicted ∈ pushed.keys || chains.all fun l =>
        (l.drop (l.idxOf evicted + 1)).all (· ∉ pushed.keys)) &&
      sparesSuccessors chains now pushed rest

/-- The pushes of a call, each on the state before it. -/
def Spares (a : List UInt64 × (Nat → Option Nat) × Nat) : Prop :=
  sparesSuccessors s.chains a.2.2 s.state.lru a.1

/-- `Closed`, for the keys of an index. -/
def ClosedIn (chains : List (List UInt64)) (keys : List UInt64) : Prop :=
  ∀ l ∈ chains, ∀ j f, l[j]? = some f → f ∈ keys → l.take j ⊆ keys

theorem Chained.nodup {chains : List (List UInt64)} (h : Chained chains) {l : List UInt64}
    (hl : l ∈ chains) : l.Nodup := by
  rw [nodup_iff_getElem?_ne_getElem?]
  intro i j hij hj he
  have ht := congrArg length (h l hl l hl i (hij.trans hj) j hj he)
  rw [length_take, length_take] at ht
  omega

theorem ClosedIn.push {chains : List (List UInt64)} {lru : Lru UInt64 Nat} {now : Nat}
    {key : UInt64} {done rest : List UInt64} (h : ClosedIn chains lru.keys)
    (hc : Chained ((done ++ key :: rest) :: chains)) (hd : done ⊆ (lru.push key now).keys)
    (hs : sparesSuccessors chains now lru (key :: rest)) :
    ClosedIn chains (lru.push key now).keys := by
  intro l hl j f hj hf e he
  obtain ⟨hlt, -⟩ := List.getElem?_eq_some_iff.1 hj
  by_cases hk : f = key
  · -- equal hashes: the blocks before are those of the call
    have ht := hc l (mem_cons_of_mem _ hl) _ mem_cons_self j hlt done.length (by simp)
      (by simp [hj, hk])
    rw [ht, take_left] at he
    exact hd he
  have hb := h l hl j f hj (Lru.mem_keys_of_push hf hk) he
  simp only [sparesSuccessors, Bool.and_eq_true, all_eq_true, Bool.or_eq_true,
    decide_eq_true_eq] at hs
  refine (hs.1 e hb).resolve_right fun hn => ?_
  have hi : l.idxOf e < j := by
    have hm := idxOf_lt_length_of_mem he
    rw [← take_append_drop j l, idxOf_append_of_mem he]
    exact hm.trans_le (length_take_le j l)
  refine hn l hl f (mem_of_getElem? (i := j - (l.idxOf e + 1)) ?_) hf
  rw [getElem?_drop, Nat.add_sub_cancel' hi]
  exact hj

theorem ClosedIn.pushes {chains : List (List UInt64)} {lru : Lru UInt64 Nat} {now : Nat}
    {rest : List UInt64} (h : ClosedIn chains lru.keys) (done : List UInt64)
    (hc : Chained ((done ++ rest) :: chains)) (hl : (done ++ rest).length ≤ lru.capacity)
    (hd : done.reverse <+: lru.keys) (hs : sparesSuccessors chains now lru rest) :
    ClosedIn ((done ++ rest) :: chains)
      (rest.foldl (fun lru fingerprint => lru.push fingerprint now) lru).keys := by
  induction rest generalizing lru done with
  | nil =>
    rw [append_nil] at hc hl ⊢
    refine forall_mem_cons.2 ⟨fun j f _ _ e he => ?_, h⟩
    exact hd.subset (mem_reverse.2 (mem_of_mem_take he))
  | cons key rest ih =>
    have hn := (nodup_append.1 (hc.nodup mem_cons_self)).2.2
    have hp : key :: done.reverse <+: (lru.push key now).keys :=
      Lru.recent_push hd (fun hm => hn key (mem_reverse.1 hm) key mem_cons_self rfl)
        (by simp at hl ⊢; omega)
    rw [append_cons] at hc hl ⊢
    refine ih (h.push (by simpa using hc) (fun e he => hp.subset (by simp [he])) hs) _ hc ?_
      (by simpa using hp) (Bool.and_eq_true_iff.1 hs).2
    simpa [Lru.capacity_push] using hl

theorem closed_of_spares {s : ObservedChains} (h : (system.restrict Spares).Reachable s) :
    s.Closed := by
  have hr : ClosedIn s.chains s.state.lru.keys := by
    refine h.invariant (P := fun s => ClosedIn s.chains s.state.lru.keys)
      (fun s hs => ?_) fun s a s' ih hstep => ?_
    · rw [hs.2]
      exact fun l hl => absurd hl not_mem_nil
    · obtain ⟨hs, hc, hl, rfl⟩ := hstep
      exact ih.pushes [] hc hl nil_prefix hs
  intro l hl j hj hp
  rw [getElem?_eq_getElem hj, Option.any_some, UpstreamState.present, Lru.isSome_peek] at hp
  exact all_eq_true.2 fun f hf => Lru.isSome_peek.2 (hr l hl j _ (getElem?_eq_getElem hj) hp hf)

/-- Room for three blocks. -/
def small : ObservedChains :=
  ⟨⟨⟨3, []⟩, fun _ => none, 0, 0, true, false⟩, []⟩

instance (chains : List (List UInt64)) : Decidable (Chained chains) := by
  unfold Chained
  infer_instance

instance (s : ObservedChains) : Decidable s.Closed := by
  unfold Closed
  infer_instance

theorem closed_of_spares_sample : ∃ s, (system.restrict Spares).Reachable s ∧
    s.chains = [[1, 2, 4], [1, 2, 3]] ∧ s.state.present 3 = false ∧ s.Closed := by
  have hr : ∃ s, (system.restrict Spares).Reachable s ∧ s.chains = [[1, 2, 4], [1, 2, 3]] ∧
      s.state.present 3 = false :=
    ⟨_, .step (a := ([1, 2, 4], fun _ => none, 1)) (.step (a := ([1, 2, 3], fun _ => none, 0))
      (.init (s := small) ⟨rfl, rfl⟩) ⟨rfl, by decide, by decide, rfl⟩)
      ⟨rfl, by decide, by decide, rfl⟩, rfl, by decide⟩
  obtain ⟨s, hs, hc, hp⟩ := hr
  exact ⟨s, hs, hc, hp, closed_of_spares hs⟩

/-- The first block is evicted first, and those after it stay. -/
theorem evicts_first_block : ∃ s, system.Reachable s ∧ s.chains = [[4], [1, 2, 3]] ∧
    s.state.present 1 = false ∧ s.state.present 2 ∧ ¬ s.Closed := by
  refine ⟨_, .step (a := ([4], fun _ => none, 1)) (.step (a := ([1, 2, 3], fun _ => none, 0))
    (.init (s := small) ⟨rfl, rfl⟩) ⟨by decide, by decide, rfl⟩) ⟨by decide, by decide, rfl⟩, rfl,
    ?_⟩
  decide

end ObservedChains

structure Completion (n : Nat) where
  upstream : Fin n
  fingerprints : List UInt64
  now : Nat

/-- A router's upstreams under concurrent completions. `served` keeps the instants of the
observations that contain a block, back to when it was last absent. -/
structure ServedBlocks (n : Nat) where
  states : Fin n → UpstreamState
  clock : Nat
  waiting : List (Completion n)
  served : Fin n → UInt64 → List Nat

inductive ServedEvent (n : Nat) where
  | tick (elapsed : Nat)
  | observe (upstream : Fin n) (fingerprints : List UInt64)
  | lock (i : Nat) (horizon : Nat → Option Nat)
  | forget (upstream : Fin n) (fingerprints : List UInt64) (servedBefore : Option Nat)

namespace ServedBlocks
variable {n : Nat} (s : ServedBlocks n)

def next : ServedEvent n → Option (ServedBlocks n)
  | .tick elapsed => some { s with clock := s.clock + elapsed }
  -- the instant is read before the lock is taken
  | .observe upstream fingerprints =>
    some { s with waiting := s.waiting ++ [⟨upstream, fingerprints, s.clock⟩] }
  | .lock i horizon => s.waiting[i]?.map fun ⟨upstream, fingerprints, now⟩ =>
    { s with
      waiting := s.waiting.eraseIdx i
      states := update s.states upstream
        ((s.states upstream).observeAt fingerprints horizon now)
      served := update s.served upstream fun f =>
        if f ∈ fingerprints then now :: s.served upstream f else s.served upstream f }
  | .forget upstream fingerprints servedBefore =>
    let state := (s.states upstream).forget fingerprints servedBefore
    some { s with
      states := update s.states upstream state
      served := update s.served upstream fun f =>
        if state.present f then s.served upstream f else [] }

def system (n : Nat) : TransitionSystem (ServedBlocks n) (ServedEvent n) where
  init s := (∀ u, (s.states u).lru.entries = []) ∧ s.waiting = [] ∧ s.served = fun _ _ => []
  step s event s' := s.next event = some s'

/-- A block's instant is the latest one of the observations since it was last absent. -/
def Fresh : Prop :=
  ∀ u f, (s.states u).lru.peek f = (s.served u f).max?

def noEviction : ServedEvent n → Bool
  | .lock i _ => s.waiting[i]?.all fun call =>
    (s.states call.upstream).lru.fits call.now call.fingerprints
  | _ => true

/-- A completion takes the lock before any later one that shares a block with it. -/
def inOrder : ServedEvent n → Bool
  | .lock i _ => s.waiting[i]?.all fun call => call.fingerprints.all fun f =>
    ((s.states call.upstream).lru.peek f).all fun seen => seen ≤ call.now
  | _ => true

theorem Fresh.update {s s' : ServedBlocks n} {u : Fin n} {state : UpstreamState}
    {instants : UInt64 → List Nat} (h : s.Fresh) (ht : s'.states = update s.states u state)
    (hs : s'.served = update s.served u instants)
    (hu : ∀ f, state.lru.peek f = (instants f).max?) : s'.Fresh := by
  intro v f
  rw [ht, hs]
  by_cases hv : v = u
  · subst hv
    rw [update_self, update_self]
    exact hu f
  · rw [update_of_ne hv, update_of_ne hv]
    exact h v f

theorem Fresh.next {s s' : ServedBlocks n} {event : ServedEvent n} (h : s.Fresh)
    (hC : s.noEviction event ∧ s.inOrder event) (hn : s.next event = some s') : s'.Fresh := by
  cases event with
  | tick elapsed =>
    cases hn
    exact h
  | observe up fps =>
    cases hn
    exact h
  | lock i horizon =>
    obtain ⟨call, hg, rfl⟩ := Option.map_eq_some_iff.1 hn
    simp only [noEviction, inOrder, hg, Option.all_some, all_eq_true] at hC
    refine h.update rfl rfl fun f => ?_
    rw [UpstreamState.observeAt, Lru.peek_foldl_push hC.1]
    split
    next hf =>
      have hl := hC.2 f hf
      rw [h] at hl
      rw [max?_cons]
      cases hm : (s.served call.upstream f).max? with
      | none => rfl
      | some seen =>
        rw [hm, Option.all_some, decide_eq_true_eq] at hl
        exact congrArg some (max_eq_left hl).symm
    · exact h call.upstream f
  | forget up fps servedBefore =>
    cases hn
    refine h.update rfl rfl fun f => ?_
    rcases (s.states up).peek_forget fps servedBefore f with ho | hk
    · simp [UpstreamState.present, ho]
    split
    · rw [hk]
      exact h up f
    next ht =>
      exact Option.not_isSome_iff_eq_none.1 ht

/-- If completions that share a block take the lock in the order of their instants, every
stored instant is the latest. -/
theorem fresh_of_inOrder {s : ServedBlocks n} (h : ((system n).restrict fun s event =>
    (s.noEviction event && s.inOrder event)).Reachable s) : s.Fresh := by
  refine h.invariant (P := Fresh) (fun s hs u f => ?_) fun s event s' ih hstep => ?_
  · rw [Lru.peek, hs.1 u, hs.2.2]
    rfl
  · exact ih.next (Bool.and_eq_true_iff.1 hstep.1) hstep.2

/-- An idle upstream. -/
def idle : ServedBlocks 1 :=
  ⟨fun _ => ⟨⟨3, []⟩, fun _ => none, 0, 0, true, false⟩, 1, [], fun _ _ => []⟩

/-- The later of two completions takes the lock last, or first. -/
def twoCompletions (first : Nat) : List (ServedEvent 1) :=
  [.observe 0 [7], .tick 1, .observe 0 [7], .lock first fun _ => none, .lock 0 fun _ => none]

theorem fresh_of_inOrder_two : ∃ s, (twoCompletions 0).foldlM (TransitionSystem.guardNext
    (fun s event => noEviction s event && s.inOrder event) next) idle = some s ∧ s.Fresh := by
  have hr : ∃ s, (twoCompletions 0).foldlM (TransitionSystem.guardNext
    (fun s event => noEviction s event && s.inOrder event) next) idle = some s := ⟨_, rfl⟩
  obtain ⟨s, hs⟩ := hr
  exact ⟨s, hs, fresh_of_inOrder
    (.foldlM_restrict (fun _ _ _ h => h) (.init ⟨fun _ => rfl, rfl, rfl⟩) hs)⟩

/-- The earlier instant replaces the later one. -/
theorem stale_of_overtaking : ∃ s, ((system 1).restrict fun s event =>
    s.noEviction event).Reachable s ∧ (s.states 0).lru.peek 7 = some 1 ∧
      s.served 0 7 = [1, 2] ∧ ¬ s.Fresh := by
  have hr : ∃ s, (twoCompletions 1).foldlM (TransitionSystem.guardNext noEviction next) idle =
      some s ∧ (s.states 0).lru.peek 7 = some 1 ∧ s.served 0 7 = [1, 2] := ⟨_, rfl, rfl, rfl⟩
  obtain ⟨s, hs, hp, he⟩ := hr
  refine ⟨s, .foldlM_restrict (fun _ _ _ h => h) (.init ⟨fun _ => rfl, rfl, rfl⟩) hs, hp, he,
    fun hf => ?_⟩
  have hm := hf 0 7
  rw [hp, he] at hm
  exact absurd hm (by decide)

end ServedBlocks
end Ramjet
