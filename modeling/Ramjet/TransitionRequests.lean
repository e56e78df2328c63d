import Ramjet.AdaptiveController

/-!
# Requests for a transition or a rollback

How `begin_transition` and `begin_rollback` return. A request takes an answer for each
action: the write of its intent is the third, its audit record the fourth.
-/

namespace Ramjet.AdaptiveThread
open Thread
variable (config : AdaptiveConfig) (k : Nat) {m : AdaptiveMemory} {e : Nat → AdaptiveAnswers}

/-- A request returns, and one that was accepted and fails leaves `Q` behind. -/
def Resolves (e : Nat → AdaptiveAnswers) (m : AdaptiveMemory) (t : AdaptiveThread Unit)
    (accepted : Bool) (Q : AdaptiveMemory → Prop) : Prop :=
  ∃ m', t.alone e m = some m' ∧
    (accepted → ((e 2).ok && (e 3).ok) = false → Q m')

theorem alone_runtime {α : Type} {f : AdaptiveAnswers → AdaptiveMemory → AdaptiveMemory × α}
    {t : α → AdaptiveThread Unit} (h : m.held = false) : (runtime f >>= t).alone e m =
      (t (f (e 0) m).2).alone (fun n => e (n + 1)) (f (e 0) m).1 :=
  if_pos (by simp [h])

theorem alone_persist (h : m.held = false) {t : Bool → AdaptiveThread Unit} :
    ∃ disk, (persist >>= t).alone e m =
      (t (e 1).ok).alone (fun n => e (n + 2)) { m with disk } := by
  have hp : (persist >>= t).alone e m = (t (e 1).ok).alone
      (fun n => e (n + 2)) (m.write m.persistedState (e 1)).1 :=
    alone_runtime (t := fun state => (atomic fun answer m => m.write state answer) >>= t) h
  rw [hp]
  unfold AdaptiveMemory.write
  split
  · exact ⟨some m.persistedState, rfl⟩
  · exact ⟨m.disk, rfl⟩

theorem alone_announce (h : m.held = false) (operation : AdaptiveOperation)
    (undo f : AdaptiveMemory → AdaptiveMemory) :
    ∃ disk, (announce k operation undo (do updateRuntime f; let _ ← persist; return ())).alone
      e m = match (e 1).ok, (e 2).ok with
      | true, true => some (AdaptiveMemory.spawn { m with disk } k operation)
      | true, false => (persist >>= fun _ => modify (·.leave k)).alone
          (fun n => e (n + 4)) (f { m with disk })
      | false, _ => some ((undo { m with disk }).leave k) := by
  obtain ⟨disk, hp⟩ := alone_persist h
  refine ⟨disk, hp.trans ?_⟩
  cases (e 1).ok with
  | false => exact alone_runtime h
  | true =>
    rw [if_pos rfl, appendAudit, alone_runtime (by exact h)]
    cases (e 2).ok with
    | true => rfl
    | false => exact alone_runtime h (t := fun _ => persist >>= fun _ => modify (·.leave k))

theorem beginRollback_resolves (h : m.held = false) : Resolves e m (beginRollback k)
    (m.acceptRollback k).2.isSome fun m' => m'.phase = .failed ∧ m'.target = m.target := by
  unfold Resolves beginRollback
  rw [alone_runtime h]
  rcases hr : m.acceptRollback k with ⟨n, _ | target⟩
  · exact ⟨n, rfl, nofun⟩
  have hn : n.held = false ∧ n.target = m.target := by
    unfold AdaptiveMemory.acceptRollback at hr
    split at hr
    · split at hr <;> cases hr
      exact ⟨h, rfl⟩
    · cases hr
  obtain ⟨disk, ha⟩ := alone_announce k (e := fun n => e (n + 1)) hn.1
    (.rollback target) (·.setPhase .failed) (·.setPhase .failed)
  obtain ⟨disk', hp⟩ := alone_persist (m := { n.setPhase .failed with disk })
    (e := fun n => e (n + 5)) (t := fun _ => modify (·.leave k)) hn.1
  simp only [unauditedRollback, ha]
  cases (e 2).ok with
  | false => exact ⟨_, rfl, fun _ _ => ⟨rfl, hn.2⟩⟩
  | true =>
    cases (e 3).ok with
    | true => exact ⟨_, rfl, nofun⟩
    | false => exact ⟨_, hp, fun _ _ => ⟨rfl, hn.2⟩⟩

/-- Requests resolve if the lock is free and no record fails once its intent was written. -/
theorem requests_resolve (target : String) :
    (Resolves e m (beginTransition config k target) (m.acceptsTransition config target)
        (fun m' => m'.phase = .idle ∧ m'.target = none ∧ m'.spawned = m.spawned) ∧
      Resolves e m (beginRollback k) (m.acceptRollback k).2.isSome
        fun m' => m'.phase = .failed ∧ m'.target = m.target) ↔
      m.held = false ∧ (m.acceptsTransition config target → (e 2).ok → (e 3).ok) := by
  cases hh : m.held with
  | true =>
    refine iff_of_false ?_ fun hf => by cases hf.1
    rintro ⟨-, m', hm, -⟩
    rw [show (beginRollback k).alone e m = none from if_neg (by simp [hh])] at hm
    cases hm
  | false =>
    simp only [beginRollback_resolves k hh, and_true, true_and]
    unfold Resolves beginTransition
    rw [alone_runtime hh]
    unfold AdaptiveMemory.acceptTransition
    cases hc : m.acceptsTransition config target with
    | false => exact iff_of_true ⟨m, rfl, nofun⟩ nofun
    | true =>
      obtain ⟨disk, ha⟩ := alone_announce k (e := fun n => e (n + 1)) (m := { m with
        phase := .draining, target := some target, handlers := k :: m.handlers }) hh
        (.transition target) (·.settle) (·.settleHolding)
      simp only [if_true, unauditedTransition, ha]
      cases (e 2).ok with
      | false => exact iff_of_true ⟨_, rfl, fun _ _ => ⟨rfl, rfl, rfl⟩⟩ nofun
      | true =>
        cases (e 3).ok with
        | true => exact iff_of_true ⟨_, rfl, nofun⟩ fun _ _ => rfl
        | false =>
          -- the second write waits for the guard that the request still has
          refine iff_of_false ?_ fun hf => by simp at hf
          rintro ⟨m', hm, -⟩
          cases (if_neg Bool.false_ne_true).symm.trans hm

/-- A transition whose audit record is not written. -/
theorem unaudited_transition_blocked : (beginTransition SampleAdaptive.threeProfiles 0 "b").alone
      (fun n => if n = 3 then SampleAdaptive.refused else SampleAdaptive.ok)
      { SampleAdaptive.memory with up := true } = none := by
  rfl

end Ramjet.AdaptiveThread
