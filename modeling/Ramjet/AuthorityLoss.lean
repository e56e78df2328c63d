import Ramjet.CompanionOwner
import Ramjet.SnapshotRoundTrip

/-!
# Loss of authority at the companion

What a loss on the authority channel does to the source: whether the next look at the
channel fences it, and what is left of the generation that lost its authority.
-/

namespace Ramjet
namespace CompanionIndexSource
variable {source source' : CompanionIndexSource}

def generation (source : CompanionIndexSource) : Nat := source.state.identity.companionGeneration

/-- No session begins, and none survives a change of generation. -/
structure Settles (source source' : CompanionIndexSource) : Prop where
  generation : source.generation ≤ source'.generation
  nextSessionId : source'.state.nextSessionId = source.state.nextSessionId
  subscribers : source'.state.subscribers = [] ∨
    source'.generation = source.generation ∧
      source'.state.subscribers ⊆ source.state.subscribers

theorem Settles.refl (source : CompanionIndexSource) : Settles source source :=
  ⟨Nat.le_refl _, rfl, .inr ⟨rfl, List.Subset.refl _⟩⟩

theorem Settles.trans {source'' : CompanionIndexSource} (h : Settles source source')
    (h' : Settles source' source'') : Settles source source'' where
  generation := h.generation.trans h'.generation
  nextSessionId := h'.nextSessionId.trans h.nextSessionId
  subscribers := by
    rcases h'.subscribers with hn | ⟨hg', hs'⟩
    · exact .inl hn
    rcases h.subscribers with hn | ⟨hg, hs⟩
    · refine .inl (List.eq_nil_of_subset_nil ?_)
      rw [← hn]
      exact hs'
    · exact .inr ⟨hg'.trans hg, fun _ hi => hs (hs' hi)⟩

/-- A replay touches only its private stage. -/
structure Frame (source source' : CompanionIndexSource) : Prop where
  identity : source'.state.identity = source.state.identity
  subscribers : source'.state.subscribers = source.state.subscribers
  nextSessionId : source'.state.nextSessionId = source.state.nextSessionId

theorem Frame.settles (h : Frame source source') : Settles source source' where
  generation := by rw [generation, generation, h.identity]
  nextSessionId := h.nextSessionId
  subscribers := .inr ⟨by rw [generation, generation, h.identity], by
    rw [h.subscribers]
    exact List.Subset.refl _⟩

theorem applyReplay_frame (source : CompanionIndexSource) (batch : SequencedBatch) :
    Frame source (source.applyReplay batch).2 ∧
      (source.applyReplay batch).2.state.ready = source.state.ready := by
  simp only [applyReplay]
  split
  · exact ⟨⟨rfl, rfl, rfl⟩, rfl⟩
  split
  · exact ⟨⟨rfl, rfl, rfl⟩, rfl⟩
  split
  · exact ⟨⟨rfl, rfl, rfl⟩, rfl⟩
  · exact ⟨⟨rfl, rfl, rfl⟩, rfl⟩

theorem applyReplayForGeneration_frame (source : CompanionIndexSource) (generation : Nat)
    (batch : SequencedBatch) : Frame source (source.applyReplayForGeneration generation batch).2 ∧
      (source.applyReplayForGeneration generation batch).2.state.ready = source.state.ready := by
  simp only [applyReplayForGeneration]
  split
  · exact ⟨⟨rfl, rfl, rfl⟩, rfl⟩
  · exact source.applyReplay_frame batch

theorem replayApply_frame (source : CompanionIndexSource) (replay : CompanionFullReplay)
    (batch : SequencedBatch) : Frame source (replay.apply source batch).2 ∧
      (replay.apply source batch).2.state.ready = source.state.ready := by
  simp only [CompanionFullReplay.apply]
  split
  · have hfr := source.applyReplayForGeneration_frame (replay.record batch).expectedGeneration batch
    split
    next h =>
      rw [h] at hfr
      exact hfr
    rename_i h
    rw [h] at hfr
    exact hfr
  · exact ⟨⟨rfl, rfl, rfl⟩, rfl⟩

theorem finishReplay_frame (source : CompanionIndexSource) (through : Nat) :
    Frame source (source.finishReplay through).2 ∧
      (source.finishReplay through = (.ok (), (source.finishReplay through).2) ∧
          (source.finishReplay through).2.state.replay = none ∨
        (∃ error, source.finishReplay through = (.error error, (source.finishReplay through).2)) ∧
          (source.finishReplay through).2.state.ready = source.state.ready) := by
  simp only [finishReplay]
  split
  · exact ⟨⟨rfl, rfl, rfl⟩, .inr ⟨⟨_, rfl⟩, rfl⟩⟩
  split
  · exact ⟨⟨rfl, rfl, rfl⟩, .inr ⟨⟨_, rfl⟩, rfl⟩⟩
  · exact ⟨⟨rfl, rfl, rfl⟩, .inl ⟨rfl, rfl⟩⟩

/-! ## Fencing -/

/-- Every session of the source is told and revoked, its index is empty, and it
waits under the next generation. -/
structure FencedAnew (source source' : CompanionIndexSource) : Prop where
  ready : source'.state.ready = false
  fenced : source'.state.fenced
  generation : source'.generation = source.generation + 1
  index : source'.state.index = source.state.index.clear
  subscribers : source'.state.subscribers = []
  revoked : ∀ id ∈ source.state.subscribers, (source'.channels id).cancelled

theorem fenceLocked_settles (source : CompanionIndexSource)
    (inc : Option EngineIncarnation) : Settles source (source.fenceLocked inc).2 ∧
      (source.fenceLocked inc).2.state.ready = false := by
  simp only [fenceLocked]
  split
  · exact ⟨⟨Nat.le_refl _, rfl, .inl rfl⟩, rfl⟩
  · exact ⟨⟨Nat.le_succ _, rfl, .inl rfl⟩, rfl⟩

theorem fenceLocked_result (source : CompanionIndexSource) (inc : Option EngineIncarnation) :
    source.generation ≠ u64Max ∧ (source.fenceLocked inc).1 = .ok () ∧
        FencedAnew source (source.fenceLocked inc).2 ∨
      source.generation = u64Max ∧
        (source.fenceLocked inc).1 = .error .generationExhausted ∧
        (source.fenceLocked inc).2.generation = source.generation ∧
        (source.fenceLocked inc).2.state.replay = none := by
  simp only [fenceLocked]
  split
  next hm =>
    exact .inr ⟨hm, rfl, rfl, rfl⟩
  rename_i hm
  refine .inl ⟨hm, rfl, rfl, rfl, rfl, rfl, rfl, ?_⟩
  intro id hi
  show (source.dismiss _ id).cancelled = true
  simp [dismiss, hi, TailChannel.revoke]

def Staged (source : CompanionIndexSource) : Prop :=
  source.state.ready → source.state.replay = none

theorem beginRebuild_of_unstaged (h : source.state.replay = none)
    (incarnation : Option EngineIncarnation) :
    source.beginRebuild incarnation = source.fenceLocked incarnation := by
  simp [beginRebuild, h]

theorem Staged.beginRebuild (h : source.Staged) (inc : Option EngineIncarnation) :
    Settles source (source.beginRebuild inc).2 ∧
      (source.beginRebuild inc).2.state.ready = false := by
  simp only [CompanionIndexSource.beginRebuild]
  split
  next hs =>
    refine ⟨.refl source, ?_⟩
    by_contra hr
    rw [h (by simpa using hr)] at hs
    simp at hs
  · exact source.fenceLocked_settles inc

/-! ## Live batches and sessions -/

theorem applyLive_settles (source : CompanionIndexSource) (batch : SequencedBatch) :
    Settles source (source.applyLive batch).2 ∧
      ((source.applyLive batch).2.state.ready = source.state.ready ∧
          (source.applyLive batch).2.state.replay = source.state.replay ∨
        (∃ error, (source.applyLive batch).1 = .error error) ∧
          (source.applyLive batch).2.state.ready = false ∧
          (source.generation < (source.applyLive batch).2.generation ∨
            (source.applyLive batch).2.state.replay = none)) := by
  simp only [applyLive]
  split
  · split
    · exact ⟨.refl source, .inl ⟨rfl, rfl⟩⟩
    split
    next index _ =>
      -- the failed batch has changed the index; the fence clears what is left of it
      let failing := { source with state := { source.state with index } }
      have hs := failing.fenceLocked_settles none
      have hb : Settles source failing := ⟨Nat.le_refl _, rfl, .inr ⟨rfl, List.Subset.refl _⟩⟩
      have hr : source.generation < (failing.fenceLocked none).2.generation ∨
          (failing.fenceLocked none).2.state.replay = none := by
        rcases failing.fenceLocked_result none with ⟨-, -, hf⟩ | ⟨-, -, -, hrp⟩
        · refine .inl ?_
          rw [hf.generation]
          exact Nat.lt_succ_self _
        · exact .inr hrp
      split
      · exact ⟨hb.trans hs.1, .inr ⟨⟨_, rfl⟩, hs.2, hr⟩⟩
      · exact ⟨hb.trans hs.1, .inr ⟨⟨_, rfl⟩, hs.2, hr⟩⟩
    · refine ⟨⟨Nat.le_refl _, rfl, .inr ⟨rfl, ?_⟩⟩, .inl ⟨rfl, rfl⟩⟩
      intro id hi
      exact (List.mem_filter.1 hi).1
  · exact ⟨.refl source, .inl ⟨rfl, rfl⟩⟩

theorem removeSubscriber_settles (source : CompanionIndexSource) (id : Nat) :
    Settles source (source.removeSubscriber id) :=
  ⟨Nat.le_refl _, rfl, .inr ⟨rfl, fun _ hi => (List.mem_filter.1 hi).1⟩⟩

theorem finishBuild_settles (source : CompanionIndexSource) (build : SnapshotBuild)
    (frame : Except SnapshotProducerSourceError (List UInt8)) :
    Settles source (source.finishBuild build frame).2 ∧
      (source.finishBuild build frame).2.state.ready = source.state.ready ∧
      (source.finishBuild build frame).2.state.replay = source.state.replay ∧
      (source.finishBuild build frame).2.generation = source.generation := by
  have hk : ∀ id, Settles source (source.removeSubscriber id) := source.removeSubscriber_settles
  have hd : ∀ channels, Settles source { source with channels, state := { source.state with
      buildsInProgress := source.state.buildsInProgress - 1 } } :=
    fun _ => ⟨Nat.le_refl _, rfl, .inr ⟨rfl, List.Subset.refl _⟩⟩
  simp only [finishBuild]
  split
  · exact ⟨hd _, rfl, rfl, rfl⟩
  split
  · exact ⟨⟨Nat.le_refl _, rfl, (hk build.sessionId).subscribers⟩, rfl, rfl, rfl⟩
  split
  · exact ⟨hd _, rfl, rfl, rfl⟩
  split
  · exact ⟨hd _, rfl, rfl, rfl⟩
  split
  · exact ⟨⟨Nat.le_refl _, rfl, (hk build.sessionId).subscribers⟩, rfl, rfl, rfl⟩
  · exact ⟨hd _, rfl, rfl, rfl⟩

end CompanionIndexSource

/-! ## Steps of the owner -/

namespace CompanionIndexOwner
open CompanionIndexSource CompanionIndexOwner CompanionIndexSource
variable {before owner owner' : CompanionIndexOwner}

structure Connected (owner : CompanionIndexOwner) : Prop where
  staged : owner.source.Staged
  live : owner.source.state.ready → ∃ authority stableObserveOnly,
    owner.phase = .consuming authority true stableObserveOnly ∨
      ∃ activity, owner.phase = .handling authority true stableObserveOnly activity

structure Advances (before owner : CompanionIndexOwner) : Prop where
  settles : before.source.Settles owner.source
  channel : owner.engineAuthority = before.engineAuthority
  connected : owner.Connected
  loses : before.source.state.ready → owner.source.state.ready ∨
    before.source.generation < owner.source.generation ∨ owner.phase = .stopped

/-- Nothing but the fence and the phase has changed so far. -/
structure Working (before owner : CompanionIndexOwner) : Prop where
  source : owner.source = before.source
  channel : owner.engineAuthority = before.engineAuthority

/-- What comes after a rebuild leaves the source alone. -/
def Continues (andThen : CompanionIndexOwner → CompanionIndexOwner) : Prop :=
  ∀ owner, Working owner (andThen owner)

theorem Connected.of_unready (h : owner.source.state.ready = false) : owner.Connected :=
  ⟨fun hr => (by simp [h] at hr), fun hr => (by simp [h] at hr)⟩

theorem Advances.of_unready (hb : before.source.state.ready = false)
    (hs : before.source.Settles owner.source) (hc : owner.engineAuthority = before.engineAuthority)
    (h : owner.source.state.ready = false) : Advances before owner :=
  ⟨hs, hc, .of_unready h, fun hr => (by simp [hb] at hr)⟩

theorem stop_advances (ha : before.source.Settles owner.source)
    (hc : owner.engineAuthority = before.engineAuthority)
    (hs : owner.source.Staged) : Advances before owner.stop := by
  have hr := hs.beginRebuild none
  exact ⟨ha.trans hr.1, hc, .of_unready hr.2, fun _ => .inr (.inr rfl)⟩

variable {andThen : CompanionIndexOwner → CompanionIndexOwner}

theorem rebuild_advances (ha : before.source.Settles owner.source)
    (hc : owner.engineAuthority = before.engineAuthority) (hg : owner.source.Staged)
    (hl : before.source.state.ready →
      before.source.generation < owner.source.generation ∨ owner.source.state.replay = none)
    (auth : Option EngineIncarnation) (ht : Continues andThen) :
    Advances before (owner.rebuild auth andThen) := by
  have hr := hg.beginRebuild auth
  have hs := ha.trans hr.1
  simp only [rebuild]
  split
  · refine stop_advances hs hc ?_
    intro hy
    simp [hr.2] at hy
  rename_i ho
  refine ⟨?_, (ht _).channel.trans hc, .of_unready ?_, fun hy => ?_⟩
  · rw [(ht _).source]
    exact hs
  · rw [(ht _).source]
    exact hr.2
  · refine .inr (.inl ?_)
    rw [(ht _).source]
    rcases hl hy with hb | hn
    · exact hb.trans_le hr.1.generation
    -- with no stage the rebuild is a fence, and it has not failed
    rw [beginRebuild_of_unstaged hn] at ho ⊢
    rcases owner.source.fenceLocked_result auth with ⟨-, -, hf⟩ | ⟨-, he, -⟩
    · rw [hf.generation]
      exact Nat.lt_succ_of_le ha.generation
    · rw [he] at ho
      cases ho

theorem Connected.rebuild_advances (h : before.Connected) (hw : Working before owner)
    (auth : Option EngineIncarnation) (ht : Continues andThen) :
    Advances before (owner.rebuild auth andThen) := by
  refine CompanionIndexOwner.rebuild_advances ?_ hw.channel ?_ ?_ auth ht
  · rw [hw.source]
    exact .refl _
  · rw [Staged, hw.source]
    exact h.staged
  · intro hr
    rw [hw.source]
    exact .inr (h.staged hr)

theorem retry_continues :
    Continues fun owner : CompanionIndexOwner => { owner with phase := .backoff } :=
  fun _ => ⟨rfl, rfl⟩

theorem Connected.retry_advances (h : owner.Connected) : Advances owner owner.retry :=
  h.rebuild_advances ⟨rfl, rfl⟩ none retry_continues

theorem retry_advances (ha : before.source.Settles owner.source)
    (hc : owner.engineAuthority = before.engineAuthority) (hs : owner.source.Staged)
    (hl : before.source.state.ready →
      before.source.generation < owner.source.generation ∨ owner.source.state.replay = none) :
    Advances before owner.retry :=
  rebuild_advances ha hc hs hl none retry_continues

/-- Work on a private stage: nothing was ready before. -/
theorem rebuild_advances_of_unready (hb : before.source.state.ready = false)
    (hs : before.source.Settles owner.source) (hc : owner.engineAuthority = before.engineAuthority)
    (h : owner.source.state.ready = false) (auth : Option EngineIncarnation)
    (ht : Continues andThen) : Advances before (owner.rebuild auth andThen) :=
  rebuild_advances hs hc (fun hr => (by simp [h] at hr)) (fun hr => (by simp [hb] at hr)) auth ht

theorem retry_advances_of_unready (hb : before.source.state.ready = false)
    (hs : before.source.Settles owner.source) (hc : owner.engineAuthority = before.engineAuthority)
    (h : owner.source.state.ready = false) : Advances before owner.retry :=
  rebuild_advances_of_unready hb hs hc h none retry_continues

theorem replayFirst_advances (hw : Working before owner)
    (hy : before.source.state.ready = false) (auth : EngineIncarnation)
    (first : SequencedBatch) : Advances before (owner.replayFirst auth first) := by
  have hr : ∀ source : CompanionIndexSource, before.source.Settles source →
      source.state.ready = false → Advances before { owner with source }.retry := by
    intro source hs hu
    apply retry_advances_of_unready hy
    · exact hs
    · exact hw.channel
    · exact hu
  have hrp := before.source.applyReplay_frame first
  simp only [replayFirst, hw.source]
  split
  next heq =>
    rw [heq] at hrp
    exact hr _ hrp.1.settles (hrp.2.trans hy)
  rename_i source heq
  rw [heq] at hrp
  obtain ⟨hfr, hh⟩ := source.finishReplay_frame first.sequence
  have hs := hrp.1.settles.trans hfr.settles
  split
  next heq' =>
    rw [heq'] at hs hh
    refine hr _ hs ?_
    rcases hh with ⟨ho, -⟩ | ⟨-, hk⟩
    · simp at ho
    · exact hk.trans (hrp.2.trans hy)
  next heq' =>
    rw [heq'] at hs hh
    refine ⟨hs, hw.channel, ⟨fun _ => ?_, fun _ => ⟨auth, false, .inl rfl⟩⟩, fun h => ?_⟩
    · rcases hh with ⟨-, hn⟩ | ⟨⟨error, he⟩, -⟩
      · exact hn
      · simp at he
    · simp [hy] at h

theorem bootstrapFromLive_advances (hr : owner.source.state.ready = false)
    (auth : EngineIncarnation) (observe : Bool) (first : SequencedBatch) :
    Advances owner (owner.bootstrapFromLive auth observe first) := by
  have hi : ∀ fence phase, Advances owner { owner with fence, phase } :=
    fun _ _ => .of_unready hr (.refl _) rfl hr
  simp only [bootstrapFromLive]
  split
  · apply replayFirst_advances _ hr
    exact ⟨rfl, rfl⟩
  · apply replayFirst_advances _ hr
    exact ⟨rfl, rfl⟩
  · exact hi _ _
  · apply retry_advances_of_unready hr
    · exact .refl _
    · rfl
    · exact hr
  · exact hi _ _
  · exact hi _ _

theorem applyLive_advances (h : before.Connected) (hw : Working before owner)
    (auth : EngineIncarnation) (observe : Bool) (batch : SequencedBatch) :
    Advances before (owner.applyLive auth observe batch) := by
  obtain ⟨hs, hl⟩ := before.source.applyLive_settles batch
  simp only [applyLive, hw.source]
  split
  next heq =>
    rw [heq] at hs hl
    apply retry_advances
    · exact hs
    · exact hw.channel
    · intro hr
      rcases hl with ⟨hk, hrp⟩ | ⟨-, hu, -⟩
      · exact hrp.trans (h.staged (hk.symm.trans hr))
      · rw [hu] at hr
        cases hr
    · intro hr
      rcases hl with ⟨-, hrp⟩ | ⟨-, -, hg⟩
      · exact .inr (hrp.trans (h.staged hr))
      · exact hg
  next heq =>
    rw [heq] at hs hl
    rcases hl with ⟨hk, hrp⟩ | ⟨⟨error, he⟩, -⟩
    · refine ⟨hs, hw.channel, ⟨fun hr => ?_, fun _ => ⟨auth, observe, .inl rfl⟩⟩,
        fun hr => .inl (hk.trans hr)⟩
      exact hrp.trans (h.staged (hk.symm.trans hr))
    · cases he

theorem Connected.ingestLive_advances (h : owner.Connected) (auth : EngineIncarnation)
    (observe : Bool) (batch : SequencedBatch) :
    Advances owner (owner.ingestLive auth observe batch) := by
  simp only [ingestLive]
  split
  · apply applyLive_advances h
    exact ⟨rfl, rfl⟩
  · apply applyLive_advances h
    exact ⟨rfl, rfl⟩
  · exact ⟨.refl _, rfl, ⟨h.staged, fun _ => ⟨auth, observe, .inl rfl⟩⟩, fun hr => .inl hr⟩
  next through _ =>
    apply h.rebuild_advances
    · exact ⟨rfl, rfl⟩
    intro owner
    rcases hp : owner.fence.prepareFullReplay through with ⟨_ | _, fence⟩
    · simp only [hp]
      exact ⟨rfl, rfl⟩
    · simp only [hp]
      exact ⟨rfl, rfl⟩
  · apply h.rebuild_advances
    · exact ⟨rfl, rfl⟩
    · exact fun _ => ⟨rfl, rfl⟩
  · apply h.rebuild_advances
    · exact ⟨rfl, rfl⟩
    · exact fun _ => ⟨rfl, rfl⟩

theorem finishRecovery_advances (hr : owner.source.state.ready = false)
    (auth : EngineIncarnation) (ready observe : Bool) (replayed : CompanionFullReplay) :
    Advances owner (owner.finishRecovery auth ready observe replayed) := by
  have hf : ∀ (fence : KvEventFence) (source : CompanionIndexSource),
      owner.source.Settles source → source.state.ready = false →
        Advances owner ({ owner with fence, source }.fenced auth) := by
    intro fence source ha hu
    apply rebuild_advances_of_unready hr
    · exact ha
    · rfl
    · exact hu
    · exact fun _ => ⟨rfl, rfl⟩
  simp only [finishRecovery]
  split
  · exact hf owner.fence owner.source (.refl _) hr
  split
  · exact hf _ owner.source (.refl _) hr
  split
  · exact hf _ owner.source (.refl _) hr
  obtain ⟨hfr, hs⟩ := owner.source.finishReplay_frame
    ((replayed.tail.getLast?.map (·.1)).getD replayed.requestedThrough)
  split
  next heq =>
    rw [heq] at hfr hs
    refine hf _ _ hfr.settles ?_
    rcases hs with ⟨ho, -⟩ | ⟨-, hk⟩
    · simp at ho
    · exact hk.trans hr
  next heq =>
    rw [heq] at hfr hs
    refine ⟨hfr.settles, rfl, ⟨fun _ => ?_, fun _ => ⟨auth, _, .inl rfl⟩⟩, fun h => ?_⟩
    · rcases hs with ⟨-, hn⟩ | ⟨⟨error, he⟩, -⟩
      · exact hn
      · simp at he
    · simp [hr] at h

variable {auth : EngineIncarnation}

section
variable (h : owner.Connected)
include h

theorem Connected.handle_advances {ready stableObserveOnly : Bool} {activity : Option LiveActivity}
    (hp : owner.phase = .handling auth ready stableObserveOnly activity) :
    Advances owner (owner.handle auth ready stableObserveOnly activity) := by
  have hy : owner.source.state.ready → ready := by
    intro hy
    obtain ⟨auth', observe, hc | ⟨activity', hh⟩⟩ := h.live hy
    · rw [hp] at hc
      cases hc
    rw [hp] at hh
    cases hh
    rfl
  have hu : ready = false → owner.source.state.ready = false := by
    intro hfls
    by_contra ht
    simp [hy (by simpa using ht)] at hfls
  rcases activity with _ | ⟨- | - | batch⟩
  · exact h.retry_advances
  · refine ⟨.refl _, rfl, ⟨h.staged, fun hr => ⟨auth, stableObserveOnly, .inl ?_⟩⟩,
      fun hr => .inl hr⟩
    rw [hy hr]
    rfl
  · exact h.retry_advances
  · simp only [handle]
    split
    · exact h.ingestLive_advances auth stableObserveOnly batch
    rename_i hn
    have hs := hu (by simpa using hn)
    split
    · exact .of_unready hs (.refl _) rfl hs
    · exact bootstrapFromLive_advances hs auth _ batch

theorem Connected.unready (hp : ∀ auth stableObserveOnly,
      owner.phase ≠ .consuming auth true stableObserveOnly ∧
        ∀ activity, owner.phase ≠ .handling auth true stableObserveOnly activity) :
    owner.source.state.ready = false := by
  by_contra hr
  obtain ⟨auth, observe, hc | ⟨activity, hh⟩⟩ := h.live (by simpa using hr)
  · exact (hp auth observe).1 hc
  · exact (hp auth observe).2 activity hh

theorem Connected.poll_advances (hp : owner.poll = some owner') : Advances owner.look owner' := by
  have hl : owner.look.Connected := ⟨h.staged, h.live⟩
  have hi : (∀ auth observe, owner.phase ≠ .consuming auth true observe ∧
        ∀ activity, owner.phase ≠ .handling auth true observe activity) →
      ∀ phase, Advances owner.look { owner.look with phase } :=
    fun hh _ => .of_unready (h.unready hh) (.refl _) rfl (h.unready hh)
  simp only [poll] at hp
  split at hp
  next hh =>
    rw [Option.some.injEq] at hp
    subst hp
    split
    · exact hi (by simp [hh]) owner.look.phase
    split
    · exact hi (by simp [hh]) _
    · exact hl.rebuild_advances ⟨rfl, rfl⟩ _ fun _ => ⟨rfl, rfl⟩
  next hh =>
    split at hp
    · cases hp
      exact hi (by simp [hh]) _
    · cases hp
  next hh =>
    split at hp
    · cases hp
      exact hi (by simp [hh]) _
    · cases hp
  · split at hp
    · split at hp
      · cases hp
        exact ⟨.refl _, rfl, hl, fun hr => .inl hr⟩
      · cases hp
        exact hl.rebuild_advances ⟨rfl, rfl⟩ _ fun _ => ⟨rfl, rfl⟩
    · cases hp
  · split at hp
    · cases hp
      exact hl.rebuild_advances ⟨rfl, rfl⟩ _ fun _ => ⟨rfl, rfl⟩
    · cases hp
  · cases hp
  · cases hp

theorem Connected.next_advances {action : Action} (ha : action ≠ .poll)
    (hn : owner.next action = some owner') : Advances owner owner' := by
  have hi : (∀ auth stableObserveOnly, owner.phase ≠ .consuming auth true stableObserveOnly ∧
        ∀ activity, owner.phase ≠ .handling auth true stableObserveOnly activity) →
      ∀ phase, Advances owner { owner with phase } :=
    fun hp _ => .of_unready (h.unready hp) (.refl _) rfl (h.unready hp)
  cases action with
  | poll => exact absurd rfl ha
  | connected ok =>
    simp only [next] at hn
    split at hn
    next hp =>
      cases hn
      exact hi (by simp [hp]) _
    · cases hn
  | slept =>
    simp only [next] at hn
    split at hn
    next hp =>
      cases hn
      exact hi (by simp [hp]) _
    · cases hn
  | received activity =>
    simp only [next] at hn
    split at hn
    next auth ready observe hp =>
      split at hn
      · cases hn
      cases hn
      refine ⟨.refl _, rfl, ⟨h.staged, fun hr => ?_⟩, fun hr => .inl hr⟩
      obtain ⟨auth', observe', hc | ⟨_, hh⟩⟩ := h.live hr
      · rw [hp] at hc
        cases hc
        exact ⟨auth, observe, .inr ⟨activity, rfl⟩⟩
      · rw [hp] at hh
        cases hh
    · cases hn
  | handled =>
    simp only [next] at hn
    split at hn
    next hp =>
      cases hn
      exact h.handle_advances hp
    · cases hn
  | replayed batch =>
    simp only [next] at hn
    split at hn
    next replay hp =>
      cases hn
      have hu : owner.source.state.ready = false := h.unready (by simp [hp])
      have hfr := owner.source.replayApply_frame replay batch
      exact .of_unready hu hfr.1.settles rfl (hfr.2.trans hu)
    · cases hn
  | replayEnded ok =>
    simp only [next] at hn
    split at hn
    next hp =>
      cases hn
      have hu : owner.source.state.ready = false := h.unready (by simp [hp])
      split
      · exact finishRecovery_advances hu _ _ _ _
      · exact h.retry_advances
    · cases hn
  | shutdown =>
    simp only [next] at hn
    split at hn
    · cases hn
    · cases hn
    · cases hn
      exact stop_advances (.refl _) rfl h.staged

theorem Connected.poll_fences (hr : owner.source.state.ready) (hc : owner.engineAuthority.changed)
    {ready observe : Bool} (hp : owner.phase = .consuming auth ready observe) :
    ∃ owner', owner.poll = some owner' ∧ (FencedAnew owner.source owner'.source ↔
        owner.engineAuthority.value ≠ some auth ∧ owner.source.generation ≠ u64Max) := by
  have hu := h.staged hr
  simp only [poll, hp, hc, if_true]
  split
  next hv =>
    refine ⟨_, rfl, fun hf => ?_, fun hn => absurd hv hn.1⟩
    have ha := hf.ready
    rw [look, hr] at ha
    cases ha
  next hv =>
    refine ⟨_, rfl, ?_⟩
    have hfc : owner.look.source.beginRebuild owner.engineAuthority.value =
        owner.source.fenceLocked owner.engineAuthority.value := beginRebuild_of_unstaged hu _
    simp only [authorityChanged, rebuild, hfc]
    rcases owner.source.fenceLocked_result owner.engineAuthority.value with
      ⟨hm, ho, hf⟩ | ⟨hm, he, hg, hb⟩
    · simp only [ho]
      exact ⟨fun _ => ⟨hv, hm⟩, fun _ => hf⟩
    simp only [he]
    refine ⟨fun hf => ?_, fun hn => absurd hm hn.2⟩
    -- the cancellation fence fails as the rebuild did, and leaves the generation
    have hd : (((owner.source.fenceLocked owner.engineAuthority.value).2).beginRebuild
        none).2.generation = owner.source.generation := by
      rw [beginRebuild_of_unstaged hb]
      rcases fenceLocked_result (owner.source.fenceLocked owner.engineAuthority.value).2 none with
        ⟨hn, -⟩ | ⟨-, -, hg', -⟩
      · exact absurd (hg.trans hm) hn
      · exact hg'.trans hg
    have hs := hf.generation
    rw [stop, hd] at hs
    exact absurd hs.symm (Nat.succ_ne_self _)

end

theorem next_stopped (h : owner.phase = .stopped) (action : Action) : owner.next action = none := by
  cases action with
  | poll => simp only [next, poll, h]
  | connected ok => simp only [next, h]
  | slept => simp only [next, h]
  | received activity => simp only [next, h]
  | handled => simp only [next, h]
  | replayed batch => simp only [next, h]
  | replayEnded ok => simp only [next, h]
  | shutdown => simp only [next, h]

end CompanionIndexOwner

/-! ## Runs -/

/-- What a session's handler does to its queue. -/
inductive HandlerOp where
  | receive | close | cancel

def HandlerOp.run (channel : TailChannel) : HandlerOp → TailChannel
  | receive => { channel with queue := channel.queue.tail }
  | close => { channel with closed := true }
  | cancel => channel.revoke

/-- Everything that moves around one source. -/
inductive CompanionAction where
  | send (value : Option EngineIncarnation)
  | owner (action : CompanionIndexOwner.Action)
  | start (channel : TailChannel)
  | finishBuild (build : CompanionIndexSource.SnapshotBuild)
      (frame : Except SnapshotProducerSourceError (List UInt8))
  | removeSubscriber (id : Nat)
  | handler (id : Nat) (op : HandlerOp)

/-- An owner with the books of an auditor: `losses` are the generations of a
ready source during which a value other than the connection's incarnation was
sent, `pendingLoss` is the one since the owner last looked, and `started` are
the sessions, each with its generation. -/
structure AuditedOwner where
  owner : CompanionIndexOwner
  pendingLoss : Option Nat
  losses : List Nat
  started : List (Nat × Nat)

namespace AuditedOwner
open CompanionIndexSource CompanionIndexOwner

def send (s : AuditedOwner) (value : Option EngineIncarnation) : AuditedOwner :=
  let sent := { s with owner := { s.owner with
    engineAuthority := s.owner.engineAuthority.send value } }
  if s.owner.source.state.ready && value ≠ s.owner.phase.connection then
    { sent with
      pendingLoss := some s.owner.source.generation
      losses := s.owner.source.generation :: s.losses }
  else sent

def start (s : AuditedOwner) (channel : TailChannel) : AuditedOwner :=
  { s with
    owner := { s.owner with source := (s.owner.source.start channel).2 }
    started :=
      if (s.owner.source.start channel).2.state.nextSessionId = s.owner.source.state.nextSessionId
      then s.started
      else (s.owner.source.state.nextSessionId, s.owner.source.generation) :: s.started }

def withSource (s : AuditedOwner) (source : CompanionIndexSource) : AuditedOwner :=
  { s with owner := { s.owner with source } }

def next (s : AuditedOwner) : CompanionAction → Option AuditedOwner
  | .send value => some (s.send value)
  | .owner .poll => s.owner.poll.map fun owner => { s with owner, pendingLoss := none }
  | .owner action => (s.owner.next action).map fun owner => { s with owner }
  | .start channel => some (s.start channel)
  | .finishBuild build frame => some (s.withSource (s.owner.source.finishBuild build frame).2)
  | .removeSubscriber id => some (s.withSource (s.owner.source.removeSubscriber id))
  | .handler id op =>
    some (s.withSource { s.owner.source with
      channels := Function.update s.owner.source.channels id
        (op.run (s.owner.source.channels id)) })

def system : TransitionSystem AuditedOwner CompanionAction where
  init s := ∃ config decodeBatch incarnation generation digester channels source,
    CompanionIndexSource.new config decodeBatch incarnation generation digester channels =
      .ok source ∧
    ∃ replayLimit channel, 0 < replayLimit ∧
      s = ⟨CompanionIndexOwner.start source replayLimit channel, none, [], []⟩
  step s action s' := s.next action = some s'

/-- At every look with a loss to see, the value sent last shows it, and there is
a generation to go to. -/
def LossVisible (s : AuditedOwner) : CompanionAction → Prop
  | .owner .poll => s.owner.source.state.ready → s.pendingLoss.isSome →
    s.owner.engineAuthority.value ≠ s.owner.phase.connection ∧
      s.owner.source.generation ≠ u64Max
  | _ => True

/-- What holds in every reachable state. -/
structure Audit (s : AuditedOwner) : Prop where
  connected : s.owner.Connected
  sound : s.owner.engineAuthority.Sound
  changed : s.pendingLoss.isSome → s.owner.engineAuthority.changed
  lost : ∀ g ∈ s.losses, g ≤ s.owner.source.generation
  pending : ∀ g, s.pendingLoss = some g → g ≤ s.owner.source.generation ∧
    (g < s.owner.source.generation ∨ s.owner.source.state.ready ∨ s.owner.phase = .stopped)
  sessions : ∀ id g, (id, g) ∈ s.started → id < s.owner.source.state.nextSessionId ∧
    g ≤ s.owner.source.generation ∧
    (id ∈ s.owner.source.state.subscribers → g = s.owner.source.generation)

def Settled (s : AuditedOwner) : Prop :=
  ∀ g ∈ s.losses, g < s.owner.source.generation ∨ s.pendingLoss = some g

variable {s s' : AuditedOwner}

theorem next_owner {action : CompanionIndexOwner.Action} (ha : action ≠ .poll)
    (h : s.next (.owner action) = some s') :
    ∃ owner, s.owner.next action = some owner ∧ { s with owner } = s' := by
  cases action with
  | poll => exact absurd rfl ha
  | _ => exact Option.map_eq_some_iff.1 h

theorem sessions_of_settles {source source' : CompanionIndexSource} {started : List (Nat × Nat)}
    (ha : source.Settles source')
    (h : ∀ id g, (id, g) ∈ started → id < source.state.nextSessionId ∧ g ≤ source.generation ∧
      (id ∈ source.state.subscribers → g = source.generation)) (id g : Nat)
    (hi : (id, g) ∈ started) : id < source'.state.nextSessionId ∧ g ≤ source'.generation ∧
      (id ∈ source'.state.subscribers → g = source'.generation) := by
  obtain ⟨hl, he, hu⟩ := h id g hi
  refine ⟨by rw [ha.nextSessionId]; exact hl, he.trans ha.generation, ?_⟩
  intro hm
  rcases ha.subscribers with hn | ⟨hg, hs⟩
  · rw [hn] at hm
    cases hm
  · rw [hg]
    exact hu (hs hm)

theorem Audit.advance (h : s.Audit) {owner : CompanionIndexOwner} (ha : Advances s.owner owner)
    (hr : s.owner.phase ≠ .stopped) : Audit { s with owner } where
  connected := ha.connected
  sound := by
    show owner.engineAuthority.Sound
    rw [ha.channel]
    exact h.sound
  changed hp := by
    show owner.engineAuthority.changed = true
    rw [ha.channel]
    exact h.changed hp
  lost g hg := (h.lost g hg).trans ha.settles.generation
  pending g hg := by
    obtain ⟨he, hc⟩ := h.pending g hg
    refine ⟨he.trans ha.settles.generation, ?_⟩
    rcases hc with hl | hy | hs
    · exact .inl (hl.trans_le ha.settles.generation)
    · rcases ha.loses hy with hy' | hl | hs
      · exact .inr (.inl hy')
      · exact .inl (he.trans_lt hl)
      · exact .inr (.inr hs)
    · exact absurd hs hr
  sessions := sessions_of_settles ha.settles h.sessions

theorem Audit.withSource (h : s.Audit) {source : CompanionIndexSource}
    (ha : s.owner.source.Settles source) (hr : source.state.ready = s.owner.source.state.ready)
    (hrp : source.state.replay = s.owner.source.state.replay) : (s.withSource source).Audit where
  connected :=
    ⟨fun hs => hrp.trans (h.connected.staged (hr.symm.trans hs)),
      fun hs => h.connected.live (hr.symm.trans hs)⟩
  sound := h.sound
  changed := h.changed
  lost g hg := (h.lost g hg).trans ha.generation
  pending g hg := by
    obtain ⟨hl, hc⟩ := h.pending g hg
    refine ⟨hl.trans ha.generation, ?_⟩
    rcases hc with hb | hs | ht
    · exact .inl (hb.trans_le ha.generation)
    · exact .inr (.inl (hr.trans hs))
    · exact .inr (.inr ht)
  sessions := sessions_of_settles ha h.sessions

theorem Audit.send (h : s.Audit) (value : Option EngineIncarnation) : (s.send value).Audit := by
  have hc := h.sound.changed_send value
  have hs := h.sound.send value
  simp only [AuditedOwner.send]
  split
  next hl =>
    simp only [Bool.and_eq_true] at hl
    refine ⟨⟨h.connected.staged, h.connected.live⟩, hs, fun _ => hc, ?_, ?_, h.sessions⟩
    · intro g hg
      rcases List.mem_cons.1 hg with rfl | hg
      · exact Nat.le_refl _
      · exact h.lost g hg
    · intro g hg
      cases hg
      exact ⟨Nat.le_refl _, .inr (.inl hl.1)⟩
  · exact ⟨⟨h.connected.staged, h.connected.live⟩, hs, fun _ => hc, h.lost, h.pending, h.sessions⟩

theorem start_cases (source : CompanionIndexSource) (channel : TailChannel) :
    (source.start channel).2 = source ∨
      (source.start channel).2.state.nextSessionId = source.state.nextSessionId + 1 ∧
        (source.start channel).2.state.identity = source.state.identity ∧
        (source.start channel).2.state.ready = source.state.ready ∧
        (source.start channel).2.state.replay = source.state.replay ∧
        (source.start channel).2.state.subscribers =
          source.state.nextSessionId :: source.state.subscribers := by
  simp only [CompanionIndexSource.start]
  split
  · exact .inl rfl
  split
  · exact .inl rfl
  split
  · exact .inl rfl
  split
  · exact .inr ⟨rfl, rfl, rfl, rfl, rfl⟩
  · exact .inr ⟨rfl, rfl, rfl, rfl, rfl⟩

theorem Audit.start (h : s.Audit) (channel : TailChannel) : (s.start channel).Audit := by
  rcases start_cases s.owner.source channel with hb | ⟨hn, hi, hr, hrp, hu⟩
  · simp only [AuditedOwner.start, hb, if_true]
    exact h
  have ha : (s.owner.source.start channel).2.generation = s.owner.source.generation := by
    rw [generation, hi, generation]
  have he : (s.owner.source.start channel).2.state.nextSessionId ≠
      s.owner.source.state.nextSessionId := by
    rw [hn]
    exact Nat.succ_ne_self _
  simp only [AuditedOwner.start, if_neg he]
  refine ⟨⟨?_, ?_⟩, h.sound, h.changed, ?_, ?_, ?_⟩
  · intro hc
    exact hrp.trans (h.connected.staged (hr.symm.trans hc))
  · intro hc
    exact h.connected.live (hr.symm.trans hc)
  · intro g hg
    rw [ha]
    exact h.lost g hg
  · intro g hg
    simp only [ha, hr]
    exact h.pending g hg
  · intro id g hm
    simp only [ha, hn, hu, List.mem_cons]
    rcases List.mem_cons.1 hm with heq | hm
    · cases heq
      exact ⟨Nat.lt_succ_self _, Nat.le_refl _, fun _ => rfl⟩
    obtain ⟨hl, hd, hf⟩ := h.sessions id g hm
    refine ⟨Nat.lt_succ_of_lt hl, hd, ?_⟩
    rintro (rfl | hs)
    · exact absurd hl (Nat.lt_irrefl _)
    · exact hf hs

theorem Audit.look (h : s.Audit) : Audit { s with owner := s.owner.look, pendingLoss := none } where
  connected := ⟨h.connected.staged, h.connected.live⟩
  sound := Watch.Sound.borrowAndUpdate _
  changed hp := by cases hp
  lost := h.lost
  pending g hg := by cases hg
  sessions := h.sessions

theorem Audit.poll (h : s.Audit) {owner : CompanionIndexOwner} (hp : s.owner.poll = some owner) :
    Audit { s with owner, pendingLoss := none } := by
  refine h.look.advance (h.connected.poll_advances hp) ?_
  intro hs
  have hh : s.owner.phase = .stopped := hs
  have hn := next_stopped hh .poll
  rw [CompanionIndexOwner.next, hp] at hn
  cases hn

variable {action : CompanionAction}

theorem Audit.next (h : s.Audit) (hn : s.next action = some s') : s'.Audit := by
  have hk : ∀ id op, s.owner.source.Settles { s.owner.source with
      channels := Function.update s.owner.source.channels id
        (HandlerOp.run (s.owner.source.channels id) op) } :=
    fun _ _ => ⟨Nat.le_refl _, rfl, .inr ⟨rfl, List.Subset.refl _⟩⟩
  cases action with
  | send value =>
    cases hn
    exact h.send value
  | owner action =>
    by_cases hp : action = .poll
    · subst hp
      simp only [AuditedOwner.next, Option.map_eq_some_iff] at hn
      obtain ⟨owner, ho, rfl⟩ := hn
      exact h.poll ho
    · obtain ⟨owner, ho, rfl⟩ := next_owner hp hn
      refine h.advance (h.connected.next_advances hp ho) ?_
      intro hs
      rw [next_stopped hs] at ho
      cases ho
  | start channel =>
    cases hn
    exact h.start channel
  | finishBuild build frame =>
    cases hn
    obtain ⟨ha, hr, hrp, -⟩ := s.owner.source.finishBuild_settles build frame
    exact h.withSource ha hr hrp
  | removeSubscriber id =>
    cases hn
    exact h.withSource (s.owner.source.removeSubscriber_settles id) rfl rfl
  | handler id op =>
    cases hn
    exact h.withSource (hk id op) rfl rfl

theorem audit_of_reachable (h : system.Reachable s) : s.Audit := by
  apply h.invariant
  · rintro _ ⟨config, decodeBatch, incarnation, generation, digester, channels, source, hw,
      replayLimit, channel, -, rfl⟩
    have hu : source.state.ready = false := by
      simp only [new] at hw
      split at hw
      · cases hw
      · cases hw
        rfl
    let fresh : CompanionIndexOwner := ⟨source, .new replayLimit, channel.borrowAndUpdate.2,
      channel.value, .waitForAuthority⟩
    have ht : Advances fresh (fresh.rebuild channel.value id) :=
      rebuild_advances_of_unready hu (.refl _) rfl hu _ fun _ => ⟨rfl, rfl⟩
    have hf : Audit ⟨fresh, none, [], []⟩ :=
      ⟨.of_unready hu, Watch.Sound.borrowAndUpdate _, by simp, by simp, by simp, by simp⟩
    exact hf.advance ht (by simp [fresh])
  · intro s action s' ha hsp
    exact ha.next hsp

theorem Settled.next (h : s.Settled) (hu : s.Audit)
    (hi : s.LossVisible action) (hn : s.next action = some s') : s'.Settled := by
  have hk : ∀ owner : CompanionIndexOwner,
      s.owner.source.generation ≤ owner.source.generation → Settled { s with owner } := by
    intro owner he g hg
    rcases h g hg with hl | hd
    · exact .inl (hl.trans_le he)
    · exact .inr hd
  cases action with
  | send value =>
    cases hn
    simp only [AuditedOwner.send]
    split
    · intro g hg
      rcases List.mem_cons.1 hg with rfl | hg
      · exact .inr rfl
      rcases h g hg with hl | hd
      · exact .inl hl
      rcases Nat.lt_or_eq_of_le (hu.pending g hd).1 with hl | rfl
      · exact .inl hl
      · exact .inr rfl
    · exact h
  | owner action =>
    by_cases hp : action = .poll
    · subst hp
      simp only [AuditedOwner.next, Option.map_eq_some_iff] at hn
      obtain ⟨owner, ho, rfl⟩ := hn
      have ha := hu.connected.poll_advances ho
      intro g hg
      refine .inl ?_
      rcases h g hg with hl | hd
      · exact hl.trans_le ha.settles.generation
      obtain ⟨he, hl | hr | hs⟩ := hu.pending g hd
      · exact hl.trans_le ha.settles.generation
      · obtain ⟨auth, observe, hh | ⟨activity, hh⟩⟩ := hu.connected.live hr
        · obtain ⟨owner', ho', hb⟩ := hu.connected.poll_fences hr (hu.changed (by rw [hd]; rfl)) hh
          rw [ho] at ho'
          cases ho'
          obtain ⟨hv, hm⟩ := hi hr (by rw [hd]; rfl)
          rw [hh] at hv
          have hf := hb.2 ⟨hv, hm⟩
          show g < owner.source.generation
          rw [hf.generation]
          exact Nat.lt_succ_of_le he
        · simp [poll, hh] at ho
      · simp [poll, hs] at ho
    · obtain ⟨owner, ho, rfl⟩ := next_owner hp hn
      exact hk owner (hu.connected.next_advances hp ho).settles.generation
  | start channel =>
    cases hn
    refine fun g hg => hk { s.owner with source := (s.owner.source.start channel).2 } ?_ g hg
    rcases start_cases s.owner.source channel with hc | ⟨-, hj, -⟩
    · exact Nat.le_of_eq (congrArg generation hc.symm)
    · exact Nat.le_of_eq (congrArg ProducerIdentity.companionGeneration hj.symm)
  | finishBuild build frame =>
    cases hn
    exact hk _ (s.owner.source.finishBuild_settles build frame).1.generation
  | removeSubscriber id =>
    cases hn
    exact hk _ (Nat.le_refl _)
  | handler id op =>
    cases hn
    exact hk _ (Nat.le_refl _)

theorem settled_of_reachable (h : (system.restrict LossVisible).Reachable s) : s.Settled := by
  have hb : s.Audit ∧ s.Settled := by
    apply h.invariant
    · rintro s hi
      refine ⟨audit_of_reachable (.init hi), ?_⟩
      obtain ⟨config, decodeBatch, incarnation, generation, digester, channels, source, -,
        replayLimit, channel, -, rfl⟩ := hi
      intro g hg
      cases hg
    · rintro s action s' ⟨ha, hs⟩ ⟨hv, hsp⟩
      exact ⟨ha.next hsp, hs.next ha hv hsp⟩
  exact hb.2

/-- A look at the channel with a loss to see fences the ready source under a new
generation if and only if the value sent last shows the loss and a generation is
left; in a run whose looks are all such, neither a generation nor a session that
lost its authority is left once the owner has looked. -/
theorem authority_loss_fences (s : AuditedOwner) :
    (system.Reachable s → s.owner.source.state.ready → s.pendingLoss.isSome →
      ∀ authority ready stableObserveOnly,
        s.owner.phase = .consuming authority ready stableObserveOnly →
        ∃ s', s.next (.owner .poll) = some s' ∧
          (FencedAnew s.owner.source s'.owner.source ↔
            s.owner.engineAuthority.value ≠ some authority ∧
              s.owner.source.generation ≠ u64Max)) ∧
      ((system.restrict LossVisible).Reachable s → s.pendingLoss = none →
        ∀ g ∈ s.losses, g < s.owner.source.generation ∧
          ∀ id, (id, g) ∈ s.started → id ∉ s.owner.source.state.subscribers) := by
  refine ⟨?_, ?_⟩
  · intro hr hd hp authority ready observe hh
    have ha := audit_of_reachable hr
    obtain ⟨owner', hw', hi⟩ :=
      ha.connected.poll_fences hd (ha.changed hp) hh
    exact ⟨{ s with owner := owner', pendingLoss := none },
      by simp [AuditedOwner.next, hw'], hi⟩
  · intro hr hp g hg
    have hl : g < s.owner.source.generation := by
      rcases settled_of_reachable hr g hg with hl | ho
      · exact hl
      · rw [hp] at ho
        cases ho
    refine ⟨hl, fun id ht hs => ?_⟩
    have he := (audit_of_reachable hr.of_restrict).sessions id g ht
    exact absurd (he.2.2 hs) (Nat.ne_of_lt hl)

/-! ## A sample run -/

def runAll (s : AuditedOwner) (actions : List CompanionAction) : Option AuditedOwner :=
  actions.foldlM next s

def sampleSource : Except CompanionIndexSourceError CompanionIndexSource :=
  new
    { group := DigestKvIndex.sampleGroup
      indexLimits := ⟨8, 8, 8, 8, 64⟩
      snapshotLimits := DigestKvIndex.sampleLimits
      maxActiveSessions := 2 }
    (fun _ => .error .invalidMessagePack) DigestKvIndex.sampleIncarnation 1 sampleDigester
    fun _ => ⟨1024, 8, 1024, [], false, false⟩

def sampleStart : Option AuditedOwner :=
  sampleSource.toOption.map fun source =>
    ⟨.start source 16 ⟨some DigestKvIndex.sampleIncarnation, 0, 0⟩, none, [], []⟩

/-- The engine's first batch, without events. -/
def sampleFirst : SequencedBatch where
  sequence := 0
  payload := DigestKvIndex.packArray [[0xcb, 0x3f, 0xf8, 0, 0, 0, 0, 0, 0],
    DigestKvIndex.packArray [], DigestKvIndex.packUint 0]
  batch := ⟨[], some 0⟩

def sampleActions (sent : List (Option EngineIncarnation)) : List CompanionAction :=
  [.owner .poll, .owner (.connected true), .owner (.received (some (.batch sampleFirst))),
    .owner .handled, .start ⟨1024, 8, 1024, [], false, false⟩] ++ sent.map .send

def sampleRun (actions : List CompanionAction) : Option AuditedOwner :=
  sampleStart.bind fun s => s.runAll actions

theorem init_sampleStart (h : sampleStart = some s) : system.init s := by
  obtain ⟨source, hs, rfl⟩ := Option.map_eq_some_iff.1 h
  rcases hw : sampleSource with error | source'
  · rw [hw] at hs
    cases hs
  rw [hw] at hs
  cases hs
  exact ⟨_, _, _, _, _, _, source, hw, 16, _, by decide, rfl⟩

theorem reachable_sampleRun {actions : List CompanionAction} (h : sampleRun actions = some s) :
    system.Reachable s := by
  obtain ⟨s₀, ht, hr⟩ := Option.bind_eq_some_iff.1 h
  exact .foldlM (fun _ _ _ h => h) (.init (init_sampleStart ht)) hr

/-- Authority is lost and comes back between two looks: the owner looks, and the
source stays ready under the generation that lost it, with its session. -/
theorem authority_loss_coalesced :
    ∃ s s', system.Reachable s ∧ s.owner.source.state.ready ∧ s.pendingLoss = some 2 ∧
      s.next (.owner .poll) = some s' ∧ s'.pendingLoss = none ∧ 2 ∈ s'.losses ∧
      s'.owner.source.state.ready ∧ s'.owner.source.generation = 2 ∧
      (1, 2) ∈ s'.started ∧ 1 ∈ s'.owner.source.state.subscribers := by
  have hu : (sampleRun (sampleActions [none, some DigestKvIndex.sampleIncarnation])).any (fun s =>
      s.owner.source.state.ready && s.pendingLoss == some 2 &&
        (s.next (.owner .poll)).any fun s' =>
          s'.pendingLoss == none && s'.losses.contains 2 && s'.owner.source.state.ready &&
            s'.owner.source.generation == 2 && s'.started.contains (1, 2) &&
            s'.owner.source.state.subscribers.contains 1) = true := by
    decide +kernel
  obtain ⟨s, hs, hp⟩ := (Option.any_eq_true _ _).1 hu
  simp only [Bool.and_eq_true, beq_iff_eq] at hp
  obtain ⟨⟨hr, he⟩, ho⟩ := hp
  obtain ⟨s', hs', hp'⟩ := (Option.any_eq_true _ _).1 ho
  simp only [Bool.and_eq_true, beq_iff_eq, List.contains_iff_mem] at hp'
  obtain ⟨⟨⟨⟨⟨hn, hl⟩, hr'⟩, hg⟩, ht⟩, hb⟩ := hp'
  exact ⟨s, s', reachable_sampleRun hs, hr, he, hs', hn, hl, hr', hg,
    ht, hb⟩

def consumes (s : AuditedOwner) : Bool :=
  match s.owner.phase with
  | .consuming .. => true
  | _ => false

/-- A loss that is still there at the next look. -/
theorem authority_loss_fences_sample :
    ∃ s s', system.Reachable s ∧ s.pendingLoss = some 2 ∧ s.next (.owner .poll) = some s' ∧
      FencedAnew s.owner.source s'.owner.source := by
  have hu : (sampleRun (sampleActions [none])).any (fun s =>
      s.owner.source.state.ready && s.pendingLoss == some 2 &&
        s.owner.engineAuthority.value == none && s.owner.source.generation != u64Max &&
        s.consumes) = true := by
    decide +kernel
  obtain ⟨s, hs, hr⟩ := (Option.any_eq_true _ _).1 hu
  simp only [Bool.and_eq_true, beq_iff_eq, bne_iff_ne] at hr
  obtain ⟨⟨⟨⟨he, hp⟩, hv⟩, hm⟩, hh⟩ := hr
  unfold consumes at hh
  split at hh
  next authority ready observe hc =>
    obtain ⟨s', hs', hi⟩ := (authority_loss_fences s).1 (reachable_sampleRun hs) he
      (by rw [hp]; rfl) authority ready observe hc
    exact ⟨s, s', reachable_sampleRun hs, hp, hs', hi.2 ⟨by rw [hv]; simp, hm⟩⟩
  · cases hh

end AuditedOwner
end Ramjet
