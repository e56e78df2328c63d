import Ramjet.SnapshotActor
import Ramjet.Lib.Runs

/-!
# What the actor publishes

Beside the actor stands what it was told: the generation of an epoch and its frames. A
published index is that generation after the deliveries its fence admitted, in order.
-/

namespace Ramjet
open Function SnapshotBootstrapActor VerifiedTailFrame Option List
variable {ι : Type} {ap : ι → List UInt8 → Option ι}

/-! ## One session's tail -/

variable (applyPayload : ι → List UInt8 → Option ι)

def tailStep (current : SnapshotTailFence × ι)
    (frame : VerifiedTailFrame) : Option (SnapshotTailFence × ι) :=
  match frame.applyTo current.1 with
  | (.apply _ _ payload, fence) => (applyPayload current.2 payload).map (fence, ·)
  | (.fenced _, _) => none
  | (_, fence) => some (fence, current.2)

def replayTail (prepared : PreparedSnapshotGeneration ι)
    (frames : List VerifiedTailFrame) : Option (SnapshotTailFence × ι) :=
  frames.foldlM (tailStep applyPayload) (prepared.lifecycle, prepared.index)

variable {frames : List VerifiedTailFrame}

theorem replayTail_append {prep : PreparedSnapshotGeneration ι}
    {current : SnapshotTailFence × ι} (h : replayTail ap prep frames = some current)
    (frame : VerifiedTailFrame) : replayTail ap prep (frames ++ [frame]) =
      tailStep ap current frame := by
  rw [replayTail] at h ⊢
  rw [foldlM_append, h]
  simp

/-- The frames whose payload a lifecycle releases. -/
def admitted (fence : SnapshotTailFence) : List VerifiedTailFrame → List VerifiedTailFrame
  | [] => []
  | frame :: rest =>
    match frame.applyTo fence with
    | (.apply _ _ _, fence) => frame :: admitted fence rest
    | (_, fence) => admitted fence rest

theorem foldlM_tailStep {fence fence' : SnapshotTailFence} {index index' : ι} {delivery : Nat}
    (hd : fence.appliedDeliverySequence = some delivery)
    (h : frames.foldlM (tailStep ap) (fence, index) = some (fence', index')) :
    ((admitted fence frames).map (·.payload)).foldlM ap index = some index' ∧
      (admitted fence frames).map (·.deliverySequence) =
        range' (delivery + 1) (admitted fence frames).length ∧
      fence'.appliedDeliverySequence = some (delivery + (admitted fence frames).length) := by
  induction frames generalizing fence index delivery with
  | nil =>
    cases h
    exact ⟨rfl, rfl, hd⟩
  | cons frame rest ih =>
    rw [foldlM_cons] at h
    rcases hs : tailStep ap (fence, index) frame with _ | ⟨fence₁, index₁⟩
    · simp [hs] at h
    simp only [hs, bind_eq_bind, bind_some] at h
    rcases ha : frame.applyTo fence with ⟨action, fence₂⟩
    cases action with
    | apply seq event payload =>
      obtain ⟨rfl, hv⟩ := applyTo_apply ha
      obtain ⟨applied, hp, hn⟩ := hv.delivery
      rw [hd] at hp
      cases hp
      simp only [tailStep, ha, map_eq_some_iff, Prod.mk.injEq] at hs
      obtain ⟨index₂, hx, rfl, rfl⟩ := hs
      have hd' : fence₂.appliedDeliverySequence = some (delivery + 1) := by
        rw [hv.next, ← hn]
        rfl
      obtain ⟨hf, he, hl⟩ := ih hd' h
      simp only [admitted, ha, map_cons, length_cons, foldlM_cons, hx]
      refine ⟨hf, ?_, ?_⟩
      · rw [he, hn, range'_succ]
      rw [hl]
      congr 1
      omega
    | fenced reason => simp [tailStep, ha] at hs
    | duplicate | ready | alreadyReady | identityCurrent =>
      have hk := (applyTo_keeps ha (by simp) (by simp)).1
      simp only [tailStep, ha, some.injEq, Prod.mk.injEq] at hs
      obtain ⟨rfl, rfl⟩ := hs
      simp only [admitted, ha]
      exact ih (hk.trans hd) h

/-! ## Calls and their record -/

inductive ActorOp (ι : Type) where
  | startSession (identity : SnapshotActorIdentity) (minimumSnapshotWatermark : Nat)
  | beginSnapshotBuild (epoch : Nat)
  | installPreparedSnapshot (epoch : Nat) (prepared : PreparedSnapshotGeneration ι)
  | acceptTailFrame (epoch : Nat) (frame : VerifiedTailFrame)
  | snapshotBuildFailed (epoch : Nat)
  | disconnected (epoch : Nat)
  | observeIdentity (identity : SnapshotActorIdentity)
  | revokeAuthority

namespace ActorOp

/-- The epoch a call names. -/
def epoch? : ActorOp ι → Option Nat
  | beginSnapshotBuild epoch | installPreparedSnapshot epoch _ | acceptTailFrame epoch _ |
    snapshotBuildFailed epoch | disconnected epoch => some epoch
  | startSession .. | observeIdentity _ | revokeAuthority => none

def run (applyPayload : ι → List UInt8 → Option ι) (actor : SnapshotBootstrapActor ι) :
    ActorOp ι → SnapshotBootstrapActor ι
  | startSession identity minimum => (actor.startSession identity minimum).2
  | beginSnapshotBuild epoch => (actor.beginSnapshotBuild epoch).2
  | installPreparedSnapshot epoch prepared =>
    (actor.installPreparedSnapshot applyPayload epoch prepared).2
  | acceptTailFrame epoch frame => (actor.acceptTailFrame applyPayload epoch frame).2
  | snapshotBuildFailed epoch => (actor.snapshotBuildFailed epoch).2
  | disconnected epoch => (actor.disconnected epoch).2
  | observeIdentity identity => (actor.observeIdentity identity).2
  | revokeAuthority => actor.revokeAuthority.2

end ActorOp

/-- What was handed to a session since its epoch began. -/
structure SessionLog (ι : Type) where
  prepared : Option (PreparedSnapshotGeneration ι)
  delivered : List VerifiedTailFrame

structure AuditedActor (ι : Type) where
  actor : SnapshotBootstrapActor ι
  log : Nat → SessionLog ι

namespace AuditedActor
variable (applyPayload : ι → List UInt8 → Option ι)

def record (s : AuditedActor ι) :
    ActorOp ι → Nat → SessionLog ι
  | .startSession identity minimum => match (s.actor.startSession identity minimum).1 with
    | .ok started => update s.log started.epoch ⟨none, []⟩ | .error _ => s.log
  | .installPreparedSnapshot epoch prepared =>
    match (s.actor.installPreparedSnapshot applyPayload epoch prepared).1 with
    | .ok _ => update s.log epoch { s.log epoch with prepared := some prepared }
    | .error _ => s.log
  | .acceptTailFrame epoch frame => update s.log epoch
      { s.log epoch with delivered := (s.log epoch).delivered ++ [frame] }
  | _ => s.log

def system (limits : SnapshotActorLimits) (applyPayload : ι → List UInt8 → Option ι) :
    TransitionSystem (AuditedActor ι) (ActorOp ι) where
  init s := new limits = .ok s.actor
  step s op s' := s' = ⟨op.run applyPayload s.actor, s.record applyPayload op⟩

def SessionInv (published : Option (Published ι))
    (epoch : Nat) (session : BootstrapSession ι) (log : SessionLog ι) : Prop :=
  match session.state with
  | .awaitingSnapshot | .buildingSnapshot => session.queuedTailFrames = log.delivered
  | .catchingUp => ∃ prepared index, log.prepared = some prepared ∧
      session.privateIndex = some index ∧ session.fence.state = .catchingUp ∧
      replayTail applyPayload prepared log.delivered = some (session.fence, index)
  | .published => ∃ prepared index, log.prepared = some prepared ∧
      published = some ⟨epoch, session.identity, index⟩ ∧ session.fence.state = .ready ∧
      replayTail applyPayload prepared log.delivered = some (session.fence, index)
  | .fenced => True

structure PublicationInv (applyPayload : ι → List UInt8 → Option ι) (s : AuditedActor ι) :
    Prop where
  capacity : s.actor.sessions.size ≤ s.actor.limits.maxSessions
  epochs : ∀ epoch session, s.actor.sessions[epoch]? = some session → epoch < s.actor.nextEpoch
  owner : ∀ published, s.actor.published = some published →
    ∃ session, s.actor.sessions[published.ownerEpoch]? = some session ∧ session.state = .published
  session : ∀ epoch session, s.actor.sessions[epoch]? = some session →
    SessionInv applyPayload s.actor.published epoch session (s.log epoch)

section Invariant
variable {s : AuditedActor ι} {epoch : Nat} {session session' : BootstrapSession ι}
  {log : Nat → SessionLog ι}

theorem getElem?_setSession (actor : SnapshotBootstrapActor ι) (epoch : Nat)
    (session : BootstrapSession ι) (k : Nat) : (actor.setSession epoch session).sessions[k]? =
      if epoch = k then some session else actor.sessions[k]? := by
  simp [setSession, Std.TreeMap.getElem?_insert]

theorem size_pos {sessions : Std.TreeMap Nat (BootstrapSession ι)}
    (hg : sessions[epoch]? = some session) : 0 < sessions.size := by
  have hm : epoch ∈ sessions := by simp [Std.TreeMap.mem_iff_isSome_getElem?, hg]
  have hn := Std.TreeMap.isEmpty_eq_false_iff_exists_mem.2 ⟨epoch, hm⟩
  rw [Std.TreeMap.isEmpty_eq_size_eq_zero] at hn
  simpa [Nat.pos_iff_ne_zero] using hn

/-- A present session is replaced; the publication is not looked at. -/
structure Updates (actor : SnapshotBootstrapActor ι) (epoch : Nat) (session : BootstrapSession ι)
    (next : SnapshotBootstrapActor ι) : Prop where
  limits : next.limits = actor.limits
  nextEpoch : next.nextEpoch = actor.nextEpoch
  size : next.sessions.size = actor.sessions.size
  get : ∀ k, next.sessions[k]? = if epoch = k then some session else actor.sessions[k]?

variable {actor : SnapshotBootstrapActor ι}

theorem Updates.set (hg : actor.sessions[epoch]? = some session) (session' : BootstrapSession ι) :
    Updates actor epoch session' (actor.setSession epoch session') where
  limits := rfl
  nextEpoch := rfl
  size := by
    have hm : epoch ∈ actor.sessions := by
      simp [Std.TreeMap.mem_iff_isSome_getElem?, hg]
    simp [setSession, Std.TreeMap.size_insert, hm]
  get := getElem?_setSession actor epoch session'

variable {next : SnapshotBootstrapActor ι}

theorem Updates.again (h : Updates actor epoch session next) (session' : BootstrapSession ι) :
    Updates actor epoch session' (next.setSession epoch session') := by
  have hn : next.sessions[epoch]? = some session := by rw [h.get, if_pos rfl]
  have hs := Updates.set hn session'
  refine ⟨hs.limits.trans h.limits, hs.nextEpoch.trans h.nextEpoch, hs.size.trans h.size, ?_⟩
  intro k
  rw [hs.get, h.get]
  split <;> rfl

theorem revokeIfOwner_eq (actor : SnapshotBootstrapActor ι) (epoch : Nat) :
    actor.revokeIfOwner epoch = { actor with
      published := if actor.publishedEpoch = some epoch then none else actor.published } := by
  unfold revokeIfOwner
  split <;> rfl

theorem publishedEpoch_eq_some : actor.publishedEpoch = some epoch ↔
      ∃ pub, actor.published = some pub ∧ pub.ownerEpoch = epoch := by
  simp [publishedEpoch]

section
variable (hg : s.actor.sessions[epoch]? = some session)
include hg

theorem PublicationInv.ne_owner (h : PublicationInv ap s) (hst : session.state ≠ .published)
    (pub : Published ι) (hb : s.actor.published = some pub) : pub.ownerEpoch ≠ epoch := by
  rintro rfl
  obtain ⟨owner, hw, hst'⟩ := h.owner pub hb
  rw [hg] at hw
  cases hw
  exact hst hst'

section
variable (hup : Updates s.actor epoch session' actor)
include hup

theorem PublicationInv.set (h : PublicationInv ap s) (hl : ∀ k, k ≠ epoch → log k = s.log k)
    (hi : SessionInv ap actor.published epoch session' (log epoch))
    (ha : ∀ p, s.actor.published = some p → p.ownerEpoch ≠ epoch → actor.published = some p)
    (hw : ∀ p, actor.published = some p → (p.ownerEpoch = epoch ∧ session'.state = .published) ∨
      (s.actor.published = some p ∧ p.ownerEpoch ≠ epoch)) : PublicationInv ap ⟨actor, log⟩ := by
  refine ⟨?_, ?_, ?_, ?_⟩
  · change actor.sessions.size ≤ actor.limits.maxSessions
    rw [hup.size, hup.limits]
    exact h.capacity
  · intro k other ho
    change k < actor.nextEpoch
    rw [hup.nextEpoch]
    rw [hup.get] at ho
    split at ho
    next hk =>
      exact hk ▸ h.epochs epoch session hg
    · exact h.epochs k other ho
  · intro p hp
    change ∃ other, actor.sessions[p.ownerEpoch]? = some other ∧ _
    rw [hup.get]
    rcases hw p hp with ⟨hp', hst⟩ | ⟨hold, hn⟩
    · exact ⟨session', by rw [if_pos hp'.symm], hst⟩
    · rw [if_neg (Ne.symm hn)]
      exact h.owner p hold
  · intro k other ho
    change SessionInv ap actor.published k other (log k)
    rw [hup.get] at ho
    split at ho
    next hk =>
      subst hk
      cases ho
      exact hi
    next hk =>
      have hold := h.session k other ho
      rw [hl k (Ne.symm hk)]
      unfold SessionInv at hold ⊢
      split
      · simpa [*] using hold
      · simpa [*] using hold
      · simpa [*] using hold
      next hst =>
        simp only [hst] at hold
        obtain ⟨prep, index, hc, hb, hr⟩ := hold
        exact ⟨prep, index, hc, ha _ hb (Ne.symm hk), hr⟩
      · trivial

theorem PublicationInv.fence (h : PublicationInv ap s) (hb : actor.published = s.actor.published)
    (hf : session'.state = .fenced) (hl : ∀ k, k ≠ epoch → log k = s.log k) :
    PublicationInv ap ⟨actor.revokeIfOwner epoch, log⟩ := by
  rw [revokeIfOwner_eq]
  refine h.set hg ⟨hup.limits, hup.nextEpoch, hup.size, hup.get⟩ hl ?_ ?_ ?_
  · simp [SessionInv, hf]
  · intro p hp he
    rw [← hb] at hp
    have hn : actor.publishedEpoch ≠ some epoch := by
      rw [ne_eq, publishedEpoch_eq_some]
      rintro ⟨p', hp', rfl⟩
      rw [hp] at hp'
      cases hp'
      exact he rfl
    simp only [if_neg hn, hp]
  · intro p hp
    simp only at hp
    split at hp
    · cases hp
    rename_i hn
    rw [publishedEpoch_eq_some] at hn
    exact .inr ⟨hb ▸ hp, fun heq => hn ⟨p, hp, heq⟩⟩

theorem PublicationInv.setPrivate (h : PublicationInv ap s)
    (hb : actor.published = s.actor.published) (hst : session.state ≠ .published)
    (hl : ∀ k, k ≠ epoch → log k = s.log k)
    (hi : SessionInv ap s.actor.published epoch session' (log epoch)) :
    PublicationInv ap ⟨actor, log⟩ := by
  refine h.set hg hup hl (hb ▸ hi) (fun _ hp _ => hb.trans hp) ?_
  intro p hp
  rw [hb] at hp
  exact .inr ⟨hp, h.ne_owner hg hst p hp⟩

theorem PublicationInv.setSame (h : PublicationInv ap s) (hb : actor.published = s.actor.published)
    (hst : session'.state = session.state) (hl : ∀ k, k ≠ epoch → log k = s.log k)
    (hi : SessionInv ap s.actor.published epoch session' (log epoch)) :
    PublicationInv ap ⟨actor, log⟩ := by
  refine h.set hg hup hl (hb ▸ hi) (fun _ hp _ => hb.trans hp) ?_
  intro p hp
  rw [hb] at hp
  by_cases hw : p.ownerEpoch = epoch
  · obtain ⟨owner, hg', hb'⟩ := h.owner p hp
    rw [hw, hg] at hg'
    cases hg'
    exact .inl ⟨hw, hst.trans hb'⟩
  · exact .inr ⟨hp, hw⟩

end
end

theorem publicationInv_cleared (actor : SnapshotBootstrapActor ι) (log : Nat → SessionLog ι) :
    PublicationInv ap ⟨{ actor with published := none, sessions := ∅ }, log⟩ :=
  ⟨by simp, by simp, by simp, by simp⟩

def deliver (log : Nat → SessionLog ι) (epoch : Nat) (frame : VerifiedTailFrame) :
    Nat → SessionLog ι :=
  update log epoch { log epoch with delivered := (log epoch).delivered ++ [frame] }

/-- A session that takes its frames as they come. -/
def Tailing (actor : SnapshotBootstrapActor ι) (epoch : Nat) : Prop :=
  ∃ session, actor.sessions[epoch]? = some session ∧
    (session.state = .catchingUp ∨ session.state = .published)

def Fenced (actor : SnapshotBootstrapActor ι) (epoch : Nat) : Prop :=
  ∃ session, actor.sessions[epoch]? = some session ∧ session.state = .fenced

theorem fenced_revokeIfOwner (hup : Updates actor epoch session next)
    (hf : session.state = .fenced) : Fenced (next.revokeIfOwner epoch) epoch := by
  rw [revokeIfOwner_eq]
  exact ⟨session, by simp [hup.get], hf⟩

/-- What a frame has done once the fence has judged it. -/
structure FrameDone (applyPayload : ι → List UInt8 → Option ι) (s : AuditedActor ι) (epoch : Nat)
    (frame : VerifiedTailFrame) (result : ActorAction × SnapshotBootstrapActor ι) : Prop where
  inv : PublicationInv applyPayload ⟨result.2, deliver s.log epoch frame⟩
  outcome : if result.1.isFenced then Fenced result.2 epoch else Tailing result.2 epoch

theorem PublicationInv.failApplication (h : PublicationInv ap s)
    (hg : s.actor.sessions[epoch]? = some session) (hup : Updates s.actor epoch session' actor)
    (hb : actor.published = s.actor.published) (frame : VerifiedTailFrame) :
    FrameDone ap s epoch frame (actor.failApplication epoch session') :=
  ⟨h.fence hg (hup.again _) hb rfl fun _ hk => update_of_ne hk _ _,
    fenced_revokeIfOwner (hup.again _) rfl⟩

theorem SessionInv.quiet {pub : Option (Published ι)} {log : SessionLog ι}
    (h : SessionInv ap pub epoch session log)
    (hst : session.state = .catchingUp ∨ session.state = .published) {frame : VerifiedTailFrame}
    {action : VerifiedTailAction} (ha : frame.applyTo session.fence = (action, session.fence))
    (hq : action = .duplicate ∨ action = .alreadyReady ∨ action = .identityCurrent) :
    SessionInv ap pub epoch session
      { log with delivered := log.delivered ++ [frame] } := by
  have hs : ∀ index, tailStep ap (session.fence, index) frame = some (session.fence, index) := by
    intro index
    rcases hq with rfl | rfl | rfl
    · simp [tailStep, ha]
    · simp [tailStep, ha]
    · simp [tailStep, ha]
  unfold SessionInv at h ⊢
  rcases hst with hst | hst
  · simp only [hst] at h ⊢
    obtain ⟨prep, index, hc, hp, hfc, hrp⟩ := h
    exact ⟨prep, index, hc, hp, hfc, (replayTail_append hrp frame).trans (hs index)⟩
  simp only [hst] at h ⊢
  obtain ⟨prep, index, hc, hb, hfc, hrp⟩ := h
  exact ⟨prep, index, hc, hb, hfc, (replayTail_append hrp frame).trans (hs index)⟩

section
variable (h : PublicationInv ap s)
include h

section
variable (hg : s.actor.sessions[epoch]? = some session)
include hg

section
variable (hst : session.state = .catchingUp ∨ session.state = .published)
include hst

theorem PublicationInv.frame_quiet {frame : VerifiedTailFrame} {action : VerifiedTailAction}
    {fence : SnapshotTailFence} (ha : frame.applyTo session.fence = (action, fence))
    (hq : action = .duplicate ∨ action = .alreadyReady ∨ action = .identityCurrent)
    {result : ActorAction} (hr : result.isFenced = false) : FrameDone ap s epoch frame
      (result, s.actor.setSession epoch { session with fence }) := by
  obtain rfl := applyTo_quiet ha hq
  have hup := Updates.set hg session
  refine ⟨h.setSame hg hup rfl rfl (fun _ hk => update_of_ne hk _ _) ?_, ?_⟩
  · rw [deliver, update_self]
    exact (h.session epoch session hg).quiet hst ha hq
  · rw [if_neg (by simp [hr])]
    exact ⟨session, by simp [getElem?_setSession], hst⟩

theorem PublicationInv.frame_ready {frame : VerifiedTailFrame} {fence : SnapshotTailFence}
    (ha : frame.applyTo session.fence = (.ready, fence)) : FrameDone ap s epoch frame
      ((s.actor.setSession epoch { session with fence }).publish epoch) := by
  obtain ⟨hc, -, -, hfc⟩ := applyTo_ready ha
  have hi := h.session epoch session hg
  have hst' : session.state = .catchingUp := by
    rcases hst with hst | hst
    · exact hst
    simp only [SessionInv, hst] at hi
    obtain ⟨-, -, -, -, hy, -⟩ := hi
    rw [hc] at hy
    cases hy
  simp only [SessionInv, hst'] at hi
  obtain ⟨prep, index, hb, hr, -, hrp⟩ := hi
  have hs : tailStep ap (session.fence, index) frame = some (fence, index) := by
    simp [tailStep, ha]
  simp only [publish, getElem?_setSession, if_pos, hr]
  have he : ∀ k other, ((∅ : Std.TreeMap Nat (BootstrapSession ι)).insert epoch
      { session with fence, state := .published, privateIndex := none })[k]? =
        some other → epoch = k ∧
          other = { session with fence, state := .published, privateIndex := none } := by
    intro k other ho
    simp only [Std.TreeMap.getElem?_insert, Nat.compare_eq_eq, Std.TreeMap.getElem?_emptyc] at ho
    split at ho
    · exact ⟨‹_›, (some.inj ho).symm⟩
    · cases ho
  refine ⟨⟨?_, ?_, ?_, ?_⟩, ?_⟩
  · have hd := size_pos hg
    exact (Std.TreeMap.size_insert_le).trans (Nat.succ_le_of_lt (hd.trans_le h.capacity))
  · intro k other ho
    obtain ⟨rfl, -⟩ := he k other ho
    exact h.epochs epoch session hg
  · intro p hp
    cases hp
    exact ⟨_, Std.TreeMap.getElem?_insert_self, rfl⟩
  · intro k other ho
    obtain ⟨rfl, rfl⟩ := he k other ho
    simp only [SessionInv, deliver, update_self]
    exact ⟨prep, index, hb, rfl, by rw [hfc]; rfl, (replayTail_append hrp frame).trans hs⟩
  · exact ⟨_, Std.TreeMap.getElem?_insert_self, .inr rfl⟩

theorem PublicationInv.frame_apply {frame : VerifiedTailFrame}
    {fence : SnapshotTailFence} {delivery event : Nat} {payload : List UInt8}
    (ha : frame.applyTo session.fence = (.apply delivery event payload, fence)) :
    FrameDone ap s epoch frame (s.actor.applyVerifiedFrame ap epoch frame) := by
  obtain ⟨-, hv⟩ := applyTo_apply ha
  have hfc : fence.state = session.fence.state := by
    rw [hv.next]
    rfl
  have hup := Updates.set hg { session with fence }
  have hl : ∀ k, k ≠ epoch → deliver s.log epoch frame k = s.log k :=
    fun _ hk => update_of_ne hk _ _
  have hs : ∀ index index', ap index payload = some index' →
      tailStep ap (session.fence, index) frame = some (fence, index') := by
    intro index index' hx
    simp [tailStep, ha, hx]
  have hi := h.session epoch session hg
  simp only [applyVerifiedFrame, hg, ha]
  rcases hst with hst | hst
  · simp only [SessionInv, hst] at hi
    obtain ⟨prep, index, hd, hr, ht, hrp⟩ := hi
    have hc : session.state ≠ .published := by simp [hst]
    have he : (s.actor.setSession epoch { session with fence }).publishedEpoch ≠
        some epoch := by
      rw [ne_eq, publishedEpoch_eq_some]
      rintro ⟨p, hp, hw⟩
      exact h.ne_owner hg hc p hp hw
    have hn : (session.privateIndex.bind fun index => ap index payload) = ap index payload := by
      rw [hr, bind_some]
    rw [if_neg he, hn]
    rcases hx : ap index payload with _ | index'
    · exact h.failApplication hg hup rfl frame
    have hup' := hup.again { session with fence, privateIndex := some index' }
    refine ⟨h.setPrivate hg hup' rfl hc hl ?_, ?_⟩
    · simp only [SessionInv, hst, deliver, update_self]
      exact ⟨prep, index', hd, rfl, hfc.trans ht,
        (replayTail_append hrp frame).trans (hs index index' hx)⟩
    · exact ⟨_, (hup'.get epoch).trans (if_pos rfl), .inl hst⟩
  · simp only [SessionInv, hst] at hi
    obtain ⟨prep, index, hd, hb, hy, hrp⟩ := hi
    have hw : (s.actor.setSession epoch { session with fence }).publishedEpoch =
        some epoch := publishedEpoch_eq_some.2 ⟨_, hb, rfl⟩
    have hb' : (s.actor.setSession epoch { session with fence }).published =
        some ⟨epoch, session.identity, index⟩ := hb
    rw [if_pos hw, hb', bind_some]
    rcases hx : ap index payload with _ | index'
    · exact h.failApplication hg hup rfl frame
    refine ⟨h.set hg ⟨hup.limits, hup.nextEpoch, hup.size, hup.get⟩ hl ?_ ?_ ?_, ?_⟩
    · simp only [SessionInv, hst, deliver, update_self]
      exact ⟨prep, index', hd, rfl, hfc.trans hy,
        (replayTail_append hrp frame).trans (hs index index' hx)⟩
    · intro p hp hf
      rw [hb] at hp
      cases hp
      exact absurd rfl hf
    · intro p hp
      cases hp
      exact .inl ⟨rfl, hst⟩
    · exact ⟨_, (hup.get epoch).trans (if_pos rfl), .inr hst⟩

theorem PublicationInv.frame (frame : VerifiedTailFrame) :
    FrameDone ap s epoch frame (s.actor.applyVerifiedFrame ap epoch frame) := by
  rcases ha : frame.applyTo session.fence with ⟨action, fence⟩
  cases action with
  | apply delivery event payload => exact h.frame_apply hg hst ha
  | ready =>
    simp only [applyVerifiedFrame, hg, ha]
    exact h.frame_ready hg hst ha
  | fenced reason =>
    simp only [applyVerifiedFrame, hg, ha]
    have hup := (Updates.set hg { session with fence }).again
      ({ session with fence }.fenceRecord reason)
    exact ⟨h.fence hg hup rfl rfl fun _ hk => update_of_ne hk _ _, fenced_revokeIfOwner hup rfl⟩
  | duplicate | alreadyReady | identityCurrent =>
    simp only [applyVerifiedFrame, hg, ha]
    exact h.frame_quiet hg hst ha (by simp) rfl

end
end

theorem PublicationInv.relog (hf : Fenced s.actor epoch) (hl : ∀ k, k ≠ epoch → log k = s.log k) :
    PublicationInv ap ⟨s.actor, log⟩ := by
  obtain ⟨session, hg, hst⟩ := hf
  have hup : Updates s.actor epoch session s.actor := by
    refine ⟨rfl, rfl, rfl, fun k => ?_⟩
    split
    next hk =>
      exact hk ▸ hg
    · rfl
  exact h.setSame hg hup rfl rfl hl (by simp [SessionInv, hst])

theorem PublicationInv.drain (ht : Tailing s.actor epoch)
    (action : ActorAction) (frames : List VerifiedTailFrame) :
    PublicationInv ap ⟨(drain ap epoch (action, s.actor) frames).2,
        update s.log epoch
          { s.log epoch with delivered := (s.log epoch).delivered ++ frames }⟩ := by
  induction frames generalizing s action with
  | nil =>
    rw [append_nil, update_eq_self]
    exact h
  | cons frame rest ih =>
    obtain ⟨session, hg, hst⟩ := ht
    obtain ⟨hi, ho⟩ := h.frame hg hst frame
    rw [drain]
    split
    next hf =>
      rw [if_pos hf] at ho
      refine hi.relog ho ?_
      intro k hk
      simp [deliver, hk]
    next hn =>
      rw [if_neg hn] at ho
      have hr := ih hi ho (s.actor.applyVerifiedFrame ap epoch frame).1
      simpa [deliver] using hr

theorem PublicationInv.install (epoch : Nat) (prep : PreparedSnapshotGeneration ι) :
    PublicationInv ap ⟨(s.actor.installPreparedSnapshot ap epoch prep).2,
        s.record ap (.installPreparedSnapshot epoch prep)⟩ := by
  rcases hg : s.actor.sessions[epoch]? with _ | session
  · simp only [installPreparedSnapshot, record, hg]
    refine ⟨h.capacity, h.epochs, h.owner, fun k other ho => ?_⟩
    have hk : k ≠ epoch := by
      rintro rfl
      rw [hg] at ho
      cases ho
    simpa [hk] using h.session k other ho
  simp only [installPreparedSnapshot, record, hg]
  split
  · exact h
  rename_i hb
  rw [not_not] at hb
  have hp : session.state ≠ .published := by simp [hb]
  have hi := h.session epoch session hg
  simp only [SessionInv, hb] at hi
  split
  · exact h.setPrivate hg (.set hg _) rfl hp
      (fun _ hk => update_of_ne hk _ _) (by simp [SessionInv, BootstrapSession.fenceRecord])
  have hup := Updates.set hg { session with
      fence := prep.lifecycle
      state := .catchingUp
      queuedTailFrames := []
      privateIndex := some prep.index }
  have ht : PublicationInv ap ⟨s.actor.setSession epoch { session with
          fence := prep.lifecycle
          state := .catchingUp
          queuedTailFrames := []
          privateIndex := some prep.index },
        update s.log epoch ⟨some prep, []⟩⟩ := by
    refine h.setPrivate hg hup rfl hp (fun _ hk => update_of_ne hk _ _) ?_
    simp only [SessionInv, update_self]
    exact ⟨prep, prep.index, rfl, rfl, prep.accepted.state, rfl⟩
  have hd := ht.drain ⟨_, (hup.get epoch).trans (if_pos rfl), .inl rfl⟩ .snapshotInstalled
    session.queuedTailFrames
  simpa [hi] using hd

theorem PublicationInv.accept (epoch : Nat) (frame : VerifiedTailFrame) :
    PublicationInv ap ⟨(s.actor.acceptTailFrame ap epoch frame).2, deliver s.log epoch frame⟩ := by
  have hl : ∀ k, k ≠ epoch → deliver s.log epoch frame k = s.log k :=
    fun _ hk => update_of_ne hk _ _
  unfold acceptTailFrame
  rcases hg : s.actor.sessions[epoch]? with _ | session
  · refine ⟨h.capacity, h.epochs, h.owner, fun k other ho => ?_⟩
    have hk : k ≠ epoch := by
      rintro rfl
      rw [hg] at ho
      cases ho
    change SessionInv ap s.actor.published k other (deliver s.log epoch frame k)
    rw [hl k hk]
    exact h.session k other ho
  have hi := h.session epoch session hg
  simp only
  split
  next hst =>
    have hp : session.state ≠ .published := by
      rcases hst with hst | hst
      · simp [hst]
      · simp [hst]
    split
    · exact h.setPrivate hg (.set hg _) rfl hp hl
        (by simp [SessionInv, BootstrapSession.fenceRecord])
    refine h.setPrivate hg (.set hg _) rfl hp hl ?_
    rcases hst with hst | hst
    · simp only [SessionInv, hst] at hi
      simp [SessionInv, hst, deliver, hi]
    · simp only [SessionInv, hst] at hi
      simp [SessionInv, hst, deliver, hi]
  rename_i hq
  split
  next hst =>
    exact h.relog ⟨session, hg, hst⟩ hl
  rename_i hf
  have ht : session.state = .catchingUp ∨ session.state = .published := by
    rcases hst : session.state
    all_goals simp_all
  exact (h.frame hg ht frame).inv

theorem PublicationInv.begin (epoch : Nat) :
    PublicationInv ap ⟨(s.actor.beginSnapshotBuild epoch).2, s.log⟩ := by
  unfold beginSnapshotBuild
  rcases hg : s.actor.sessions[epoch]? with _ | session
  · exact h
  simp only
  split
  next hst =>
    have hi := h.session epoch session hg
    simp only [SessionInv, hst] at hi
    exact h.setPrivate hg (.set hg _) rfl (by simp [hst]) (fun _ _ => rfl) hi
  · exact h.fence hg (.set hg _) rfl rfl fun _ _ => rfl

theorem PublicationInv.buildFailed (epoch : Nat) :
    PublicationInv ap ⟨(s.actor.snapshotBuildFailed epoch).2, s.log⟩ := by
  unfold snapshotBuildFailed
  rcases hg : s.actor.sessions[epoch]? with _ | session
  · exact h
  · exact h.fence hg (.set hg _) rfl rfl fun _ _ => rfl

theorem PublicationInv.retain
    (hl : actor.limits = s.actor.limits) (hn : actor.nextEpoch = s.actor.nextEpoch)
    (hs : actor.sessions.size ≤ s.actor.sessions.size)
    (hu : ∀ (k : Nat) (session : BootstrapSession ι), actor.sessions[k]? = some session →
      s.actor.sessions[k]? = some session)
    (hb : ∀ (k : Nat) (session : BootstrapSession ι), actor.sessions[k]? = some session →
      session.state = .published → actor.published = s.actor.published)
    (hw : ∀ p, actor.published = some p → s.actor.published = some p ∧
      actor.sessions[p.ownerEpoch]? = s.actor.sessions[p.ownerEpoch]?) :
    PublicationInv ap ⟨actor, s.log⟩ := by
  refine ⟨?_, ?_, ?_, ?_⟩
  · change actor.sessions.size ≤ actor.limits.maxSessions
    rw [hl]
    exact hs.trans h.capacity
  · intro k session hg
    change k < actor.nextEpoch
    rw [hn]
    exact h.epochs k session (hu k session hg)
  · intro p hp
    obtain ⟨hp', hg⟩ := hw p hp
    change ∃ session, actor.sessions[p.ownerEpoch]? = some session ∧ _
    rw [hg]
    exact h.owner p hp'
  · intro k session hg
    have hi := h.session k session (hu k session hg)
    have hb' := hb k session hg
    unfold SessionInv at hi ⊢
    split
    · simpa [*] using hi
    · simpa [*] using hi
    · simpa [*] using hi
    next hst =>
      simp only [hst] at hi
      change ∃ prep index, _ ∧ actor.published = _ ∧ _
      rw [hb' hst]
      exact hi
    · trivial

theorem PublicationInv.disconnected (epoch : Nat) :
    PublicationInv ap ⟨(s.actor.disconnected epoch).2, s.log⟩ := by
  unfold SnapshotBootstrapActor.disconnected
  rcases hg : s.actor.sessions[epoch]? with _ | session
  · exact h
  simp only [revokeIfOwner_eq]
  have he : ∀ k, (s.actor.sessions.erase epoch)[k]? =
      if epoch = k then none else s.actor.sessions[k]? := by
    intro k
    simp [Std.TreeMap.getElem?_erase]
  refine h.retain rfl rfl Std.TreeMap.size_erase_le ?_ ?_ ?_
  · intro k other ho
    rw [he] at ho
    split at ho
    · cases ho
    · exact ho
  · intro k other ho hst
    rw [he] at ho
    split at ho
    · cases ho
    rename_i hk
    have hi := h.session k other ho
    simp only [SessionInv, hst] at hi
    obtain ⟨prep, index, -, hp, -⟩ := hi
    refine if_neg ?_
    change ¬ s.actor.publishedEpoch = some epoch
    rw [publishedEpoch_eq_some]
    rintro ⟨p, hp', rfl⟩
    rw [hp] at hp'
    cases hp'
    exact hk rfl
  · intro p hp
    simp only at hp
    split at hp
    · cases hp
    rename_i hn
    change ¬ s.actor.publishedEpoch = some epoch at hn
    rw [publishedEpoch_eq_some] at hn
    refine ⟨hp, ?_⟩
    rw [he, if_neg fun heq => hn ⟨p, hp, heq.symm⟩]

theorem PublicationInv.dropFenced : PublicationInv ap ⟨{ s.actor with
      sessions := s.actor.sessions.filter fun _ session => session.state ≠ .fenced }, s.log⟩ := by
  have hf : ∀ (k : Nat) (session : BootstrapSession ι),
      (s.actor.sessions.filter fun _ session => session.state ≠ .fenced)[k]? = some session ↔
        s.actor.sessions[k]? = some session ∧ session.state ≠ .fenced := by
    intro k session
    simp [Std.TreeMap.getElem?_filter]
  refine h.retain rfl rfl Std.TreeMap.size_filter_le_size ?_ (fun _ _ _ _ => rfl) ?_
  · intro k session hg
    exact ((hf k session).1 hg).1
  intro p hp
  obtain ⟨session, hg, hst⟩ := h.owner p hp
  refine ⟨hp, ?_⟩
  rw [hg]
  exact (hf _ _).2 ⟨hg, by simp [hst]⟩

theorem PublicationInv.insert (hs : s.actor.sessions.size < s.actor.limits.maxSessions)
    (hst : session.state = .awaitingSnapshot) (hq : session.queuedTailFrames = []) :
    PublicationInv ap
      ⟨{ s.actor with nextEpoch := s.actor.nextEpoch + 1 }.setSession s.actor.nextEpoch session,
        update s.log s.actor.nextEpoch ⟨none, []⟩⟩ := by
  refine ⟨?_, ?_, ?_, ?_⟩
  · exact (Std.TreeMap.size_insert_le).trans hs
  · intro k other ho
    rw [getElem?_setSession] at ho
    split at ho
    next hk =>
      exact hk ▸ Nat.lt_succ_self _
    · exact Nat.lt_succ_of_lt (h.epochs k other ho)
  · intro p hp
    obtain ⟨owner, hg, hb⟩ := h.owner p hp
    have hn : s.actor.nextEpoch ≠ p.ownerEpoch := by
      have := h.epochs _ _ hg
      omega
    exact ⟨owner, by rw [getElem?_setSession, if_neg hn]; exact hg, hb⟩
  · intro k other ho
    rw [getElem?_setSession] at ho
    split at ho
    next hk =>
      subst hk
      cases ho
      simp [SessionInv, hst, hq]
    next hk =>
      change SessionInv ap s.actor.published k other (update s.log s.actor.nextEpoch ⟨none, []⟩ k)
      rw [update_of_ne (Ne.symm hk)]
      exact h.session k other ho

end

theorem startSession_cases (actor : SnapshotBootstrapActor ι) (identity : SnapshotActorIdentity)
    (minimum : Nat) : ∃ kept : SnapshotBootstrapActor ι,
      (kept = { actor with
          sessions := actor.sessions.filter fun _ session => session.state ≠ .fenced } ∨
        kept = { actor with published := none, sessions := ∅ }) ∧
      ((∃ error, actor.startSession identity minimum = (.error error, kept)) ∨
        (kept.sessions.size < kept.limits.maxSessions ∧
          ∃ (revoked : Bool) (session : BootstrapSession ι),
            session.identity = identity ∧ session.state = .awaitingSnapshot ∧
            session.queuedTailFrames = [] ∧
            actor.startSession identity minimum = (.ok ⟨kept.nextEpoch, revoked⟩,
              { kept with nextEpoch := kept.nextEpoch + 1 }.setSession kept.nextEpoch
                session))) := by
  simp only [startSession]
  split
  · refine ⟨_, .inr rfl, ?_⟩
    split
    · exact .inl ⟨_, rfl⟩
    rename_i hs
    split
    · exact .inl ⟨_, rfl⟩
    · exact .inr ⟨Nat.lt_of_not_le hs, _, _, rfl, rfl, rfl, rfl⟩
  · refine ⟨_, .inl rfl, ?_⟩
    split
    · exact .inl ⟨_, rfl⟩
    rename_i hs
    split
    · exact .inl ⟨_, rfl⟩
    · exact .inr ⟨Nat.lt_of_not_le hs, _, _, rfl, rfl, rfl, rfl⟩

theorem PublicationInv.start (h : PublicationInv ap s) (identity : SnapshotActorIdentity)
    (minimum : Nat) : PublicationInv ap ⟨(s.actor.startSession identity minimum).2,
      s.record ap (.startSession identity minimum)⟩ := by
  obtain ⟨kept, hk, hc⟩ := startSession_cases s.actor identity minimum
  have hi : PublicationInv ap ⟨kept, s.log⟩ := by
    rcases hk with rfl | rfl
    · exact h.dropFenced
    · exact publicationInv_cleared s.actor s.log
  simp only [record]
  rcases hc with ⟨error, heq⟩ | ⟨hs, revoked, session, -, hst, hq, heq⟩
  · rw [heq]
    exact hi
  · rw [heq]
    exact hi.insert hs hst hq

theorem PublicationInv.run (h : PublicationInv ap s) (op : ActorOp ι) :
    PublicationInv ap ⟨op.run ap s.actor, s.record ap op⟩ := by
  cases op with
  | startSession identity minimum => exact h.start identity minimum
  | beginSnapshotBuild epoch => exact h.begin epoch
  | installPreparedSnapshot epoch prep => exact h.install epoch prep
  | acceptTailFrame epoch frame => exact h.accept epoch frame
  | snapshotBuildFailed epoch => exact h.buildFailed epoch
  | disconnected epoch => exact h.disconnected epoch
  | observeIdentity identity =>
    simp only [ActorOp.run, observeIdentity]
    split
    · exact publicationInv_cleared s.actor s.log
    · exact h
  | revokeAuthority => exact publicationInv_cleared s.actor s.log

end Invariant
end AuditedActor
end Ramjet
