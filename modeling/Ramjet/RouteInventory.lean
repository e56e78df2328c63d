import Ramjet.FailClosedReplay
import Ramjet.ActorSafety
import Ramjet.Lib.Validation

/-!
# Inventories the router reads

`exact_route_inventory.rs`: one read interface over a fenced inventory and a snapshot
publication. Its marker, once left, does not return.
-/

namespace Ramjet
open SnapshotBootstrapActor AuditedActor VerifiedTailFrame Option Function

inductive ExactRouteInventory where
  | direct (inventory : FencedExactKvInventory)
  | snapshot (publication : SnapshotBootstrapActor DigestKvIndex)

inductive ExactInventoryMarker where
  | direct (generation revision : Nat)
  | snapshot (marker : SnapshotPublicationMarker)
  deriving DecidableEq

structure ExactInventoryLookup where
  marker : ExactInventoryMarker
  overlapTokens : Nat
  residentTokens : Nat

inductive ExactInventoryLookupError where
  | untrusted | lookup
  deriving DecidableEq

namespace ExactRouteInventory

def marker : ExactRouteInventory → Option ExactInventoryMarker
  | direct inventory =>
    if inventory.trusted then
      some (.direct inventory.fence.generation inventory.revision)
    else none
  | snapshot publication => publication.publishedMarker.map .snapshot

def supportsPlacement : ExactRouteInventory → Bool
  | direct _ => true
  | snapshot _ => false

def placementReady : ExactRouteInventory → Bool
  | direct inventory => inventory.trusted && inventory.inventory.groupCoverage.placementReady
  | snapshot _ => false

/-- One lookup under the inventory's lock. -/
def lookup (self : ExactRouteInventory) (tokenIds : List UInt32) :
    Except ExactInventoryLookupError ExactInventoryLookup :=
  match self with
  | direct inventory =>
    if !inventory.trusted then .error .untrusted
    else
      match inventory.findLongest tokenIds with
      | .error _ => .error .lookup
      | .ok none => .error .untrusted
      | .ok (some found) => .ok
        { marker := .direct inventory.fence.generation inventory.revision
          overlapTokens := found.tokenIds
          residentTokens := inventory.inventory.index.residentTokenIds }
  | snapshot publication =>
    match publication.publishedMarker, publication.publishedIndex with
    | some marker, some index =>
      match index.findLongest tokenIds with
      | .error _ => .error .lookup
      | .ok found => .ok
        { marker := .snapshot marker
          overlapTokens := found.tokenIds
          residentTokens := index.logicalTokenIds }
    | _, _ => .error .untrusted

/-- What else a marker stands for. -/
def reads (self : ExactRouteInventory) :
    (List UInt32 → Except ExactInventoryLookupError ExactInventoryLookup) × Bool :=
  (self.lookup, self.placementReady)

def unchanged (self : ExactRouteInventory) (expected : ExactInventoryMarker) : Bool :=
  self.marker = some expected

/-- The inventory can be used for routing, and its longest match for the tokens
covers `overlap` of them. -/
def Answers (tokenIds : List UInt32) (overlap : Nat) : ExactRouteInventory → Prop
  | direct inventory => inventory.trusted ∧
      ∃ found, inventory.inventory.findLongest tokenIds = .ok found ∧ found.tokenIds = overlap
  | snapshot publication => ∃ published found, publication.published = some published ∧
      published.index.findLongest tokenIds = .ok found ∧ found.tokenIds = overlap

variable {found : ExactInventoryLookup} {tokenIds : List UInt32}

theorem answers_of_lookup {self : ExactRouteInventory} (h : self.lookup tokenIds = .ok found) :
    self.Answers tokenIds found.overlapTokens := by
  cases self with
  | direct inv =>
    simp only [lookup] at h
    split at h
    · cases h
    rename_i ht
    have ht' : inv.trusted := by simpa using ht
    split at h
    · cases h
    · cases h
    next found' hf =>
      cases h
      refine ⟨ht', found', ?_, rfl⟩
      have ht'' : inv.fence.trusted := ht'
      simp only [FencedExactKvInventory.findLongest, ht'', Bool.not_true,
        Bool.false_eq_true, if_false] at hf
      cases hr : inv.inventory.findLongest tokenIds with
      | error error => simp [hr, Except.map] at hf
      | ok value =>
        simp only [hr, Except.map, Except.ok.injEq, some.injEq] at hf
        rw [hf]
  | snapshot publication =>
    simp only [lookup] at h
    split at h
    next marker index _ hx =>
      split at h
      · cases h
      rename_i found' hf
      cases h
      simp only [publishedIndex, map_eq_some_iff] at hx
      obtain ⟨pub, hb, rfl⟩ := hx
      exact ⟨pub, found', hb, hf, rfl⟩
    · cases h

theorem marker_of_lookup {self : ExactRouteInventory} (h : self.lookup tokenIds = .ok found) :
    self.marker = some found.marker := by
  cases self with
  | direct inv =>
    simp only [lookup] at h
    split at h
    · cases h
    rename_i ht
    split at h
    · cases h
    · cases h
    · cases h
      simpa [marker] using ht
  | snapshot publication =>
    simp only [lookup] at h
    split at h
    next hm _ =>
      split at h
      · cases h
      · cases h
        simp [marker, hm]
    · cases h

end ExactRouteInventory

namespace FencedCall
variable {self : FencedExactKvInventory}

def Versioned (self next : FencedExactKvInventory) : Prop :=
  next.revision = wrappingAdd self.revision 1 ∨
    (next.revision = self.revision ∧ next.inventory = self.inventory ∧
      (next.trusted → self.trusted ∧ next.fence.generation = self.fence.generation))

variable {fence fence' : KvEventFence}

theorem ingest_quiet {sequence : Nat} {clearsAll : Bool} {action : IngestAction}
    (h : fence.ingest sequence clearsAll = (action, fence')) (ha : action ≠ .apply)
    (hr : action ≠ .resetAndApply) (hg : action ≠ .unrecoverableGap) (ht : fence'.trusted) :
    fence.trusted ∧ fence'.generation = fence.generation := by
  simp only [KvEventFence.ingest] at h
  repeat' split at h
  all_goals cases h
  all_goals simp_all [KvEventFence.trusted]

theorem revision_applyAuthoritative (self : FencedExactKvInventory) (batch : KvEventBatch) :
    (self.applyAuthoritative batch).2.revision = self.revision := by
  simp only [FencedExactKvInventory.applyAuthoritative]
  split <;> rfl

theorem revision_perform (self : FencedExactKvInventory) (batch : KvEventBatch)
    (action : IngestAction) : (self.perform batch action).2.revision = self.revision := by
  cases action with
  | apply => exact revision_applyAuthoritative _ _
  | resetAndApply => exact revision_applyAuthoritative _ _
  | duplicate | observeOnly | replay | unrecoverableGap => rfl

theorem versioned_ingestLive (self : FencedExactKvInventory) (sequence : Nat)
    (batch : KvEventBatch) : Versioned self (self.ingestLive sequence batch).2 := by
  rcases hi : self.fence.ingest sequence batch.clearsAll with ⟨action, fence⟩
  have hq := ingest_quiet hi
  have hr := revision_perform { self with fence } batch action
  simp only [FencedExactKvInventory.ingestLive, hi]
  cases action with
  | apply =>
    left
    simp only [FencedExactKvInventory.perform] at hr ⊢
    cases ({ self with fence }.applyAuthoritative batch).1 <;>
      simp [Except.map, FencedExactKvInventory.bumpRevision, hr]
  | resetAndApply =>
    left
    simp only [FencedExactKvInventory.perform] at hr ⊢
    cases (FencedExactKvInventory.applyAuthoritative
      { self with fence, inventory := self.inventory.clear } batch).1 <;>
      simp [Except.map, FencedExactKvInventory.bumpRevision, hr]
  | unrecoverableGap => exact .inl rfl
  | duplicate | observeOnly | replay =>
    exact .inr ⟨rfl, rfl, hq (by simp) (by simp) (by simp)⟩

theorem trusted_observeOnly {sequences : List Nat} {establishesBoundary : Bool}
    (h : fence.acceptReplay sequences establishesBoundary = (.recoveredObserveOnly, fence')) :
    fence'.trusted = false := by
  simp only [KvEventFence.acceptReplay] at h
  split at h
  · cases h
  split at h
  · cases h
  split at h
  · cases h
  rename_i ht
  cases h
  simp only [Bool.not_eq_true] at ht
  simp [KvEventFence.trusted, ht]

theorem versioned_ingestReplay (self : FencedExactKvInventory)
    (batches : List (Nat × KvEventBatch)) : Versioned self (self.ingestReplay batches).2 := by
  rcases hc : self.fence.acceptReplay (batches.map Prod.fst)
    (batches.any fun batch => batch.2.clearsAll) with ⟨action, fence⟩
  simp only [FencedExactKvInventory.ingestReplay, hc]
  cases action with
  | invalid => exact .inl rfl
  | recovered =>
    left
    simp only
    split <;> rfl
  | recoveredObserveOnly =>
    refine .inr ⟨rfl, rfl, fun ht => ?_⟩
    have hn : fence.trusted := ht
    rw [trusted_observeOnly hc] at hn
    cases hn

theorem versioned_commitFullReplay (self : FencedExactKvInventory) (stage : FullReplayStage) :
    Versioned self (self.commitFullReplay stage).2 := by
  simp only [FencedExactKvInventory.commitFullReplay]
  split
  · exact .inl rfl
  rcases hc : self.fence.acceptReplay stage.sequences stage.establishesBoundary with
    ⟨action, fence⟩
  cases action with
  | invalid => exact .inl rfl
  | recovered => exact .inl rfl
  | recoveredObserveOnly =>
    refine .inr ⟨rfl, rfl, fun ht => ?_⟩
    have hn : fence.trusted := ht
    rw [trusted_observeOnly hc] at hn
    cases hn

theorem versioned_next (self : FencedExactKvInventory) (call : FencedCall) :
    Versioned self (call.next self) := by
  cases call with
  | ingestLive sequence batch => exact versioned_ingestLive self sequence batch
  | ingestReplay batches => exact versioned_ingestReplay self batches
  | fullReplay batches => exact versioned_commitFullReplay self _
  | generationChanged => exact .inl rfl
  | prepareFullReplayRetry through => exact .inl rfl

end FencedCall

namespace AuditedActor
section Published
variable {ι : Type} {ap : ι → List UInt8 → Option ι} {s : AuditedActor ι} {epoch : Nat}
  {sess sess' : BootstrapSession ι} {current : SnapshotTailFence × ι}

theorem tailStep_revision {next : SnapshotTailFence × ι} {frame : VerifiedTailFrame}
    (h : tailStep ap current frame = some next) :
    next = current ∨ next.1.revision = saturatingAdd current.1.revision 1 := by
  rcases ha : frame.applyTo current.1 with ⟨action, fence⟩
  simp only [tailStep, ha] at h
  cases action with
  | apply delivery event payload =>
    obtain ⟨-, hv⟩ := applyTo_apply ha
    simp only [map_eq_some_iff] at h
    obtain ⟨index, -, rfl⟩ := h
    right
    rw [hv.next]
    rfl
  | fenced reason => cases h
  | ready =>
    obtain ⟨-, -, -, hn⟩ := applyTo_ready ha
    cases h
    right
    rw [hn]
    rfl
  | duplicate | alreadyReady | identityCurrent =>
    have hq := applyTo_quiet ha (by simp)
    cases h
    left
    rw [hq]

theorem revision_le_of_replay {prepared : PreparedSnapshotGeneration ι}
    {frames : List VerifiedTailFrame} (h : replayTail ap prepared frames = some current) :
    current.1.revision ≤ 2 + frames.length := by
  induction frames using List.reverseRecOn generalizing current with
  | nil =>
    cases h
    exact prepared.accepted.revision.le
  | append_singleton frames frame ih =>
    rcases hp : replayTail ap prepared frames with _ | previous
    · rw [replayTail] at h hp
      rw [List.foldlM_append, hp] at h
      cases h
    rw [replayTail_append hp] at h
    have hl := ih hp
    rw [List.length_append, List.length_singleton]
    rcases tailStep_revision h with rfl | hr
    · omega
    have hs : saturatingAdd previous.1.revision 1 ≤ previous.1.revision + 1 :=
      Nat.min_le_left _ _
    omega

variable {actor : SnapshotBootstrapActor ι}
variable {op : ActorOp ι}

theorem record_published (op : ActorOp ι) (ht : epoch < s.actor.nextEpoch)
    (hp : s.actor.sessions[epoch]? = some sess) (hs : sess.state = .published) :
    s.record ap op epoch = s.log epoch ∨
      ∃ frame, s.record ap op epoch =
        { s.log epoch with delivered := (s.log epoch).delivered ++ [frame] } := by
  cases op with
  | startSession identity minimum =>
    left
    obtain ⟨kept, ha, ⟨-, hl⟩ | ⟨started, -, hl⟩⟩ :=
      run_cases ap s (show (ActorOp.startSession identity minimum).epoch? = none from rfl)
    · rw [hl]
    · rw [hl, update_of_ne (Nat.ne_of_lt (ha.nextEpoch ▸ ht))]
  | installPreparedSnapshot k prepared =>
    left
    by_cases hk : k = epoch
    · subst hk
      simp [record, installPreparedSnapshot, hp, hs]
    simp only [record]
    rcases (s.actor.installPreparedSnapshot ap k prepared).1 with error | action
    · rfl
    · exact update_of_ne (Ne.symm hk) _ _
  | acceptTailFrame k frame =>
    by_cases hk : k = epoch
    · subst hk
      exact .inr ⟨frame, update_self ..⟩
    · exact .inl (update_of_ne (Ne.symm hk) _ _)
  | beginSnapshotBuild | snapshotBuildFailed | disconnected | observeIdentity | revokeAuthority =>
    exact .inl rfl

theorem publishedMarker_eq_some {marker : SnapshotPublicationMarker} :
    actor.publishedMarker = some marker ↔ ∃ pub sess, actor.published = some pub ∧
        pub.ownerEpoch = marker.epoch ∧ actor.sessions[marker.epoch]? = some sess ∧
        sess.state = .published ∧ sess.fence.revision = marker.revision := by
  obtain ⟨epoch, revision⟩ := marker
  simp only [publishedMarker, publishedEpoch, bind_eq_some_iff, map_eq_some_iff]
  constructor
  · rintro ⟨_, ⟨pub, hb, rfl⟩, sess, hg, hi⟩
    split at hi
    next hs =>
      cases hi
      exact ⟨pub, sess, hb, rfl, hg, hs, rfl⟩
    · cases hi
  · rintro ⟨pub, sess, hb, rfl, hg, hs, rfl⟩
    exact ⟨_, ⟨pub, hb, rfl⟩, sess, hg, by rw [if_pos hs]⟩

theorem PublicationInv.published_run (h : PublicationInv ap s) (op : ActorOp ι)
    (ha : s.actor.sessions[epoch]? = some sess) (hs : sess.state = .published) :
    Retired (op.run ap s.actor) epoch ∨ ∃ sess', (op.run ap s.actor).sessions[epoch]? = some sess' ∧
        sess'.state = .published ∧ ((sess'.fence = sess.fence ∧
            (op.run ap s.actor).publishedIndex = s.actor.publishedIndex) ∨
          sess'.fence.revision = saturatingAdd sess.fence.revision 1) := by
  have ht := h.epochs epoch sess ha
  have hn := ht.trans_le (limits_nextEpoch_run ap s.actor op).2
  rcases hg : (op.run ap s.actor).sessions[epoch]? with _ | sess'
  · exact .inl ⟨hn, by simp [hg]⟩
  obtain ⟨old, hold, hr⟩ := session_run s.actor op ht hg
  rw [ha, some.injEq] at hold
  rw [← hold, hs] at hr
  rcases published_or_fenced_of_rank hr with hb | hf
  · right
    refine ⟨sess', rfl, hb, ?_⟩
    -- both sessions are what their records replay to
    have hold := h.session epoch sess ha
    have hw := (h.run op).session epoch sess' hg
    simp only [SessionInv, hs] at hold
    simp only [SessionInv, hb] at hw
    obtain ⟨prepared, index, hp, ho, -, hrp⟩ := hold
    obtain ⟨prepared', index', hp', ho', -, hrp'⟩ := hw
    rcases record_published op ht ha hs with hl | ⟨frame, hl⟩
    · rw [hl] at hp' hrp'
      rw [hp] at hp'
      cases hp'
      rw [hrp, some.injEq, Prod.mk.injEq] at hrp'
      refine .inl ⟨hrp'.1.symm, ?_⟩
      simp [publishedIndex, ho, ho', hrp'.2]
    · rw [hl] at hp' hrp'
      rw [hp] at hp'
      cases hp'
      rw [replayTail_append hrp] at hrp'
      rcases tailStep_revision hrp' with heq | hv
      · rw [Prod.mk.injEq] at heq
        refine .inl ⟨heq.1, ?_⟩
        simp [publishedIndex, ho, ho', heq.2]
      · exact .inr hv
  · refine .inl ⟨hn, fun other hc => ?_⟩
    rw [hg] at hc
    cases hc
    exact hf

def recorded (log : SessionLog ι) : Nat :=
  log.delivered.length + log.prepared.isSome.toNat

def Counted (s : AuditedActor ι) (updates : Nat) : Prop :=
  ∀ (epoch : Nat) (session : BootstrapSession ι), s.actor.sessions[epoch]? = some session →
    recorded (s.log epoch) + 1 ≤ updates

theorem recorded_record_le (ap : ι → List UInt8 → Option ι) (s : AuditedActor ι) {j : Nat}
    (ho : op.epoch? = some j) (k : Nat) : recorded (s.record ap op k) ≤ recorded (s.log k) + 1 := by
  cases op with
  | installPreparedSnapshot epoch prepared =>
    simp only [record]
    rcases (s.actor.installPreparedSnapshot ap epoch prepared).1 with error | action
    · exact Nat.le_succ _
    by_cases hk : k = epoch
    · subst hk
      simp [recorded]
    · simp [update_of_ne hk]
  | acceptTailFrame epoch frame =>
    by_cases hk : k = epoch
    · subst hk
      simp [record, recorded]
      omega
    · simp [record, update_of_ne hk]
  | beginSnapshotBuild | snapshotBuildFailed | disconnected => exact Nat.le_succ _
  | startSession | observeIdentity | revokeAuthority => cases ho

theorem Counted.run {updates : Nat} (h : s.Counted updates) (op : ActorOp ι) :
    Counted ⟨op.run ap s.actor, s.record ap op⟩ (updates + 1) := by
  intro k sess hg
  rcases ho : op.epoch? with _ | j
  · obtain ⟨kept, hk, ⟨heq, hl⟩ | ⟨started, heq, hl⟩⟩ := run_cases ap s ho
    · simp only [heq] at hg
      simp only [hl]
      exact Nat.le_succ_of_le (h k sess (hk.sessions k sess hg))
    simp only [heq, getElem?_setSession] at hg
    simp only [hl]
    -- the epoch that has just been given out has an empty record
    by_cases hw : kept.nextEpoch = k
    · subst hw
      simp [recorded]
    rw [if_neg hw] at hg
    rw [update_of_ne (Ne.symm hw)]
    exact Nat.le_succ_of_le (h k sess (hk.sessions k sess hg))
  · obtain ⟨old, hold, -⟩ := (moves_run ap s.actor ho).present hg
    have hc := h k old hold
    have ha := recorded_record_le ap s ho k
    show recorded (s.record ap op k) + 1 ≤ updates + 1
    omega

theorem PublicationInv.revision_le (h : PublicationInv ap s) {updates : Nat}
    (ht : s.Counted updates) (hp : s.actor.sessions[epoch]? = some sess)
    (hs : sess.state = .published) : sess.fence.revision ≤ updates := by
  have hse := h.session epoch sess hp
  simp only [SessionInv, hs] at hse
  obtain ⟨prepared, index, ha, -, -, hrp⟩ := hse
  have hr := revision_le_of_replay hrp
  have hc := ht epoch sess hp
  simp only [recorded, ha, isSome_some, Bool.toNat_true] at hc
  simp only at hr
  omega

end Published
end AuditedActor

/-- An inventory with the number of updates it has seen; a publication also
with the record of its actor. -/
inductive TrackedInventory where
  | direct (inventory : FencedExactKvInventory) (updates : Nat)
  | snapshot (applyPayload : DigestKvIndex → List UInt8 → Option DigestKvIndex)
      (audited : AuditedActor DigestKvIndex) (updates : Nat)

inductive InventoryUpdate where
  | direct (call : FencedCall)
  | snapshot (op : ActorOp DigestKvIndex)

namespace TrackedInventory

def inventory : TrackedInventory → ExactRouteInventory
  | direct inventory _ => .direct inventory
  | snapshot _ audited _ => .snapshot audited.actor

def updates : TrackedInventory → Nat
  | direct _ updates | snapshot _ _ updates => updates

/-- Each update runs under the inventory's lock. -/
def system : TransitionSystem TrackedInventory InventoryUpdate where
  init s :=
    match s with
    | direct inventory updates =>
      updates = 0 ∧ ∃ replayLimit limits, inventory = .new replayLimit limits
    | snapshot _ audited updates =>
      updates = 0 ∧ ∃ limits, new limits = .ok audited.actor
  step s update s' :=
    match s, update with
    | direct inventory updates, .direct call => s' = direct (call.next inventory) (updates + 1)
    | snapshot applyPayload audited updates, .snapshot op =>
      s' = snapshot applyPayload ⟨op.run applyPayload audited.actor,
        audited.record applyPayload op⟩ (updates + 1)
    | _, _ => False

/-- The counters have not gone past the updates. -/
def Sane : TrackedInventory → Prop
  | direct inventory updates => updates < 2 ^ 64 → inventory.revision ≤ updates
  | snapshot applyPayload audited updates =>
      audited.PublicationInv applyPayload ∧ audited.Counted updates

theorem sane_of_reachable {s : TrackedInventory} (h : system.Reachable s) : s.Sane := by
  refine h.invariant ?_ ?_
  · intro s hi
    cases s with
    | direct inv updates =>
      obtain ⟨rfl, replayLimit, limits, rfl⟩ := hi
      exact fun _ => Nat.le_refl _
    | snapshot ap audited updates =>
      obtain ⟨rfl, limits, hw⟩ := hi
      have hr : (AuditedActor.system limits ap).Reachable audited := .init hw
      refine ⟨(publicationInv_of_reachable hr).1, ?_⟩
      intro epoch sess hg
      simp only [new] at hw
      split at hw
      · cases hw
      · rw [← Except.ok.inj hw] at hg
        simp at hg
  · intro s update s' hs hsp
    cases s with
    | direct inv updates =>
      cases update with
      | snapshot op => exact hsp.elim
      | direct call =>
        cases hsp
        intro hl
        have he := hs (by omega)
        rcases FencedCall.versioned_next inv call with hb | ⟨hk, -⟩
        · rw [hb, wrappingAdd, Nat.mod_eq_of_lt (by omega)]
          omega
        · omega
    | snapshot ap audited updates =>
      cases update with
      | direct call => exact hsp.elim
      | snapshot op =>
        cases hsp
        exact ⟨hs.1.run op, hs.2.run op⟩

def Over : ExactInventoryMarker → TrackedInventory → Prop
  | .direct _ revision, direct inventory updates =>
    2 ^ 64 ≤ updates ∨ revision < inventory.revision ∨
      (inventory.revision = revision ∧ inventory.trusted = false)
  | .snapshot marker, snapshot _ audited updates =>
    2 ^ 64 ≤ updates ∨ Retired audited.actor marker.epoch ∨
      ∃ session, audited.actor.sessions[marker.epoch]? = some session ∧
        session.state = .published ∧ marker.revision < session.fence.revision
  | _, _ => True

variable {marker : ExactInventoryMarker}

theorem not_over {s : TrackedInventory} (hu : s.updates < 2 ^ 64)
    (hm : s.inventory.marker = some marker) : ¬ Over marker s := by
  cases s with
  | direct inv updates =>
    simp only [TrackedInventory.inventory, ExactRouteInventory.marker] at hm
    split at hm
    next hr =>
      cases hm
      rintro (ho | ho | ⟨-, ho⟩)
      · exact absurd hu (Nat.not_lt.2 ho)
      · exact absurd ho (Nat.lt_irrefl _)
      · rw [hr] at ho
        cases ho
    · cases hm
  | snapshot ap audited updates =>
    simp only [TrackedInventory.inventory, ExactRouteInventory.marker, map_eq_some_iff] at hm
    obtain ⟨marker, hb, rfl⟩ := hm
    obtain ⟨pub, sess, hp, hw, hg, hs, hv⟩ :=
      publishedMarker_eq_some.1 hb
    rintro (ho | ho | ⟨other, ht, -, ho⟩)
    · exact absurd hu (Nat.not_lt.2 ho)
    · have hf := ho.2 sess hg
      rw [hs] at hf
      cases hf
    · rw [hg] at ht
      cases ht
      omega

variable {updates : Nat} {revision : Nat}

theorem wrappingAdd_gt (hl : revision ≤ updates) (ht : updates + 1 < 2 ^ 64) :
    revision < wrappingAdd revision 1 := by
  rw [wrappingAdd, Nat.mod_eq_of_lt (by omega)]
  exact Nat.lt_succ_self _

theorem saturatingAdd_gt (hl : revision ≤ updates) (ht : updates + 1 < 2 ^ 64) :
    revision < saturatingAdd revision 1 := by
  rw [saturatingAdd_of_lt (by simp only [u64Max]; omega)]
  exact Nat.lt_succ_self _

variable {inv : FencedExactKvInventory}

theorem direct_hold (hs : (direct inv updates).Sane)
    (hm : (ExactRouteInventory.direct inv).marker = some marker) (call : FencedCall) :
    ((ExactRouteInventory.direct (call.next inv)).marker = some marker ∧
      (ExactRouteInventory.direct (call.next inv)).reads = (ExactRouteInventory.direct inv).reads) ∨
    Over marker (direct (call.next inv) (updates + 1)) := by
  simp only [ExactRouteInventory.marker] at hm
  split at hm
  next ht =>
    cases hm
    by_cases hl : updates + 1 < 2 ^ 64
    · rcases FencedCall.versioned_next inv call with hb | ⟨hr, hk, hu⟩
      · have hg := wrappingAdd_gt (hs (by omega)) hl
        exact .inr (.inr (.inl (hb ▸ hg)))
      rcases hn : (call.next inv).trusted with _ | _
      · exact .inr (.inr (.inr ⟨hr, hn⟩))
      have ha := (hu hn).2
      -- the lookup reads trust, the inv and the two counters
      have hf : (call.next inv).fence.trusted = inv.fence.trusted :=
        Eq.trans hn ht.symm
      left
      constructor
      · simp [ExactRouteInventory.marker, hn, ha, hr]
      apply Prod.ext
      · funext tokenIds
        simp [ExactRouteInventory.reads, ExactRouteInventory.lookup,
          FencedExactKvInventory.findLongest, hn, ht, ha, hr, hk,
          hf]
      · simp [ExactRouteInventory.reads, ExactRouteInventory.placementReady, hn, ht, hk]
    · exact .inr (.inl (Nat.le_of_not_lt hl))
  · cases hm

theorem direct_over (hs : (direct inv updates).Sane) (ho : Over marker (direct inv updates))
    (call : FencedCall) : Over marker (direct (call.next inv) (updates + 1)) := by
  cases marker with
  | snapshot marker => trivial
  | direct generation revision =>
    by_cases hl : updates + 1 < 2 ^ 64
    · have hg := wrappingAdd_gt (hs (by omega)) hl
      rcases ho with ho | ho | ⟨hm, hu⟩
      · exact absurd hl (by omega)
      · right
        left
        rcases FencedCall.versioned_next inv call with hb | ⟨hr, -⟩ <;> omega
      · right
        rcases FencedCall.versioned_next inv call with hb | ⟨hr, -, ht⟩
        · left
          omega
        right
        refine ⟨hr.trans hm, ?_⟩
        by_contra hn
        have hc := (ht (Bool.not_eq_false _ ▸ hn)).1
        rw [hu] at hc
        cases hc
    · exact .inl (Nat.le_of_not_lt hl)

section Snapshot
variable {ap : DigestKvIndex → List UInt8 → Option DigestKvIndex}
  {audited : AuditedActor DigestKvIndex} {updates : Nat}

theorem snapshot_hold {marker : ExactInventoryMarker} (hs : (snapshot ap audited updates).Sane)
    (hm : (ExactRouteInventory.snapshot audited.actor).marker = some marker)
    (op : ActorOp DigestKvIndex) :
    ((ExactRouteInventory.snapshot (op.run ap audited.actor)).marker = some marker ∧
      (ExactRouteInventory.snapshot (op.run ap audited.actor)).reads =
        (ExactRouteInventory.snapshot audited.actor).reads) ∨
    Over marker (snapshot ap ⟨op.run ap audited.actor, audited.record ap op⟩ (updates + 1)) := by
  simp only [ExactRouteInventory.marker, map_eq_some_iff] at hm
  obtain ⟨marker, hb, rfl⟩ := hm
  obtain ⟨pub, sess, -, -, hg, ht, hr⟩ :=
    publishedMarker_eq_some.1 hb
  have he := hs.1.revision_le hs.2 hg ht
  by_cases hl : updates + 1 < 2 ^ 64
  · have ha := saturatingAdd_gt he hl
    rcases hs.1.published_run op hg ht with ho | ⟨sess', hg', ht', hk⟩
    · exact .inr (.inr (.inl ho))
    rcases hk with ⟨hf, hx⟩ | hv
    · left
      have hn := (hs.1.run op).session _ sess' hg'
      simp only [SessionInv, ht'] at hn
      obtain ⟨prepared, index, -, hw, -⟩ := hn
      have hm' : (op.run ap audited.actor).publishedMarker = some marker :=
        publishedMarker_eq_some.2 ⟨_, sess', hw, rfl, hg', ht', hf ▸ hr⟩
      refine ⟨by simp [ExactRouteInventory.marker, hm'], Prod.ext ?_ rfl⟩
      funext tokenIds
      simp only [ExactRouteInventory.reads, ExactRouteInventory.lookup, hm', hb, hx]
    · exact .inr (.inr (.inr ⟨sess', hg', ht', by omega⟩))
  · exact .inr (.inl (Nat.le_of_not_lt hl))

theorem snapshot_over {marker : ExactInventoryMarker} (hs : (snapshot ap audited updates).Sane)
    (ho : Over marker (snapshot ap audited updates)) (op : ActorOp DigestKvIndex) :
    Over marker (snapshot ap ⟨op.run ap audited.actor, audited.record ap op⟩ (updates + 1)) := by
  cases marker with
  | direct generation revision => trivial
  | snapshot marker =>
    by_cases hl : updates + 1 < 2 ^ 64
    · rcases ho with ho | ho | ⟨sess, hg, ht, hr⟩
      · exact absurd hl (by omega)
      · exact .inr (.inl (ho.run op))
      · have ha := saturatingAdd_gt (hs.1.revision_le hs.2 hg ht) hl
        rcases hs.1.published_run op hg ht with ho | ⟨sess', hg', ht', hk⟩
        · exact .inr (.inl ho)
        refine .inr (.inr ⟨sess', hg', ht', ?_⟩)
        rcases hk with ⟨hf, -⟩ | hm
        · rw [hf]
          exact hr
        · omega
    · exact .inl (Nat.le_of_not_lt hl)

end Snapshot

/-- Markers validate what is read, for both kinds of inventory. -/
theorem validates : system.Validates (fun s => s.inventory.marker) (fun s => s.inventory.reads)
    Over where
  hold := by
    intro s s' update marker hr hsp hm
    have hs := sane_of_reachable hr
    cases s with
    | direct inv updates =>
      cases update with
      | snapshot op => exact hsp.elim
      | direct call =>
        cases hsp
        exact direct_hold hs hm call
    | snapshot ap audited updates =>
      cases update with
      | direct call => exact hsp.elim
      | snapshot op =>
        cases hsp
        exact snapshot_hold hs hm op
  stays_over := by
    intro s s' update marker hr hsp ho
    have hs := sane_of_reachable hr
    cases s with
    | direct inv updates =>
      cases update with
      | snapshot op => exact hsp.elim
      | direct call =>
        cases hsp
        exact direct_over hs ho call
    | snapshot ap audited updates =>
      cases update with
      | direct call => exact hsp.elim
      | snapshot op =>
        cases hsp
        exact snapshot_over hs ho op

end TrackedInventory
end Ramjet
