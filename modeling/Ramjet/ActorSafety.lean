import Ramjet.ActorPublication
import Ramjet.DigestDelta
import Ramjet.SnapshotRoundTrip

/-!
# Safety of publication

A call touches the session it names, and an epoch whose session is fenced or gone is
never used again.
-/

namespace Ramjet
variable {ι : Type} {ap : ι → List UInt8 → Option ι}

namespace AuditedActor

structure Confined (actor : SnapshotBootstrapActor ι) (epoch : Nat)
    (next : SnapshotBootstrapActor ι) : Prop where
  limits : next.limits = actor.limits
  nextEpoch : next.nextEpoch = actor.nextEpoch
  others : ∀ (k : Nat) (session : BootstrapSession ι), k ≠ epoch →
    next.sessions[k]? = some session → actor.sessions[k]? = some session

/-- How far a session has come. -/
def rank : BootstrapSessionState → Nat
  | .awaitingSnapshot => 0
  | .buildingSnapshot => 1
  | .catchingUp => 2
  | .published => 3
  | .fenced => 4

def Settled (session : BootstrapSession ι) : Prop :=
  rank .published ≤ rank session.state ∧ session.privateIndex = none

inductive Moves (epoch : Nat) (actor : SnapshotBootstrapActor ι) : SnapshotBootstrapActor ι → Prop
  | refl : Moves epoch actor actor
  | set {next : SnapshotBootstrapActor ι} {session session' : BootstrapSession ι} :
    Moves epoch actor next → next.sessions[epoch]? = some session →
    session'.identity = session.identity → rank session.state ≤ rank session'.state →
    (Settled session → session'.privateIndex = none) →
    Moves epoch actor (next.setSession epoch session')
  | revoke {next : SnapshotBootstrapActor ι} :
    Moves epoch actor next → Moves epoch actor (next.revokeIfOwner epoch)
  | feed {next : SnapshotBootstrapActor ι} (index : ι) :
    Moves epoch actor next → Moves epoch actor { next with
      published := next.published.map fun published => { published with index } }
  | publish {next : SnapshotBootstrapActor ι} {session : BootstrapSession ι} (index : ι) :
    Moves epoch actor next → next.sessions[epoch]? = some session → session.state ≠ .fenced →
    session.privateIndex = some index → Moves epoch actor { next with
      published := some ⟨epoch, session.identity, index⟩
      sessions := (∅ : Std.TreeMap Nat (BootstrapSession ι)).insert epoch
        { session with state := .published, privateIndex := none } }
  | remove {next : SnapshotBootstrapActor ι} :
    Moves epoch actor next → Moves epoch actor { next with sessions := next.sessions.erase epoch }

section Moves
variable {actor next : SnapshotBootstrapActor ι} {epoch : Nat} {sess : BootstrapSession ι}

theorem rank_le_fenced (state : BootstrapSessionState) : rank state ≤ rank .fenced := by
  cases state <;> decide

theorem rank_le_published {state : BootstrapSessionState} (h : state ≠ .fenced) :
    rank state ≤ rank .published := by
  revert h
  cases state <;> decide

theorem eq_fenced_of_rank {state : BootstrapSessionState} (h : rank .fenced ≤ rank state) :
    state = .fenced := by
  revert h
  cases state <;> decide

theorem published_or_fenced_of_rank {state : BootstrapSessionState}
    (h : rank .published ≤ rank state) : state = .published ∨ state = .fenced := by
  revert h
  cases state <;> decide

theorem sessions_revokeIfOwner (actor : SnapshotBootstrapActor ι) (epoch : Nat) :
    (actor.revokeIfOwner epoch).sessions = actor.sessions := by
  rw [revokeIfOwner_eq]

section
variable (h : Moves epoch actor next)
include h

theorem Moves.present {k : Nat} {new : BootstrapSession ι} (hg : next.sessions[k]? = some new) :
    ∃ old : BootstrapSession ι, actor.sessions[k]? = some old ∧ new.identity = old.identity ∧
      rank old.state ≤ rank new.state ∧ (k ≠ epoch → new = old) := by
  induction h generalizing new with
  | refl => exact ⟨new, hg, rfl, Nat.le_refl _, fun _ => rfl⟩
  | set _ hold hi hr _ ih =>
    rw [getElem?_setSession] at hg
    split at hg
    next hk =>
      subst hk
      cases hg
      obtain ⟨old, hg, hi', hr', -⟩ := ih hold
      exact ⟨old, hg, hi.trans hi', hr'.trans hr, fun hn => absurd rfl hn⟩
    · exact ih hg
  | revoke _ ih =>
    rw [sessions_revokeIfOwner] at hg
    exact ih hg
  | feed _ _ ih => exact ih hg
  | publish _ _ hold hf _ ih =>
    rw [Std.TreeMap.getElem?_insert] at hg
    split at hg
    next hk =>
      rw [Nat.compare_eq_eq] at hk
      subst hk
      cases hg
      obtain ⟨old, hg, hi, hr, -⟩ := ih hold
      exact ⟨old, hg, hi, hr.trans (rank_le_published hf), fun hn => absurd rfl hn⟩
    · simp at hg
  | remove _ ih =>
    rw [Std.TreeMap.getElem?_erase] at hg
    split at hg
    · cases hg
    · exact ih hg

theorem Moves.published {new : Published ι} (hb : next.published = some new) :
    (∃ old, actor.published = some old ∧ new.ownerEpoch = old.ownerEpoch ∧
        new.identity = old.identity) ∨
      (new.ownerEpoch = epoch ∧ ∃ old : BootstrapSession ι, actor.sessions[epoch]? = some old ∧
        new.identity = old.identity) := by
  induction h generalizing new with
  | refl => exact .inl ⟨new, hb, rfl, rfl⟩
  | set _ _ _ _ _ ih => exact ih hb
  | revoke _ ih =>
    rw [revokeIfOwner_eq] at hb
    simp only at hb
    split at hb
    · cases hb
    · exact ih hb
  | feed _ _ ih =>
    obtain ⟨before, he, rfl⟩ := Option.map_eq_some_iff.1 hb
    have hold := ih he
    exact hold
  | publish _ hm hold _ _ _ =>
    cases hb
    obtain ⟨old, hg, hi, -⟩ := hm.present hold
    exact .inr ⟨rfl, old, hg, hi⟩
  | remove _ ih => exact ih hb

theorem Moves.confined : Confined actor epoch next := by
  have hf : next.limits = actor.limits ∧ next.nextEpoch = actor.nextEpoch := by
    induction h with
    | refl => exact ⟨rfl, rfl⟩
    | revoke _ ih =>
      rw [revokeIfOwner_eq]
      exact ih
    | set | feed | publish | remove => assumption
  refine ⟨hf.1, hf.2, fun k sess hn hg => ?_⟩
  obtain ⟨old, hold, -, -, hs⟩ := h.present hg
  rw [hold, hs hn]

end

/-- A session that frames still reach. -/
def Live (actor : SnapshotBootstrapActor ι) (epoch : Nat) : Prop :=
  ∀ session : BootstrapSession ι, actor.sessions[epoch]? = some session → session.state ≠ .fenced

theorem live_setSession (h : sess.state ≠ .fenced) : Live (next.setSession epoch sess) epoch := by
  intro other ho
  rw [getElem?_setSession, if_pos rfl, Option.some.injEq] at ho
  exact ho ▸ h

theorem Moves.fence (h : Moves epoch actor next) (hg : next.sessions[epoch]? = some sess)
    {sess' : BootstrapSession ι} (hi : sess'.identity = sess.identity) (hs : sess'.state = .fenced)
    (hp : sess'.privateIndex = none) : Moves epoch actor (next.setSession epoch sess') :=
  h.set hg hi (hs ▸ rank_le_fenced _) fun _ => hp

theorem Moves.failApplication (h : Moves epoch actor next)
    (hg : next.sessions[epoch]? = some sess) :
    Moves epoch actor (next.failApplication epoch sess).2 :=
  (h.fence hg (by rfl) rfl rfl).revoke

theorem Moves.frame (ap : ι → List UInt8 → Option ι) (h : Moves epoch actor next)
    (hl : Live next epoch) (frame : VerifiedTailFrame) :
    Moves epoch actor (next.applyVerifiedFrame ap epoch frame).2 ∧
      ((next.applyVerifiedFrame ap epoch frame).1.isFenced = false →
        Live (next.applyVerifiedFrame ap epoch frame).2 epoch ∧ (next.published.isSome →
          (next.applyVerifiedFrame ap epoch frame).2.published.isSome)) := by
  simp only [SnapshotBootstrapActor.applyVerifiedFrame]
  split
  · exact ⟨h, fun _ => ⟨hl, fun ha => ha⟩⟩
  rename_i sess hg
  have hb := hl sess hg
  have hs : Moves epoch actor (next.setSession epoch
      { sess with fence := (frame.applyTo sess.fence).2 }) :=
    h.set hg rfl (Nat.le_refl _) fun ht => ht.2
  have he : (next.setSession epoch
      { sess with fence := (frame.applyTo sess.fence).2 }).sessions[epoch]? =
      some { sess with fence := (frame.applyTo sess.fence).2 } := by
    rw [getElem?_setSession, if_pos rfl]
  split
  · split
    · split
      · refine ⟨hs.feed _, fun _ => ⟨live_setSession hb, fun ha => ?_⟩⟩
        rw [Option.isSome_map]
        exact ha
      · exact ⟨hs.failApplication he, by rintro ⟨⟩⟩
    · split
      next index hx =>
        refine ⟨hs.set he rfl (Nat.le_refl _) fun ht => ?_,
          fun _ => ⟨live_setSession hb, fun ha => ha⟩⟩
        rw [ht.2] at hx
        cases hx
      · exact ⟨hs.failApplication he, by rintro ⟨⟩⟩
  · exact ⟨hs, fun _ => ⟨live_setSession hb, fun ha => ha⟩⟩
  · rw [SnapshotBootstrapActor.publish, he]
    dsimp only
    split
    · exact ⟨hs.fence he rfl rfl ‹_›, by rintro ⟨⟩⟩
    refine ⟨hs.publish _ he hb ‹_›, fun _ => ⟨fun other ho => ?_, fun _ => rfl⟩⟩
    simp only [Std.TreeMap.getElem?_insert_self, Option.some.injEq] at ho
    rw [← ho]
    simp
  · exact ⟨hs, fun _ => ⟨live_setSession hb, fun ha => ha⟩⟩
  · exact ⟨hs, fun _ => ⟨live_setSession hb, fun ha => ha⟩⟩
  · exact ⟨(hs.fence he (by rfl) rfl rfl).revoke, by rintro ⟨⟩⟩

theorem Moves.drain {action : ActorAction} (h : Moves epoch actor next) (hl : Live next epoch)
    (frames : List VerifiedTailFrame) :
    Moves epoch actor (SnapshotBootstrapActor.drain ap epoch (action, next) frames).2 ∧
      ((SnapshotBootstrapActor.drain ap epoch (action, next) frames).1.isFenced = false →
        next.published.isSome →
        (SnapshotBootstrapActor.drain ap epoch (action, next) frames).2.published.isSome) := by
  induction frames generalizing next action with
  | nil => exact ⟨h, fun _ hs => hs⟩
  | cons frame rest ih =>
    obtain ⟨hfr, hk⟩ := h.frame ap hl frame
    rw [SnapshotBootstrapActor.drain]
    split
    next hf =>
      exact ⟨hfr, fun hn => by simp [hf] at hn⟩
    rename_i hf
    obtain ⟨hl', hs'⟩ := hk (Bool.eq_false_of_not_eq_true hf)
    obtain ⟨hm, hr⟩ := ih hfr hl'
    exact ⟨hm, fun hn hs => hr hn (hs' hs)⟩

theorem moves_run (ap : ι → List UInt8 → Option ι) (actor : SnapshotBootstrapActor ι)
    {op : ActorOp ι} (hp : op.epoch? = some epoch) : Moves epoch actor (op.run ap actor) := by
  have he : Moves epoch actor actor := .refl
  cases op with
  | beginSnapshotBuild k =>
    cases hp
    simp only [ActorOp.run, SnapshotBootstrapActor.beginSnapshotBuild]
    split
    · exact he
    rename_i sess hg
    split
    next ht =>
      exact he.set hg rfl (ht ▸ Nat.zero_le _) fun hs => hs.2
    · exact (he.fence hg (by rfl) rfl rfl).revoke
  | installPreparedSnapshot k prepared =>
    cases hp
    simp only [ActorOp.run, SnapshotBootstrapActor.installPreparedSnapshot]
    split
    · exact he
    rename_i sess hg
    split
    · exact he
    rename_i ht
    split
    · exact he.fence hg (by rfl) rfl rfl
    refine (Moves.drain (he.set hg ?_ ?_ fun hs => ?_) ?_ _).1
    · rfl
    · rw [not_not.1 ht]
      exact Nat.le_succ 1
    · have hr := hs.1
      rw [not_not.1 ht] at hr
      exact absurd hr (by decide)
    · exact live_setSession (by rintro ⟨⟩)
  | acceptTailFrame k frame =>
    cases hp
    simp only [ActorOp.run, SnapshotBootstrapActor.acceptTailFrame]
    split
    · exact he
    rename_i sess hg
    split
    · split
      · exact he.fence hg (by rfl) rfl rfl
      · exact he.set hg rfl (Nat.le_refl _) fun hs => hs.2
    split
    · exact he
    rename_i ht
    refine (he.frame ap (fun other ho => ?_) frame).1
    rw [hg, Option.some.injEq] at ho
    exact ho ▸ ht
  | snapshotBuildFailed k =>
    cases hp
    simp only [ActorOp.run, SnapshotBootstrapActor.snapshotBuildFailed]
    split
    · exact he
    · exact he.failApplication ‹_›
  | disconnected k =>
    cases hp
    simp only [ActorOp.run, SnapshotBootstrapActor.disconnected]
    split
    · exact he
    · exact he.remove.revoke
  | startSession | observeIdentity | revokeAuthority => cases hp

theorem run_absent (actor : SnapshotBootstrapActor ι) {op : ActorOp ι} (ho : op.epoch? = some epoch)
    (hg : actor.sessions[epoch]? = none) : op.run ap actor = actor := by
  cases op with
  | beginSnapshotBuild k =>
    cases ho
    simp [ActorOp.run, SnapshotBootstrapActor.beginSnapshotBuild, hg]
  | installPreparedSnapshot k prepared =>
    cases ho
    simp [ActorOp.run, SnapshotBootstrapActor.installPreparedSnapshot, hg]
  | acceptTailFrame k frame =>
    cases ho
    simp [ActorOp.run, SnapshotBootstrapActor.acceptTailFrame, hg]
  | snapshotBuildFailed k =>
    cases ho
    simp [ActorOp.run, SnapshotBootstrapActor.snapshotBuildFailed, hg]
  | disconnected k =>
    cases ho
    simp [ActorOp.run, SnapshotBootstrapActor.disconnected, hg]
  | startSession | observeIdentity | revokeAuthority => cases ho

end Moves

/-- The epoch has been given out, and its session is gone or fenced. -/
def Retired (actor : SnapshotBootstrapActor ι) (epoch : Nat) : Prop :=
  epoch < actor.nextEpoch ∧ ∀ session : BootstrapSession ι, actor.sessions[epoch]? = some session →
      session.state = .fenced

section Retired
variable {actor : SnapshotBootstrapActor ι} {epoch : Nat} {sess : BootstrapSession ι}

/-- Sessions have been forgotten, and no others have come. -/
structure Forgets (actor kept : SnapshotBootstrapActor ι) : Prop where
  limits : kept.limits = actor.limits
  nextEpoch : kept.nextEpoch = actor.nextEpoch
  sessions : ∀ (k : Nat) (session : BootstrapSession ι), kept.sessions[k]? = some session →
    actor.sessions[k]? = some session

theorem forgets_cleared (actor : SnapshotBootstrapActor ι) :
    Forgets actor { actor with published := none, sessions := ∅ } :=
  ⟨rfl, rfl, fun _ _ hg => by simp at hg⟩

theorem run_cases (ap : ι → List UInt8 → Option ι) (s : AuditedActor ι) {op : ActorOp ι}
    (ho : op.epoch? = none) :
    ∃ kept, Forgets s.actor kept ∧ ((op.run ap s.actor = kept ∧ s.record ap op = s.log) ∨
        ∃ sess, op.run ap s.actor =
            { kept with nextEpoch := kept.nextEpoch + 1 }.setSession kept.nextEpoch sess ∧
          s.record ap op = Function.update s.log kept.nextEpoch ⟨none, []⟩) := by
  cases op with
  | startSession identity minimum =>
    obtain ⟨kept, hk, hc⟩ := startSession_cases s.actor identity minimum
    refine ⟨kept, ?_, ?_⟩
    · rcases hk with rfl | rfl
      · refine ⟨rfl, rfl, fun k sess hg => ?_⟩
        rw [Std.TreeMap.getElem?_filter] at hg
        exact (Option.pfilter_eq_some_iff.1 hg).1
      · exact forgets_cleared s.actor
    · simp only [ActorOp.run, record]
      rcases hc with ⟨error, heq⟩ | ⟨-, revoked, sess, -, -, -, heq⟩
      · rw [heq]
        exact .inl ⟨rfl, rfl⟩
      · rw [heq]
        exact .inr ⟨sess, rfl, rfl⟩
  | observeIdentity identity =>
    simp only [ActorOp.run, SnapshotBootstrapActor.observeIdentity]
    split
    · exact ⟨_, forgets_cleared s.actor, .inl ⟨rfl, rfl⟩⟩
    · exact ⟨_, ⟨rfl, rfl, fun _ _ hg => hg⟩, .inl ⟨rfl, rfl⟩⟩
  | revokeAuthority => exact ⟨_, forgets_cleared s.actor, .inl ⟨rfl, rfl⟩⟩
  | beginSnapshotBuild | installPreparedSnapshot | acceptTailFrame | snapshotBuildFailed |
    disconnected => cases ho

theorem limits_nextEpoch_run (ap : ι → List UInt8 → Option ι)
    (actor : SnapshotBootstrapActor ι) (op : ActorOp ι) : (op.run ap actor).limits = actor.limits ∧
      actor.nextEpoch ≤ (op.run ap actor).nextEpoch := by
  rcases ho : op.epoch? with _ | k
  · obtain ⟨kept, hk, ⟨heq, -⟩ | ⟨sess, heq, -⟩⟩ :=
      run_cases ap ⟨actor, fun _ => ⟨none, []⟩⟩ ho
    · exact heq ▸ ⟨hk.limits, hk.nextEpoch.ge⟩
    · exact heq ▸ ⟨hk.limits, hk.nextEpoch.ge.trans (Nat.le_succ _)⟩
  · have hc := (moves_run ap actor ho).confined
    exact ⟨hc.limits, hc.nextEpoch.ge⟩

theorem session_run (actor : SnapshotBootstrapActor ι) (op : ActorOp ι)
    (hl : epoch < actor.nextEpoch) (hg : (op.run ap actor).sessions[epoch]? = some sess) :
    ∃ old : BootstrapSession ι, actor.sessions[epoch]? = some old ∧
      rank old.state ≤ rank sess.state := by
  rcases ho : op.epoch? with _ | k
  · obtain ⟨kept, hk, ⟨heq, -⟩ | ⟨started, heq, -⟩⟩ :=
      run_cases ap ⟨actor, fun _ => ⟨none, []⟩⟩ ho
    · rw [show op.run ap actor = kept from heq] at hg
      exact ⟨sess, hk.sessions epoch sess hg, Nat.le_refl _⟩
    rw [show op.run ap actor = _ from heq, getElem?_setSession,
      if_neg (Nat.ne_of_gt (hk.nextEpoch ▸ hl))] at hg
    exact ⟨sess, hk.sessions epoch sess hg, Nat.le_refl _⟩
  · obtain ⟨old, hold, -, hr, -⟩ := (moves_run ap actor ho).present hg
    exact ⟨old, hold, hr⟩

theorem Retired.run (h : Retired actor epoch) (op : ActorOp ι) :
    Retired (op.run ap actor) epoch := by
  refine ⟨h.1.trans_le (limits_nextEpoch_run ap actor op).2, fun sess hg => ?_⟩
  obtain ⟨old, hold, hr⟩ := session_run actor op h.1 hg
  rw [h.2 old hold] at hr
  exact eq_fenced_of_rank hr

end Retired

section Runs
variable {limits : SnapshotActorLimits} {s : AuditedActor ι}

theorem publicationInv_of_reachable (h : (system limits ap).Reachable s) :
    PublicationInv ap s ∧ s.actor.limits = limits := by
  refine h.invariant (P := fun s => PublicationInv ap s ∧ s.actor.limits = limits) ?_ ?_
  · intro s hi
    simp only [system, SnapshotBootstrapActor.new] at hi
    split at hi
    · cases hi
    have ha := Except.ok.inj hi
    rw [← ha]
    refine ⟨⟨?_, ?_, ?_, ?_⟩, rfl⟩ <;> simp [← ha]
  · rintro s op _ ⟨hiv, hl⟩ rfl
    exact ⟨hiv.run op, (limits_nextEpoch_run _ s.actor op).1.trans hl⟩

theorem retired_of_steps {s' : AuditedActor ι} {epoch : Nat} (h : Retired s.actor epoch)
    (hs : (system limits ap).Steps s s') : Retired s'.actor epoch := by
  refine hs.invariant (P := fun s => Retired s.actor epoch) ?_ h
  rintro s op _ hr rfl
  exact hr.run op

theorem PublicationInv.not_retired (h : PublicationInv ap s) {epoch : Nat}
    (hr : Retired s.actor epoch) : s.actor.publishedEpoch ≠ some epoch := by
  rw [ne_eq, publishedEpoch_eq_some]
  rintro ⟨pub, hb, rfl⟩
  obtain ⟨sess, hg, hs⟩ := h.owner pub hb
  have hf := hr.2 sess hg
  rw [hs] at hf
  cases hf

theorem PublicationInv.published_eq (h : PublicationInv ap s) {pub : Published ι}
    (hb : s.actor.published = some pub) :
    ∃ (sess : BootstrapSession ι) (prepared : PreparedSnapshotGeneration ι),
      s.actor.sessions[pub.ownerEpoch]? = some sess ∧
      sess.state = .published ∧ sess.fence.state = .ready ∧ sess.identity = pub.identity ∧
      (s.log pub.ownerEpoch).prepared = some prepared ∧
      ((admitted prepared.lifecycle (s.log pub.ownerEpoch).delivered).map
        (·.payload)).foldlM ap prepared.index = some pub.index ∧
      (admitted prepared.lifecycle (s.log pub.ownerEpoch).delivered).map
        (·.deliverySequence) = List.range' 1
          (admitted prepared.lifecycle (s.log pub.ownerEpoch).delivered).length := by
  obtain ⟨sess, hg, ht⟩ := h.owner pub hb
  have hse := h.session _ sess hg
  simp only [SessionInv, ht] at hse
  obtain ⟨prepared, index, hp, ho, hr, hrp⟩ := hse
  rw [hb] at ho
  obtain ⟨hf, hs, -⟩ := foldlM_tailStep prepared.accepted.delivery hrp
  have hi : pub.identity = sess.identity := by
    rw [Option.some.inj ho]
  have hx : pub.index = index := by
    rw [Option.some.inj ho]
  exact ⟨sess, prepared, hg, ht, hr, hi.symm, hp, hx ▸ hf, hs⟩

/-- Every state of the actor, whatever was called before: the sessions fit their
bound, what is published is what its ready owner has been given, a session that
is fenced, or removed for it, is never published, and stale epochs have no effect. -/
theorem publication_safety (h : (system limits applyPayload).Reachable s) :
    s.actor.sessions.size ≤ limits.maxSessions ∧
    (∀ published, s.actor.published = some published →
      ∃ (session : BootstrapSession ι) (prepared : PreparedSnapshotGeneration ι),
        s.actor.sessions[published.ownerEpoch]? = some session ∧
        session.state = .published ∧ session.fence.state = .ready ∧
        session.identity = published.identity ∧
        (s.log published.ownerEpoch).prepared = some prepared ∧
        ((admitted prepared.lifecycle (s.log published.ownerEpoch).delivered).map
          (·.payload)).foldlM applyPayload prepared.index = some published.index ∧
        (admitted prepared.lifecycle (s.log published.ownerEpoch).delivered).map
          (·.deliverySequence) = List.range' 1
            (admitted prepared.lifecycle (s.log published.ownerEpoch).delivered).length) ∧
    (∀ epoch, (∃ session, s.actor.sessions[epoch]? = some session ∧ session.state = .fenced) ∨
        (epoch < s.actor.nextEpoch ∧ s.actor.sessions[epoch]? = none) →
      ∀ s', (system limits applyPayload).Steps s s' → s'.actor.publishedEpoch ≠ some epoch) ∧
    (∀ (op : ActorOp ι) epoch, op.epoch? = some epoch → s.actor.sessions[epoch]? = none →
      op.run applyPayload s.actor = s.actor) := by
  obtain ⟨hi, hl⟩ := publicationInv_of_reachable h
  refine ⟨hl ▸ hi.capacity, fun published => hi.published_eq, ?_, ?_⟩
  · intro epoch hv s' hs
    have hr : Retired s.actor epoch := by
      rcases hv with ⟨session, hg, hf⟩ | ⟨ht, hg⟩
      · refine ⟨hi.epochs epoch session hg, fun other ho => ?_⟩
        rw [hg] at ho
        exact Option.some.inj ho ▸ hf
      · exact ⟨ht, by simp [hg]⟩
    exact (publicationInv_of_reachable (h.steps hs)).1.not_retired
      (retired_of_steps hr hs)
  · intro op epoch hp hg
    exact run_absent s.actor hp hg

end Runs

open DigestKvIndex

/-- The calls of a list, from a state. -/
def runAll (applyPayload : ι → List UInt8 → Option ι) (s : AuditedActor ι) :
    List (ActorOp ι) → AuditedActor ι
  | [] => s
  | op :: rest =>
    runAll applyPayload ⟨op.run applyPayload s.actor, s.record applyPayload op⟩ rest

theorem reachable_runAll {limits : SnapshotActorLimits} {s : AuditedActor ι}
    (h : (system limits ap).Reachable s) (ops : List (ActorOp ι)) :
    (system limits ap).Reachable (runAll ap s ops) := by
  induction ops generalizing s with
  | nil => exact h
  | cons op rest ih => exact ih (.step h rfl)

def sampleIdentity : SnapshotActorIdentity := ⟨sampleIncarnation, sampleKeyId, 1⟩

def samplePrepared : PreparedSnapshotGeneration DigestKvIndex where
  identity := sampleIdentity
  snapshotWatermark := 9
  index := sampleIndex
  lifecycle := ((SnapshotTailFence.startBootstrap sampleIncarnation 0 sampleKeyId.toList
    1).acceptSnapshot ⟨sampleIncarnation, 9, sampleKeyId, 1, sampleFrame⟩ .fullEngine).2
  accepted := ⟨rfl, rfl, rfl, rfl, rfl, rfl, rfl, rfl⟩

def sampleRemoval : KvEventBatch :=
  ⟨[.blockRemoved { removal [8] with groupIdx := some 0 }], some 0⟩

/-- The batch as the engine packs it, with the timestamp 1.5. -/
def sampleRemovalPayload : List UInt8 :=
  packArray [[0xcb, 0x3f, 0xf8, 0, 0, 0, 0, 0, 0], packArray [packMap
        [("type", packStr "BlockRemoved"), ("block_hashes", packArray [packUint 8]),
          ("medium", packStr "GPU"),
          ("group_idx", packUint 0)]],
      packUint 0]

def sampleAdapter : SnapshotDigestDeltaAdapter where
  group := ⟨0, 0⟩
  decodeBatch payload :=
    if payload = sampleRemovalPayload then .ok sampleRemoval else .error .invalidMessagePack

def sampleTailFrame (frameType : TailFrameType) (payload : List UInt8) : VerifiedTailFrame where
  engineIncarnation := sampleIncarnation
  digestKeyId := sampleKeyId
  companionGeneration := 1
  deliverySequence := 1
  eventWatermark := 10
  frameType
  payload

/-- An event arrives during the build, the marker after it. -/
def sampleSession : AuditedActor DigestKvIndex :=
  runAll sampleAdapter.applyPayload ⟨⟨⟨2, 4⟩, 1, ∅, none⟩, fun _ => ⟨none, []⟩⟩
    [.startSession sampleIdentity 0, .beginSnapshotBuild 1,
      .acceptTailFrame 1 (sampleTailFrame .event sampleRemovalPayload),
      .installPreparedSnapshot 1 samplePrepared,
      .acceptTailFrame 1 (sampleTailFrame .caughtUp [])]

theorem publication_safety_sample :
    sampleSession.actor.publishedEpoch = some 1 ∧ sampleSession.actor.sessions.size ≤ 2 ∧
      (∀ published, sampleSession.actor.published = some published →
        ∃ session, sampleSession.actor.sessions[published.ownerEpoch]? = some session ∧
          session.fence.state = .ready) ∧
      sampleSession.actor.sessions[2]? = none ∧
      (ActorOp.disconnected 2).run sampleAdapter.applyPayload sampleSession.actor =
        sampleSession.actor := by
  have hr : (system ⟨2, 4⟩ sampleAdapter.applyPayload).Reachable sampleSession := by
    refine reachable_runAll (.init ?_) _
    exact Eq.refl (Except.ok _)
  obtain ⟨hs, hu, -, ha⟩ := publication_safety hr
  have hn : sampleSession.actor.sessions[2]? = none := by decide +kernel
  refine ⟨by decide +kernel, hs, ?_, hn, ha _ 2 rfl hn⟩
  intro published hp
  obtain ⟨session, -, hg, -, he, -⟩ := hu published hp
  exact ⟨session, hg, he⟩

end AuditedActor
end Ramjet
