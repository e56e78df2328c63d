import Ramjet.AuthorityLoss
import Ramjet.SnapshotTransfer

/-!
# The companion's tail

A companion with its books. A session that nobody has revoked has been sent exactly the
batches after its snapshot.
-/

namespace Ramjet
open Function List Option TailChannel HandlerOp

/-! ## Event streams -/

structure LiveEntry where
  identity : ProducerIdentity
  batch : SequencedBatch

def LiveEntry.event (entry : LiveEntry) : ProducerTailEvent :=
  .batch entry.identity entry.batch.sequence entry.batch.payload

/-- The batches of a session in order, with the mark that it has caught up after
those the companion had applied by then. -/
def tailEvents (identity : ProducerIdentity) (caughtUp : Option Nat) (entries : List LiveEntry) :
    List ProducerTailEvent :=
  match caughtUp with
  | none => entries.map (·.event)
  | some watermark =>
    (entries.filter fun entry => entry.batch.sequence ≤ watermark).map (·.event) ++
      .caughtUp identity watermark ::
        (entries.filter fun entry => watermark < entry.batch.sequence).map (·.event)

theorem tailEvents_append {identity : ProducerIdentity} {caughtUp : Option Nat}
    (entries : List LiveEntry) {entry : LiveEntry}
    (h : ∀ watermark, caughtUp = some watermark → watermark < entry.batch.sequence) :
    tailEvents identity caughtUp (entries ++ [entry]) =
      tailEvents identity caughtUp entries ++ [entry.event] := by
  rcases caughtUp with _ | watermark
  · simp [tailEvents]
  have hl := h watermark rfl
  have hn : ¬ entry.batch.sequence ≤ watermark := by omega
  simp [tailEvents, filter_append, hl, hn]

theorem tailEvents_caughtUp (identity : ProducerIdentity) {watermark : Nat}
    {entries : List LiveEntry} (h : ∀ entry ∈ entries, entry.batch.sequence ≤ watermark) :
    tailEvents identity (some watermark) entries =
      tailEvents identity none entries ++ [.caughtUp identity watermark] := by
  have ha : entries.filter (fun entry => entry.batch.sequence ≤ watermark) = entries := by
    rw [filter_eq_self]
    intro entry he
    simpa using h entry he
  have hn : entries.filter (fun entry => watermark < entry.batch.sequence) = [] := by
    rw [filter_eq_nil_iff]
    intro entry he
    simpa using h entry he
  simp only [tailEvents, ha, hn, map_nil]

section
variable (delta : SnapshotDigestDeltaAdapter)
  (decode : List UInt8 → Except DecodeError KvEventBatch) (At : Nat → DigestKvIndex → Prop)
  (identity : ProducerIdentity)

inductive Streams : Nat → DigestKvIndex → List ProducerTailEvent → Nat → DigestKvIndex → Prop
  | nil (watermark : Nat) (index : DigestKvIndex) : Streams watermark index [] watermark index
  | batch {watermark last : Nat} {index next final : DigestKvIndex} {batch : SequencedBatch}
      {summary : DigestDeltaSummary} {rest : List ProducerTailEvent}
      (hnewe : watermark < batch.sequence) (hd : decode batch.payload = .ok batch.batch)
      (hap : delta.applyBatch index batch.batch = (.ok summary, next))
      (hat : At batch.sequence next) (hr : Streams batch.sequence next rest last final) :
      Streams watermark index (.batch identity batch.sequence batch.payload :: rest) last final
  | caughtUp {watermark last : Nat} {index final : DigestKvIndex} {rest : List ProducerTailEvent}
      (hr : Streams watermark index rest last final) :
      Streams watermark index (.caughtUp identity watermark :: rest) last final

end

namespace Streams
variable {delta : SnapshotDigestDeltaAdapter}
  {decode : List UInt8 → Except DecodeError KvEventBatch} {At At' : Nat → DigestKvIndex → Prop}
  {identity : ProducerIdentity} {w v x : Nat} {i j k : DigestKvIndex}
  {events events' : List ProducerTailEvent}

section
variable (h : Streams delta decode At identity w i events v j)
include h

theorem mono (hAt : ∀ w i, At w i → At' w i) :
    Streams delta decode At' identity w i events v j := by
  induction h with
  | nil w i => exact .nil w i
  | batch hnewe hd hap hat _ ih => exact .batch hnewe hd hap (hAt _ _ hat) ih
  | caughtUp _ ih => exact .caughtUp ih

theorem append (h' : Streams delta decode At identity v j events' x k) :
    Streams delta decode At identity w i (events ++ events') x k := by
  induction h with
  | nil w i => exact h'
  | batch hnewe hd hap hat _ ih => exact .batch hnewe hd hap hat (ih h')
  | caughtUp _ ih => exact .caughtUp (ih h')

theorem le : w ≤ v := by
  induction h with
  | nil w i => exact Nat.le_refl w
  | batch hnewe _ _ _ _ ih => omega
  | caughtUp _ ih => exact ih

end
end Streams

/-- What a fence leaves in a queue: at most the reason. -/
def ProducerTailEvent.Ends (events : List ProducerTailEvent) : Prop :=
  events = [] ∨ (∃ identity, events = [.identityChanged identity]) ∨
    ∃ identity, events = [.disconnect identity]

/-! ## A companion and its books -/

inductive SourceAction where
  | applyReplay (batch : SequencedBatch)
  | applyReplayForGeneration (generation : Nat) (batch : SequencedBatch)
  | finishReplay (through : Nat)
  | applyLive (batch : SequencedBatch)
  | beginRebuild (engineIncarnation : Option EngineIncarnation)
  | start (channel : TailChannel)
  | finishBuild (id : Nat) (exportCancelled encodeCancelled : Nat → Bool)
  | abandonBuild (id : Nat)
  | cleanup (id : Nat)
  | handler (id : Nat) (op : HandlerOp)

structure Companion where
  source : CompanionIndexSource
  log : List LiveEntry
  history : ProducerIdentity → Nat → Option DigestKvIndex
  builds : Nat → Option CompanionIndexSource.SnapshotBuild
  pending : Nat → Bool
  received : Nat → List ProducerTailEvent
  caughtUp : Nat → Option Nat
  snapshots : Nat → Option CompanionIndexSource.ProducerSnapshot

namespace Companion
open CompanionIndexSource

/-- Write down the index of a ready source. -/
def observe (s : Companion) : Companion :=
  { s with history := fun identity watermark =>
      if s.source.state.ready ∧ identity = s.source.state.identity ∧
          s.source.state.watermark = some watermark then
        some s.source.state.index
      else s.history identity watermark }

def withSource (s : Companion) (source : CompanionIndexSource) : Companion :=
  { s with source }

/-- What a session was ever sent: what its handler took and what is still queued. -/
def sent (s : Companion) (id : Nat) : List ProducerTailEvent :=
  s.received id ++ (s.source.channels id).queue

def tail (s : Companion) (build : SnapshotBuild) : List LiveEntry :=
  s.log.filter fun entry =>
    entry.identity = build.identity ∧ build.watermark < entry.batch.sequence

def applyLive (s : Companion) (batch : SequencedBatch) : Companion :=
  let applied := s.source.applyLive batch
  { s with
    source := applied.2
    -- an older batch is passed over, and is not one the source has applied
    log :=
      if applied.1.isOk ∧ s.source.state.watermark.any (· < batch.sequence) then
        s.log ++ [⟨s.source.state.identity, batch⟩]
      else s.log }

def start (s : Companion) (channel : TailChannel) : Companion :=
  match s.source.start channel with
  | (.error _, source) => s.withSource source
  | (.ok build, source) =>
    { s with
      source
      builds := update s.builds build.sessionId (some build)
      pending := update s.pending build.sessionId true }

def finishBuild (codec : SnapshotCodec) (s : Companion) (id : Nat) (build : SnapshotBuild)
    (exportCancelled encodeCancelled : Nat → Bool) : Companion :=
  let ended := { s with pending := update s.pending id false }
  match s.source.finishBuild build
    (buildFrame codec s.source.config build exportCancelled encodeCancelled) with
  | (.error _, source) => ended.withSource source
  | (.ok snapshot, source) =>
    { ended with
      source
      caughtUp := update s.caughtUp id s.source.state.watermark
      snapshots := update s.snapshots id (some snapshot) }

def handler (s : Companion) (id : Nat) (op : HandlerOp) : Companion :=
  { s with
    source := { s.source with
      channels := update s.source.channels id (op.run (s.source.channels id)) }
    received := match op with
      | .receive =>
        update s.received id (s.received id ++ (s.source.channels id).queue.take 1)
      | _ => s.received }

def act (codec : SnapshotCodec) (decode : List UInt8 → Except DecodeError KvEventBatch)
    (s : Companion) : SourceAction → Option Companion
  | .applyReplay batch => some (s.withSource (s.source.applyReplay batch).2)
  | .applyReplayForGeneration generation batch =>
    some (s.withSource (s.source.applyReplayForGeneration generation batch).2)
  | .finishReplay through => some (s.withSource (s.source.finishReplay through).2)
  | .applyLive batch =>
    -- a batch is what the transport decoded from its payload
    match decode batch.payload with
    | .ok decoded => if decoded = batch.batch then some (s.applyLive batch) else none
    | .error _ => none
  | .beginRebuild incarnation => some (s.withSource (s.source.beginRebuild incarnation).2)
  | .start channel => if channel.queue.isEmpty then some (s.start channel) else none
  | .finishBuild id exportCancelled encodeCancelled =>
    match s.builds id with
    | some build =>
      if s.pending id then some (s.finishBuild codec id build exportCancelled encodeCancelled)
      else none
    | none => none
  | .abandonBuild id =>
    if s.pending id then
      some { s with
        source := { s.source with state := { s.source.state with
          buildsInProgress := s.source.state.buildsInProgress - 1 } }
        pending := update s.pending id false }
    else none
  | .cleanup id =>
    if (s.source.channels id).cancelled then some (s.withSource (s.source.removeSubscriber id))
    else none
  | .handler id op =>
    match s.builds id with
    | none => none
    | some _ =>
      match op with
      | .receive => if (s.snapshots id).isSome then some (s.handler id .receive) else none
      | .close => some (s.handler id .close)
      | .cancel => some (s.handler id .cancel)

def next (codec : SnapshotCodec) (decode : List UInt8 → Except DecodeError KvEventBatch)
    (s : Companion) (action : SourceAction) : Option Companion :=
  (s.act codec decode action).map observe

variable (source : CompanionIndexSource)

def new : Companion :=
  ⟨source, [], fun _ _ => none, fun _ => none, fun _ => false, fun _ => [], fun _ => none,
    fun _ => none⟩

/-! ## What the books say -/

def Fit (limits : DigestIndexLimits) (digester : BlockDigester) (index : DigestKvIndex) : Prop :=
  index.Wf ∧ index.setup = (limits, digester)

theorem Fit.applyBatch {limits : DigestIndexLimits} {digester : BlockDigester}
    {delta : SnapshotDigestDeltaAdapter} {index next : DigestKvIndex} {batch : KvEventBatch}
    {result : Except SnapshotDigestDeltaError DigestDeltaSummary} (h : Fit limits digester index)
    (hap : delta.applyBatch index batch = (result, next)) : Fit limits digester next := by
  have hs := SnapshotDigestDeltaAdapter.applyEvents_sound delta h.1
    (batch.dataParallelRank.getD 0) ⟨0, 0, 0, 0⟩ batch.events
  unfold SnapshotDigestDeltaAdapter.applyBatch at hap
  rw [hap] at hs
  exact ⟨hs.1, hs.2.trans h.2⟩

/-- An identity that occurs in the books. -/
def Named (s : Companion) (identity : ProducerIdentity) : Prop :=
  (∃ entry ∈ s.log, entry.identity = identity) ∨
    (∃ watermark index, s.history identity watermark = some index) ∨
    ∃ id build, s.builds id = some build ∧ build.identity = identity

section
variable (codec : SnapshotCodec) (decode : List UInt8 → Except DecodeError KvEventBatch)
  (config : CompanionIndexSourceConfig) (delta : SnapshotDigestDeltaAdapter)
  (digester : BlockDigester)

structure Live (s : Companion) (id : Nat) (build : SnapshotBuild) (body : List ProducerTailEvent)
    (last : Nat) (index : DigestKvIndex) : Prop where
  subscribed : id ∈ s.source.state.subscribers
  ready : s.source.state.ready
  identity : s.source.state.identity = build.identity
  watermark : s.source.state.watermark = some last
  index : s.source.state.index = index
  caughtUp : ∀ watermark, s.caughtUp id = some watermark → watermark ≤ last
  body : body = tailEvents build.identity (s.caughtUp id) (s.tail build)

structure Follows (s : Companion) (id : Nat) (build : SnapshotBuild) : Prop where
  stream : ∃ body final last index, s.sent id = body ++ final ∧ ProducerTailEvent.Ends final ∧
    Streams delta decode (fun watermark index => s.history build.identity watermark = some index)
      build.identity build.watermark build.index body last index ∧
    ((s.source.channels id).cancelled = false → final = [] ∧ s.Live id build body last index)

structure SessionBooks (s : Companion) (id : Nat) (build : SnapshotBuild) : Prop where
  sessionId : build.sessionId = id
  fit : Fit config.indexLimits digester build.index
  keyId : build.identity.digestKeyId = digester.keyId
  recorded : s.history build.identity build.watermark = some build.index
  follows : s.Follows decode delta id build
  pending : s.pending id → s.caughtUp id = none ∧ s.snapshots id = none
  snapshot : ∀ snapshot, s.snapshots id = some snapshot → snapshot.identity = build.identity ∧
    snapshot.watermark = build.watermark ∧
    ∃ exportCancelled encodeCancelled,
      buildFrame codec config build exportCancelled encodeCancelled = .ok snapshot.frame

structure SourceBooks (source : CompanionIndexSource) : Prop where
  config_eq : source.config = config
  delta_eq : source.delta = delta
  index : Fit config.indexLimits digester source.state.index
  replay : ∀ replay, source.state.replay = some replay →
    Fit config.indexLimits digester replay.index
  keyId : source.state.identity.digestKeyId = digester.keyId
  idle : source.state.replay.isSome → source.state.ready = false
  watermark : source.state.ready → source.state.watermark.isSome

structure Books (s : Companion) : Prop where
  source : SourceBooks config delta digester s.source
  past : ∀ identity, s.Named identity →
    identity.companionGeneration ≤ s.source.state.identity.companionGeneration ∧
      (s.source.state.replay.isSome →
        identity.companionGeneration < s.source.state.identity.companionGeneration)
  current : s.source.state.ready → ∀ watermark, s.source.state.watermark = some watermark →
    s.history s.source.state.identity watermark = some s.source.state.index ∧
      (∀ entry ∈ s.log, entry.identity = s.source.state.identity →
        entry.batch.sequence ≤ watermark) ∧
      ∀ earlier index, s.history s.source.state.identity earlier = some index → earlier ≤ watermark
  ordered : s.log.Pairwise fun entry later =>
    entry.identity = later.identity → entry.batch.sequence < later.batch.sequence
  fresh : ∀ id, s.source.state.nextSessionId ≤ id → s.builds id = none ∧ s.received id = [] ∧
    s.caughtUp id = none ∧ s.snapshots id = none
  subscribed : ∀ id ∈ s.source.state.subscribers, (s.builds id).isSome
  session : ∀ id build, s.builds id = some build →
    s.SessionBooks codec decode config delta digester id build

end

variable {codec : SnapshotCodec} {decode : List UInt8 → Except DecodeError KvEventBatch}
  {config : CompanionIndexSourceConfig} {delta : SnapshotDigestDeltaAdapter}
  {digester : BlockDigester} {s s' : Companion} {id : Nat} {build : SnapshotBuild}

theorem Books.observe_eq (h : s.Books codec decode config delta digester) : s.observe = s := by
  have hh : s.observe.history = s.history := by
    funext identity watermark
    simp only [observe]
    split
    next hr =>
      obtain ⟨hr, rfl, hw⟩ := hr
      exact (h.current hr watermark hw).1.symm
    · rfl
  show ({ s with history := s.observe.history } : Companion) = s
  rw [hh]

theorem SessionBooks.transfer (h : s.SessionBooks codec decode config delta digester id build)
    (hh : ∀ watermark index, s.history build.identity watermark = some index →
      s'.history build.identity watermark = some index)
    (hse : s'.sent id = s.sent id) (ha : s'.caughtUp id = s.caughtUp id)
    (hb : s'.snapshots id = s.snapshots id) (hf : s'.pending id → s.pending id)
    (hl : (s'.source.channels id).cancelled = false → (s.source.channels id).cancelled = false ∧
        ∀ body last index, s.Live id build body last index → s'.Live id build body last index) :
    s'.SessionBooks codec decode config delta digester id build := by
  obtain ⟨body, final, last, index, hg, he, hs, ho⟩ := h.follows.stream
  refine ⟨h.sessionId, h.fit, h.keyId, hh _ _ h.recorded, ⟨body, final, last, index,
    hse.trans hg, he, hs.mono hh, fun hc => ?_⟩, ?_, ?_⟩
  · obtain ⟨hd, hn⟩ := hl hc
    exact ⟨(ho hd).1, hn _ _ _ (ho hd).2⟩
  · rw [ha, hb]
    exact fun hp => h.pending (hf hp)
  · rw [hb]
    exact h.snapshot

section
variable (h : s.Books codec decode config delta digester)
include h

theorem Books.revoked_of_idle (hi : s.source.state.ready = false) (hb : s.builds id = some build) :
    (s.source.channels id).cancelled := by
  obtain ⟨body, final, last, index, -, -, -, ho⟩ := (h.session id build hb).follows.stream
  rcases hc : (s.source.channels id).cancelled with _ | _
  · have hr := (ho hc).2.ready
    rw [hi] at hr
    cases hr
  · rfl

theorem Books.ne_of_fresh (hb : s.builds id = some build) {other : Nat}
    (ho : s.source.state.nextSessionId ≤ other) : other ≠ id := by
  rintro rfl
  have hu := (h.fresh other ho).1
  rw [hb] at hu
  cases hu

end

variable {buildsInProgress : Nat} {pending : Nat → Bool} {action : SourceAction}

theorem Books.idle (h : s.Books codec decode config delta digester) {replay : Option SourceReplay}
    {fenced : Bool} (hrp : ∀ stage, replay = some stage →
      s.source.state.replay.isSome ∧ Fit config.indexLimits digester stage.index)
    (hp : ∀ id, pending id → s.pending id) :
    Books codec decode config delta digester
      { s with
        source := { s.source with state := { s.source.state with
          replay, fenced, buildsInProgress } }
        pending } := by
  have hs : replay.isSome → s.source.state.replay.isSome := by
    intro ho
    obtain ⟨stage, ha⟩ := isSome_iff_exists.1 ho
    exact (hrp stage ha).1
  refine ⟨⟨h.source.config_eq, h.source.delta_eq, h.source.index,
    fun stage ha => (hrp stage ha).2, h.source.keyId,
    fun ho => h.source.idle (hs ho), h.source.watermark⟩,
    fun identity hn => ?_, h.current, h.ordered, h.fresh, h.subscribed, fun id build hb => ?_⟩
  · obtain ⟨he, ht⟩ := h.past identity hn
    exact ⟨he, fun ho => ht (hs ho)⟩
  · exact (h.session id build hb).transfer (fun _ _ hg => hg) rfl rfl rfl (hp id)
      fun hc => ⟨hc, fun _ _ _ hl => { hl with }⟩

variable {channel : TailChannel}

section
variable (h : s.Books codec decode config delta digester)
include h

theorem Books.drop (dropped buildsInProgress : Nat)
    (hq : channel.queue = (s.source.channels dropped).queue) (hr : channel.cancelled)
    (hp : ∀ id, pending id → s.pending id) : Books codec decode config delta digester { s with
        source := { s.source with
          state := { s.source.state with
            buildsInProgress
            subscribers := s.source.state.subscribers.filter (· ≠ dropped) }
          channels := update s.source.channels dropped channel }
        pending } := by
  refine ⟨{ h.source with }, h.past, h.current, h.ordered, h.fresh,
    fun id hi => h.subscribed id (mem_filter.1 hi).1, fun id build hb => ?_⟩
  refine (h.session id build hb).transfer (fun _ _ hg => hg) ?_ rfl rfl (hp id) ?_
  · by_cases hi : id = dropped
    · subst hi
      simp only [sent, update_self, hq]
    · simp only [sent, update_of_ne hi]
  · intro hc
    by_cases hi : id = dropped
    · subst hi
      simp only [update_self, hr, Bool.true_eq_false] at hc
    simp only [update_of_ne hi] at hc
    refine ⟨hc, fun body last index hl => ?_⟩
    exact { hl with
      subscribed := mem_filter.2 ⟨hl.subscribed, by simpa using hi⟩ }

theorem Books.ready {stage : SourceReplay}
    (hs : s.source.state.replay = some stage) (through : Nat) :
    Books codec decode config delta digester
      (observe (s.withSource { s.source with state := { s.source.state with
        index := stage.index
        replay := none
        watermark := some through
        ready := true
        fenced := false } })) := by
  have hf : s.source.state.replay.isSome := by rw [hs]; rfl
  have hi := h.source.idle hf
  have hu : ¬ s.Named s.source.state.identity := by
    intro hn
    exact absurd ((h.past _ hn).2 hf) (Nat.lt_irrefl _)
  have hk : ∀ identity watermark index, s.history identity watermark = some index →
      (observe (s.withSource { s.source with state := { s.source.state with
        index := stage.index
        replay := none
        watermark := some through
        ready := true
        fenced := false } })).history identity watermark = some index := by
    intro identity watermark index hg
    simp only [observe, withSource]
    split
    next hw =>
      exact absurd (.inr (.inl ⟨watermark, index, hw.2.1 ▸ hg⟩)) hu
    · exact hg
  refine ⟨⟨h.source.config_eq, h.source.delta_eq, h.source.replay stage hs,
    nofun, h.source.keyId, nofun,
    fun _ => rfl⟩, fun identity hn => ⟨?_, nofun⟩, ?_, h.ordered, h.fresh,
    h.subscribed, fun id build hb => ?_⟩
  · rcases hn with he | ⟨watermark, index, hg⟩ | hb
    · exact (h.past identity (.inl he)).1
    · simp only [observe, withSource] at hg
      split at hg
      next hw =>
        rw [hw.2.1]
        exact Nat.le_refl _
      · exact (h.past identity (.inr (.inl ⟨watermark, index, hg⟩))).1
    · exact (h.past identity (.inr (.inr hb))).1
  · intro _ watermark hm
    cases hm
    refine ⟨by simp [observe, withSource], fun entry he hd => ?_, fun earlier index hg => ?_⟩
    · exact absurd (.inl ⟨entry, he, hd⟩) hu
    simp only [observe, withSource] at hg
    split at hg
    next hw =>
      exact Nat.le_of_eq (some.inj hw.2.2).symm
    · exact absurd (.inr (.inl ⟨earlier, index, hg⟩)) hu
  · refine (h.session id build hb).transfer (hk _) rfl rfl rfl (fun hp => hp) ?_
    intro hc
    have hr := h.revoked_of_idle hi hb
    have ho : (s.source.channels id).cancelled = false := hc
    rw [hr] at ho
    cases ho

end

variable (event : ProducerTailEvent)

theorem queue_dismiss (id : Nat) : (source.dismiss event id).queue = (source.channels id).queue ∨
      ((source.channels id).cancelled = false ∧
        (source.dismiss event id).queue = (source.channels id).queue ++ [event]) := by
  unfold dismiss
  split
  · rcases trySend_cases (source.channels id) event with ⟨error, hs⟩ | ⟨ho, hs⟩
    · rw [hs]
      exact .inl rfl
    · rw [hs]
      exact .inr ⟨ho, rfl⟩
  · exact .inl rfl

section
variable (h : s.Books codec decode config delta digester)
include h

theorem Books.fence {event : ProducerTailEvent}
    {index : DigestKvIndex} {identity : ProducerIdentity} {replay : Option SourceReplay}
    (hv : ProducerTailEvent.Ends [event]) (hx : Fit config.indexLimits digester index)
    (hk : identity.digestKeyId = digester.keyId)
    (hd : s.source.state.identity.companionGeneration ≤ identity.companionGeneration)
    (hrp : ∀ stage, replay = some stage → Fit config.indexLimits digester stage.index ∧
      s.source.state.identity.companionGeneration < identity.companionGeneration) :
    Books codec decode config delta digester
      (s.withSource { s.source with
        state := { s.source.state with
          ready := false
          fenced := true
          buildsInProgress := 0
          watermark := none
          index
          identity
          subscribers := []
          replay }
        channels := s.source.dismiss event }) := by
  refine ⟨⟨h.source.config_eq, h.source.delta_eq, hx, fun stage hg => (hrp stage hg).1,
    hk, fun _ => rfl, nofun⟩, fun other ha => ?_,
    nofun, h.ordered, h.fresh, nofun,
    fun id build hj => ?_⟩
  · have hl := (h.past other ha).1
    refine ⟨Nat.le_trans hl hd, fun hm => ?_⟩
    obtain ⟨stage, hg⟩ := isSome_iff_exists.1 hm
    exact Nat.lt_of_le_of_lt hl (hrp stage hg).2
  · have he := h.session id build hj
    obtain ⟨body, final, last, latest, hb, hn, hs, ho⟩ := he.follows.stream
    have hr : (s.source.dismiss event id).cancelled := by
      unfold dismiss
      split
      · rfl
      rename_i hu
      rcases hc : (s.source.channels id).cancelled with _ | _
      · exact absurd (ho hc).2.subscribed hu
      · rfl
    refine { he with follows := ?_ }
    rcases queue_dismiss s.source event id with hq | ⟨hc, hq⟩
    · refine ⟨body, final, last, latest, ?_, hn, hs, fun ht => ?_⟩
      · simp only [sent, withSource, hq]
        exact hb
      · exact absurd (hr.symm.trans ht) (by simp)
    · -- the last thing an open session hears
      refine ⟨body, [event], last, latest, ?_, hv, hs, fun ht => ?_⟩
      · have hf := (ho hc).1
        rw [hf, append_nil] at hb
        simp only [sent, withSource, hq]
        rw [← append_assoc]
        exact congrArg (· ++ [event]) hb
      · exact absurd (hr.symm.trans ht) (by simp)

theorem Books.started {watermark : Nat} (hy : s.source.state.ready)
    (hk : s.source.state.watermark = some watermark) (hq : channel.queue = []) :
    Books codec decode config delta digester
      { s with
        source := { s.source with
          state := { s.source.state with
            nextSessionId := s.source.state.nextSessionId + 1
            subscribers := s.source.state.nextSessionId :: s.source.state.subscribers
            buildsInProgress }
          channels := update s.source.channels s.source.state.nextSessionId channel }
        builds := update s.builds s.source.state.nextSessionId
          (some ⟨s.source.state.nextSessionId, s.source.state.index, s.source.state.identity,
            watermark⟩)
        pending := update s.pending s.source.state.nextSessionId true } := by
  obtain ⟨hre, hn, -⟩ := h.current hy watermark hk
  obtain ⟨hp, hf, ha, ho⟩ := h.fresh _ (Nat.le_refl _)
  refine ⟨{ h.source with }, fun identity hj => ?_, h.current, h.ordered,
    fun id hd => ?_, fun id hd => ?_, fun id build hb => ?_⟩
  · rcases hj with he | hg | ⟨id, build, hb, rfl⟩
    · exact h.past identity (.inl he)
    · exact h.past identity (.inr (.inl hg))
    · by_cases hd : id = s.source.state.nextSessionId
      · subst hd
        simp only [update_self, some.injEq] at hb
        subst hb
        refine ⟨Nat.le_refl _, fun hs => ?_⟩
        have hi := h.source.idle hs
        rw [hy] at hi
        cases hi
      · simp only [update_of_ne hd] at hb
        exact h.past _ (.inr (.inr ⟨id, build, hb, rfl⟩))
  · have ht : s.source.state.nextSessionId + 1 ≤ id := hd
    have hx : id ≠ s.source.state.nextSessionId := by omega
    obtain ⟨hu, hr⟩ := h.fresh id (by omega)
    exact ⟨by simpa only [update_of_ne hx] using hu, hr⟩
  · by_cases hw : id = s.source.state.nextSessionId
    · subst hw
      simp only [update_self, isSome_some]
    · simp only [update_of_ne hw]
      exact h.subscribed id ((mem_cons.1 hd).resolve_left hw)
  · by_cases hw : id = s.source.state.nextSessionId
    · subst hw
      simp only [update_self, some.injEq] at hb
      subst hb
      refine ⟨rfl, h.source.index, h.source.keyId, hre,
        ⟨[], [], watermark, s.source.state.index, ?_, .inl rfl, .nil _ _, fun _ => ⟨rfl, ?_⟩⟩,
        fun _ => ⟨ha, ho⟩, fun snap hs => ?_⟩
      · simp only [sent, update_self, hq, hf, append_nil]
      · refine ⟨mem_cons_self .., hy, rfl, hk, rfl, fun v hv => ?_, ?_⟩
        · have hv' : s.caughtUp s.source.state.nextSessionId = some v := hv
          rw [ha] at hv'
          cases hv'
        -- nothing newer than the watermark has been applied
        have hz : s.log.filter (fun entry => entry.identity = s.source.state.identity ∧
            watermark < entry.batch.sequence) = [] := by
          rw [filter_eq_nil_iff]
          intro entry he hm
          have hm := of_decide_eq_true hm
          have hle := hn entry he hm.1
          omega
        simp only [tail, ha, hz, tailEvents, map_nil]
      · rw [ho] at hs
        cases hs
    · simp only [update_of_ne hw] at hb
      refine (h.session id build hb).transfer (fun _ _ hg => hg) ?_ rfl rfl ?_ ?_
      · simp only [sent, update_of_ne hw]
      · simp only [update_of_ne hw, imp_self]
      · intro hc
        simp only [update_of_ne hw] at hc
        exact ⟨hc, fun body last index hl =>
          { hl with subscribed := mem_cons_of_mem _ hl.subscribed }⟩

theorem Books.caughtUp {frame : List UInt8}
    {exportCancelled encodeCancelled : Nat → Bool} {watermark : Nat}
    (hb : s.builds id = some build) (hp : s.pending id)
    (hfr : buildFrame codec config build exportCancelled encodeCancelled = .ok frame)
    (hc : (s.source.channels id).cancelled = false)
    (hw : s.source.state.watermark = some watermark) :
    Books codec decode config delta digester
      { s with
        source := { s.source with
          state := { s.source.state with buildsInProgress }
          channels := update s.source.channels id { s.source.channels id with
            queue := (s.source.channels id).queue ++ [.caughtUp build.identity watermark] } }
        pending := update s.pending id false
        caughtUp := update s.caughtUp id s.source.state.watermark
        snapshots := update s.snapshots id (some ⟨build.identity, build.watermark, frame⟩) } := by
  have hm : update s.caughtUp id s.source.state.watermark =
      update s.caughtUp id (some watermark) := by
    rw [hw]
  rw [hm]
  have hs := h.session id build hb
  obtain ⟨body, final, last, index, hd, -, ht, ho⟩ := hs.follows.stream
  obtain ⟨rfl, hl⟩ := ho hc
  have hk := (hs.pending hp).1
  have hq : last = watermark := some.inj (hl.watermark.symm.trans hw)
  subst hq
  refine ⟨{ h.source with }, h.past, h.current, h.ordered, fun other hf => ?_,
    h.subscribed, fun other build' hb' => ?_⟩
  · obtain ⟨hu, hr⟩ := h.fresh other hf
    have hx := h.ne_of_fresh hb hf
    simp only [update_of_ne hx]
    exact ⟨hu, hr⟩
  by_cases hi : other = id
  · subst hi
    have hy : build' = build := some.inj (hb'.symm.trans hb)
    subst hy
    refine ⟨hs.sessionId, hs.fit, hs.keyId, hs.recorded,
      ⟨body ++ [.caughtUp build'.identity last], [], last, index, ?_, .inl rfl,
        ht.append (.caughtUp (.nil _ _)), fun _ => ⟨rfl, ?_⟩⟩, ?_, ?_⟩
    · rw [append_nil] at hd ⊢
      simp only [sent, update_self]
      rw [← append_assoc]
      exact congrArg (· ++ [ProducerTailEvent.caughtUp build'.identity last]) hd
    · refine { hl with caughtUp := ?_, body := ?_ }
      · intro v hv
        simp only [update_self, some.injEq] at hv
        omega
      simp only [update_self]
      have hn : ∀ entry ∈ s.tail build', entry.batch.sequence ≤ last := by
        intro entry he
        obtain ⟨hz, ha⟩ := mem_filter.1 he
        have ha := of_decide_eq_true ha
        exact (h.current hl.ready last hl.watermark).2.1 entry hz (ha.1.trans hl.identity.symm)
      show _ = tailEvents build'.identity (some last) (s.tail build')
      rw [tailEvents_caughtUp _ hn, hl.body, hk]
    · simp only [update_self, Bool.false_eq_true, false_implies]
    · intro snap hj
      simp only [update_self, some.injEq] at hj
      subst hj
      exact ⟨rfl, rfl, _, _, hfr⟩
  · refine (h.session other build' hb').transfer (fun _ _ hg => hg) ?_ ?_ ?_ ?_ ?_
    · simp only [sent, update_of_ne hi]
    · simp only [update_of_ne hi]
    · simp only [update_of_ne hi]
    · simp only [update_of_ne hi, imp_self]
    · intro ho'
      simp only [update_of_ne hi] at ho'
      refine ⟨ho', fun body' last' index' hl' => ?_⟩
      refine { hl' with caughtUp := ?_, body := ?_ }
      · simp only [update_of_ne hi]
        exact hl'.caughtUp
      · simp only [update_of_ne hi]
        exact hl'.body

end

theorem sent_handler (s : Companion) (id : Nat) (op : HandlerOp) (other : Nat) :
    (s.handler id op).sent other = s.sent other := by
  by_cases hi : other = id
  · subst hi
    cases op with
    | receive =>
      simp only [sent, handler, run, update_self, append_assoc]
      rw [← drop_one, take_append_drop]
    | close => simp only [sent, handler, run, update_self]
    | cancel => simp only [sent, handler, run, update_self, revoke]
  · cases op with
    | receive => simp only [sent, handler, update_of_ne hi]
    | close => simp only [sent, handler, update_of_ne hi]
    | cancel => simp only [sent, handler, update_of_ne hi]

theorem cancelled_handler (s : Companion) (id : Nat) (op : HandlerOp) (other : Nat)
    (h : ((s.handler id op).source.channels other).cancelled = false) :
    (s.source.channels other).cancelled = false := by
  by_cases hi : other = id
  · subst hi
    cases op with
    | receive => simpa only [handler, run, update_self] using h
    | close => simpa only [handler, run, update_self] using h
    | cancel => simp [handler, run, revoke] at h
  · simpa only [handler, update_of_ne hi] using h

theorem Books.handler (h : s.Books codec decode config delta digester)
    (hb : s.builds id = some build) (op : HandlerOp) :
    Books codec decode config delta digester (s.handler id op) := by
  refine ⟨{ h.source with }, h.past, h.current, h.ordered, fun other ho => ?_,
    h.subscribed, fun other build' hb' => ?_⟩
  · obtain ⟨hu, he, hr⟩ := h.fresh other ho
    have hn := h.ne_of_fresh hb ho
    refine ⟨hu, ?_, hr⟩
    cases op with
    | receive => simpa only [Companion.handler, update_of_ne hn] using he
    | close => exact he
    | cancel => exact he
  · refine (h.session other build' hb').transfer (fun _ _ hg => hg)
      (sent_handler s id op other) rfl rfl (fun hp => hp) fun hc => ?_
    exact ⟨cancelled_handler s id op other hc, fun body last index hl => { hl with }⟩

/-- The state after a live batch, with its record. -/
def taken (s : Companion) (batch : SequencedBatch) (index : DigestKvIndex) : Companion :=
  observe { s with
    source := { s.source with state := { s.source.state with
      index
      watermark := some batch.sequence } }.publishBatch
      (.batch s.source.state.identity batch.sequence batch.payload)
    log := s.log ++ [⟨s.source.state.identity, batch⟩] }

theorem publishBatch_cases (id : Nat) :
    ((source.publishBatch event).channels id).queue = (source.channels id).queue ∧
        (((source.publishBatch event).channels id).cancelled = false →
          (source.channels id).cancelled = false ∧ id ∉ source.state.subscribers) ∨
      (source.channels id).cancelled = false ∧ ((source.publishBatch event).channels id).queue =
          (source.channels id).queue ++ [event] ∧
        id ∈ (source.publishBatch event).state.subscribers := by
  by_cases hi : id ∈ source.state.subscribers
  · rcases trySend_cases (source.channels id) event with ⟨error, hs⟩ | ⟨ho, hs⟩
    · refine .inl ⟨?_, fun hc => ?_⟩
      · simp only [publishBatch, if_pos hi, hs, Except.isOk, Except.toBool, Bool.false_eq_true,
          if_false, revoke]
      · simp [publishBatch, if_pos hi, hs, Except.isOk, Except.toBool, revoke] at hc
    · refine .inr ⟨ho, ?_, ?_⟩
      · simp only [publishBatch, if_pos hi, hs, Except.isOk, Except.toBool, if_true]
      · refine mem_filter.2 ⟨hi, ?_⟩
        simp only [hs, Except.isOk, Except.toBool]
  · refine .inl ⟨?_, fun hc => ⟨?_, hi⟩⟩
    · simp only [publishBatch, if_neg hi]
    · simpa only [publishBatch, if_neg hi] using hc

section
variable {batch : SequencedBatch} {index : DigestKvIndex} {watermark : Nat}
  {summary : DigestDeltaSummary}

theorem Books.history_taken (h : s.Books codec decode config delta digester)
    (hr : s.source.state.ready) (hm : s.source.state.watermark = some watermark)
    (hnewe : watermark < batch.sequence) {identity : ProducerIdentity} {earlier : Nat}
    {before : DigestKvIndex} (hg : s.history identity earlier = some before) :
    (s.taken batch index).history identity earlier = some before := by
  simp only [taken, observe, publishBatch]
  split
  next hw =>
    obtain ⟨-, rfl, hs⟩ := hw
    have hl := (h.current hr watermark hm).2.2 earlier before hg
    have heq := some.inj hs
    omega
  · exact hg

theorem history_taken_self (s : Companion) (hr : s.source.state.ready) :
    (s.taken batch index).history s.source.state.identity batch.sequence = some index := by
  simp only [taken, observe, publishBatch]
  exact if_pos ⟨hr, trivial, trivial⟩

theorem tail_taken (s : Companion) {build : SnapshotBuild}
    (hi : s.source.state.identity = build.identity) (hnewe : build.watermark < batch.sequence) :
    (s.taken batch index).tail build = s.tail build ++ [⟨s.source.state.identity, batch⟩] := by
  simp [taken, observe, tail, filter_append, hi, hnewe]

theorem Books.live (h : s.Books codec decode config delta digester)
    (hr : s.source.state.ready) (hy : s.source.state.watermark = some watermark)
    (hnewe : watermark < batch.sequence) (hd : decode batch.payload = .ok batch.batch)
    (hap : delta.applyBatch s.source.state.index batch.batch = (.ok summary, index)) :
    Books codec decode config delta digester (s.taken batch index) := by
  obtain ⟨-, hn, hz⟩ := h.current hr watermark hy
  refine ⟨{ h.source with
      index := h.source.index.applyBatch hap
      watermark := fun _ => rfl }, fun identity hnam => ?_, ?_, ?_, h.fresh,
    fun id hid => h.subscribed id (mem_filter.1 hid).1, fun id build hbl => ?_⟩
  · have hu : s.Named s.source.state.identity :=
      .inr (.inl ⟨watermark, _, (h.current hr watermark hy).1⟩)
    rcases hnam with ⟨entry, he, rfl⟩ | ⟨earlier, before, hg⟩ | hbl
    · rcases mem_append.1 he with he | he
      · exact h.past _ (.inl ⟨entry, he, rfl⟩)
      · rw [mem_singleton.1 he]
        exact h.past _ hu
    · simp only [taken, observe, publishBatch] at hg
      split at hg
      next hw =>
        rw [hw.2.1]
        exact h.past _ hu
      · exact h.past identity (.inr (.inl ⟨earlier, before, hg⟩))
    · exact h.past identity (.inr (.inr hbl))
  · intro _ latest ha
    have ha : batch.sequence = latest := some.inj ha
    subst ha
    refine ⟨history_taken_self s hr, fun entry he hi => ?_, fun earlier before hg => ?_⟩
    · rcases mem_append.1 he with he | he
      · have hb := hn entry he hi
        omega
      · rw [mem_singleton.1 he]
    · simp only [taken, observe, publishBatch] at hg
      split at hg
      next hw =>
        exact Nat.le_of_eq (some.inj hw.2.2).symm
      · have hb := hz earlier before hg
        omega
  · show (s.log ++ [LiveEntry.mk s.source.state.identity batch]).Pairwise _
    apply pairwise_append.2
    refine ⟨h.ordered, pairwise_singleton _ _, fun entry he later hf hi => ?_⟩
    rw [mem_singleton.1 hf] at hi ⊢
    have hb := hn entry he hi
    show entry.batch.sequence < batch.sequence
    omega
  · have hs := h.session id build hbl
    have hk : ∀ earlier before, s.history build.identity earlier = some before →
        (s.taken batch index).history build.identity earlier = some before :=
      fun _ _ hg => h.history_taken hr hy hnewe hg
    obtain ⟨body, final, last, latest, hbo, hends, ht, ho⟩ := hs.follows.stream
    rcases publishBatch_cases s.source
        (.batch s.source.state.identity batch.sequence batch.payload) id with
      ⟨hq, hj⟩ | ⟨hc, hq, hm⟩
    · refine hs.transfer hk ?_ rfl rfl (fun hp => hp) fun hc => ?_
      · exact congrArg (s.received id ++ ·) hq
      · obtain ⟨hbe, hout⟩ := hj hc
        exact absurd (ho hbe).2.subscribed hout
    · obtain ⟨rfl, hl⟩ := ho hc
      have hla : last = watermark := some.inj (hl.watermark.symm.trans hy)
      have hx : latest = s.source.state.index := hl.index.symm
      subst hla hx
      have hb := ht.le
      refine ⟨hs.sessionId, hs.fit, hs.keyId, hk _ _ hs.recorded,
        ⟨body ++ [.batch build.identity batch.sequence batch.payload], [], batch.sequence, index,
          ?_, .inl rfl, (ht.mono hk).append (.batch hnewe hd hap ?_ (.nil _ _)),
          fun _ => ⟨rfl, ?_⟩⟩, hs.pending, hs.snapshot⟩
      · rw [append_nil] at hbo ⊢
        rw [← hl.identity, ← hbo]
        refine (congrArg (s.received id ++ ·) hq).trans ?_
        exact (append_assoc _ _ _).symm
      · rw [← hl.identity]
        exact history_taken_self s hr
      · refine ⟨hm, hr, hl.identity, rfl, rfl, fun v hv => ?_, ?_⟩
        · have hb' := hl.caughtUp v hv
          omega
        rw [tail_taken s hl.identity (by omega)]
        show _ = tailEvents build.identity (s.caughtUp id) _
        rw [tailEvents_append, ← hl.body, LiveEntry.event, hl.identity]
        intro v hv
        have hb' := hl.caughtUp v hv
        show v < batch.sequence
        omega

end

section
variable (h : s.Books codec decode config delta digester)
include h

theorem Books.fenceLocked {index : DigestKvIndex} (hx : Fit config.indexLimits digester index)
    (inc : Option EngineIncarnation) : Books codec decode config delta digester
      (s.withSource ({ s.source with state := { s.source.state with
        index } }.fenceLocked inc).2) := by
  have hc : Fit config.indexLimits digester index.clear := ⟨hx.1.clear, hx.2⟩
  simp only [CompanionIndexSource.fenceLocked]
  split
  · exact h.fence (.inr (.inr ⟨_, rfl⟩)) hc h.source.keyId (Nat.le_refl _)
      (by rintro _ ⟨⟩)
  refine h.fence (.inr (.inl ⟨_, rfl⟩)) hc h.source.keyId (Nat.le_succ _) fun stage hs => ?_
  cases hs
  exact ⟨hc, Nat.lt_succ_self _⟩

theorem Books.applyReplay (batch : SequencedBatch) :
    Books codec decode config delta digester (s.withSource (s.source.applyReplay batch).2) := by
  simp only [CompanionIndexSource.applyReplay]
  split
  · exact h
  rename_i replay hrp
  split
  · exact h.idle (by rintro _ ⟨⟩) (fun _ hp => hp)
  split
  · exact h.idle (by rintro _ ⟨⟩) (fun _ hp => hp)
  rename_i summary index hap
  refine h.idle (fun stage hs => ?_) (fun _ hp => hp)
  cases hs
  exact ⟨by rw [hrp]; rfl, (h.source.replay replay hrp).applyBatch hap⟩

theorem Books.finishReplay (through : Nat) : Books codec decode config delta digester
      (observe (s.withSource (s.source.finishReplay through).2)) := by
  simp only [CompanionIndexSource.finishReplay]
  split
  · rw [show s.withSource s.source = s from rfl, h.observe_eq]
    exact h
  rename_i replay hrp
  split
  · have hf : Books codec decode config delta digester (s.withSource s.source.failReplay) :=
      h.idle (by rintro _ ⟨⟩) (fun _ hp => hp)
    rw [hf.observe_eq]
    exact hf
  · exact h.ready hrp through

end

theorem applyLive_cases (batch : SequencedBatch) :
    ((source.applyLive batch).2 = source ∧ ¬ ((source.applyLive batch).1.isOk ∧
          source.state.watermark.any (· < batch.sequence))) ∨
      (∃ error index, source.delta.applyBatch source.state.index batch.batch =
        (.error error, index) ∧
        (source.applyLive batch).1.isOk = false ∧
        (source.applyLive batch).2 =
          ({ source with state := { source.state with index } }.fenceLocked none).2) ∨
      ∃ watermark summary index, source.state.ready ∧
        source.state.watermark = some watermark ∧ watermark < batch.sequence ∧
        source.delta.applyBatch source.state.index batch.batch = (.ok summary, index) ∧
        source.applyLive batch = (.ok summary,
          { source with state := { source.state with
            index
            watermark := some batch.sequence } }.publishBatch
            (.batch source.state.identity batch.sequence batch.payload)) := by
  unfold CompanionIndexSource.applyLive
  split
  next watermark hr hm =>
    split
    next he =>
      refine .inl ⟨rfl, fun hw => ?_⟩
      have hl := hw.2
      rw [hm, any_some, decide_eq_true_eq] at hl
      omega
    next hn =>
      rcases hap : source.delta.applyBatch source.state.index batch.batch with
        ⟨error | summary, index⟩
      · refine .inr (.inl ⟨error, index, rfl, ?_⟩)
        dsimp only
        split <;> exact ⟨rfl, rfl⟩
      · exact .inr (.inr ⟨watermark, summary, index, hr, hm, by omega, rfl, rfl⟩)
  · exact .inl ⟨rfl, fun hw => by cases hw.1⟩

theorem Books.applyLive (h : s.Books codec decode config delta digester) {batch : SequencedBatch}
    (hd : decode batch.payload = .ok batch.batch) :
    Books codec decode config delta digester (observe (s.applyLive batch)) := by
  rcases applyLive_cases s.source batch with ⟨hs, hn⟩ | ⟨error, index, hap, ho, hs⟩ |
    ⟨watermark, summary, index, hr, hw, hnewe, hap, hc⟩
  · have hm : s.applyLive batch = s := by
      simp only [Companion.applyLive, hs, if_neg hn]
    rw [hm, h.observe_eq]
    exact h
  · have hf : s.applyLive batch = s.withSource ({ s.source with state := { s.source.state with
        index } }.fenceLocked none).2 := by
      simp only [Companion.applyLive, ho, hs, Bool.false_eq_true, false_and, if_false, withSource]
    have hb := h.fenceLocked (h.source.index.applyBatch hap) none
    rw [hf, hb.observe_eq]
    exact hb
  · have ht : observe (s.applyLive batch) = s.taken batch index := by
      have ha : s.source.state.watermark.any (· < batch.sequence) := by
        rw [hw, any_some, decide_eq_true_eq]
        exact hnewe
      simp only [Companion.applyLive, hc, ha, Except.isOk, Except.toBool, and_self, if_true, taken]
    rw [ht]
    rw [h.source.delta_eq] at hap
    exact h.live hr hw hnewe hd hap

theorem start_cases (channel : TailChannel) :
    (∃ error, source.start channel = (.error error, source)) ∨
      source.state.ready ∧ (source.state.watermark = none ∨
        ∃ watermark, source.state.watermark = some watermark ∧ source.start channel =
            (.ok ⟨source.state.nextSessionId, source.state.index, source.state.identity, watermark⟩,
              { source with
                state := { source.state with
                  nextSessionId := source.state.nextSessionId + 1
                  subscribers := source.state.nextSessionId :: source.state.subscribers
                  buildsInProgress := saturatingAdd source.state.buildsInProgress 1 }
                channels :=
                  update source.channels source.state.nextSessionId channel })) := by
  simp only [CompanionIndexSource.start]
  split
  · exact .inl ⟨_, rfl⟩
  rename_i hi
  split
  · exact .inl ⟨_, rfl⟩
  split
  · exact .inl ⟨_, rfl⟩
  rw [Bool.or_eq_true, not_or, Bool.not_eq_true', Bool.not_eq_false] at hi
  refine .inr ⟨hi.1, ?_⟩
  split
  · exact .inl ‹_›
  · exact .inr ⟨_, ‹_›, rfl⟩

theorem Books.start (h : s.Books codec decode config delta digester) (hq : channel.queue = []) :
    Books codec decode config delta digester (s.start channel) := by
  unfold Companion.start
  rcases start_cases s.source channel with ⟨error, hs⟩ | ⟨hr, hn | ⟨watermark, ho, hs⟩⟩
  · rw [hs]
    exact h
  · have hw := h.source.watermark hr
    rw [hn] at hw
    cases hw
  · rw [hs]
    exact h.started hr ho hq

theorem finishBuild_cases (build : SnapshotBuild)
    (frame : Except SnapshotProducerSourceError (List UInt8)) :
    (∃ error, source.finishBuild build frame = (.error error,
        { source with state := { source.state with
          buildsInProgress := source.state.buildsInProgress - 1 } })) ∨
      (∃ error, source.finishBuild build frame = (.error error,
          { source with state := { source.state with
            buildsInProgress := source.state.buildsInProgress - 1
            subscribers := source.state.subscribers.filter (· ≠ build.sessionId) } }) ∧
        ((source.channels build.sessionId).cancelled ∨ source.state.ready = false ∨
          source.state.identity ≠ build.identity)) ∨
      (∃ error, source.finishBuild build frame = (.error error,
          { source with
            state := { source.state with
              buildsInProgress := source.state.buildsInProgress - 1
              subscribers := source.state.subscribers.filter (· ≠ build.sessionId) }
            channels := update source.channels build.sessionId
              (source.channels build.sessionId).revoke })) ∨
      ∃ bytes watermark, frame = .ok bytes ∧ (source.channels build.sessionId).cancelled = false ∧
        source.state.watermark = some watermark ∧
        source.finishBuild build frame = (.ok ⟨build.identity, build.watermark, bytes⟩,
          { source with
            state := { source.state with
              buildsInProgress := source.state.buildsInProgress - 1 }
            channels := update source.channels build.sessionId
              { source.channels build.sessionId with
                queue := (source.channels build.sessionId).queue ++
                  [.caughtUp build.identity watermark] } }) := by
  simp only [CompanionIndexSource.finishBuild, removeSubscriber]
  rcases frame with error | bytes
  · exact .inl ⟨error, rfl⟩
  dsimp only
  split
  next hv =>
    refine .inr (.inl ⟨_, rfl, ?_⟩)
    simp only [Bool.or_eq_true, Bool.not_eq_true', decide_eq_true_eq] at hv
    rcases hv with (hc | hr) | hi
    · exact .inl hc
    · exact .inr (.inl hr)
    · exact .inr (.inr hi)
  split
  · exact .inl ⟨_, rfl⟩
  rename_i watermark hw
  split
  · exact .inl ⟨_, rfl⟩
  rcases trySend_cases (source.channels build.sessionId)
    (.caughtUp build.identity watermark) with ⟨error, hs⟩ | ⟨ho, hs⟩
  · rw [hs]
    exact .inr (.inr (.inl ⟨error, rfl⟩))
  · rw [hs]
    exact .inr (.inr (.inr ⟨bytes, watermark, rfl, ho, hw, rfl⟩))

theorem pending_of_ended (hp : s.pending id) (other : Nat)
    (ho : update s.pending id false other) : s.pending other := by
  by_cases hs : other = id
  · rw [hs]
    exact hp
  · rwa [update_of_ne hs] at ho

theorem Books.finishBuild (h : s.Books codec decode config delta digester)
    (hb : s.builds id = some build) (hp : s.pending id)
    (exportCancelled encodeCancelled : Nat → Bool) : Books codec decode config delta digester
      (s.finishBuild codec id build exportCancelled encodeCancelled) := by
  have ha := h.session id build hb
  have hi : build.sessionId = id := ha.sessionId
  have he := pending_of_ended hp
  subst hi
  unfold Companion.finishBuild
  rcases finishBuild_cases s.source build
      (buildFrame codec s.source.config build exportCancelled encodeCancelled) with
    ⟨error, hs⟩ | ⟨error, hs, hv⟩ | ⟨error, hs⟩ | ⟨bytes, watermark, hfr, ho, hw, hs⟩
  · rw [hs]
    exact h.idle (fun stage hg => ⟨by rw [hg]; rfl, h.source.replay stage hg⟩) he
  · rw [hs]
    -- an open session follows a ready source of its identity
    have hc : (s.source.channels build.sessionId).cancelled := by
      obtain ⟨body, final, last, index, -, -, -, hl⟩ := ha.follows.stream
      rcases hc : (s.source.channels build.sessionId).cancelled with _ | _
      · have hl := (hl hc).2
        simp [hc, hl.ready, hl.identity] at hv
      · rfl
    have hd := h.drop build.sessionId (s.source.state.buildsInProgress - 1) rfl hc he
    rw [update_eq_self] at hd
    exact hd
  · rw [hs]
    exact h.drop _ _ rfl rfl he
  · rw [hs]
    rw [h.source.config_eq] at hfr
    exact h.caughtUp hb hp hfr ho hw

theorem act_handler {op : HandlerOp} (h : s.act codec decode (.handler id op) = some s') :
    s' = s.handler id op ∧ ∃ build, s.builds id = some build := by
  simp only [Companion.act] at h
  split at h
  · cases h
  rename_i build hb
  refine ⟨?_, build, hb⟩
  split at h
  · split at h
    · exact (some.inj h).symm
    · cases h
  · exact (some.inj h).symm
  · exact (some.inj h).symm

theorem Books.act (h : s.Books codec decode config delta digester)
    (ha : s.act codec decode action = some s') :
    Books codec decode config delta digester s'.observe := by
  have hk : ∀ {t : Companion}, t.Books codec decode config delta digester →
      t.observe.Books codec decode config delta digester := by
    intro t ht
    rw [ht.observe_eq]
    exact ht
  cases action with
  | applyReplay batch =>
    cases ha
    exact hk (h.applyReplay batch)
  | applyReplayForGeneration generation batch =>
    cases ha
    unfold applyReplayForGeneration
    split
    · exact hk h
    · exact hk (h.applyReplay batch)
  | finishReplay through =>
    cases ha
    exact h.finishReplay through
  | applyLive batch =>
    simp only [Companion.act] at ha
    split at ha
    next decoded hd =>
      split at ha
      next hm =>
        cases ha
        exact h.applyLive (hm ▸ hd)
      · cases ha
    · cases ha
  | beginRebuild inc =>
    cases ha
    unfold beginRebuild
    split
    · exact hk h
    · exact hk (h.fenceLocked h.source.index inc)
  | start channel =>
    simp only [Companion.act] at ha
    split at ha
    next hf =>
      cases ha
      exact hk (h.start (isEmpty_iff.1 hf))
    · cases ha
  | finishBuild id exportCancelled encodeCancelled =>
    simp only [Companion.act] at ha
    split at ha
    next build hb =>
      split at ha
      next he =>
        cases ha
        exact hk (h.finishBuild hb he exportCancelled encodeCancelled)
      · cases ha
    · cases ha
  | abandonBuild id =>
    simp only [Companion.act] at ha
    split at ha
    next he =>
      cases ha
      exact hk (h.idle (fun stage hs =>
        ⟨by rw [hs]; rfl, h.source.replay stage hs⟩) (pending_of_ended he))
    · cases ha
  | cleanup id =>
    simp only [Companion.act] at ha
    split at ha
    next hc =>
      cases ha
      have hr := h.drop id s.source.state.buildsInProgress rfl hc fun _ hp => hp
      rw [update_eq_self] at hr
      exact hk hr
    · cases ha
  | handler id op =>
    obtain ⟨rfl, build, hb⟩ := act_handler ha
    exact hk (h.handler hb op)

theorem Books.new {decodeBatch : List UInt8 → Except DecodeError KvEventBatch}
    {inc : EngineIncarnation} {generation : Nat} {channels : Nat → TailChannel}
    {source : CompanionIndexSource}
    (h : CompanionIndexSource.new config decodeBatch inc generation digester channels =
      .ok source) : Books codec decode config
      ⟨⟨config.group.dataParallelRank, config.group.groupIdx⟩, decodeBatch⟩ digester
      (Companion.new source) := by
  simp only [CompanionIndexSource.new] at h
  split at h
  · cases h
  cases h
  have hf : Fit config.indexLimits digester (DigestKvIndex.new config.indexLimits digester) :=
    ⟨.new _ _, rfl⟩
  refine ⟨⟨rfl, rfl, hf, fun stage hs => ?_, rfl, fun _ => rfl, by rintro ⟨⟩⟩,
    fun identity hn => ?_, by rintro ⟨⟩, List.Pairwise.nil,
    fun id _ => ⟨rfl, rfl, rfl, rfl⟩, by rintro _ ⟨⟩, fun id build hb => by
      cases hb⟩
  · cases hs
    exact hf
  rcases hn with ⟨entry, he, -⟩ | ⟨watermark, index, hg⟩ | ⟨id, build, hb, -⟩
  · cases he
  · cases hg
  · cases hb

theorem Books.act_keeps (h : s.Books codec decode config delta digester)
    (ha : s.act codec decode action = some s') (id : Nat) :
    (∀ build, s.builds id = some build → s'.builds id = some build) ∧
      (∀ snap, s.snapshots id = some snap → s'.snapshots id = some snap) ∧
      s.received id <+: s'.received id := by
  have hm : (∀ build, s.builds id = some build → s.builds id = some build) ∧
      (∀ snap, s.snapshots id = some snap → s.snapshots id = some snap) ∧
      s.received id <+: s.received id :=
    ⟨fun _ hb => hb, fun _ hs => hs, prefix_refl _⟩
  cases action with
  | applyReplay | applyReplayForGeneration | finishReplay | beginRebuild =>
    cases ha
    exact hm
  | applyLive batch =>
    simp only [Companion.act] at ha
    split at ha
    · split at ha
      · cases ha
        exact hm
      · cases ha
    · cases ha
  | start channel =>
    simp only [Companion.act] at ha
    split at ha
    · cases ha
      unfold Companion.start
      rcases start_cases s.source channel with ⟨error, ht⟩ | ⟨hr, ho | ⟨watermark, -, ht⟩⟩
      · rw [ht]
        exact hm
      · have hw := h.source.watermark hr
        rw [ho] at hw
        cases hw
      · rw [ht]
        refine ⟨fun build hl => ?_, fun _ hs => hs, prefix_refl _⟩
        have he : id ≠ s.source.state.nextSessionId := by
          rintro rfl
          rw [(h.fresh _ (Nat.le_refl _)).1] at hl
          cases hl
        simpa only [update_of_ne he] using hl
    · cases ha
  | finishBuild other exportCancelled encodeCancelled =>
    simp only [Companion.act] at ha
    split at ha
    next build hl =>
      split at ha
      next hp =>
        cases ha
        unfold Companion.finishBuild
        refine ⟨fun _ hb => ?_, fun snap hn => ?_, ?_⟩
        · dsimp only
          split <;> exact hb
        · dsimp only
          split
          · exact hn
          have he : id ≠ other := by
            rintro rfl
            rw [((h.session id build hl).pending hp).2] at hn
            cases hn
          simpa only [update_of_ne he] using hn
        · dsimp only
          split <;> exact prefix_refl _
      · cases ha
    · cases ha
  | abandonBuild | cleanup =>
    simp only [Companion.act] at ha
    split at ha
    · cases ha
      exact hm
    · cases ha
  | handler other op =>
    obtain ⟨rfl, -⟩ := act_handler ha
    refine ⟨fun _ hb => hb, fun _ hs => hs, ?_⟩
    cases op with
    | receive =>
      simp only [Companion.handler]
      by_cases hi : id = other
      · subst hi
        rw [update_self]
        exact prefix_append _ _
      · rw [update_of_ne hi]
    | close => exact prefix_refl _
    | cancel => exact prefix_refl _

end Companion
end Ramjet
