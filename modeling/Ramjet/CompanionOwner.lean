import Ramjet.CompanionSource
import Ramjet.KvFence
import Ramjet.Lib.Runs

/-!
# The companion's owner loop

`companion_index_owner.rs`: one task keeps the source connected to its engine. It is cut
at its await points: a phase says where it waits, an action what woke it. Reports,
observers and the length of a backoff are left out.
-/

namespace Ramjet

inductive LiveActivity where
  | connected
  | disconnected
  | batch (batch : SequencedBatch)

structure CompanionFullReplay where
  sequences : List Nat
  tail : List (Nat × Bool)
  requestedThrough : Nat
  establishesBoundary : Bool
  applyError : Option CompanionIndexSourceError
  expectedGeneration : Nat

namespace CompanionFullReplay
variable (source : CompanionIndexSource)

def new (requestedThrough : Nat) : CompanionFullReplay where
  sequences := []
  tail := []
  requestedThrough
  establishesBoundary := false
  applyError := none
  expectedGeneration := source.state.identity.companionGeneration

variable (replay : CompanionFullReplay)

def record (batch : SequencedBatch) : CompanionFullReplay :=
  if batch.sequence ≤ replay.requestedThrough then
    { replay with
      sequences := replay.sequences ++ [batch.sequence]
      establishesBoundary := replay.establishesBoundary || batch.batch.clearsAll }
  else { replay with tail := replay.tail ++ [(batch.sequence, batch.batch.clearsAll)] }

def apply (batch : SequencedBatch) :
    CompanionFullReplay × CompanionIndexSource :=
  let replay := replay.record batch
  if replay.applyError.isNone then
    match source.applyReplayForGeneration replay.expectedGeneration batch with
    | (.ok _, source) => (replay, source)
    | (.error error, source) => ({ replay with applyError := some error }, source)
  else (replay, source)

end CompanionFullReplay

def acceptReplayTailFrom (fence : KvEventFence) (pending : List Nat) :
    List (Nat × Bool) → Bool × KvEventFence
  | [] =>
    if pending.isEmpty then (true, fence)
    else ((fence.acceptReplay pending false).1 = .recovered, (fence.acceptReplay pending false).2)
  | (sequence, clearsAll) :: tail =>
    match fence.ingest sequence clearsAll with
    | (.apply, fence) | (.resetAndApply, fence) => acceptReplayTailFrom fence [] tail
    | (.replay _ _, fence) => acceptReplayTailFrom fence (pending ++ [sequence]) tail
    | (_, fence) => (false, fence)

variable (fence : KvEventFence)

def acceptReplayTail (tail : List (Nat × Bool)) : Bool × KvEventFence :=
  acceptReplayTailFrom fence [] tail

/-- `ready` and `stableObserveOnly` are the locals of `consume_connection`.  In
`handling` the select has returned an activity, `none` for a transport error;
in `recovering` a full replay is streaming. -/
inductive OwnerPhase where
  | waitForAuthority
  | connecting (authority : EngineIncarnation)
  | backoff
  | consuming (authority : EngineIncarnation) (ready stableObserveOnly : Bool)
  | handling (authority : EngineIncarnation) (ready stableObserveOnly : Bool)
      (activity : Option LiveActivity)
  | recovering (authority : EngineIncarnation) (ready stableObserveOnly : Bool)
      (replay : CompanionFullReplay)
  | stopped

def OwnerPhase.connection : OwnerPhase → Option EngineIncarnation
  | consuming authority _ _ | handling authority _ _ _ | recovering authority _ _ _ =>
    some authority
  | _ => none

structure CompanionIndexOwner where
  source : CompanionIndexSource
  fence : KvEventFence
  engineAuthority : Watch (Option EngineIncarnation)
  currentAuthority : Option EngineIncarnation
  phase : OwnerPhase

namespace CompanionIndexOwner
variable (owner : CompanionIndexOwner)

/-- The task returns, and its cancellation fence is dropped. -/
def stop : CompanionIndexOwner :=
  { owner with source := (owner.source.beginRebuild none).2, phase := .stopped }

/-- `rebuild` and what follows it; an error leaves the loop. -/
def rebuild (authority : Option EngineIncarnation)
    (andThen : CompanionIndexOwner → CompanionIndexOwner) : CompanionIndexOwner :=
  let rebuilt := owner.source.beginRebuild authority
  let owner := { owner with source := rebuilt.2, fence := owner.fence.generationChanged }
  match rebuilt.1 with
  | .error _ => owner.stop
  | .ok () => andThen owner

def retry : CompanionIndexOwner :=
  owner.rebuild none fun owner => { owner with phase := .backoff }

/-- `fence_refreshed_authority` and the exit from the connection. -/
def authorityChanged (refreshed : Option EngineIncarnation) :
    CompanionIndexOwner :=
  owner.rebuild refreshed fun owner =>
    { owner with currentAuthority := refreshed, phase := .waitForAuthority }

/-- `ReplayExit::Fenced`, in either place. -/
def fenced (authority : EngineIncarnation) : CompanionIndexOwner :=
  owner.rebuild (some authority) fun owner =>
    { owner with phase := .consuming authority false true }

def replayFirst (authority : EngineIncarnation) (first : SequencedBatch) : CompanionIndexOwner :=
  match owner.source.applyReplay first with
  | (.error _, source) => { owner with source }.retry
  | (.ok _, source) =>
    match source.finishReplay first.sequence with
    | (.error _, source) => { owner with source }.retry
    | (.ok _, source) => { owner with source, phase := .consuming authority true false }

def bootstrapFromLive (authority : EngineIncarnation)
    (stableObserveOnly : Bool) (first : SequencedBatch) : CompanionIndexOwner :=
  let ingested := owner.fence.ingest first.sequence first.batch.clearsAll
  let owner := { owner with fence := ingested.2 }
  match ingested.1 with
  | .apply | .resetAndApply => owner.replayFirst authority first
  | .replay _ through =>
    { owner with
      phase := .recovering authority false stableObserveOnly (.new owner.source through) }
  | .duplicate => owner.retry
  | .observeOnly | .unrecoverableGap =>
    { owner with phase := .consuming authority false true }

def applyLive (authority : EngineIncarnation)
    (stableObserveOnly : Bool) (batch : SequencedBatch) : CompanionIndexOwner :=
  match owner.source.applyLive batch with
  | (.error _, source) => { owner with source }.retry
  | (.ok _, source) =>
    { owner with source, phase := .consuming authority true stableObserveOnly }

/-- A batch on a connection that is ready. -/
def ingestLive (authority : EngineIncarnation)
    (stableObserveOnly : Bool) (batch : SequencedBatch) : CompanionIndexOwner :=
  let ingested := owner.fence.ingest batch.sequence batch.batch.clearsAll
  let owner := { owner with fence := ingested.2 }
  match ingested.1 with
  | .apply | .resetAndApply => owner.applyLive authority stableObserveOnly batch
  | .duplicate => { owner with phase := .consuming authority true stableObserveOnly }
  | .replay _ through =>
    owner.rebuild none fun owner =>
      match owner.fence.prepareFullReplay through with
      | (false, fence) =>
        { owner with
          fence := (fence.ingest through false).2
          phase := .consuming authority false stableObserveOnly }
      | (true, fence) =>
        { owner with
          fence
          phase := .recovering authority true stableObserveOnly (.new owner.source through) }
  | .observeOnly | .unrecoverableGap =>
    owner.rebuild none fun owner =>
      { owner with
        fence := (owner.fence.ingest batch.sequence batch.batch.clearsAll).2
        phase := .consuming authority false stableObserveOnly }

/-- `recover_full` once the stream has ended. -/
def finishRecovery (authority : EngineIncarnation)
    (ready stableObserveOnly : Bool) (replayed : CompanionFullReplay) : CompanionIndexOwner :=
  if replayed.applyError.isSome then owner.fenced authority
  else
    let accepted := owner.fence.acceptReplay replayed.sequences replayed.establishesBoundary
    let owner := { owner with fence := accepted.2 }
    if accepted.1 ≠ .recovered then owner.fenced authority
    else
      let tail := acceptReplayTail owner.fence replayed.tail
      let owner := { owner with fence := tail.2 }
      if !tail.1 then owner.fenced authority
      else
        match owner.source.finishReplay
          ((replayed.tail.getLast?.map (·.1)).getD replayed.requestedThrough) with
        | (.error _, source) => { owner with source }.fenced authority
        | (.ok _, source) =>
          { owner with
            source
            -- only a first replay resets the flag
            phase := .consuming authority true (ready && stableObserveOnly) }

def handle (authority : EngineIncarnation)
    (ready stableObserveOnly : Bool) : Option LiveActivity → CompanionIndexOwner
  | none | some .disconnected => owner.retry
  | some .connected => { owner with phase := .consuming authority ready stableObserveOnly }
  | some (.batch batch) => if ready then owner.ingestLive authority stableObserveOnly batch
    else if stableObserveOnly && !batch.batch.clearsAll then
      { owner with phase := .consuming authority false stableObserveOnly }
    else owner.bootstrapFromLive authority stableObserveOnly batch

inductive Action where
  | poll
  | connected (ok : Bool)
  | slept
  | received (activity : Option LiveActivity)
  | handled
  | replayed (batch : SequencedBatch)
  | replayEnded (ok : Bool)
  | shutdown

/-- The channel is looked at, and its value taken. -/
def look : CompanionIndexOwner :=
  { owner with engineAuthority := owner.engineAuthority.borrowAndUpdate.2 }

def poll : Option CompanionIndexOwner :=
  match owner.phase with
  | .waitForAuthority =>
    some <| match owner.engineAuthority.value with
    | none => owner.look
    | some authority =>
      if owner.currentAuthority = some authority then
        { owner.look with phase := .connecting authority }
      else
        owner.look.rebuild (some authority) fun owner =>
          { owner with currentAuthority := some authority, phase := .connecting authority }
  | .connecting _ | .backoff =>
    if owner.engineAuthority.changed then some { owner.look with phase := .waitForAuthority }
    else none
  | .consuming authority _ _ =>
    if owner.engineAuthority.changed then
      if owner.engineAuthority.value = some authority then some owner.look
      else some (owner.look.authorityChanged owner.engineAuthority.value)
    else none
  | .recovering _ _ _ _ =>
    if owner.engineAuthority.changed then
      some (owner.look.authorityChanged owner.engineAuthority.value)
    else none
  | .handling _ _ _ _ | .stopped => none

def next (owner : CompanionIndexOwner) : Action → Option CompanionIndexOwner
  | .poll => owner.poll
  | .connected ok =>
    match owner.phase with
    | .connecting authority =>
      some { owner with phase := if ok then .consuming authority false false else .backoff }
    | _ => none
  | .slept =>
    match owner.phase with
    | .backoff => some { owner with phase := .waitForAuthority }
    | _ => none
  | .received activity =>
    match owner.phase with
    | .consuming authority ready stableObserveOnly =>
      if owner.engineAuthority.changed then none
      else some { owner with phase := .handling authority ready stableObserveOnly activity }
    | _ => none
  | .handled =>
    match owner.phase with
    | .handling authority ready stableObserveOnly activity =>
      some (owner.handle authority ready stableObserveOnly activity)
    | _ => none
  | .replayed batch =>
    match owner.phase with
    | .recovering authority ready stableObserveOnly replay =>
      some { owner with
        source := (replay.apply owner.source batch).2
        phase := .recovering authority ready stableObserveOnly (replay.apply owner.source batch).1 }
    | _ => none
  | .replayEnded ok =>
    match owner.phase with
    | .recovering authority ready stableObserveOnly replay =>
      some (if ok then owner.finishRecovery authority ready stableObserveOnly replay
        else owner.retry)
    | _ => none
  | .shutdown =>
    match owner.phase with
    | .handling _ _ _ _ | .stopped => none
    | _ => some owner.stop

/-- The start of `run`, up to its loop. -/
def start (source : CompanionIndexSource) (replayLimit : Nat)
    (engineAuthority : Watch (Option EngineIncarnation)) : CompanionIndexOwner :=
  rebuild
    { source
      fence := .new replayLimit
      engineAuthority := engineAuthority.borrowAndUpdate.2
      currentAuthority := engineAuthority.value
      phase := .waitForAuthority }
    engineAuthority.value id

end CompanionIndexOwner
end Ramjet
