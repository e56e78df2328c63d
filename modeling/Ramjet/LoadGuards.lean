import Ramjet.KvWire
import Ramjet.Lib.Runs
import Ramjet.Router

/-!
# Load guards

How requests reserve load in `router.rs`: the acquires, their guards, and what reducing,
releasing and dropping gives back. Additions wrap, subtractions saturate.
-/

namespace Ramjet
open TransitionSystem List
variable {n : Nat}

/-- The state of one upstream; an index out of range changes nothing. -/
def Router.modify (router : Router n) (upstream : Nat) (f : UpstreamState → UpstreamState) :
    Router n :=
  { router with states := fun i =>
      if i.val = upstream then f (router.states i) else router.states i }

structure LoadGuard where
  upstream : Nat
  units : Nat
  released : Bool

def UpstreamState.reserve (state : UpstreamState) (units : Nat) : UpstreamState :=
  { state with inflight := wrappingAdd state.inflight 1, load := wrappingAdd state.load units }

namespace Router
variable (router : Router n)

def acquire (upstream units : Nat) : Router n × LoadGuard :=
  let units := max units 1
  (router.modify upstream (·.reserve units), ⟨upstream, units, false⟩)

def acquireGated (upstream units : Nat) (requireHealthy : Bool) :
    Option (Router n × LoadGuard) :=
  let units := max units 1
  if h : upstream < n then
    let state := router.states ⟨upstream, h⟩
    if state.drained || (requireHealthy && !state.serving) then none
    else some (router.modify upstream (·.reserve units), ⟨upstream, units, false⟩)
  else none

/-- Rechecks serving health while it reserves. -/
def acquireIfHealthy (upstream units : Nat) : Option (Router n × LoadGuard) :=
  router.acquireGated upstream units true

def acquireFailingOpen (upstream units : Nat) : Option (Router n × LoadGuard) :=
  router.acquireGated upstream units false

def setHealthy (upstream : Nat) (healthy : Bool) : Router n :=
  router.modify upstream fun state => { state with healthy }

def setDrained (upstream : Nat) (drained : Bool) : Router n :=
  router.modify upstream fun state => { state with drained }

/-- Every drain fence at once; a mask of another length is refused. -/
def setDrainedMask (drained : List Bool) : Router n × Bool :=
  if h : drained.length = n then
    ({ router with states := fun i =>
        { router.states i with drained := drained.get (i.cast h.symm) } }, true)
  else (router, false)

end Router

namespace LoadGuard
variable (guard : LoadGuard)

def reduceTo (router : Router n) (units : Nat) : Router n × LoadGuard × Bool :=
  if guard.released then (router, guard, false)
  else
    let units := max units 1
    if units ≥ guard.units then (router, guard, false)
    else if guard.upstream < n then
      (router.modify guard.upstream fun state =>
        { state with load := state.load - (guard.units - units) }, { guard with units }, true)
    else (router, guard, false)

def doRelease (router : Router n) : Router n × LoadGuard :=
  if guard.released then (router, guard)
  else
    (router.modify guard.upstream fun state =>
      { state with inflight := state.inflight - 1, load := state.load - guard.units },
      { guard with released := true })

end LoadGuard

/-- The router with every guard it handed out, in order. -/
structure LoadLedger (n : Nat) where
  router : Router n
  guards : List LoadGuard

inductive LoadEvent where
  | acquire (upstream units : Nat)
  | acquireIfHealthy (upstream units : Nat)
  | acquireFailingOpen (upstream units : Nat)
  | reduceTo (guard units : Nat)
  | release (guard : Nat)
  | drop (guard : Nat)
  | setHealthy (upstream : Nat) (healthy : Bool)
  | setDrained (upstream : Nat) (drained : Bool)
  | setDrainedMask (drained : List Bool)

namespace LoadLedger

def add (ledger : LoadLedger n) (acquired : Option (Router n × LoadGuard)) : LoadLedger n :=
  match acquired with
  | some (router, guard) => ⟨router, ledger.guards ++ [guard]⟩
  | none => ledger

/-- An operation on the guard behind a handle. -/
def withGuard (ledger : LoadLedger n) (guard : Nat) (f : LoadGuard → Router n × LoadGuard) :
    LoadLedger n :=
  match ledger.guards[guard]? with
  | some g => ⟨(f g).1, ledger.guards.set guard (f g).2⟩
  | none => ledger

def next (ledger : LoadLedger n) : LoadEvent → LoadLedger n
  | .acquire upstream units => ledger.add (some (ledger.router.acquire upstream units))
  | .acquireIfHealthy upstream units => ledger.add (ledger.router.acquireIfHealthy upstream units)
  | .acquireFailingOpen upstream units =>
    ledger.add (ledger.router.acquireFailingOpen upstream units)
  | .reduceTo guard units =>
    ledger.withGuard guard fun g =>
      let reduced := g.reduceTo ledger.router units
      (reduced.1, reduced.2.1)
  -- A release consumes the guard, whose drop then finds it released.
  | .release guard | .drop guard => ledger.withGuard guard (·.doRelease ledger.router)
  | .setHealthy upstream healthy =>
    { ledger with router := ledger.router.setHealthy upstream healthy }
  | .setDrained upstream drained =>
    { ledger with router := ledger.router.setDrained upstream drained }
  | .setDrainedMask drained => { ledger with router := (ledger.router.setDrainedMask drained).1 }

end LoadLedger

def loadLedger (n : Nat) : TransitionSystem (LoadLedger n) LoadEvent where
  init s := s.guards = [] ∧ ∀ i, (s.router.states i).inflight = 0 ∧ (s.router.states i).load = 0
  step s a s' := s' = s.next a

namespace LoadGuard

/-- A live reservation on an upstream. -/
def Holds (guard : LoadGuard) (upstream : Nat) : Prop :=
  guard.upstream = upstream ∧ guard.released = false

instance (guard : LoadGuard) (upstream : Nat) : Decidable (guard.Holds upstream) :=
  inferInstanceAs (Decidable (_ ∧ _))

end LoadGuard

variable (guards : List LoadGuard)

def liveGuards (upstream : Nat) : Nat :=
  guards.countP fun guard => guard.Holds upstream

def liveUnits (upstream : Nat) : Nat :=
  (guards.map fun guard => if guard.Holds upstream then guard.units else 0).sum

theorem liveGuards_eq_sum (up : Nat) : liveGuards guards up =
      (guards.map fun guard => if guard.Holds up then 1 else 0).sum := by
  induction guards with
  | nil => rfl
  | cons guard guards ih =>
    simp only [liveGuards, countP_cons, decide_eq_true_eq, map_cons, sum_cons] at ih ⊢
    omega

theorem sum_map_set {α : Type} (weight : α → Nat) {l : List α} {i : Nat} {x y : α}
    (h : l[i]? = some x) :
    ((l.set i y).map weight).sum + weight x = (l.map weight).sum + weight y := by
  induction l generalizing i with
  | nil => simp at h
  | cons z l ih =>
    cases i with
    | zero =>
      obtain rfl : z = x := by simpa using h
      simp only [set_cons_zero, map_cons, sum_cons]
      omega
    | succ i =>
      have hs := ih (i := i) (by simpa using h)
      simp only [set_cons_succ, map_cons, sum_cons]
      omega

theorem le_sum_map {α : Type} (weight : α → Nat) {l : List α} {x : α} (h : x ∈ l) :
    weight x ≤ (l.map weight).sum :=
  le_sum_of_mem (mem_map_of_mem h)

namespace LoadLedger

/-- The counters are what the live guards make them. -/
def Accounted (ledger : LoadLedger n) : Prop :=
  ∀ i : Fin n, (ledger.router.states i).inflight = liveGuards ledger.guards i ∧
    (ledger.router.states i).load = liveUnits ledger.guards i

def hasRoom (ledger : LoadLedger n) (upstream units : Nat) : Bool :=
  liveGuards ledger.guards upstream + 1 < 2 ^ 64 ∧
    liveUnits ledger.guards upstream + max units 1 < 2 ^ 64

/-- No acquire takes an upstream's counters past what they can hold. -/
def fits (ledger : LoadLedger n) : LoadEvent → Bool
  | .acquire upstream units => ledger.hasRoom upstream units
  | .acquireIfHealthy upstream units =>
    (ledger.router.acquireIfHealthy upstream units).isNone || ledger.hasRoom upstream units
  | .acquireFailingOpen upstream units =>
    (ledger.router.acquireFailingOpen upstream units).isNone || ledger.hasRoom upstream units
  | _ => true

variable {ledger : LoadLedger n} {up units : Nat} {g : LoadGuard}

section
variable (h : ledger.Accounted)
include h

theorem Accounted.reserve (hg : liveGuards ledger.guards up + 1 < 2 ^ 64)
    (hu : liveUnits ledger.guards up + units < 2 ^ 64) :
    Accounted ⟨ledger.router.modify up (·.reserve units),
      ledger.guards ++ [⟨up, units, false⟩]⟩ := by
  intro i
  obtain ⟨hn, hl⟩ := h i
  by_cases hi : i.val = up
  · subst hi
    simp only [Router.modify, if_pos, UpstreamState.reserve, hn, hl, wrappingAdd,
      Nat.mod_eq_of_lt hg, Nat.mod_eq_of_lt hu]
    simp [liveGuards, liveUnits, LoadGuard.Holds]
  · have ha : ¬ up = i.val := fun he => hi he.symm
    simp only [Router.modify, if_neg hi, hn, hl]
    simp [liveGuards, liveUnits, LoadGuard.Holds, ha]

theorem Accounted.replace {k : Nat} (g' : LoadGuard)
    (f : UpstreamState → UpstreamState) (hg : ledger.guards[k]? = some g)
    (hup : g'.upstream = g.upstream) (hl : g.released = false)
    (hn : ∀ state, (f state).inflight = state.inflight - if g'.released then 1 else 0)
    (ha : ∀ state, (f state).load =
      state.load - (g.units - if g'.released then 0 else g'.units)) (hu : g'.units ≤ g.units) :
    Accounted ⟨ledger.router.modify g.upstream f, ledger.guards.set k g'⟩ := by
  intro i
  obtain ⟨hc, hs⟩ := h i
  have hd := sum_map_set (fun guard => if guard.Holds i then 1 else 0) (y := g') hg
  have hw :=
    sum_map_set (fun guard => if guard.Holds i then guard.units else 0) (y := g') hg
  rw [← liveGuards_eq_sum, ← liveGuards_eq_sum] at hd
  change liveUnits _ _ + _ = liveUnits _ _ + _ at hw
  by_cases hi : i.val = g.upstream
  · have hb := le_sum_map (fun guard => if guard.Holds i then guard.units else 0)
      (mem_of_getElem? hg)
    change _ ≤ liveUnits ledger.guards i at hb
    have ho := le_sum_map (fun guard => if guard.Holds i then 1 else 0) (mem_of_getElem? hg)
    rw [← liveGuards_eq_sum] at ho
    simp only [Router.modify, if_pos hi, hn, ha, hc, hs]
    cases hr : g'.released <;>
      simp only [LoadGuard.Holds, hup, hi, hl, hr, and_self, and_false, if_true, if_false,
        Bool.false_eq_true, Bool.true_eq_false] at hd hw hb ho ⊢ <;> omega
  · have hf : ¬ g.upstream = i.val := fun he => hi he.symm
    simp only [LoadGuard.Holds, hup, hf, false_and, if_false, Nat.add_zero] at hd hw
    simp only [Router.modify, if_neg hi, hd, hw]
    exact ⟨hc, hs⟩

theorem Accounted.acquireGated {requireHealthy : Bool}
    (hf : (ledger.router.acquireGated up units requireHealthy).isNone || ledger.hasRoom up units) :
    (ledger.add (ledger.router.acquireGated up units requireHealthy)).Accounted := by
  rcases ha : ledger.router.acquireGated up units requireHealthy with _ | ⟨router, guard⟩
  · exact h
  rw [ha, Option.isNone_some, Bool.false_or] at hf
  obtain ⟨hg, hu⟩ := of_decide_eq_true hf
  simp only [Router.acquireGated] at ha
  split at ha
  · split at ha
    · cases ha
    · cases ha
      exact h.reserve hg hu
  · cases ha

end

theorem set_of_getElem? {α : Type} {l : List α} {i : Nat} {x : α} (h : l[i]? = some x) :
    l.set i x = l := by
  obtain ⟨hl, rfl⟩ := List.getElem?_eq_some_iff.1 h
  exact List.set_getElem_self hl

section
variable (h : ledger.Accounted)
include h

theorem Accounted.reduceTo {k units : Nat}
    (hg : ledger.guards[k]? = some g) : Accounted ⟨(g.reduceTo ledger.router units).1,
      ledger.guards.set k (g.reduceTo ledger.router units).2.1⟩ := by
  have hs : ledger.guards.set k g = ledger.guards := set_of_getElem? hg
  simp only [LoadGuard.reduceTo]
  split
  · simpa only [hs] using h
  rename_i hl
  split
  · simpa only [hs] using h
  rename_i ht
  split
  · have hfls : g.released = false := by simpa using hl
    dsimp only
    apply h.replace { g with units := max units 1 } _ hg rfl hfls
    · intro state
      simp [hfls]
    · intro state
      simp [hfls]
    · exact Nat.le_of_lt (Nat.lt_of_not_ge ht)
  · simpa only [hs] using h

theorem Accounted.doRelease {k : Nat}
    (hg : ledger.guards[k]? = some g) : Accounted ⟨(g.doRelease ledger.router).1,
      ledger.guards.set k (g.doRelease ledger.router).2⟩ := by
  simp only [LoadGuard.doRelease]
  split
  · simpa only [set_of_getElem? hg] using h
  rename_i hl
  dsimp only
  apply h.replace { g with released := true } _ hg rfl (by simpa using hl)
  · intro state
    simp
  · intro state
    simp
  · exact le_rfl

theorem Accounted.flags {router : Router n}
    (hr : ∀ i, (router.states i).inflight = (ledger.router.states i).inflight ∧
      (router.states i).load = (ledger.router.states i).load) :
    Accounted ⟨router, ledger.guards⟩ := by
  intro i
  rw [(hr i).1, (hr i).2]
  exact h i

theorem Accounted.next {event : LoadEvent} (hf : ledger.fits event)
    : (ledger.next event).Accounted := by
  cases event with
  | acquire up units =>
    obtain ⟨hg, hu⟩ := of_decide_eq_true hf
    exact h.reserve hg hu
  | acquireIfHealthy up units | acquireFailingOpen up units => exact h.acquireGated hf
  | reduceTo guard units =>
    simp only [LoadLedger.next, withGuard]
    split
    · exact h.reduceTo ‹_›
    · exact h
  | release guard | drop guard =>
    simp only [LoadLedger.next, withGuard]
    split
    · exact h.doRelease ‹_›
    · exact h
  | setHealthy up healthy | setDrained up drained =>
    refine h.flags fun i => ?_
    simp only [Router.setHealthy, Router.setDrained, Router.modify]
    split <;> exact ⟨rfl, rfl⟩
  | setDrainedMask drained =>
    refine h.flags fun i => ?_
    simp only [Router.setDrainedMask]
    split <;> exact ⟨rfl, rfl⟩

end
end LoadLedger

theorem acquireGated_not_drained {router router' : Router n} {up units : Nat}
    {requireHealthy : Bool} {guard : LoadGuard}
    (h : router.acquireGated up units requireHealthy = some (router', guard)) :
    ∃ i : Fin n, i.val = up ∧ (router.states i).drained = false := by
  simp only [Router.acquireGated] at h
  split at h
  next hl =>
    refine ⟨⟨up, hl⟩, rfl, ?_⟩
    split at h
    · cases h
    · simp_all
  · cases h

/-- The counters are those of the live guards, so that nothing a guard gives back
saturates, and what is drained takes no gated reservation: in every run whose
reservations a counter can hold. -/
theorem load_counts_live_guards {s : LoadLedger n}
    (h : ((loadLedger n).restrict fun s a => s.fits a).Reachable s) :
    (∀ i : Fin n, (s.router.states i).inflight = liveGuards s.guards i ∧
      (s.router.states i).load = liveUnits s.guards i) ∧
    (∀ i : Fin n, ∀ guard ∈ s.guards, guard.Holds i →
      1 ≤ (s.router.states i).inflight ∧ guard.units ≤ (s.router.states i).load) ∧
    (∀ upstream units requireHealthy router guard,
      s.router.acquireGated upstream units requireHealthy = some (router, guard) →
        ∃ i : Fin n, i.val = upstream ∧ (s.router.states i).drained = false) := by
  have ha : s.Accounted := by
    refine h.invariant (fun s hs i => ?_) fun s a s' hs hstep => ?_
    · simp [hs.1, hs.2 i, liveGuards, liveUnits]
    · obtain ⟨hf, rfl⟩ := hstep
      exact hs.next hf
  refine ⟨ha, fun i guard hg hh => ?_, fun _ _ _ _ _ => acquireGated_not_drained⟩
  obtain ⟨hi, hl⟩ := ha i
  have ho := le_sum_map (fun guard => if guard.Holds i then 1 else 0) hg
  have hu := le_sum_map (fun guard => if guard.Holds i then guard.units else 0) hg
  rw [← liveGuards_eq_sum, if_pos hh, ← hi] at ho
  rw [if_pos hh] at hu
  exact ⟨ho, hl ▸ hu⟩

namespace SampleLoad

def upstream : UpstreamState :=
  { lru := ⟨4, []⟩, horizon := fun _ => none, inflight := 0, load := 0, healthy := true,
    drained := false }

def start : LoadLedger 1 := ⟨⟨fun _ => upstream, 0⟩, []⟩

def next (s : LoadLedger 1) (a : LoadEvent) : Option (LoadLedger 1) := some (s.next a)

def run : List LoadEvent :=
  [.acquireIfHealthy 0 8, .acquireFailingOpen 0 0, .reduceTo 0 3, .setDrained 0 true,
    .acquireIfHealthy 0 5, .release 1, .drop 1]

end SampleLoad

open SampleLoad in
theorem load_counts_live_guards_sample :
    ∃ s, run.foldlM (guardNext LoadLedger.fits next) start = some s ∧
      liveUnits s.guards 0 = 3 ∧ (s.router.states 0).load = liveUnits s.guards 0 := by
  obtain ⟨s, hs⟩ := Option.isSome_iff_exists.1
    (show (run.foldlM (guardNext LoadLedger.fits next) start).isSome = true by decide +kernel)
  refine ⟨s, hs, ?_, ?_⟩
  · have hu : (run.foldlM (guardNext LoadLedger.fits next) start).any
        (fun s => decide (liveUnits s.guards 0 = 3)) = true := by decide +kernel
    simpa [hs] using hu
  have hr := Reachable.foldlM_restrict (M := loadLedger 1)
    (fun _ _ _ h => (Option.some.inj h).symm) (.init ⟨rfl, fun _ => ⟨rfl, rfl⟩⟩) hs
  exact ((load_counts_live_guards hr).1 0).2

open SampleLoad in
/-- Two reservations whose units a 64-bit counter cannot hold: the second one wraps. -/
theorem load_wraps_past_sixty_four_bits : ∃ s, (loadLedger 1).Reachable s ∧
      (s.router.states 0).load = 0 ∧ liveUnits s.guards 0 = 2 ^ 64 := by
  have hr : (loadLedger 1).Reachable
      ((start.next (.acquire 0 (2 ^ 64 - 1))).next (.acquire 0 1)) := by
    refine Reachable.foldlM (fun _ _ _ h => (Option.some.inj h).symm)
      (.init (s := start) ⟨rfl, fun _ => ⟨rfl, rfl⟩⟩)
      (show [.acquire 0 (2 ^ 64 - 1), .acquire 0 1].foldlM next start = some _ from rfl)
  exact ⟨_, hr, by decide +kernel, by decide +kernel⟩

end Ramjet
