import Ramjet.Router

/-!
# The order of candidates

What the sort of `route_fingerprints` says about two upstreams: ties, the warmer of two
equally loaded peers, and how far the relative basis credits them apart.
-/

namespace Ramjet
open List Function

section Comparator
variable {α : Type} [LinearOrder α] {n : Nat}

/-- What no preference among profiles overrides. -/
def Score.key (s : Score α) : Bool × α × Nat := (s.healthy, s.weighted, s.overlap)

/-- The order of keys, the better one first. -/
def KeyBefore (k k' : Bool × α × Nat) : Prop :=
  k'.1 ≤ k.1 ∧ (k.1 = k'.1 → k'.2.1 ≤ k.2.1 ∧ (k.2.1 = k'.2.1 → k'.2.2 ≤ k.2.2))

theorem KeyBefore.antisymm {k k' : Bool × α × Nat} (h : KeyBefore k k') (h' : KeyBefore k' k) :
    k = k' := by
  have hb := le_antisymm h'.1 h.1
  have hw := le_antisymm (h'.2 hb.symm).1 (h.2 hb).1
  have ho := le_antisymm ((h'.2 hb.symm).2 hw.symm) ((h.2 hb).2 hw)
  exact Prod.ext hb (Prod.ext hw ho)

variable {l : List (Score α)}

theorem KeyBefore.of_head {s t : Score α} (h : (s :: l).Pairwise fun a b => KeyBefore a.key b.key)
    (ht : t ∈ s :: l) : KeyBefore s.key t.key := by
  rcases mem_cons.1 ht with rfl | ht
  · exact ⟨le_rfl, fun _ => ⟨le_rfl, fun _ => le_rfl⟩⟩
  · exact (pairwise_cons.1 h).1 t ht

variable (rotation count : Nat) (preference : SpeculationPreference)
  (profiles : List SpeculationProfile) (tieBreak : Bool)

def preferred (s : Score α) : Bool := profiles[s.index]?.any preference.matches

instance compareScores_trans : Std.TransCmp fun l r : Score α =>
    compareScores l r rotation count preference profiles tieBreak := by
  have htie : ∀ l r : Score α, (if tieBreak then compare (preferred preference profiles r)
      (preferred preference profiles l) else .eq) = compareOn
        (fun s => tieBreak && preferred preference profiles s) r l := by
    intro l r
    cases tieBreak <;> rfl
  have : Std.TransCmp (fun l r : Score α => compareOn Score.healthy r l) := .opposite
  have : Std.TransCmp (fun l r : Score α => compareOn Score.weighted r l) := .opposite
  have : Std.TransCmp (fun l r : Score α => compareOn Score.overlap r l) := .opposite
  have : Std.TransCmp (fun l r : Score α =>
    compareOn (fun s => tieBreak && preferred preference profiles s) r l) := .opposite
  have heq : (fun l r : Score α => compareScores l r rotation count preference profiles tieBreak) =
      compareLex (fun l r => compareOn Score.healthy r l)
        (compareLex (fun l r => compareOn Score.weighted r l)
          (compareLex (fun l r => compareOn Score.overlap r l) (compareLex (fun l r =>
              compareOn (fun s => tieBreak && preferred preference profiles s) r l)
              (compareOn fun s => (s.index + rotation) % count)))) := by
    funext l r
    simp only [compareLex, ← htie]
    rfl
  rw [heq]
  infer_instance

variable {rotation count preference profiles tieBreak}

theorem key_of_compareScores {l r : Score α}
    (h : compareScores l r rotation count preference profiles tieBreak ≠ .gt) :
    KeyBefore l.key r.key := by
  simp only [compareScores, ne_eq, Ordering.then_eq_gt, compare_gt_iff_gt, compare_eq_iff_eq,
    not_or, not_and, not_lt] at h
  refine ⟨h.1, fun hb => ?_⟩
  obtain ⟨hw, h⟩ := h.2 hb.symm
  exact ⟨hw, fun he => (h he.symm).1⟩

namespace Router
variable (config : RouterConfig α n) (scores : List (Score α))

theorem pairwise_sortScores : (sortScores config rotation preference tieBreak scores).Pairwise
    fun l r => compareScores l r rotation n preference config.speculationProfiles
      tieBreak ≠ .gt := by
  have ht := compareScores_trans (α := α) rotation n preference config.speculationProfiles tieBreak
  have : Std.Total fun l r : Score α =>
      compareScores l r rotation n preference config.speculationProfiles tieBreak ≠ .gt := by
    refine ⟨fun l r => ?_⟩
    rw [← not_and_or]
    rintro ⟨hl, hr⟩
    rw [ht.gt_iff_lt.1 hr] at hl
    cases hl
  have : IsTrans (Score α) fun l r =>
      compareScores l r rotation n preference config.speculationProfiles tieBreak ≠ .gt := by
    refine ⟨fun l m r hm ha => ?_⟩
    apply Ordering.isLE_iff_ne_gt.1
    exact ht.isLE_trans (Ordering.isLE_iff_ne_gt.2 hm) (Ordering.isLE_iff_ne_gt.2 ha)
  exact pairwise_insertionSort _ scores

theorem sortScores_perm : (sortScores config rotation preference tieBreak scores).Perm scores :=
  perm_insertionSort _ scores

theorem map_key_eq {l l' : List (Score α)} (hp : l.Perm l')
    (h : l.Pairwise fun a b => KeyBefore a.key b.key)
    (h' : l'.Pairwise fun a b => KeyBefore a.key b.key) : l.map Score.key = l'.map Score.key :=
  (hp.map _).eq_of_pairwise (fun _ _ _ _ ha hb => ha.antisymm hb) (pairwise_map.2 h)
    (pairwise_map.2 h')

end Router

theorem preferred_of_compareScores {l r : Score α}
    (h : compareScores l r rotation count preference profiles true ≠ .gt) (hk : l.key = r.key) :
    preferred preference profiles r ≤ preferred preference profiles l := by
  obtain ⟨hb, hw, ho⟩ : l.healthy = r.healthy ∧ l.weighted = r.weighted ∧
      l.overlap = r.overlap := by
    simpa [Score.key] using hk
  simp only [compareScores, hb, hw, ho, if_true, ne_eq, Ordering.then_eq_gt, compare_gt_iff_gt,
    compare_eq_iff_eq, not_or, not_and, not_lt] at h
  exact (((h.2 trivial).2 trivial).2 trivial).1

theorem speculationRouteOutcome_moved {mode : SpeculationRouteMode}
    (h : speculationRouteOutcome l mode profiles preference = .moved) :
    mode = .prefer ∧ ∃ base rest, l = base :: rest ∧ preferred preference profiles base = false ∧
      ∃ s ∈ l, s.healthy ∧ preferred preference profiles s ∧
        s.weighted = base.weighted ∧ s.overlap = base.overlap := by
  rcases l with _ | ⟨base, rest⟩
  · cases mode <;> cases preference <;> cases h
  simp only [speculationRouteOutcome, head?_cons] at h
  split at h
  · cases h
  · cases h
  next hn =>
    cases hn
  rename_i m _ _ _ _ _ hm _ hf
  cases hf
  split at h
  · cases h
  rename_i hb
  split at h
  · cases h
  split at h
  · cases h
  rename_i ht
  split at h
  · cases h
  rename_i ha
  simp only [Bool.not_eq_true', Bool.not_eq_false, any_eq_true, Bool.and_eq_true,
    decide_eq_true_eq] at ht
  obtain ⟨s, hs, ⟨⟨hh, hp⟩, hw⟩, ho⟩ := ht
  refine ⟨?_, base, rest, rfl, Bool.eq_false_of_not_eq_true hb, s, hs, hh, hp, hw, ho⟩
  cases m
  · exact absurd rfl hm
  · exact absurd rfl ha
  · rfl

theorem preferred_head {base winner s : Score α} {rest others : List (Score α)}
    (he : (base :: rest).Perm (winner :: others))
    (ha : (base :: rest).Pairwise fun l r => KeyBefore l.key r.key)
    (h : (winner :: others).Pairwise fun l r =>
      compareScores l r rotation count preference profiles true ≠ .gt)
    (hs : s ∈ base :: rest) (hh : s.healthy) (hp : preferred preference profiles s)
    (hw : s.weighted = base.weighted) (ho : s.overlap = base.overlap) :
    preferred preference profiles winner := by
  have hb : base.healthy := by
    have hl : s.healthy ≤ base.healthy := (KeyBefore.of_head ha hs).1
    rw [hh] at hl
    exact top_le_iff.1 hl
  have hk : s.key = base.key := by simp only [Score.key, hh, hb, hw, ho]
  have hm := he.mem_iff.1 hs
  have hc : winner.key = s.key := by
    apply (KeyBefore.of_head (h.imp key_of_compareScores) hm).antisymm
    rw [hk]
    exact KeyBefore.of_head ha (he.mem_iff.2 mem_cons_self)
  rcases mem_cons.1 hm with rfl | hm
  · exact hp
  have hl := preferred_of_compareScores ((pairwise_cons.1 h).1 s hm) hc
  rw [hp] at hl
  exact top_le_iff.1 hl

namespace Router
variable [NatCast α] [Sub α] [Mul α] {router : Router n} {bodyBytes loadFloor now : Nat}
  {fps : List UInt64} {outcome : SpeculationRouteOutcome} {horizon : AffinityHorizonOutcome}
  {config : RouterConfig α n} {scores : List (Score α)}

/-- The scores a call sorts. -/
def scored (config : RouterConfig α n) (router : Router n) (bodyBytes : Nat)
    (fingerprints : List UInt64) (loadFloor now : Nat) : List (Score α) :=
  router.score config (router.localities config fingerprints now) bodyBytes loadFloor
    (config.horizonMode = .enforce)

section
variable (h : router.routeScores config bodyBytes fps loadFloor preference rotation now = (scores,
  outcome, horizon))
include h

theorem routeScores_cases : scores.Perm (router.scored config bodyBytes fps loadFloor now) ∧
      speculationRouteOutcome (sortScores config rotation preference false
        (router.scored config bodyBytes fps loadFloor now)) config.speculationMode
        config.speculationProfiles preference = outcome ∧
      ∃ tieBreak, (outcome = .moved → tieBreak = true) ∧ scores.Pairwise fun l r =>
        compareScores l r rotation n preference config.speculationProfiles tieBreak ≠ .gt := by
  simp only [routeScores, Prod.mk.injEq] at h
  obtain ⟨rfl, rfl, -⟩ := h
  split
  · exact ⟨(sortScores_perm _ _).trans (sortScores_perm _ _), rfl, true, fun _ => rfl,
      pairwise_sortScores _ _⟩
  rename_i hn
  refine ⟨sortScores_perm _ _, rfl, false, fun hm => ?_, pairwise_sortScores _ _⟩
  exact absurd ⟨(speculationRouteOutcome_moved hm).1, hm⟩ hn

theorem routeScores_sorted : scores.Pairwise fun l r => KeyBefore l.key r.key := by
  obtain ⟨-, -, tieBreak, -, hs⟩ := routeScores_cases h
  exact hs.imp key_of_compareScores

end

/-- What a call answers is what it sorts. -/
theorem routeFingerprints_scores (config : RouterConfig α n) (router : Router n) (bodyBytes : Nat)
    (fps : List UInt64) (loadFloor : Nat) (preference : SpeculationPreference)
    (advanceRotation : Bool) (now : Nat) : ∃ winner others outcome horizon,
      (router.routeFingerprints config bodyBytes fps loadFloor preference advanceRotation now).1 =
        some (decisionFromScores winner others fps.length ((router.rr + 1).toNat % n), outcome,
          horizon) ∧
      router.routeScores config bodyBytes fps loadFloor preference ((router.rr + 1).toNat % n)
        now = (winner :: others, outcome, horizon) := by
  generalize hr : (router.rr + 1).toNat % n = rotation
  rcases ho : router.routeScores config bodyBytes fps loadFloor preference rotation
    now with ⟨scores, outcome, horizon⟩
  have hx := router.routeScores_perm config bodyBytes fps loadFloor preference rotation now
  have hn : scores ≠ [] := by
    rintro rfl
    have hl := hx.length_eq
    rw [ho, map_nil, length_nil, length_range] at hl
    exact absurd hl (Nat.ne_of_lt config.upstreams_pos)
  obtain ⟨winner, others, rfl⟩ := exists_cons_of_ne_nil hn
  refine ⟨winner, others, outcome, horizon, ?_, rfl⟩
  -- the scores do not read the rotation that the call may advance
  have ht : ∀ r : Router n, r.states = router.states → r.routeScores config bodyBytes
      fps loadFloor preference rotation now = (winner :: others, outcome, horizon) := by
    rintro ⟨states, rr⟩ rfl
    exact ho
  simp only [routeFingerprints, hr]
  rw [ht _ (by split <;> rfl)]

/-- Every upstream is a candidate, in the order of serving, score and overlap; the mode of
speculation moves only ties, and when it moves it puts a preferred upstream first where
none was. -/
theorem route_order (config : RouterConfig α n) (router : Router n) (bodyBytes : Nat)
    (fingerprints : List UInt64) (loadFloor : Nat) (preference : SpeculationPreference)
    (advanceRotation : Bool) (now : Nat) :
    ∃ decision outcome horizon, ∃ scores : List (Score α),
      (router.routeFingerprints config bodyBytes fingerprints loadFloor preference advanceRotation
        now).1 = some (decision, outcome, horizon) ∧
      decision.candidates = scores.map Score.index ∧
      scores.Perm (router.scored config bodyBytes fingerprints loadFloor now) ∧
      decision.candidates.Perm (range n) ∧
      scores.Pairwise (fun l r => KeyBefore l.key r.key) ∧
      (∀ mode, (router.routeScores { config with speculationMode := mode } bodyBytes fingerprints
        loadFloor preference ((router.rr + 1).toNat % n) now).1.map Score.key =
          scores.map Score.key) ∧
      (outcome = .moved → (∃ first ∈ scores.head?,
          preferred preference config.speculationProfiles first) ∧
        ∀ first ∈ (router.routeScores { config with speculationMode := .off } bodyBytes
          fingerprints loadFloor preference ((router.rr + 1).toNat % n) now).1.head?,
          preferred preference config.speculationProfiles first = false) := by
  obtain ⟨winner, others, outcome, horizon, hn, hr⟩ :=
    routeFingerprints_scores config router bodyBytes fingerprints loadFloor preference
      advanceRotation now
  generalize (router.rr + 1).toNat % n = rotation at hn hr ⊢
  obtain ⟨he, hu, tieBreak, htie, ha⟩ := routeScores_cases hr
  have hc := routeScores_sorted hr
  have hi := router.routeScores_perm config bodyBytes fingerprints loadFloor preference rotation
    now
  rw [hr] at hi
  refine ⟨decisionFromScores winner others fingerprints.length rotation, outcome, horizon,
    winner :: others, hn, rfl, he, hi, hc, ?_, ?_⟩
  · intro mode
    rcases hm : router.routeScores { config with speculationMode := mode } bodyBytes fingerprints
      loadFloor preference rotation now with ⟨scores', outcome', horizon'⟩
    exact map_key_eq ((routeScores_cases hm).1.trans he.symm) (routeScores_sorted hm) hc
  · intro hv
    obtain ⟨-, base, rest, hb, hd, s, hs, hh, hp, hw, ho⟩ :=
      speculationRouteOutcome_moved (hu.trans hv)
    have ht : (base :: rest).Pairwise fun l r => KeyBefore l.key r.key := by
      rw [← hb]
      exact (pairwise_sortScores config _).imp key_of_compareScores
    refine ⟨⟨winner, rfl, ?_⟩, ?_⟩
    · rw [hb] at hs
      rw [htie hv] at ha
      refine preferred_head (.trans ?_ he.symm) ht ha hs hh hp hw ho
      rw [← hb]
      exact sortScores_perm config _
    · rw [show (router.routeScores { config with speculationMode := .off } bodyBytes fingerprints
        loadFloor preference rotation now).1 = base :: rest from hb]
      rintro first ⟨⟩
      exact hd

end Router
end Comparator

section Peers
variable {n : Nat} {states : List UpstreamState} {overlaps groups : List Nat} {i j : Nat}

/-- One step of the pass over the fleet. -/
def peerStep (groups : List Nat) (perGroup : Nat → Option PeerOverlap)
    (entry : (UpstreamState × Nat) × Nat) : Nat → Option PeerOverlap :=
  if entry.1.1.serving then
    let known := match perGroup (groups.getD entry.2 0) with
      | none => ⟨entry.1.2, entry.1.2⟩
      | some known => ⟨min known.floor entry.1.2, max known.lead entry.1.2⟩
    update perGroup (groups.getD entry.2 0) (some known)
  else perGroup

/-- What the members of a group measure themselves by. -/
def groupOverlap (states : List UpstreamState) (overlaps groups : List Nat) (g : Nat) :
    PeerOverlap :=
  ((states.zip overlaps).zipIdx.foldl (peerStep groups) (fun _ => none) g).getD ⟨0, 0⟩

theorem peerOverlaps_getD (hi : i < states.length) :
    (peerOverlaps states overlaps groups).getD i ⟨0, 0⟩ =
      groupOverlap states overlaps groups (groups.getD i 0) := by
  simp only [peerOverlaps, getD_eq_getElem?_getD, getElem?_map, getElem?_range hi]
  rfl

/-- The overlaps of the serving entries of a group. -/
def overlapsOf (groups : List Nat) (entries : List ((UpstreamState × Nat) × Nat)) (g : Nat) :
    Set Nat :=
  {o | ∃ entry ∈ entries, entry.1.1.serving ∧ groups.getD entry.2 0 = g ∧ entry.1.2 = o}

/-- A group that is known has the greatest of them for its lead. -/
def Leads (groups : List Nat) (entries : List ((UpstreamState × Nat) × Nat))
    (perGroup : Nat → Option PeerOverlap) : Prop :=
  ∀ g, (perGroup g = none → overlapsOf groups entries g = ∅) ∧
    ∀ known, perGroup g = some known → IsGreatest (overlapsOf groups entries g) known.lead

theorem overlapsOf_snoc (entries : List ((UpstreamState × Nat) × Nat))
    (entry : (UpstreamState × Nat) × Nat) (g : Nat) : overlapsOf groups (entries ++ [entry]) g =
      if entry.1.1.serving ∧ groups.getD entry.2 0 = g then
        insert entry.1.2 (overlapsOf groups entries g) else overlapsOf groups entries g := by
  ext o
  simp only [overlapsOf, mem_append, mem_singleton]
  split
  next h =>
    rw [Set.mem_insert_iff]
    grind
  · grind

theorem Leads.step {entries : List ((UpstreamState × Nat) × Nat)}
    {perGroup : Nat → Option PeerOverlap} (h : Leads groups entries perGroup)
    (entry : (UpstreamState × Nat) × Nat) :
    Leads groups (entries ++ [entry]) (peerStep groups perGroup entry) := by
  intro g
  rw [overlapsOf_snoc, peerStep]
  by_cases hs : entry.1.1.serving
  · by_cases hg : groups.getD entry.2 0 = g
    · subst hg
      rw [if_pos hs, if_pos ⟨hs, rfl⟩, update_self]
      refine ⟨nofun, fun known hk => ?_⟩
      cases hk
      cases hp : perGroup (groups.getD entry.2 0) with
      | none =>
        rw [(h _).1 hp]
        exact (insert_empty_eq (β := Set Nat) entry.1.2).symm ▸ isGreatest_singleton
      | some known =>
        show IsGreatest _ (max known.lead entry.1.2)
        rw [max_comm]
        exact ((h _).2 known hp).insert _
    · rw [if_pos hs, if_neg fun hn => hg hn.2, update_of_ne (Ne.symm hg)]
      exact h g
  · rw [if_neg hs, if_neg fun hn => hs hn.1]
    exact h g

theorem Leads.foldl {entries : List ((UpstreamState × Nat) × Nat)}
    {perGroup : Nat → Option PeerOverlap} (h : Leads groups entries perGroup)
    (rest : List ((UpstreamState × Nat) × Nat)) :
    Leads groups (entries ++ rest) (rest.foldl (peerStep groups) perGroup) := by
  induction rest generalizing entries perGroup with
  | nil =>
    rw [append_nil]
    exact h
  | cons entry rest ih =>
    rw [append_cons]
    exact ih (h.step entry)

/-- What the serving upstreams of a group hold of the request. -/
def servingOverlaps (states : List UpstreamState) (overlaps groups : List Nat) (g : Nat) :
    Set Nat :=
  {o | ∃ i state, states[i]? = some state ∧ state.serving ∧ overlaps[i]? = some o ∧
    groups.getD i 0 = g}

/-- The lead of a group is that of one of its serving upstreams. -/
theorem isGreatest_lead {g : Nat} (hne : (servingOverlaps states overlaps groups g).Nonempty) :
    IsGreatest (servingOverlaps states overlaps groups g)
      (groupOverlap states overlaps groups g).lead := by
  have hl : Leads groups [] fun _ => none :=
    fun g => ⟨fun _ => by simp [overlapsOf], nofun⟩
  have hg := hl.foldl (states.zip overlaps).zipIdx g
  have he : overlapsOf groups (states.zip overlaps).zipIdx g =
      servingOverlaps states overlaps groups g := by
    ext o
    simp only [overlapsOf, servingOverlaps, Set.mem_ofPred_eq]
    constructor
    · rintro ⟨⟨⟨state, o⟩, i⟩, hm, hs, hg, rfl⟩
      rw [mem_zipIdx_iff_getElem?, getElem?_zip_eq_some] at hm
      exact ⟨i, state, hm.1, hs, hm.2, hg⟩
    · rintro ⟨i, state, ht, hs, ho, hg⟩
      refine ⟨((state, o), i), ?_, hs, hg, rfl⟩
      rw [mem_zipIdx_iff_getElem?, getElem?_zip_eq_some]
      exact ⟨ht, ho⟩
  rw [nil_append, he] at hg
  unfold groupOverlap
  cases hp : (states.zip overlaps).zipIdx.foldl (peerStep groups) (fun _ => none) g with
  | none => exact absurd (hg.1 hp) hne.ne_empty
  | some known => exact hg.2 known hp

/-- Two peers are credited as far apart as they are, up to the cap, exactly if they are level,
nothing is credited at all, the better one leads, or the lesser one trails every serving peer
by no more than the cap. -/
theorem relative_credit {cap a b : Nat} {state : UpstreamState} (hi : states[i]? = some state)
    (hj : j < states.length) (ha : overlaps[i]? = some a) (hs : state.serving)
    (hg : groups.getD i 0 = groups.getD j 0) (hab : b ≤ a) :
    creditedAffinity .relative a ((peerOverlaps states overlaps groups).getD i ⟨0, 0⟩) cap =
        creditedAffinity .relative b ((peerOverlaps states overlaps groups).getD j ⟨0, 0⟩) cap +
          min (a - b) cap ↔
      a = b ∨ cap = 0 ∨ IsGreatest (servingOverlaps states overlaps groups (groups.getD i 0)) a ∨
        ∀ o ∈ servingOverlaps states overlaps groups (groups.getD i 0), o - b ≤ cap := by
  have hm : a ∈ servingOverlaps states overlaps groups (groups.getD i 0) :=
    ⟨i, state, hi, hs, ha, rfl⟩
  have hl := isGreatest_lead ⟨a, hm⟩
  rw [peerOverlaps_getD (List.getElem?_eq_some_iff.1 hi).1, peerOverlaps_getD hj, ← hg]
  generalize groupOverlap states overlaps groups (groups.getD i 0) = peers at hl ⊢
  have hle : IsGreatest (servingOverlaps states overlaps groups (groups.getD i 0)) a ↔
      a = peers.lead := ⟨fun h => h.unique hl, fun h => h ▸ hl⟩
  have ht : (∀ o ∈ servingOverlaps states overlaps groups (groups.getD i 0), o - b ≤ cap) ↔
      peers.lead - b ≤ cap :=
    ⟨fun h => h _ hl.1, fun h o ho => (Nat.sub_le_sub_right (hl.2 ho) b).trans h⟩
  have hb := hl.2 hm
  rw [hle, ht]
  simp only [creditedAffinity]
  omega

/-- A leader and two peers that both trail it by more than the cap. -/
def trailing : List UpstreamState :=
  replicate 3 ⟨⟨1, []⟩, fun _ => none, 0, 0, true, false⟩

theorem relative_credit_leads : creditedAffinity .relative 10
      ((peerOverlaps trailing [10, 5, 0] []).getD 0 ⟨0, 0⟩) 2 =
    creditedAffinity .relative 0 ((peerOverlaps trailing [10, 5, 0] []).getD 2 ⟨0, 0⟩) 2 +
      min (10 - 0) 2 := by
  refine (relative_credit rfl (by decide) rfl rfl rfl (by decide)).2 (.inr (.inr (.inl ?_)))
  refine ⟨⟨0, _, rfl, rfl, rfl, rfl⟩, fun o ⟨_, _, _, _, ho, _⟩ => ?_⟩
  have hb : ∀ o ∈ [10, 5, 0], o ≤ 10 := by decide
  exact hb o (mem_of_getElem? ho)

/-- Both are credited nothing, though the one is five blocks ahead of the other. -/
theorem relative_credit_level : creditedAffinity .relative 5
      ((peerOverlaps trailing [10, 5, 0] []).getD 1 ⟨0, 0⟩) 2 = 0 ∧
    creditedAffinity .relative 0 ((peerOverlaps trailing [10, 5, 0] []).getD 2 ⟨0, 0⟩) 2 = 0 ∧
    min (5 - 0) 2 = 2 := by
  decide

end Peers

section EqualLoads
variable {overlap overlap' : Nat}

theorem creditedAffinity_mono (basis : AffinityBasis) (peers : PeerOverlap) (cap : Nat)
    (h : overlap ≤ overlap') :
    creditedAffinity basis overlap peers cap ≤ creditedAffinity basis overlap' peers cap := by
  cases basis <;> simp only [creditedAffinity] <;> omega

theorem RequestLoadEstimator.estimateBlocks_anti (estimator : RequestLoadEstimator)
    (bodyBytes : Nat) (h : overlap ≤ overlap') :
    estimator.estimateBlocks bodyBytes overlap' ≤ estimator.estimateBlocks bodyBytes overlap := by
  have hm := Nat.mul_le_mul_right estimator.chunkBytes h
  have hd : (bodyBytes - overlap' * estimator.chunkBytes + estimator.loadUnitBytes - 1) /
      estimator.loadUnitBytes ≤ (bodyBytes - overlap * estimator.chunkBytes +
        estimator.loadUnitBytes - 1) / estimator.loadUnitBytes :=
    Nat.div_le_div_right (by omega)
  simp only [estimateBlocks, estimateReusableBytes]
  omega

variable {α : Type} [CommRing α] {n : Nat} (config : RouterConfig α n) (router : Router n)
  (bodyBytes loadFloor : Nat)

namespace Router

def additionalLoad (overlap : Nat) : Nat :=
  if config.projectedLoad then
    max (config.estimator.estimateBlocks bodyBytes overlap)
      (min (max loadFloor 1) config.estimator.maxLoadUnits) - 1
  else 0

/-- A score is a function of group, overlap and load. -/
theorem weighted_score (localities : List Locality) (fresh : Bool) :
    ∃ peers : Nat → PeerOverlap, ∀ s ∈ router.score config localities bodyBytes loadFloor fresh,
      s.weighted = (creditedAffinity config.affinityBasis s.overlap
          (peers (config.affinityGroups.getD s.index 0)) config.maxOverlapBlocks : α) -
        config.alpha * ((s.load +
          additionalLoad config bodyBytes loadFloor s.overlap : Nat) : α) := by
  refine ⟨fun g => if config.affinityBasis = .absolute then ⟨0, 0⟩
    else groupOverlap (ofFn router.states) (localities.map fun l =>
        if fresh then l.freshOverlap else l.rawOverlap) config.affinityGroups g, ?_⟩
  intro s hs
  obtain ⟨i, hi, rfl⟩ := mem_mapIdx.1 hs
  cases config.affinityBasis with
  | absolute => rfl
  | marginal => simp only [peerOverlaps_getD hi]; rfl
  | relative => simp only [peerOverlaps_getD hi]; rfl

variable [LinearOrder α] [IsStrictOrderedRing α]

/-- Two serving upstreams of one group with equal loads are tried the warmer one first. -/
theorem warmer_first (fingerprints : List UInt64) (preference : SpeculationPreference)
    (advanceRotation : Bool) (now : Nat) (hα : 0 ≤ config.alpha) :
    ∃ decision outcome horizon, ∃ scores : List (Score α),
      (router.routeFingerprints config bodyBytes fingerprints loadFloor preference advanceRotation
        now).1 = some (decision, outcome, horizon) ∧
      decision.candidates = scores.map Score.index ∧
      scores.Perm (router.scored config bodyBytes fingerprints loadFloor now) ∧
      scores.Pairwise fun l r => l.healthy → r.healthy →
        config.affinityGroups.getD l.index 0 = config.affinityGroups.getD r.index 0 →
        l.load = r.load → r.overlap ≤ l.overlap := by
  obtain ⟨winner, others, outcome, horizon, hn, ho⟩ :=
    routeFingerprints_scores config router bodyBytes fingerprints loadFloor preference
      advanceRotation now
  obtain ⟨hp, -⟩ := routeScores_cases ho
  refine ⟨_, outcome, horizon, winner :: others, hn, rfl, hp, ?_⟩
  obtain ⟨peers, hw⟩ := weighted_score config router bodyBytes loadFloor
    (router.localities config fingerprints now) (config.horizonMode = .enforce)
  refine (routeScores_sorted ho).imp_of_mem fun {l r} hl hr hk hh hc hg ha => ?_
  by_contra ht
  have hb : l.overlap ≤ r.overlap := by omega
  have hd : additionalLoad config bodyBytes loadFloor r.overlap ≤
      additionalLoad config bodyBytes loadFloor l.overlap := by
    have := config.estimator.estimateBlocks_anti bodyBytes hb
    unfold additionalLoad
    split <;> omega
  have he : l.weighted ≤ r.weighted := by
    rw [hw l (hp.mem_iff.1 hl), hw r (hp.mem_iff.1 hr), hg, ha]
    apply sub_le_sub
    · exact Nat.cast_le.2 (creditedAffinity_mono _ _ _ hb)
    · apply mul_le_mul_of_nonneg_left _ hα
      exact Nat.cast_le.2 (Nat.add_le_add_left hd _)
  -- the scores are then equal, and the overlap decides
  obtain ⟨hf, htie⟩ := hk.2 (hh.trans hc.symm)
  exact ht (htie (le_antisymm he hf))

/-- The second upstream has served the block. -/
def warm : Router 2 :=
  ⟨fun u => ⟨⟨1, if u = 1 then [(7, 0)] else []⟩, fun _ => none, 0, 0, true, false⟩, 0⟩

def warmConfig : RouterConfig ℤ 2 :=
  ⟨1, 1, ⟨1, 1, 1⟩, true, .off, [.standard, .standard], .byPrefix, .off, .relative, [],
    Nat.two_pos, rfl, .inl rfl⟩

theorem warmer_first_served : ∃ warmer colder : Score ℤ,
    (warm.routeFingerprints warmConfig 1 [7] 1 .neutral true 0).1.map (·.1.candidates) =
      some [warmer.index, colder.index] ∧
    warmer.index = 1 ∧ warmer.overlap = 1 ∧ warmer.load = colder.load ∧
    colder.overlap ≤ warmer.overlap := by
  obtain ⟨decision, outcome, horizon, scores, ha, hc, hp, hw⟩ :=
    warmer_first warmConfig warm 1 1 [7] .neutral true 0 (by decide)
  have hd : (warm.routeFingerprints warmConfig 1 [7] 1 .neutral true 0).1.map (·.1.candidates) =
      some [1, 0] := by decide +kernel
  have hs : ∀ s ∈ warm.scored warmConfig 1 [7] 1 0, s.healthy ∧ s.load = 0 ∧
      (s.index = 1 → s.overlap = 1) := by decide +kernel
  have hl := hd
  rw [ha] at hl
  obtain ⟨l, r, rfl⟩ := length_eq_two.1 ((length_map _).symm.trans
    (congrArg length (hc.symm.trans (Option.some.inj hl))))
  rw [Option.map_some, hc] at hl
  simp only [map_cons, map_nil, Option.some.injEq, cons.injEq, and_true] at hl
  obtain ⟨hi, hj⟩ := hl
  obtain ⟨hlh, hll, hlo⟩ := hs l (hp.mem_iff.1 mem_cons_self)
  obtain ⟨hrh, hrl, -⟩ := hs r (hp.mem_iff.1 (mem_cons_of_mem _ mem_cons_self))
  refine ⟨l, r, by rw [hd, hi, hj], hi, hlo hi, hll.trans hrl.symm, ?_⟩
  exact (pairwise_cons.1 hw).1 r mem_cons_self hlh hrh (by rw [hi, hj]; rfl) (hll.trans hrl.symm)

end Router
end EqualLoads

namespace Router
section Promotion
variable {α : Type} [LinearOrder α] [NatCast α] [Sub α] [Mul α] {n : Nat}
  {config : RouterConfig α n} {router : Router n} {bodyBytes loadFloor now : Nat}
  {fingerprints : List UInt64} {preference : SpeculationPreference} {advanceRotation : Bool}
  {routed d : Decision} {outcome : SpeculationRouteOutcome} {horizon : AffinityHorizonOutcome}
  {eligible : List Bool}

theorem restricted_wf (hr : (router.routeFingerprints config bodyBytes fingerprints loadFloor
      preference advanceRotation now).1 = some (routed, outcome, horizon))
    (he : routed.restrictTo eligible = (true, d)) : d.Wf n := by
  obtain ⟨_, _, _, ho, hw⟩ := router.routeFingerprints_wf config bodyBytes fingerprints loadFloor
    preference advanceRotation now
  cases hr.symm.trans ho
  rcases Decision.restrictTo_cases hw eligible with ⟨hf, -⟩ | ⟨d', hd, hw', -⟩
  · rw [he] at hf
    cases hf
  · cases he.symm.trans hd
    exact hw'

/-- Promotion keeps the order of the rest for the first two candidates, and for no other. -/
theorem promotion_order (hroute : (router.routeFingerprints config bodyBytes fingerprints loadFloor
      preference advanceRotation now).1 = some (routed, outcome, horizon))
    (hrestrict : routed.restrictTo eligible = (true, d)) {upstream : Nat}
    (hpromote : (d.promote upstream).1) :
    (Decision.Promotes d (d.promote upstream).2 upstream ↔ upstream ∈ d.candidates.take 2) ∧
      (Decision.Promotes d (d.preferUpstream upstream).2 upstream ↔
        upstream ∈ d.candidates.take 2) := by
  have h := restricted_wf hroute hrestrict
  have hprefer : d.preferUpstream upstream =
      (true, { (d.promote upstream).2 with outcome := .stateAffinity }) := by
    rcases hm : d.promote upstream with ⟨moves, moved⟩
    rw [hm] at hpromote
    cases hpromote
    rw [Decision.preferUpstream, hm]
  rw [hprefer]
  exact ⟨Decision.promotes_iff h hpromote, Decision.promotes_iff h hpromote⟩

end Promotion

def level : Router 3 := ⟨fun _ => ⟨⟨1, []⟩, fun _ => none, 0, 0, true, false⟩, 0⟩

def levelConfig : RouterConfig ℤ 3 :=
  ⟨1, 1, ⟨1, 1, 1⟩, true, .off, replicate 3 .standard, .byPrefix, .off, .relative, [],
    Nat.succ_pos 2, rfl, .inl rfl⟩

def levelRouted : Decision × SpeculationRouteOutcome × AffinityHorizonOutcome :=
  (level.routeFingerprints levelConfig 1 [7] 1 .neutral true 0).1.get (by decide +kernel)

def levelDecision : Decision := (levelRouted.1.restrictTo [true, true, true]).2

theorem level_routed : (level.routeFingerprints levelConfig 1 [7] 1 .neutral true 0).1 =
    some (levelRouted.1, levelRouted.2.1, levelRouted.2.2) :=
  (Option.some_get (by decide +kernel)).symm

theorem level_restricted : levelRouted.1.restrictTo [true, true, true] = (true, levelDecision) :=
  Prod.ext (by decide +kernel) rfl

theorem promotion_order_level : (levelDecision.promote 0).1 ∧
    Decision.Promotes levelDecision (levelDecision.promote 0).2 0 := by
  have hp : (levelDecision.promote 0).1 := by decide +kernel
  exact ⟨hp, (promotion_order level_routed level_restricted hp).1.2 (by decide +kernel)⟩

/-- The first of three is put behind the second when the third is promoted. -/
theorem promotion_reorders_level : (levelDecision.promote 1).1 ∧
    levelDecision.candidates = [2, 0, 1] ∧ (levelDecision.promote 1).2.candidates = [1, 0, 2] := by
  decide +kernel

end Router
end Ramjet
