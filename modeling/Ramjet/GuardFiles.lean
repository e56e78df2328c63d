import Ramjet.GuardStore

/-!
# What publications leave on disk

The files that may be on the store's path after a crash, and what each operation of the
store does to them.
-/

namespace Ramjet
open Function

section Files
variable {n : Nat} (file : StateFile)

def StateFile.Unrecorded (u : Fin n) : Prop :=
  ∃ records : QuarantineRecords n, file.contents = .text (encodeDocument records true) true ∧
    records u = none

def StateFile.Records (u : Fin n) (commitment : Bytes 32) : Prop :=
  ∃ (records : QuarantineRecords n) (dirty : Bool),
    file.contents = .text (encodeDocument records dirty) true ∧
      (records u).map (·.engineCoreSha256) = some commitment

def StateFile.Fences (u : Fin n) (commitment : Bytes 32) : Prop :=
  file.Unrecorded u ∨ file.Records u commitment

/-- A document of this upstream is in the file, whatever it says. -/
def StateFile.mentions (u : Fin n) : Bool :=
  match file.contents with
  | .malformed => false
  | .text document _ => document.quarantines.any (·.replica = u)

theorem StateFile.Records.mentions {file : StateFile} {u : Fin n} {commitment : Bytes 32}
    (h : file.Records u commitment) : file.mentions u := by
  obtain ⟨records, dirty, hc, hre⟩ := h
  obtain ⟨record, hs, -⟩ := Option.map_eq_some_iff.1 hre
  simp only [StateFile.mentions, hc, List.any_eq_true, decide_eq_true_eq]
  exact ⟨record.wire u, mem_quarantines.2 ⟨u, record, hs, rfl⟩, rfl⟩

theorem StateFile.Fences.unrecorded {file : StateFile} {u : Fin n} {commitment : Bytes 32}
    (h : file.Fences u commitment) (hn : file.mentions u = false) : file.Unrecorded u := by
  rcases h with h | h
  · exact h
  · rw [h.mentions] at hn
    cases hn

end Files

section Store
variable {n : Nat} {store : GuardStore n} {io : Publication}

theorem Disk.mem_rename {disk : Disk} {file f : StateFile} {synced : Bool}
    (h : f ∈ (disk.rename file synced).survivors) :
    f = file ∨ synced = false ∧ f ∈ disk.survivors := by
  cases synced
  · simp only [Disk.rename, Bool.false_eq_true, if_false, List.mem_cons] at h
    rcases h with h | h
    · exact .inl h
    · exact .inr ⟨rfl, h⟩
  · simp only [Disk.rename, if_true, List.mem_singleton] at h
    exact .inl h

structure FileReplaced (records : QuarantineRecords n) (dirty : Bool) (store store' : GuardStore n)
    (committed : Prop) : Prop where
  records_eq : store'.state.records = store.state.records
  uncertain_eq : store'.state.uncertainReplicas = store.state.uncertainReplicas
  poisoned_eq : store'.state.poisonedReplicas = store.state.poisonedReplicas
  current : store.disk.current ∈ store.disk.survivors → store'.disk.current ∈ store'.disk.survivors
  survivors : ∀ f ∈ store'.disk.survivors,
    f ∈ store.disk.survivors ∨ f.contents = .text (encodeDocument records dirty) true
  committed : committed → ∀ f ∈ store'.disk.survivors,
    f.contents = .text (encodeDocument records dirty) true

theorem GuardStore.publishReplacement_spec (store : GuardStore n) (records : QuarantineRecords n)
    (dirty : Bool) (io : Publication) :
    FileReplaced records dirty store (store.publishReplacement records dirty io).1
      ((store.publishReplacement records dirty io).2 = .ok ()) := by
  have hs : ∀ {error : DsparkGuardStoreError},
      FileReplaced records dirty store store ((.error error : Except _ Unit) = .ok ()) :=
    ⟨rfl, rfl, rfl, id, fun _ h => .inl h, nofun⟩
  unfold publishReplacement
  dsimp only
  split
  · exact hs
  split
  · exact hs
  split
  · exact hs
  rename_i identity synced inspected
  have hc : ∀ file : StateFile, file ∈ (store.disk.rename file synced).survivors := by
    intro file
    cases synced <;> simp [Disk.rename]
  have hm : ∀ f ∈ (store.disk.rename ⟨.text (encodeDocument records dirty) true, identity⟩
      synced).survivors,
      f ∈ store.disk.survivors ∨ f.contents = .text (encodeDocument records dirty) true := by
    intro f hf
    rcases Disk.mem_rename hf with rfl | ⟨-, hf⟩
    · exact .inr rfl
    · exact .inl hf
  split
  · exact ⟨rfl, rfl, rfl, fun _ => hc _, hm, nofun⟩
  refine ⟨rfl, rfl, rfl, fun _ => hc _, hm, ?_⟩
  intro ho f hf
  cases synced
  · cases ho
  rcases Disk.mem_rename hf with rfl | ⟨h, -⟩
  · rfl
  · cases h

/-- A change of the store that is about one upstream. -/
structure Touches (u : Fin n) (store store' : GuardStore n) : Prop where
  records : ∀ v ≠ u, store'.state.records v = store.state.records v
  uncertain : ∀ v ≠ u, store'.state.uncertainReplicas v = store.state.uncertainReplicas v
  poisoned : ∀ v ≠ u, store'.state.poisonedReplicas v = store.state.poisonedReplicas v
  current : store.disk.current ∈ store.disk.survivors → store'.disk.current ∈ store'.disk.survivors
  survivors : ∀ f ∈ store'.disk.survivors, f ∈ store.disk.survivors ∨
    ∃ records : QuarantineRecords n, f.contents = .text (encodeDocument records true) true ∧
      ∀ v ≠ u, records v = store.state.records v

theorem Touches.refl (u : Fin n) (store : GuardStore n) : Touches u store store :=
  ⟨fun _ _ => rfl, fun _ _ => rfl, fun _ _ => rfl, id, fun _ h => .inl h⟩

variable {u : Fin n} {store store' : GuardStore n}

theorem Touches.trans {store'' : GuardStore n} (h : Touches u store store')
    (h' : Touches u store' store'') : Touches u store store'' where
  records v hv := (h'.records v hv).trans (h.records v hv)
  uncertain v hv := (h'.uncertain v hv).trans (h.uncertain v hv)
  poisoned v hv := (h'.poisoned v hv).trans (h.poisoned v hv)
  current hm := h'.current (h.current hm)
  survivors f hf := by
    rcases h'.survivors f hf with hf | ⟨records, hc, hs⟩
    · exact h.survivors f hf
    · exact .inr ⟨records, hc, fun v hv => (hs v hv).trans (h.records v hv)⟩

theorem Touches.poison (h : Touches u store store') (mark : Bool) :
    Touches u store (store'.poison u mark) where
  records := h.records
  uncertain := h.uncertain
  poisoned v hv := by
    rw [← h.poisoned v hv]
    exact update_of_ne hv _ _
  current := h.current
  survivors := h.survivors

variable {entry : Option QuarantineRecord}

theorem FileReplaced.touches {committed : Prop}
    (h : FileReplaced (update store.state.records u entry) true store store' committed) :
    Touches u store store' where
  records v _ := by rw [h.records_eq]
  uncertain v _ := by rw [h.uncertain_eq]
  poisoned v _ := by rw [h.poisoned_eq]
  current := h.current
  survivors f hf := by
    rcases h.survivors f hf with hf | hf
    · exact .inl hf
    · exact .inr ⟨_, hf, fun v hv => update_of_ne hv _ _⟩

theorem Touches.setRecords (h : Touches u store store') :
    Touches u store (store'.setRecords (update store.state.records u entry)) where
  records _ hv := update_of_ne hv _ _
  uncertain := h.uncertain
  poisoned := h.poisoned
  current := h.current
  survivors := h.survivors

variable {upstreams : Fin n → Bytes 32} {u : Fin n} {commitment : Bytes 32}
  {result : Except DsparkGuardStoreError StoreMutation}

theorem GuardStore.persistQuarantine_spec (hn : store.state.records u = none)
    (h : store.persistQuarantine upstreams u commitment io = (store', result)) :
    Touches u store store' ∧ store'.state.uncertainReplicas u = store.state.uncertainReplicas u ∧
      (result.toBool → store'.state.records u = some ⟨upstreams u, commitment⟩ ∧
        ∀ f ∈ store'.disk.survivors, f.Records u commitment) ∧ (result.toBool = false →
        store'.state.records u = none ∧ store'.state.poisonedReplicas u ∧
          ∀ f ∈ store'.disk.survivors, f ∈ store.disk.survivors ∨ f.Records u commitment) := by
  unfold persistQuarantine at h
  simp only [hn] at h
  have hre : ∀ f : StateFile, f.contents = .text (encodeDocument (update
      store.state.records u (some ⟨upstreams u, commitment⟩)) true) true → f.Records u commitment :=
    fun f hf => ⟨_, true, hf, by rw [update_self]; rfl⟩
  split at h
  · cases h
    exact ⟨(Touches.refl u store).poison true, rfl, nofun,
      fun _ => ⟨hn, update_self _ _ _, fun f hf => .inl hf⟩⟩
  have hb := store.publishReplacement_spec
    (update store.state.records u (some ⟨upstreams u, commitment⟩)) true io
  generalize store.publishReplacement _ true io = published at h hb
  obtain ⟨after, outcome⟩ := published
  have ht := hb.touches
  rcases outcome with error | ⟨⟩
  · cases h
    refine ⟨ht.poison true, congrFun hb.uncertain_eq u, nofun,
      fun _ => ⟨?_, update_self _ _ _, ?_⟩⟩
    · exact (congrFun hb.records_eq u).trans hn
    · exact fun f hf => (hb.survivors f hf).imp_right (hre f)
  · cases h
    refine ⟨ht.setRecords.poison false, congrFun hb.uncertain_eq u,
      fun _ => ⟨update_self _ _ _, ?_⟩, nofun⟩
    exact fun f hf => hre f (hb.committed rfl f hf)

theorem GuardStore.persistUncertainFence_spec (hn : store.state.records u = none)
    (h : store.persistUncertainFence upstreams u commitment io = (store', result)) :
    Touches u store store' ∧
      (result.toBool → store'.state.records u = some ⟨upstreams u, commitment⟩ ∧
        ∀ f ∈ store'.disk.survivors, f.Records u commitment) ∧
      (result.toBool = false → store'.state.records u = none ∧
        store'.state.uncertainReplicas u = store.state.uncertainReplicas u ∧
          ∀ f ∈ store'.disk.survivors, f ∈ store.disk.survivors ∨ f.Records u commitment) := by
  unfold persistUncertainFence at h
  generalize hp : store.persistQuarantine upstreams u commitment io = persisted at h
  obtain ⟨after, outcome⟩ := persisted
  obtain ⟨ht, hu, ho, he⟩ := persistQuarantine_spec hn hp
  rcases outcome with error | mutation
  · cases h
    obtain ⟨hr, -, hfls⟩ := he rfl
    exact ⟨ht, nofun, fun _ => ⟨hr, hu, hfls⟩⟩
  cases h
  refine ⟨⟨ht.records, ?_, ht.poisoned, ht.current, ht.survivors⟩,
    fun _ => ho rfl, nofun⟩
  intro v hv
  rw [← ht.uncertain v hv]
  exact update_of_ne hv _ _

theorem GuardStore.persistRearm_spec {record : QuarantineRecord}
    (hre : store.state.records u = some record)
    (hup : record.upstreamSha256 = upstreams u) (hn : record.engineCoreSha256 ≠ commitment)
    (h : store.persistRearm upstreams u record.engineCoreSha256 commitment io = (store', result)) :
    Touches u store store' ∧ (result.toBool →
        store'.state.records u = none ∧ ∀ f ∈ store'.disk.survivors, f.Unrecorded u) ∧
      (result.toBool = false → store'.state.records u = some record) := by
  unfold persistRearm at h
  simp only [hn, if_false, hre, hup, ne_eq, not_true_eq_false, or_self] at h
  have hb := store.publishReplacement_spec (update store.state.records u none) true io
  generalize store.publishReplacement _ true io = published at h hb
  obtain ⟨after, outcome⟩ := published
  have ht := hb.touches
  rcases outcome with error | ⟨⟩
  · cases h
    exact ⟨ht.poison true, nofun, fun _ => (congrFun hb.records_eq u).trans hre⟩
  cases h
  refine ⟨ht.setRecords.poison false, fun _ => ⟨update_self _ _ _, ?_⟩, nofun⟩
  exact fun f hf => ⟨_, hb.committed rfl f hf, update_self _ _ _⟩

end Store
end Ramjet
