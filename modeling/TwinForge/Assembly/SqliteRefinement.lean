import TwinForge.Assembly.EvidenceRetention
import TwinForge.Assembly.SqlitePromotionRepository

/-! # The database refines the repository in memory

Whatever batches are applied and however often the database is opened anew, its calls
return and raise what those of the repository in memory return and raise.
-/

namespace TwinForge.Assembly

open Discovery Guards Scans List

/-! ## Repositories that answer alike -/

/-- Repositories whose mappings answer alike, in whatever order they were filled. -/
structure Alike (first second : InMemoryPromotionRepository) : Prop where
  plant : first.plant = second.plant
  assets : ∀ assetId, first.byAssetId.get? assetId = second.byAssetId.get? assetId
  identities : ∀ key,
    first.assetIdByIdentity.get? key = second.assetIdByIdentity.get? key

section

variable {first second : InMemoryPromotionRepository}

theorem Alike.plan (h : Alike first second) : first.plan = second.plan := by
  funext planning record
  simp only [InMemoryPromotionRepository.plan, InMemoryPromotionRepository.validateIdentity,
    InMemoryPromotionRepository.planEntry, InMemoryPromotionRepository.validateNewAssetId,
    h.plant, h.assets, h.identities]

theorem Alike.store (h : Alike first second) (entry : PlannedRecord) :
    Alike (first.store entry) (second.store entry) := by
  have ⟨record, status⟩ := entry
  cases status with
  | unchanged => exact h
  | created | updated =>
    constructor
    · simp [InMemoryPromotionRepository.store, h.plant]
    · simp [InMemoryPromotionRepository.store, h.assets]
    · simp [InMemoryPromotionRepository.store, h.identities]

theorem Alike.apply (h : Alike first second) (batch : CorePromotionResult) :
    (first.apply batch).2 = (second.apply batch).2 ∧
      Alike (first.apply batch).1 (second.apply batch).1 := by
  unfold InMemoryPromotionRepository.apply
  rw [h.plan]
  cases batch.records.foldlM second.plan {} with
  | error error => exact ⟨rfl, h⟩
  | ok planning =>
    refine ⟨rfl, ?_⟩
    show Alike (planning.planned.foldl .store first) (planning.planned.foldl .store second)
    induction planning.planned generalizing first second with
    | nil => exact h
    | cons entry planned ih => exact ih (h.store entry)

end

/-! ## Rows of a repository -/

def rowOf (record : CorePromotionRecord) : PromotionRow :=
  ⟨record.durableIdentityKey, recordDocument record⟩

/-- A table that holds a row of every record, and no other. -/
structure Stores (table : PromotionTable) (repository : InMemoryPromotionRepository) :
    Prop where
  plant : repository.plant = none
  consistent : Consistent repository
  rows : ∀ assetId, table.get? assetId = (repository.byAssetId.get? assetId).map rowOf

section

variable {table : PromotionTable} {repository : InMemoryPromotionRepository}

theorem Stores.entry (h : Stores table repository) {assetId : Text} {row : PromotionRow}
    (hentry : (assetId, row) ∈ table.entries) :
    ∃ record, repository.byAssetId.get? assetId = some record ∧ row = rowOf record := by
  rw [Dictionary.mem_entries_iff, h.rows, Option.map_eq_some_iff] at hentry
  have ⟨record, hrecord, hrow⟩ := hentry
  exact ⟨record, hrecord, hrow.symm⟩

theorem Stores.records (h : Stores table repository) :
    ∃ records, table.records = .ok records ∧ (records.map (·.coreAsset.id)).Nodup ∧
      ∀ record, record ∈ records ↔
        repository.byAssetId.get? record.coreAsset.id = some record := by
  have hperm := sortedBy_perm
    (fun first second : Text × PromotionRow => compare first.1 second.1) table.entries
  have hread : ∀ entry ∈ sortedBy (fun first second => compare first.1 second.1) table.entries,
      ∃ record, readDocument entry.2.document = .ok record ∧
        repository.byAssetId.get? entry.1 = some record := by
    intro entry hentry
    have ⟨record, hrecord, hrow⟩ := h.entry (hperm.mem_iff.mp hentry)
    rw [hrow]
    exact ⟨record, readDocument_recordDocument record, hrecord⟩
  have ⟨records, hrecords, hrelated⟩ := mapM_ok hread
  have hids : (sortedBy (fun first second => compare first.1 second.1) table.entries).map
      Prod.fst = records.map (·.coreAsset.id) := by
    rw [← forall₂_eq_eq_eq, forall₂_map_left_iff, forall₂_map_right_iff]
    exact hrelated.imp fun _ record hrecord => ((h.consistent.stored _ record hrecord).1).symm
  refine ⟨records, hrecords, ?_, fun record => ⟨?_, ?_⟩⟩
  · rw [← hids, (hperm.map Prod.fst).nodup_iff]
    exact table.nodup
  · intro hmember
    have ⟨entry, _, hrecord⟩ := exists_item hrelated hmember
    rw [(h.consistent.stored _ record hrecord).1]
    exact hrecord
  · intro hrecord
    have hrow : (record.coreAsset.id, rowOf record) ∈ table.entries := by
      rw [Dictionary.mem_entries_iff, h.rows, hrecord]
      rfl
    have ⟨other, hother, hsame⟩ := exists_item hrelated.flip (hperm.mem_iff.mpr hrow)
    have hequal : some other = some record := hsame.symm.trans hrecord
    exact Option.some.inj hequal ▸ hother

theorem Stores.reference (h : Stores table repository) {records : List CorePromotionRecord}
    (hdistinct : (records.map (·.coreAsset.id)).Nodup) (hrecords : ∀ record, record ∈ records ↔
      repository.byAssetId.get? record.coreAsset.id = some record) :
    ∃ reference, InMemoryPromotionRepository.ofRecords none records = .ok reference ∧
      Alike reference repository := by
  have hidentities : (records.map (·.durableIdentityKey)).Nodup := by
    refine List.Nodup.map_on (fun first hfirst second hsecond hsame => ?_) hdistinct.of_map
    have hlinked := (h.consistent.stored _ first ((hrecords first).mp hfirst)).2
    have hother := (h.consistent.stored _ second ((hrecords second).mp hsecond)).2
    rw [hsame] at hlinked
    have hid : first.coreAsset.id = second.coreAsset.id :=
      Option.some.inj (hlinked.symm.trans hother)
    exact inj_on_of_nodup_map hdistinct hfirst hsecond hid
  have hassetEntries :
      (Dictionary.ofItems (·.coreAsset.id) id records).entries =
        records.map fun record => (record.coreAsset.id, id record) :=
    Dictionary.ofItems_entries hdistinct
  have hidentityEntries :
      (Dictionary.ofItems (·.durableIdentityKey) (·.coreAsset.id) records).entries =
        records.map fun record => (record.durableIdentityKey, record.coreAsset.id) :=
    Dictionary.ofItems_entries hidentities
  refine ⟨{
    plant := none
    byAssetId := Dictionary.ofItems (·.coreAsset.id) id records
    assetIdByIdentity := Dictionary.ofItems (·.durableIdentityKey) (·.coreAsset.id) records },
    ?_, ?_⟩
  · simp only [InMemoryPromotionRepository.ofRecords, bind_eq_ok, refuse_eq_ok, exists_unit,
      pure_eq_ok]
    exact ⟨by simp [hassetEntries], by simp [hidentityEntries], trivial⟩
  · constructor
    · exact h.plant.symm
    · intro assetId
      apply Option.ext
      intro record
      rw [← Dictionary.mem_entries_iff, hassetEntries]
      simp only [mem_map, Prod.mk.injEq, id_eq]
      constructor
      · intro hentry
        rcases hentry with ⟨other, hmember, hid, hsame⟩
        rw [← hid, ← hsame]
        exact (hrecords other).mp hmember
      · intro hrecord
        have hid := (h.consistent.stored assetId record hrecord).1
        rw [← hid] at hrecord
        exact ⟨record, (hrecords record).mpr hrecord, hid, rfl⟩
    · intro key
      apply Option.ext
      intro assetId
      rw [← Dictionary.mem_entries_iff, hidentityEntries]
      simp only [mem_map, Prod.mk.injEq]
      constructor
      · intro hentry
        rcases hentry with ⟨record, hmember, hkey, hid⟩
        have hlinked := (h.consistent.stored _ record ((hrecords record).mp hmember)).2
        rw [← hkey, ← hid]
        exact hlinked
      · intro hlinked
        rcases h.consistent.linked key assetId hlinked with ⟨record, hrecord, hkey⟩
        have hid := (h.consistent.stored assetId record hrecord).1
        rw [← hid] at hrecord
        exact ⟨record, (hrecords record).mpr hrecord, hkey, hid⟩

/-! ## Writing the rows back -/

/-- A table the rows of which stand for records of the repository. -/
def Named (table : PromotionTable) (repository : InMemoryPromotionRepository) : Prop :=
  ∀ assetId row, table.get? assetId = some row →
    ∃ record, repository.byAssetId.get? assetId = some record ∧
      record.durableIdentityKey = row.identityKey

theorem upsert_ok (hrepository : Consistent repository) (hnamed : Named table repository)
    {record : CorePromotionRecord}
    (hrecord : repository.byAssetId.get? record.coreAsset.id = some record) :
    table.upsert record = .ok (table.set record.coreAsset.id (rowOf record)) ∧
      Named (table.set record.coreAsset.id (rowOf record)) repository := by
  have hlinked := (hrepository.stored _ record hrecord).2
  constructor
  · simp only [PromotionTable.upsert, bind_eq_ok, refuse_eq_ok, exists_unit, pure_eq_ok]
    refine ⟨?_, rfl⟩
    intro hconflict
    rcases hconflict with ⟨entry, hentry, hother, hidentity⟩
    rw [Dictionary.mem_entries_iff] at hentry
    rcases hnamed _ _ hentry with ⟨other, hstored, hkey⟩
    have hsame := (hrepository.stored _ other hstored).2
    rw [hkey, hidentity, hlinked] at hsame
    exact hother (Option.some.inj hsame).symm
  · intro assetId row hrow
    rw [Dictionary.get?_set] at hrow
    by_cases hsame : assetId = record.coreAsset.id
    · rw [if_pos hsame] at hrow
      rw [hsame, ← Option.some.inj hrow]
      exact ⟨record, hrecord, rfl⟩
    · rw [if_neg hsame] at hrow
      exact hnamed assetId row hrow

theorem upserts_ok (hrepository : Consistent repository) (hnamed : Named table repository)
    {records : List CorePromotionRecord} (hrecords : ∀ record ∈ records,
      repository.byAssetId.get? record.coreAsset.id = some record) :
    ∃ rows, records.foldlM PromotionTable.upsert table = .ok rows ∧
      ∀ assetId, rows.get? assetId =
        if assetId ∈ records.map (·.coreAsset.id) then
          (repository.byAssetId.get? assetId).map rowOf
        else table.get? assetId := by
  induction records generalizing table with
  | nil => exact ⟨table, rfl, by simp⟩
  | cons record records ih =>
    have hrecord := hrecords record (mem_cons_self ..)
    rcases upsert_ok hrepository hnamed hrecord with ⟨hupsert, hnext⟩
    obtain ⟨rows, hrows, hget⟩ :=
      ih hnext fun other hother => hrecords other (mem_cons_of_mem record hother)
    refine ⟨rows, foldlM_cons_ok.mpr ⟨_, hupsert, hrows⟩, ?_⟩
    intro assetId
    rw [hget, Dictionary.get?_set, map_cons]
    by_cases hlater : assetId ∈ records.map (·.coreAsset.id)
    · rw [if_pos hlater, if_pos (mem_cons_of_mem _ hlater)]
    · rw [if_neg hlater]
      by_cases hsame : assetId = record.coreAsset.id
      · rw [if_pos hsame, if_pos (by simp [hsame]), hsame, hrecord]
        rfl
      · rw [if_neg hsame, if_neg (by simp [hsame, hlater])]

/-! ## Calls -/

theorem foldl_store_plant {planned : List PlannedRecord} (h : repository.plant = none) :
    (planned.foldl InMemoryPromotionRepository.store repository).plant = none := by
  induction planned generalizing repository with
  | nil => exact h
  | cons entry planned ih =>
    apply ih
    have ⟨record, status⟩ := entry
    cases status <;> simp [InMemoryPromotionRepository.store, h]

theorem applied_plant (h : repository.plant = none) (batch : CorePromotionResult) :
    (applied repository batch).plant = none := by
  unfold applied InMemoryPromotionRepository.apply
  cases batch.records.foldlM repository.plan {} with
  | error error => exact h
  | ok planning => exact foldl_store_plant h

theorem mem_records {assetId : Text} {record : CorePromotionRecord}
    (h : repository.byAssetId.get? assetId = some record) : record ∈ repository.records := by
  simp only [InMemoryPromotionRepository.records, mem_filterMap, mem_sortedBy,
    Dictionary.mem_keys_iff]
  exact ⟨assetId, ⟨record, h⟩, h⟩

theorem Stores.written (h : Stores table repository) (batch : CorePromotionResult)
    {reference : InMemoryPromotionRepository}
    (hreference : Alike reference (applied repository batch)) :
    ∃ rows, reference.records.foldlM PromotionTable.upsert table = .ok rows ∧
      Stores rows (applied repository batch) := by
  rcases applied_keeps h.consistent batch with ⟨hconsistent, hgrows⟩
  have hnamed : Named table (applied repository batch) := by
    intro assetId row hrow
    rw [← Dictionary.mem_entries_iff] at hrow
    rcases h.entry hrow with ⟨existing, hexisting, hsame⟩
    rcases hgrows assetId existing hexisting with ⟨record, hrecord, hadvances⟩
    rw [hsame]
    exact ⟨record, hrecord, hadvances.identity.symm⟩
  have hstored : ∀ record ∈ reference.records,
      (applied repository batch).byAssetId.get? record.coreAsset.id = some record := by
    intro record hrecord
    simp only [InMemoryPromotionRepository.records, mem_filterMap] at hrecord
    rcases hrecord with ⟨assetId, _, hfound⟩
    rw [hreference.assets] at hfound
    rw [(hconsistent.stored assetId record hfound).1]
    exact hfound
  rcases upserts_ok hconsistent hnamed hstored with ⟨rows, hrows, hget⟩
  refine ⟨rows, hrows, applied_plant h.plant batch, hconsistent, ?_⟩
  intro assetId
  rw [hget]
  by_cases hmember : assetId ∈ reference.records.map (·.coreAsset.id)
  · rw [if_pos hmember]
  · have hnone : (applied repository batch).byAssetId.get? assetId = none := by
      cases hfound : (applied repository batch).byAssetId.get? assetId with
      | none => rfl
      | some record =>
        have hid := (hconsistent.stored assetId record hfound).1
        have hrecord := mem_records ((hreference.assets assetId).trans hfound)
        exact absurd (mem_map.mpr ⟨record, hrecord, hid⟩) hmember
    have hbefore : repository.byAssetId.get? assetId = none := by
      cases hfound : repository.byAssetId.get? assetId with
      | none => rfl
      | some existing =>
        rcases hgrows assetId existing hfound with ⟨record, hrecord, _⟩
        rw [hnone] at hrecord
        cases hrecord
    rw [if_neg hmember, h.rows, hbefore, hnone]

theorem Stores.apply (h : Stores table repository) (batch : CorePromotionResult) :
    ∃ rows, SqlitePromotionRepository.apply (some table) batch =
        (some rows, (repository.apply batch).2.mapError .repository) ∧
      Stores rows (applied repository batch) := by
  have ⟨records, hrecords, hdistinct, hmembers⟩ := h.records
  have ⟨reference, hreference, halike⟩ := h.reference hdistinct hmembers
  have ⟨hsame, hnext⟩ := halike.apply batch
  unfold SqlitePromotionRepository.apply PromotionTable.transaction
  simp only [hrecords, hreference, hsame, bind, Except.bind, Except.mapError]
  cases hresult : (repository.apply batch).2 with
  | error error =>
    rw [apply_rejected hresult]
    exact ⟨table, rfl, h⟩
  | ok outcome =>
    have ⟨rows, hrows, hstores⟩ := h.written batch hnext
    simp only [hrows]
    exact ⟨rows, rfl, hstores⟩

theorem Stores.getByAssetId (h : Stores table repository) (assetId : Text) :
    SqlitePromotionRepository.getByAssetId (some table) assetId =
      .ok (repository.getByAssetId assetId) := by
  rw [SqlitePromotionRepository.getByAssetId, h.rows, InMemoryPromotionRepository.getByAssetId]
  cases repository.byAssetId.get? assetId with
  | none => rfl
  | some record =>
    show (readDocument (recordDocument record)).map some = .ok (some record)
    rw [readDocument_recordDocument]
    rfl

theorem Stores.getByIdentityKey (h : Stores table repository) (key : Text) :
    SqlitePromotionRepository.getByIdentityKey (some table) key =
      .ok (repository.getByIdentityKey key) := by
  rw [SqlitePromotionRepository.getByIdentityKey, InMemoryPromotionRepository.getByIdentityKey]
  cases hfound : table.values.find? fun row => row.identityKey = key with
  | none =>
    have hnone : repository.assetIdByIdentity.get? key = none := by
      cases hlinked : repository.assetIdByIdentity.get? key with
      | none => rfl
      | some assetId =>
        have ⟨record, hrecord, hkey⟩ := h.consistent.linked key assetId hlinked
        have hrow : (assetId, rowOf record) ∈ table.entries := by
          rw [Dictionary.mem_entries_iff, h.rows, hrecord]
          rfl
        rw [List.find?_eq_none] at hfound
        have hother := hfound (rowOf record) (mem_map.mpr ⟨_, hrow, rfl⟩)
        simp [rowOf, hkey] at hother
    rw [hnone]
    rfl
  | some row =>
    have hkey : row.identityKey = key := by simpa using List.find?_some hfound
    have ⟨entry, hentry, hrow⟩ := mem_map.mp (mem_of_find?_eq_some hfound)
    have ⟨record, hrecord, hsame⟩ := h.entry hentry
    have hlinked := (h.consistent.stored _ record hrecord).2
    rw [hrow] at hsame
    rw [hsame] at hkey ⊢
    simp only [rowOf] at hkey
    rw [hkey] at hlinked
    show (readDocument (recordDocument record)).map some = _
    rw [readDocument_recordDocument, hlinked, Option.bind_some, hrecord]
    rfl

end

/-! ## Runs -/

/-- What a client does with a database: apply a batch, or close and reopen it. -/
inductive Operation where
  | apply (batch : CorePromotionResult)
  | reopen

def SqlitePromotionRepository.perform (database : Database) : Operation → Database
  | .apply batch => (apply database batch).1
  | .reopen => initializeDatabase database

def InMemoryPromotionRepository.perform (repository : InMemoryPromotionRepository) :
    Operation → InMemoryPromotionRepository
  | .apply batch => applied repository batch
  | .reopen => repository

theorem run_stores (run : List Operation) :
    ∃ table, after SqlitePromotionRepository.perform
        (SqlitePromotionRepository.initializeDatabase none) run = some table ∧
      Stores table (after InMemoryPromotionRepository.perform {} run) := by
  have hempty : Stores {} {} := ⟨rfl, consistent_empty none, fun _ => rfl⟩
  have hstep : ∀ (database : Database) (repository : InMemoryPromotionRepository)
      (operation : Operation),
      (∃ table, database = some table ∧ Stores table repository) → True →
      ∃ table, SqlitePromotionRepository.perform database operation = some table ∧
        Stores table (repository.perform operation) := by
    intro database repository operation hrelated _
    have ⟨table, hdatabase, hstores⟩ := hrelated
    rw [hdatabase]
    cases operation with
    | apply batch =>
      have ⟨rows, happly, hnext⟩ := hstores.apply batch
      exact ⟨rows, by rw [SqlitePromotionRepository.perform, happly], hnext⟩
    | reopen => exact ⟨table, rfl, hstores⟩
  exact after_related hstep ⟨{}, rfl, hempty⟩ fun _ _ => trivial

/-- After any run of batches and reopenings the database answers as the repository in
memory: a batch returns and raises the same, and both lookups find the same record. -/
theorem sqlite_refines (run : List Operation) :
    let database := after SqlitePromotionRepository.perform
      (SqlitePromotionRepository.initializeDatabase none) run
    let repository := after InMemoryPromotionRepository.perform {} run
    (∀ batch, (SqlitePromotionRepository.apply database batch).2 =
      (repository.apply batch).2.mapError .repository) ∧
    (∀ assetId, SqlitePromotionRepository.getByAssetId database assetId =
      .ok (repository.getByAssetId assetId)) ∧
    ∀ key, SqlitePromotionRepository.getByIdentityKey database key =
      .ok (repository.getByIdentityKey key) := by
  rcases run_stores run with ⟨table, htable, hstores⟩
  simp only [htable]
  refine ⟨fun batch => ?_, hstores.getByAssetId, hstores.getByIdentityKey⟩
  rcases hstores.apply batch with ⟨rows, hrows, _⟩
  rw [hrows]

/-! ## What a run keeps -/

theorem performed_grows (repository : InMemoryPromotionRepository) (run : List Operation) :
    Grows repository (after .perform repository run) := by
  apply after_history fun _ state => Grows repository state
  · exact .refl repository
  · intro past operation hpast
    cases operation with
    | apply batch => exact hpast.trans (applied_grows _ batch)
    | reopen => exact hpast

open SqlitePromotionRepository in
/-- After any run the lookups of the database are inverse to each other, what they find is only
advanced by what is run later, and a batch that was stored is found unchanged. -/
theorem database_runs (before later : List Operation) :
    let database := after perform (initializeDatabase none) before
    (∀ assetId record, getByAssetId database assetId = .ok (some record) →
      record.coreAsset.id = assetId ∧
        getByIdentityKey database record.durableIdentityKey = .ok (some record) ∧
        ∃ advanced, getByAssetId (after perform database later) assetId = .ok (some advanced) ∧
          Advances record advanced) ∧
    (∀ key record, getByIdentityKey database key = .ok (some record) →
      record.durableIdentityKey = key ∧
        getByAssetId database record.coreAsset.id = .ok (some record)) ∧
    ∀ batch outcome, (apply database batch).2 = .ok outcome →
      (apply (apply database batch).1 batch).2 = .ok (replayResult batch) := by
  rcases run_stores before with ⟨table, htable, hstores⟩
  rcases run_stores (before ++ later) with ⟨rows, hrows, hlater⟩
  rw [after_append] at hrows hlater
  generalize after InMemoryPromotionRepository.perform {} before = repository at *
  have hgrown := performed_grows repository later
  have hstored := hstores.consistent
  simp only [htable] at hrows ⊢
  simp only [hrows, hstores.getByAssetId, hstores.getByIdentityKey, hlater.getByAssetId,
    Except.ok.injEq]
  refine ⟨fun assetId record hrecord => ?_, fun key record hrecord => ?_, fun batch _ h => ?_⟩
  · rcases hstored.stored assetId record hrecord with ⟨hid, hlinked⟩
    exact ⟨hid, Option.bind_eq_some_iff.mpr ⟨assetId, hlinked, hrecord⟩, hgrown _ _ hrecord⟩
  · rcases Option.bind_eq_some_iff.mp hrecord with ⟨assetId, hlinked, hfound⟩
    rcases hstored.linked key assetId hlinked with ⟨other, hother, hkey⟩
    cases hother.symm.trans hfound
    rw [(hstored.stored assetId record hfound).1]
    exact ⟨hkey, hfound⟩
  · rcases hstores.apply batch with ⟨next, happly, hnext⟩
    rcases hnext.apply batch with ⟨_, hreplay, _⟩
    rw [happly] at h ⊢
    rw [hreplay]
    cases hresult : (repository.apply batch).2 with
    | error error =>
      rw [hresult] at h
      cases h
    | ok result =>
      rw [apply_replay hresult]
      rfl

end TwinForge.Assembly
