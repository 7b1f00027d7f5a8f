import TwinForge.Assembly.PromotionRepository
import TwinForge.Foundation.Scans

/-! # What the promotion repository keeps

The two mappings of the repository stay inverse to each other, stored records only
advance, and a batch that was stored is found unchanged when it is applied again.
-/

namespace TwinForge.Assembly

open Discovery Guards Scans List

/-- The mappings between assets and identities are inverse to each other. -/
structure Consistent (repository : InMemoryPromotionRepository) : Prop where
  stored : ∀ assetId record, repository.byAssetId.get? assetId = some record →
    record.coreAsset.id = assetId ∧
      repository.assetIdByIdentity.get? record.durableIdentityKey = some assetId
  linked : ∀ key assetId, repository.assetIdByIdentity.get? key = some assetId →
    ∃ record, repository.byAssetId.get? assetId = some record ∧ record.durableIdentityKey = key

/-- A record that may stand in the place of another. -/
structure Advances (existing record : CorePromotionRecord) : Prop where
  identity : existing.durableIdentityKey = record.durableIdentityKey
  signature : assetSignature existing.coreAsset = assetSignature record.coreAsset
  generations : existing.generationNumbers <+: record.generationNumbers
  evidence : ∀ key ∈ evidenceKeys existing, key ∈ evidenceKeys record

/-- Every stored record is still stored, or one that advances it. -/
def Grows (earlier later : InMemoryPromotionRepository) : Prop :=
  ∀ assetId existing, earlier.byAssetId.get? assetId = some existing →
    ∃ record, later.byAssetId.get? assetId = some record ∧ Advances existing record

structure Planned (repository : InMemoryPromotionRepository) (record : CorePromotionRecord)
    (entry : PlannedRecord) : Prop where
  linked : ∀ assetId,
    repository.assetIdByIdentity.get? record.durableIdentityKey = some assetId →
      assetId = record.coreAsset.id
  created : repository.byAssetId.get? record.coreAsset.id = none → entry = (record, .created)
  advanced : ∀ existing, repository.byAssetId.get? record.coreAsset.id = some existing →
    Advances existing record ∧
      entry = ({ record with coreAsset := existing.coreAsset },
        if existing.generationNumbers = record.generationNumbers then .unchanged else .updated)

structure Settled (repository : InMemoryPromotionRepository) (record : CorePromotionRecord) :
    Prop where
  linked : ∀ assetId,
    repository.assetIdByIdentity.get? record.durableIdentityKey = some assetId →
      assetId = record.coreAsset.id
  stored : ∃ existing, repository.byAssetId.get? record.coreAsset.id = some existing ∧
    Advances existing record ∧ existing.generationNumbers = record.generationNumbers

theorem id_of_signature {first second : Asset}
    (h : assetSignature first = assetSignature second) : first.id = second.id := by
  cases first <;> cases second <;> simp_all [assetSignature, Asset.id]

theorem isPrefix_iff {previous current : List Int} :
    isPrefix previous current = true ↔ previous <+: current := by
  rw [prefix_iff_eq_take]
  simp only [isPrefix, Bool.and_eq_true, decide_eq_true_eq]
  constructor
  · exact fun h => h.2.symm
  · intro h
    refine ⟨?_, h.symm⟩
    rw [h, length_take]
    omega

theorem Advances.refl (record : CorePromotionRecord) : Advances record record :=
  ⟨rfl, rfl, prefix_rfl, fun _ h => h⟩

theorem Advances.trans {first second third : CorePromotionRecord} (h : Advances first second)
    (h' : Advances second third) : Advances first third :=
  ⟨h.identity.trans h'.identity, h.signature.trans h'.signature,
    h.generations.trans h'.generations, fun key hkey => h'.evidence key (h.evidence key hkey)⟩

theorem Grows.trans {first second third : InMemoryPromotionRepository} (h : Grows first second)
    (h' : Grows second third) : Grows first third := by
  intro assetId existing hexisting
  have ⟨middle, hmiddle, hfirst⟩ := h assetId existing hexisting
  have ⟨record, hrecord, hsecond⟩ := h' assetId middle hmiddle
  exact ⟨record, hrecord, hfirst.trans hsecond⟩

theorem Grows.refl (repository : InMemoryPromotionRepository) : Grows repository repository :=
  fun _ existing hexisting => ⟨existing, hexisting, .refl existing⟩

/-! ## Planning -/

variable {assetId : Text} {records : List CorePromotionRecord}

section

variable {repository : InMemoryPromotionRepository} {record : CorePromotionRecord}
  {entry : PlannedRecord} {planning next : Planning}

theorem validateIdentity_ok {key : Text} :
    repository.validateIdentity key assetId = .ok () ↔
      ∀ linked, repository.assetIdByIdentity.get? key = some linked → linked = assetId := by
  unfold InMemoryPromotionRepository.validateIdentity
  cases hlinked : repository.assetIdByIdentity.get? key with
  | none => simp
  | some linked => simp

theorem planExisting_ok {existing : CorePromotionRecord} :
    InMemoryPromotionRepository.planExisting existing record = .ok entry ↔
      Advances existing record ∧
        entry = ({ record with coreAsset := existing.coreAsset },
          if existing.generationNumbers = record.generationNumbers then .unchanged
          else .updated) := by
  simp only [InMemoryPromotionRepository.planExisting, bind_eq_ok, refuse_eq_ok, exists_unit,
    pure_eq_ok, ne_eq, not_not, Bool.not_eq_false, isPrefix_iff]
  constructor
  · intro h
    have ⟨hidentity, hsignature, hgenerations, hevidence, hentry⟩ := h
    exact ⟨⟨hidentity, hsignature, hgenerations, by simpa using hevidence⟩, hentry.symm⟩
  · intro h
    have ⟨hadvances, hentry⟩ := h
    exact ⟨hadvances.identity, hadvances.signature, hadvances.generations,
      by simpa using hadvances.evidence, hentry.symm⟩

theorem plan_ok (h : repository.plan planning record = .ok next) :
    record.coreAsset.id ∉ planning.batchAssetIds ∧
      record.durableIdentityKey ∉ planning.batchIdentityKeys ∧
      ∃ entry, Planned repository record entry ∧ next = {
        planned := planning.planned ++ [entry]
        batchAssetIds := planning.batchAssetIds ++ [record.coreAsset.id]
        batchIdentityKeys := planning.batchIdentityKeys ++ [record.durableIdentityKey] } := by
  simp only [InMemoryPromotionRepository.plan, bind_eq_ok, refuse_eq_ok, exists_unit,
    pure_eq_ok] at h
  rcases h with ⟨hasset, hidentity, hlinked, entry, hentry, hnext⟩
  refine ⟨hasset, hidentity, entry, ⟨validateIdentity_ok.mp hlinked, ?_, ?_⟩, hnext.symm⟩
  · intro hnone
    simp only [InMemoryPromotionRepository.planEntry, hnone, bind_eq_ok, pure_eq_ok] at hentry
    rcases hentry with ⟨_, _, hsame⟩
    exact hsame.symm
  · intro existing hexisting
    simp only [InMemoryPromotionRepository.planEntry, hexisting] at hentry
    exact planExisting_ok.mp hentry

/-- What has been planned of a batch whose assets and identities are all distinct. -/
structure BatchPlanned (repository : InMemoryPromotionRepository)
    (past : List CorePromotionRecord) (planning : Planning) : Prop where
  planned : List.Forall₂ (Planned repository) past planning.planned
  assetIds : planning.batchAssetIds = past.map (·.coreAsset.id)
  identityKeys : planning.batchIdentityKeys = past.map (·.durableIdentityKey)
  distinctAssets : (past.map (·.coreAsset.id)).Nodup
  distinctIdentities : (past.map (·.durableIdentityKey)).Nodup

theorem nodup_concat {items : List Text} {item : Text} (hitems : items.Nodup)
    (hitem : item ∉ items) : (items ++ [item]).Nodup := by
  rw [nodup_append]
  exact ⟨hitems, by simp, by grind⟩

theorem batch_planned (h : records.foldlM repository.plan {} = .ok planning) :
    BatchPlanned repository records planning := by
  apply foldlM_history h
  · exact ⟨.nil, rfl, rfl, by simp, by simp⟩
  · intro past record state next _ hpast hstep
    have ⟨hasset, hidentity, entry, hplanned, hnext⟩ := plan_ok hstep
    rw [hpast.assetIds] at hasset
    rw [hpast.identityKeys] at hidentity
    rw [hnext]
    constructor
    · exact rel_append hpast.planned (.cons hplanned .nil)
    · simp [hpast.assetIds]
    · simp [hpast.identityKeys]
    · rw [map_append]
      exact nodup_concat hpast.distinctAssets hasset
    · rw [map_append]
      exact nodup_concat hpast.distinctIdentities hidentity

theorem Planned.ids (h : Planned repository record entry) :
    entry.1.coreAsset.id = record.coreAsset.id ∧
      entry.1.durableIdentityKey = record.durableIdentityKey := by
  cases hfound : repository.byAssetId.get? record.coreAsset.id with
  | none => simp [h.created hfound]
  | some existing =>
    have ⟨hadvances, hentry⟩ := h.advanced existing hfound
    simp [hentry, id_of_signature hadvances.signature]

end

/-! ## Storing -/

section

variable {repository : InMemoryPromotionRepository} {record : CorePromotionRecord}
  {entry : PlannedRecord}

theorem store_unchanged (h : entry.2 = .unchanged) : repository.store entry = repository := by
  have ⟨_, status⟩ := entry
  simp only at h
  rw [h]
  rfl

theorem store_byAssetId (h : entry.2 ≠ .unchanged) :
    (repository.store entry).byAssetId =
      repository.byAssetId.set entry.1.coreAsset.id entry.1 := by
  have ⟨_, status⟩ := entry
  cases status with
  | unchanged => exact absurd rfl h
  | created => rfl
  | updated => rfl

theorem store_assetIdByIdentity (h : entry.2 ≠ .unchanged) :
    (repository.store entry).assetIdByIdentity =
      repository.assetIdByIdentity.set entry.1.durableIdentityKey entry.1.coreAsset.id := by
  have ⟨_, status⟩ := entry
  cases status with
  | unchanged => exact absurd rfl h
  | created => rfl
  | updated => rfl

theorem store_other_asset (h : assetId ≠ entry.1.coreAsset.id) :
    (repository.store entry).byAssetId.get? assetId = repository.byAssetId.get? assetId := by
  by_cases hstatus : entry.2 = .unchanged
  · rw [store_unchanged hstatus]
  · rw [store_byAssetId hstatus, Dictionary.get?_set, if_neg h]

theorem store_other_identity {key : Text} (h : key ≠ entry.1.durableIdentityKey) :
    (repository.store entry).assetIdByIdentity.get? key =
      repository.assetIdByIdentity.get? key := by
  by_cases hstatus : entry.2 = .unchanged
  · rw [store_unchanged hstatus]
  · rw [store_assetIdByIdentity hstatus, Dictionary.get?_set, if_neg h]

theorem Planned.frame (h : Planned repository record entry) {other : PlannedRecord}
    (hasset : record.coreAsset.id ≠ other.1.coreAsset.id)
    (hidentity : record.durableIdentityKey ≠ other.1.durableIdentityKey) :
    Planned (repository.store other) record entry := by
  constructor
  · rw [store_other_identity hidentity]
    exact h.linked
  · rw [store_other_asset hasset]
    exact h.created
  · rw [store_other_asset hasset]
    exact h.advanced

theorem Settled.frame (h : Settled repository record) {other : PlannedRecord}
    (hasset : record.coreAsset.id ≠ other.1.coreAsset.id)
    (hidentity : record.durableIdentityKey ≠ other.1.durableIdentityKey) :
    Settled (repository.store other) record := by
  constructor
  · rw [store_other_identity hidentity]
    exact h.linked
  · rw [store_other_asset hasset]
    exact h.stored

theorem Planned.stored (h : Planned repository record entry) :
    ∃ stored, (repository.store entry).byAssetId.get? record.coreAsset.id = some stored ∧
      stored.generationNumbers = record.generationNumbers ∧ Advances stored record ∧
      ∀ existing, repository.byAssetId.get? record.coreAsset.id = some existing →
        Advances existing stored := by
  rcases h.ids with ⟨hasset, _⟩
  cases hfound : repository.byAssetId.get? record.coreAsset.id with
  | none =>
    have hentry := h.created hfound
    refine ⟨record, ?_, rfl, .refl record, by simp⟩
    rw [store_byAssetId (by simp [hentry]), hentry]
    simp
  | some existing =>
    rcases h.advanced existing hfound with ⟨hadvances, hentry⟩
    by_cases hsame : existing.generationNumbers = record.generationNumbers
    · refine ⟨existing, ?_, hsame, hadvances, by simp [Advances.refl]⟩
      rw [store_unchanged (by simp [hentry, hsame])]
      exact hfound
    · refine ⟨{ record with coreAsset := existing.coreAsset }, ?_, rfl, ?_, ?_⟩
      · rw [store_byAssetId (by simp [hentry, hsame]), Dictionary.get?_set, hasset, if_pos rfl,
          hentry]
      · exact ⟨rfl, hadvances.signature, prefix_rfl, fun _ hkey => hkey⟩
      · intro other hother
        have hequal := Option.some.inj hother
        rw [← hequal]
        exact ⟨hadvances.identity, rfl, hadvances.generations, hadvances.evidence⟩

theorem Planned.linked_stored (h : Planned repository record entry)
    (hlinked : (repository.store entry).assetIdByIdentity.get? record.durableIdentityKey =
      some assetId) : assetId = record.coreAsset.id := by
  have ⟨hasset, hidentity⟩ := h.ids
  by_cases hstatus : entry.2 = .unchanged
  · rw [store_unchanged hstatus] at hlinked
    exact h.linked assetId hlinked
  · rw [store_assetIdByIdentity hstatus, Dictionary.get?_set, hidentity, if_pos rfl] at hlinked
    rw [← hasset]
    exact (Option.some.inj hlinked).symm

theorem Planned.settled (h : Planned repository record entry) :
    Settled (repository.store entry) record := by
  have ⟨stored, hstored, hgenerations, hadvances, _⟩ := h.stored
  exact ⟨fun _ => h.linked_stored, stored, hstored, hadvances, hgenerations⟩

theorem Planned.grows (h : Planned repository record entry) :
    Grows repository (repository.store entry) := by
  intro assetId existing hexisting
  by_cases hsame : assetId = record.coreAsset.id
  · have ⟨stored, hstored, _, _, hadvances⟩ := h.stored
    rw [hsame] at hexisting ⊢
    exact ⟨stored, hstored, hadvances existing hexisting⟩
  · have ⟨hasset, _⟩ := h.ids
    rw [← hasset] at hsame
    exact ⟨existing, (store_other_asset hsame).trans hexisting, .refl existing⟩

end

variable {repository : InMemoryPromotionRepository} {record : CorePromotionRecord}

theorem Consistent.store {entry : PlannedRecord} (hrepository : Consistent repository)
    (h : Planned repository record entry) : Consistent (repository.store entry) := by
  have ⟨hasset, hidentity⟩ := h.ids
  by_cases hstatus : entry.2 = .unchanged
  · rw [store_unchanged hstatus]
    exact hrepository
  · have hassets := @store_byAssetId repository entry hstatus
    have hidentities := @store_assetIdByIdentity repository entry hstatus
    constructor
    · intro assetId stored hstored
      rw [hassets, Dictionary.get?_set] at hstored
      rw [hidentities, Dictionary.get?_set]
      by_cases hsame : assetId = entry.1.coreAsset.id
      · rw [if_pos hsame] at hstored
        rw [← Option.some.inj hstored, hsame]
        simp
      · rw [if_neg hsame] at hstored
        have ⟨hid, hlinked⟩ := hrepository.stored assetId stored hstored
        refine ⟨hid, ?_⟩
        have hother : stored.durableIdentityKey ≠ entry.1.durableIdentityKey := by
          intro hequal
          rw [hequal, hidentity] at hlinked
          exact hsame ((h.linked assetId hlinked).trans hasset.symm)
        rw [if_neg hother]
        exact hlinked
    · intro key assetId hlinked
      rw [hidentities, Dictionary.get?_set] at hlinked
      rw [hassets]
      by_cases hsame : key = entry.1.durableIdentityKey
      · rw [if_pos hsame] at hlinked
        refine ⟨entry.1, ?_, hsame.symm⟩
        rw [Dictionary.get?_set, if_pos (Option.some.inj hlinked).symm]
      · rw [if_neg hsame] at hlinked
        have ⟨stored, hstored, hkey⟩ := hrepository.linked key assetId hlinked
        have hother : assetId ≠ entry.1.coreAsset.id := by
          intro hequal
          rw [hequal, hasset] at hstored
          have ⟨hadvances, _⟩ := h.advanced stored hstored
          exact hsame (hkey.symm.trans (hadvances.identity.trans hidentity.symm))
        exact ⟨stored, by rw [Dictionary.get?_set, if_neg hother, hstored], hkey⟩

/-! ## Batches -/

/-- What storing a planned batch leaves of the repository before it. -/
structure BatchStored (repository next : InMemoryPromotionRepository)
    (records : List CorePromotionRecord) : Prop where
  consistent : Consistent repository → Consistent next
  grows : Grows repository next
  settled : ∀ record ∈ records, Settled next record

variable {planned : List PlannedRecord}

theorem settled_frame (hsettled : Settled repository record)
    (hplanned : List.Forall₂ (Planned repository) records planned)
    (hassets : record.coreAsset.id ∉ records.map (·.coreAsset.id))
    (hidentities : record.durableIdentityKey ∉ records.map (·.durableIdentityKey)) :
    Settled (planned.foldl InMemoryPromotionRepository.store repository) record := by
  have hids : ∀ entry ∈ planned, record.coreAsset.id ≠ entry.1.coreAsset.id ∧
      record.durableIdentityKey ≠ entry.1.durableIdentityKey := by
    intro entry hentry
    have ⟨other, hother, hplan⟩ := exists_item hplanned hentry
    have ⟨hasset, hidentity⟩ := hplan.ids
    rw [hasset, hidentity]
    exact ⟨fun h => hassets (mem_map.mpr ⟨other, hother, h.symm⟩),
      fun h => hidentities (mem_map.mpr ⟨other, hother, h.symm⟩)⟩
  clear hplanned
  induction planned generalizing repository with
  | nil => exact hsettled
  | cons entry planned ih =>
    have ⟨hasset, hidentity⟩ := hids entry (mem_cons_self ..)
    exact ih (hsettled.frame hasset hidentity)
      fun other hother => hids other (mem_cons_of_mem entry hother)

theorem batch_stored (hplanned : List.Forall₂ (Planned repository) records planned)
    (hassets : (records.map (·.coreAsset.id)).Nodup)
    (hidentities : (records.map (·.durableIdentityKey)).Nodup) :
    BatchStored repository (planned.foldl InMemoryPromotionRepository.store repository)
      records := by
  induction planned generalizing repository records with
  | nil =>
    cases hplanned
    exact ⟨id, .refl _, fun _ h => absurd h not_mem_nil⟩
  | cons entry planned ih =>
    cases hplanned with
    | @cons record _ records _ hhere hrest =>
      have ⟨hasset, hassets⟩ := nodup_cons.mp hassets
      have ⟨hidentity, hidentities⟩ := nodup_cons.mp hidentities
      have ⟨hassetId, hidentityKey⟩ := hhere.ids
      have hframed : List.Forall₂ (Planned (repository.store entry)) records planned := by
        have hother : ∀ other ∈ records,
            other.coreAsset.id ≠ entry.1.coreAsset.id ∧
              other.durableIdentityKey ≠ entry.1.durableIdentityKey := by
          intro other hmember
          rw [hassetId, hidentityKey]
          exact ⟨fun h => hasset (mem_map.mpr ⟨other, hmember, h⟩),
            fun h => hidentity (mem_map.mpr ⟨other, hmember, h⟩)⟩
        have hboth := (forall₂_and_left ..).mpr ⟨hother, hrest⟩
        exact hboth.imp fun _ _ h => h.2.frame h.1.1 h.1.2
      have hlater := ih hframed hassets hidentities
      constructor
      · exact fun hrepository => hlater.consistent (hrepository.store hhere)
      · exact hhere.grows.trans hlater.grows
      · intro other hother
        cases mem_cons.mp hother with
        | inl hsame =>
          rw [hsame]
          show Settled (planned.foldl .store (repository.store entry)) record
          exact settled_frame hhere.settled hframed hasset hidentity
        | inr hmember => exact hlater.settled other hmember

/-! ## Replay -/

theorem plan_settled {planning : Planning} (h : Settled repository record)
    (hasset : record.coreAsset.id ∉ planning.batchAssetIds)
    (hidentity : record.durableIdentityKey ∉ planning.batchIdentityKeys) :
    ∃ entry : PlannedRecord, entry.2 = .unchanged ∧
      InMemoryPromotionRepository.persistenceItem entry =
        ⟨record.coreAsset.id, record.durableIdentityKey, .unchanged⟩ ∧
      repository.plan planning record = .ok {
        planned := planning.planned ++ [entry]
        batchAssetIds := planning.batchAssetIds ++ [record.coreAsset.id]
        batchIdentityKeys := planning.batchIdentityKeys ++ [record.durableIdentityKey] } := by
  have ⟨existing, hexisting, hadvances, hgenerations⟩ := h.stored
  have hsameId := id_of_signature hadvances.signature
  refine ⟨({ record with coreAsset := existing.coreAsset }, .unchanged), rfl, ?_, ?_⟩
  · simp [InMemoryPromotionRepository.persistenceItem, hsameId]
  · simp only [InMemoryPromotionRepository.plan, bind_eq_ok, refuse_eq_ok, exists_unit, pure_eq_ok]
    refine ⟨hasset, hidentity, validateIdentity_ok.mpr h.linked, _, ?_, rfl⟩
    simp only [InMemoryPromotionRepository.planEntry, hexisting]
    rw [planExisting_ok, if_pos hgenerations]
    exact ⟨hadvances, rfl⟩

theorem replay_planned {records : List CorePromotionRecord} {planning : Planning}
    (hsettled : ∀ record ∈ records, Settled repository record)
    (hassets : (planning.batchAssetIds ++ records.map (·.coreAsset.id)).Nodup)
    (hidentities : (planning.batchIdentityKeys ++ records.map (·.durableIdentityKey)).Nodup) :
    ∃ replayed final, records.foldlM repository.plan planning = .ok final ∧
      final.planned = planning.planned ++ replayed ∧ (∀ entry ∈ replayed, entry.2 = .unchanged) ∧
      replayed.map InMemoryPromotionRepository.persistenceItem =
        records.map fun record =>
          ⟨record.coreAsset.id, record.durableIdentityKey, .unchanged⟩ := by
  induction records generalizing planning with
  | nil => exact ⟨[], planning, rfl, by simp, by simp, rfl⟩
  | cons record records ih =>
    have hasset : record.coreAsset.id ∉ planning.batchAssetIds := by
      intro h
      exact (nodup_append.mp hassets).2.2 _ h _ (mem_cons_self ..) rfl
    have hidentity : record.durableIdentityKey ∉ planning.batchIdentityKeys := by
      intro h
      exact (nodup_append.mp hidentities).2.2 _ h _ (mem_cons_self ..) rfl
    have ⟨entry, hstatus, hitem, hplan⟩ :=
      plan_settled (hsettled record (mem_cons_self ..)) hasset hidentity
    have ⟨replayed, final, hrun, hplanned, hunchanged, hitems⟩ := @ih
      ⟨planning.planned ++ [entry], planning.batchAssetIds ++ [record.coreAsset.id],
        planning.batchIdentityKeys ++ [record.durableIdentityKey]⟩
      (fun other hother => hsettled other (mem_cons_of_mem record hother))
      (by simpa using hassets) (by simpa using hidentities)
    refine ⟨entry :: replayed, final, ?_, ?_, ?_, ?_⟩
    · rw [foldlM_cons_ok]
      exact ⟨_, hplan, hrun⟩
    · rw [hplanned, append_assoc, singleton_append]
    · intro other hother
      cases mem_cons.mp hother with
      | inl hsame => exact hsame ▸ hstatus
      | inr hrest => exact hunchanged other hrest
    · rw [map_cons, hitem, hitems, map_cons]

theorem foldl_store_unchanged (h : ∀ entry ∈ planned, entry.2 = .unchanged) :
    planned.foldl InMemoryPromotionRepository.store repository = repository := by
  induction planned with
  | nil => rfl
  | cons entry planned ih =>
    rw [foldl_cons, store_unchanged (h entry (mem_cons_self ..))]
    exact ih fun other hother => h other (mem_cons_of_mem entry hother)

/-! ## Runs of batches -/

/-- The outcome of a batch nothing of which is new. -/
def replayResult (batch : CorePromotionResult) : PromotionPersistenceResult :=
  ⟨sortedBy (fun first second => compare first.coreAssetId second.coreAssetId)
    (batch.records.map fun record =>
      ⟨record.coreAsset.id, record.durableIdentityKey, .unchanged⟩)⟩

def applied (repository : InMemoryPromotionRepository) (batch : CorePromotionResult) :
    InMemoryPromotionRepository :=
  (repository.apply batch).1

section

variable {repository : InMemoryPromotionRepository} {batch : CorePromotionResult}

theorem apply_rejected {error : PromotionRepositoryError}
    (h : (repository.apply batch).2 = .error error) : applied repository batch = repository := by
  unfold applied
  unfold InMemoryPromotionRepository.apply at h ⊢
  cases hrun : batch.records.foldlM repository.plan {} with
  | error _ => rfl
  | ok planning => simp [hrun] at h

theorem apply_accepted {result : PromotionPersistenceResult}
    (h : (repository.apply batch).2 = .ok result) :
    ∃ planning, BatchPlanned repository batch.records planning ∧
      applied repository batch =
        planning.planned.foldl InMemoryPromotionRepository.store repository := by
  unfold applied
  unfold InMemoryPromotionRepository.apply at h ⊢
  cases hrun : batch.records.foldlM repository.plan {} with
  | error _ => simp [hrun] at h
  | ok planning => exact ⟨planning, batch_planned hrun, rfl⟩

theorem apply_replay {result : PromotionPersistenceResult}
    (h : (repository.apply batch).2 = .ok result) :
    (applied repository batch).apply batch =
      (applied repository batch, .ok (replayResult batch)) := by
  have ⟨planning, hplanned, hnext⟩ := apply_accepted h
  have hstored := batch_stored hplanned.planned hplanned.distinctAssets
    hplanned.distinctIdentities
  rw [← hnext] at hstored
  have ⟨replayed, final, hrun, hfinal, hunchanged, hitems⟩ :=
    @replay_planned (applied repository batch) batch.records {} hstored.settled
      (by simpa using hplanned.distinctAssets) (by simpa using hplanned.distinctIdentities)
  have hall : final.planned = replayed := by simpa using hfinal
  unfold InMemoryPromotionRepository.apply
  rw [hrun]
  simp only [hall]
  rw [foldl_store_unchanged hunchanged]
  simp only [InMemoryPromotionRepository.persistenceResult, hitems, replayResult]

theorem applied_keeps (hrepository : Consistent repository) (batch : CorePromotionResult) :
    Consistent (applied repository batch) ∧ Grows repository (applied repository batch) := by
  cases hresult : (repository.apply batch).2 with
  | error error =>
    rw [apply_rejected hresult]
    exact ⟨hrepository, .refl repository⟩
  | ok result =>
    have ⟨planning, hplanned, hnext⟩ := apply_accepted hresult
    have hstored := batch_stored hplanned.planned hplanned.distinctAssets
      hplanned.distinctIdentities
    rw [hnext]
    exact ⟨hstored.consistent hrepository, hstored.grows⟩

/-- What an accepted batch brought is found under its asset and under its identity. -/
theorem apply_found (hrepository : Consistent repository) {result : PromotionPersistenceResult}
    (h : (repository.apply batch).2 = .ok result) {record : CorePromotionRecord}
    (hrecord : record ∈ batch.records) :
    ∃ stored, (repository.apply batch).1.getByAssetId record.coreAsset.id = some stored ∧
      (repository.apply batch).1.getByIdentityKey record.durableIdentityKey = some stored ∧
      Advances stored record ∧ stored.generationNumbers = record.generationNumbers := by
  have ⟨planning, hplanned, hnext⟩ := apply_accepted h
  have hstored := batch_stored hplanned.planned hplanned.distinctAssets
    hplanned.distinctIdentities
  rw [← hnext] at hstored
  have ⟨stored, hfound, hadvances, hgenerations⟩ := (hstored.settled record hrecord).stored
  have ⟨_, hlinked⟩ := (hstored.consistent hrepository).stored _ _ hfound
  refine ⟨stored, hfound, ?_, hadvances, hgenerations⟩
  rw [hadvances.identity] at hlinked
  unfold InMemoryPromotionRepository.getByIdentityKey
  show ((applied repository batch).assetIdByIdentity.get? _).bind _ = _
  rw [hlinked]
  exact hfound

end

theorem consistent_empty (plant : Option Plant) : Consistent { plant } where
  stored _ _ h := by simp at h
  linked _ _ h := by simp at h

theorem after_consistent (plant : Option Plant) (run : List CorePromotionResult) :
    Consistent (after applied { plant } run) := by
  apply after_history fun _ repository => Consistent repository
  · exact consistent_empty plant
  · exact fun _ batch hpast => (applied_keeps hpast batch).1

theorem after_grows (plant : Option Plant) (before later : List CorePromotionResult) :
    Grows (after applied { plant } before) (after applied { plant } (before ++ later)) := by
  rw [after_append]
  apply after_history fun _ repository => Grows (after applied { plant } before) repository
  · exact .refl _
  · intro past batch hpast
    have hconsistent := after_consistent plant (before ++ past)
    rw [after_append] at hconsistent
    exact hpast.trans (applied_keeps hconsistent batch).2

/-- The repository after any run of batches from the empty one: consistent, grown by later
batches, left alone by rejected ones, holding what an accepted one brought, and found
unchanged by a replay. -/
theorem apply_runs (plant : Option Plant) (before : List CorePromotionResult) :
    let repository := after applied { plant } before
    Consistent repository ∧
      (∀ later, Grows repository (after applied { plant } (before ++ later))) ∧
      (∀ batch error, (repository.apply batch).2 = .error error →
        (repository.apply batch).1 = repository) ∧
      ∀ batch result, (repository.apply batch).2 = .ok result →
        (∀ record ∈ batch.records,
          ∃ stored, (repository.apply batch).1.getByAssetId record.coreAsset.id = some stored ∧
            (repository.apply batch).1.getByIdentityKey record.durableIdentityKey = some stored ∧
            Advances stored record ∧ stored.generationNumbers = record.generationNumbers) ∧
        (repository.apply batch).1.apply batch =
          ((repository.apply batch).1, .ok (replayResult batch)) := by
  refine ⟨after_consistent plant before, after_grows plant before, fun _ _ => apply_rejected, ?_⟩
  intro batch result h
  exact ⟨fun _ => apply_found (after_consistent plant before) h, apply_replay h⟩

end TwinForge.Assembly
