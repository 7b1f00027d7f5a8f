import TwinForge.Assembly.PromotionConsistency

/-! # Evidence of accepted promotions

What an accepted batch leaves stored of each record in it. A record that brings no new
generation is not stored again, so what it supplies is kept only if it is stored already.
-/

namespace TwinForge.Assembly

open Discovery Guards Scans List

def storedRecord (existing : Option CorePromotionRecord) (record : CorePromotionRecord) :
    CorePromotionRecord :=
  match existing with
  | none => record
  | some existing =>
    if existing.generationNumbers = record.generationNumbers then existing
    else { record with coreAsset := existing.coreAsset }

/-- A stored record with all that a record of a batch supplies. -/
structure Carries (stored record : CorePromotionRecord) : Prop where
  evidence : record.evidence ⊆ stored.evidence
  targetKeys : record.targetKeys ⊆ stored.targetKeys
  generations : record.generationNumbers ⊆ stored.generationNumbers

/-- An accepted batch leaves a record of each of its assets that carries what the batch
supplies and the evidence stored before. -/
def Retained (repository : InMemoryPromotionRepository) (batch : CorePromotionResult) : Prop :=
  ∀ result, (repository.apply batch).2 = .ok result → ∀ record ∈ batch.records,
    ∃ stored, (applied repository batch).getByAssetId record.coreAsset.id = some stored ∧
      Carries stored record ∧
      ∀ existing, repository.getByAssetId record.coreAsset.id = some existing →
        existing.evidence ⊆ stored.evidence

/-- Evidence that an accepted batch of the run supplied is in every record of its asset that
is stored later. -/
def Lasting (repository : InMemoryPromotionRepository) (run : List CorePromotionResult) : Prop :=
  ∀ before batch middle later, run = before ++ batch :: (middle ++ later) →
    ∀ result, ((after applied repository before).apply batch).2 = .ok result →
      ∀ record ∈ batch.records, ∃ stored,
        (after applied repository (before ++ batch :: middle)).getByAssetId record.coreAsset.id =
          some stored ∧ record.evidence ⊆ stored.evidence

/-- What an accepted batch adds to a stored record comes with a new generation. -/
def AddsWithGeneration (repository : InMemoryPromotionRepository) (batch : CorePromotionResult) :
    Prop :=
  ∀ result, (repository.apply batch).2 = .ok result → ∀ record ∈ batch.records,
    ∀ existing, repository.getByAssetId record.coreAsset.id = some existing →
      existing.generationNumbers = record.generationNumbers →
        record.evidence ⊆ existing.evidence ∧ record.targetKeys ⊆ existing.targetKeys

/-! ## One batch -/

section

variable {repository : InMemoryPromotionRepository} {record : CorePromotionRecord}
  {entry : PlannedRecord}

theorem evidence_of_keys {first second : CorePromotionRecord}
    (h : ∀ key ∈ evidenceKeys first, key ∈ evidenceKeys second) :
    first.evidence ⊆ second.evidence := by
  intro item hitem
  have hkey := h (evidenceKey item) (mem_map_of_mem hitem)
  have ⟨other, hother, hsame⟩ := mem_map.mp hkey
  have hequal : other = item := by
    obtain ⟨_, _, _, _⟩ := other
    obtain ⟨_, _, _, _⟩ := item
    simpa [evidenceKey] using hsame
  exact hequal ▸ hother

theorem Planned.storedRecord (h : Planned repository record entry) :
    (repository.store entry).byAssetId.get? record.coreAsset.id =
      some (storedRecord (repository.byAssetId.get? record.coreAsset.id) record) := by
  rcases h.ids with ⟨hasset, _⟩
  cases hfound : repository.byAssetId.get? record.coreAsset.id with
  | none =>
    have hentry := h.created hfound
    rw [store_byAssetId (by simp [hentry]), hentry]
    simp [Assembly.storedRecord]
  | some existing =>
    rcases h.advanced existing hfound with ⟨_, hentry⟩
    by_cases hsame : existing.generationNumbers = record.generationNumbers
    · rw [store_unchanged (by simp [hentry, hsame]), hfound]
      simp [Assembly.storedRecord, hsame]
    · rw [store_byAssetId (by simp [hentry, hsame]), Dictionary.get?_set, hasset, if_pos rfl,
        hentry]
      simp [Assembly.storedRecord, hsame]

theorem stored_frame {assetId : Text} {planned : List PlannedRecord}
    (h : ∀ entry ∈ planned, assetId ≠ entry.1.coreAsset.id) :
    (planned.foldl InMemoryPromotionRepository.store repository).byAssetId.get? assetId =
      repository.byAssetId.get? assetId := by
  induction planned generalizing repository with
  | nil => rfl
  | cons entry planned ih =>
    rw [foldl_cons, ih fun other hother => h other (mem_cons_of_mem entry hother)]
    exact store_other_asset (h entry mem_cons_self)

theorem batch_records {records : List CorePromotionRecord} {planned : List PlannedRecord}
    (hplanned : List.Forall₂ (Planned repository) records planned)
    (hassets : (records.map (·.coreAsset.id)).Nodup)
    (hidentities : (records.map (·.durableIdentityKey)).Nodup) :
    ∀ record ∈ records,
      (planned.foldl InMemoryPromotionRepository.store repository).byAssetId.get?
          record.coreAsset.id =
        some (storedRecord (repository.byAssetId.get? record.coreAsset.id) record) := by
  induction planned generalizing repository records with
  | nil =>
    cases hplanned
    exact fun _ h => absurd h not_mem_nil
  | cons entry planned ih =>
    cases hplanned with
    | @cons record _ records _ hhere hrest =>
      have ⟨hasset, hassets⟩ := nodup_cons.mp hassets
      have ⟨hidentity, hidentities⟩ := nodup_cons.mp hidentities
      have ⟨hassetId, hidentityKey⟩ := hhere.ids
      have hother : ∀ other ∈ records, other.coreAsset.id ≠ entry.1.coreAsset.id ∧
          other.durableIdentityKey ≠ entry.1.durableIdentityKey := by
        intro other hmember
        rw [hassetId, hidentityKey]
        exact ⟨fun h => hasset (mem_map.mpr ⟨other, hmember, h⟩),
          fun h => hidentity (mem_map.mpr ⟨other, hmember, h⟩)⟩
      have hboth := (forall₂_and_left ..).mpr ⟨hother, hrest⟩
      have hframed : List.Forall₂ (Planned (repository.store entry)) records planned :=
        hboth.imp fun _ _ h => h.2.frame h.1.1 h.1.2
      intro later hlater
      rw [foldl_cons]
      cases mem_cons.mp hlater with
      | inl hsame =>
        rw [hsame, stored_frame, hhere.storedRecord]
        intro other hentry
        have ⟨source, hsource, hplan⟩ := exists_item hrest hentry
        rw [hplan.ids.1]
        exact fun h => hasset (mem_map.mpr ⟨source, hsource, h.symm⟩)
      | inr hmember =>
        rw [ih hframed hassets hidentities later hmember,
          store_other_asset (hother later hmember).1]

end

section

variable {repository : InMemoryPromotionRepository} {batch : CorePromotionResult}
  {result : PromotionPersistenceResult}

/-- What an accepted batch leaves of each record, and that it advances what was stored. -/
theorem accepted_record (h : (repository.apply batch).2 = .ok result)
    {record : CorePromotionRecord} (hrecord : record ∈ batch.records) :
    (applied repository batch).getByAssetId record.coreAsset.id =
        some (storedRecord (repository.getByAssetId record.coreAsset.id) record) ∧
      ∀ existing, repository.getByAssetId record.coreAsset.id = some existing →
        existing.evidence ⊆ record.evidence := by
  have ⟨planning, hplanned, hnext⟩ := apply_accepted h
  constructor
  · unfold InMemoryPromotionRepository.getByAssetId
    rw [hnext]
    exact batch_records hplanned.planned hplanned.distinctAssets hplanned.distinctIdentities
      record hrecord
  · intro existing hexisting
    have ⟨index, hindex, hget⟩ := mem_iff_getElem.mp hrecord
    have hlength := hplanned.planned.length_eq
    have hplan := hplanned.planned.get hindex (hlength ▸ hindex)
    simp only [List.get_eq_getElem, hget] at hplan
    exact evidence_of_keys (hplan.advanced existing hexisting).1.evidence

/-- A batch is retained exactly when what it adds to stored records comes with a new
generation. -/
theorem retained_iff : Retained repository batch ↔ AddsWithGeneration repository batch := by
  constructor
  · intro hretained result hresult record hrecord existing hexisting hsame
    have ⟨stored, hstored, hcarries, _⟩ := hretained result hresult record hrecord
    rw [(accepted_record hresult hrecord).1, hexisting, storedRecord, if_pos hsame] at hstored
    rw [← Option.some.inj hstored] at hcarries
    exact ⟨hcarries.evidence, hcarries.targetKeys⟩
  · intro hadds result hresult record hrecord
    have ⟨hstored, hbefore⟩ := accepted_record hresult hrecord
    refine ⟨_, hstored, ?_⟩
    cases hexisting : repository.getByAssetId record.coreAsset.id with
    | none => exact ⟨⟨fun _ h => h, fun _ h => h, fun _ h => h⟩, nofun⟩
    | some existing =>
      rw [storedRecord]
      split
      · next hsame =>
        have hadded := hadds result hresult record hrecord existing hexisting hsame
        refine ⟨⟨hadded.1, hadded.2, fun _ h => hsame ▸ h⟩, ?_⟩
        intro other hother
        rw [Option.some.inj hother]
        exact fun _ h => h
      · refine ⟨⟨fun _ h => h, fun _ h => h, fun _ h => h⟩, ?_⟩
        intro other hother
        rw [← Option.some.inj hother]
        exact hbefore existing hexisting

theorem applied_grows (repository : InMemoryPromotionRepository) (batch : CorePromotionResult) :
    Grows repository (applied repository batch) := by
  cases hresult : (repository.apply batch).2 with
  | error error =>
    rw [apply_rejected hresult]
    exact .refl repository
  | ok result =>
    have ⟨planning, hplanned, hnext⟩ := apply_accepted hresult
    rw [hnext]
    exact (batch_stored hplanned.planned hplanned.distinctAssets
      hplanned.distinctIdentities).grows

end

/-! ## Runs -/

theorem run_grows (repository : InMemoryPromotionRepository) (run : List CorePromotionResult) :
    Grows repository (after applied repository run) := by
  induction run generalizing repository with
  | nil => exact .refl repository
  | cons batch run ih => exact (applied_grows repository batch).trans (ih _)

/-- In a run whose batches are all retained, evidence once accepted is found ever after. -/
theorem lasting_of_retained {repository : InMemoryPromotionRepository}
    {run : List CorePromotionResult}
    (h : ∀ call ∈ calls applied repository run, Retained call.1 call.2) :
    Lasting repository run := by
  intro before batch middle later hrun result hresult record hrecord
  have hcall : (after applied repository before, batch) ∈ calls applied repository run :=
    (mem_calls applied).mpr ⟨before, middle ++ later, hrun, rfl⟩
  have ⟨stored, hstored, hcarries, _⟩ := h _ hcall result hresult record hrecord
  have ⟨final, hfinal, hadvances⟩ := run_grows _ middle record.coreAsset.id stored hstored
  refine ⟨final, ?_, ?_⟩
  · rw [after_append, after_cons]
    exact hfinal
  · exact List.Subset.trans hcarries.evidence (evidence_of_keys hadvances.evidence)

/-- Accepted evidence is retained by every batch of a run, and ever after, exactly when what
the batches add to stored records comes with a new generation. -/
theorem evidence_retained_iff (repository : InMemoryPromotionRepository)
    (run : List CorePromotionResult) :
    ((∀ call ∈ calls applied repository run, Retained call.1 call.2) ∧
        Lasting repository run) ↔
      ∀ call ∈ calls applied repository run, AddsWithGeneration call.1 call.2 := by
  constructor
  · exact fun h call hcall => retained_iff.mp (h.1 call hcall)
  · intro h
    have hretained : ∀ call ∈ calls applied repository run, Retained call.1 call.2 :=
      fun call hcall => retained_iff.mpr (h call hcall)
    exact ⟨hretained, lasting_of_retained hretained⟩

def scannedPump (evidence : List TopologyEvidenceReference) : CorePromotionResult where
  records := [{
    coreAsset := .asset "pump-1" "Feed pump"
    durableIdentityKey := "identity-1"
    generationNumbers := [1]
    targetKeys := ["target-1"]
    promotedBy := "engineer"
    promotedAt := .epoch
    rationale := "commissioning"
    evidence
    acknowledgedConflictOverride := false }]
  unpromotedIdentityKeys := []

def nameplate : TopologyEvidenceReference := ⟨"cip", "10.0.0.5", "identity", "nameplate"⟩

def neighbourReport : TopologyEvidenceReference := ⟨"snmp", "10.0.0.1", "lldp", "neighbour"⟩

/-- A second batch of the same generation is accepted, and its new evidence is not stored. -/
theorem evidence_not_retained :
    ¬ ((∀ call ∈ calls applied {} [scannedPump [nameplate], scannedPump [nameplate, neighbourReport]],
          Retained call.1 call.2) ∧
        Lasting {} [scannedPump [nameplate], scannedPump [nameplate, neighbourReport]]) := by
  intro h
  have hcall : (applied {} (scannedPump [nameplate]), scannedPump [nameplate, neighbourReport]) ∈
      calls applied {} [scannedPump [nameplate], scannedPump [nameplate, neighbourReport]] := by
    simp [calls]
  rcases h.1 _ hcall _ rfl _ mem_cons_self with ⟨stored, hstored, hcarries, _⟩
  have hevidence : stored.evidence = [nameplate] := by
    have hfound : (applied (applied {} (scannedPump [nameplate]))
        (scannedPump [nameplate, neighbourReport])).getByAssetId "pump-1" =
        (scannedPump [nameplate]).records.head? := by
      decide +kernel
    have hsame := Option.some.inj (hstored.symm.trans hfound)
    rw [hsame]
  have hmember := hcarries.evidence (show neighbourReport ∈ [nameplate, neighbourReport] by simp)
  rw [hevidence] at hmember
  revert hmember
  decide +kernel

end TwinForge.Assembly
