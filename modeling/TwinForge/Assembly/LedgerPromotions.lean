import TwinForge.Assembly.SqliteRefinement
import TwinForge.Discovery.LifecyclePromotions

/-! # Promotions of a growing ledger

A client advances a ledger and persists what is promoted from it, in any order. While it asks
for one asset for each identity, no batch is refused and none loses evidence.
-/

namespace TwinForge.Assembly

open Discovery Guards Scans List

inductive PipelineStep where
  | advance (call : LifecycleCall)
  | persist (requests : List CorePromotionRequest)

structure Pipeline where
  ledger : IdentityLifecycleState := {}
  repository : InMemoryPromotionRepository := {}

def Pipeline.step (db : CharacterDatabase) (pipeline : Pipeline) : PipelineStep → Pipeline
  | .advance call => { pipeline with ledger := advanced db pipeline.ledger call }
  | .persist requests =>
    match promoteLifecycleIdentities db pipeline.ledger requests with
    | .error _ => pipeline
    | .ok result => { pipeline with repository := applied pipeline.repository result }

/-- The requests of a run ask for one asset for each identity, and for no asset twice. -/
structure Assigned (assetOf : Text → Asset) (run : List PipelineStep) : Prop where
  distinct : ∀ key other, (assetOf key).id = (assetOf other).id → key = other
  built : ∀ requests, .persist requests ∈ run → ∀ request ∈ requests,
    buildAsset request = assetOf request.durableIdentityKey

/-- What a ledger supplies of the asset of an identity. -/
def Supplies (assetOf : Text → Asset) (ledger : IdentityLifecycleState)
    (record : CorePromotionRecord) : Prop :=
  ∃ request, buildAsset request = assetOf request.durableIdentityKey ∧
    record = promotionRecord ledger request

/-- The repository without a plant, whose records were promoted from earlier states. -/
structure Supplied (assetOf : Text → Asset) (pipeline : Pipeline) : Prop where
  ledger : Ledger pipeline.ledger
  consistent : Consistent pipeline.repository
  plant : pipeline.repository.plant = none
  records : ∀ assetId record, pipeline.repository.byAssetId.get? assetId = some record →
    ∃ earlier, Ledger earlier ∧ Extends earlier pipeline.ledger ∧ Supplies assetOf earlier record

/-! ## Records of two states -/

section

variable {earlier state : IdentityLifecycleState} {assetOf : Text → Asset}
  {existing record : CorePromotionRecord}

theorem promoted_numbers (hledger : Ledger state) (request : CorePromotionRequest) :
    (promotionRecord state request).generationNumbers =
      consecutive (state.generationsOf request.durableIdentityKey).length :=
  sorted_numbers hledger _

theorem mem_promoted_evidence {request : CorePromotionRequest} {item : TopologyEvidenceReference} :
    item ∈ (promotionRecord state request).evidence ↔
      ∃ generation ∈ state.generationsOf request.durableIdentityKey,
        item ∈ generation.evidence := by
  simp only [promotionRecord, mem_sortedBy, Acceptance.mem_evidence, mem_flatMap]

theorem mem_promoted_targets {request : CorePromotionRequest} {target : Text} :
    target ∈ (promotionRecord state request).targetKeys ↔
      ∃ generation ∈ state.generationsOf request.durableIdentityKey,
        target ∈ generation.targetKeys := by
  simp only [promotionRecord, mem_sortedSet, mem_sortedBy, mem_flatMap]

theorem Supplies.asset (h : Supplies assetOf state record) :
    record.coreAsset = assetOf record.durableIdentityKey := by
  rcases h with ⟨request, hbuilt, rfl⟩
  exact hbuilt

theorem Supplies.advances (h : Supplies assetOf earlier existing)
    (h' : Supplies assetOf state record) (hledger : Ledger earlier) (hledger' : Ledger state)
    (hgrown : Extends earlier state)
    (hkey : existing.durableIdentityKey = record.durableIdentityKey) :
    Advances existing record := by
  have hasset : existing.coreAsset = record.coreAsset := by rw [h.asset, h'.asset, hkey]
  rcases h with ⟨request, -, rfl⟩
  rcases h' with ⟨request', -, rfl⟩
  have hrequests : request.durableIdentityKey = request'.durableIdentityKey := hkey
  have hsubperm : (earlier.generationsOf request.durableIdentityKey).Subperm
      (state.generationsOf request'.durableIdentityKey) :=
    hrequests ▸ hgrown.generations.filter _
  refine ⟨hkey, by rw [hasset], ?_, ?_⟩
  · rw [promoted_numbers hledger, promoted_numbers hledger', prefix_iff_eq_take,
      length_consecutive, consecutive, consecutive, ← map_take, take_range,
      Nat.min_eq_left hsubperm.length_le]
  · refine map_subset _ fun item hitem => ?_
    rcases mem_promoted_evidence.mp hitem with ⟨generation, hmem, hfound⟩
    exact mem_promoted_evidence.mpr ⟨generation, hsubperm.subset hmem, hfound⟩

/-- Records with the same generations carry the same. -/
theorem Supplies.carries (h : Supplies assetOf earlier existing)
    (h' : Supplies assetOf state record) (hledger : Ledger earlier) (hledger' : Ledger state)
    (hgrown : Extends earlier state)
    (hkey : existing.durableIdentityKey = record.durableIdentityKey)
    (hsame : existing.generationNumbers = record.generationNumbers) :
    record.evidence ⊆ existing.evidence ∧ record.targetKeys ⊆ existing.targetKeys := by
  rcases h with ⟨request, -, rfl⟩
  rcases h' with ⟨request', -, rfl⟩
  have hrequests : request.durableIdentityKey = request'.durableIdentityKey := hkey
  have hsubperm : (earlier.generationsOf request.durableIdentityKey).Subperm
      (state.generationsOf request'.durableIdentityKey) :=
    hrequests ▸ hgrown.generations.filter _
  have hcount := congrArg length hsame
  rw [promoted_numbers hledger, promoted_numbers hledger', length_consecutive,
    length_consecutive] at hcount
  have hperm := hsubperm.perm_of_length_le hcount.ge
  constructor
  · intro item hitem
    rcases mem_promoted_evidence.mp hitem with ⟨generation, hmem, hfound⟩
    exact mem_promoted_evidence.mpr ⟨generation, hperm.mem_iff.mpr hmem, hfound⟩
  · intro target htarget
    rcases mem_promoted_targets.mp htarget with ⟨generation, hmem, hfound⟩
    exact mem_promoted_targets.mpr ⟨generation, hperm.mem_iff.mpr hmem, hfound⟩

end

/-! ## Batches that are not refused -/

section

variable {repository : InMemoryPromotionRepository} {records : List CorePromotionRecord}
  {planning : Planning}

/-- The record is new to the repository, or advances the one stored for its identity. -/
structure Welcome (repository : InMemoryPromotionRepository) (record : CorePromotionRecord) :
    Prop where
  linked : ∀ assetId,
    repository.assetIdByIdentity.get? record.durableIdentityKey = some assetId →
      assetId = record.coreAsset.id
  advances : ∀ existing, repository.byAssetId.get? record.coreAsset.id = some existing →
    Advances existing record

theorem Welcome.plan (hplant : repository.plant = none) {record : CorePromotionRecord}
    (h : Welcome repository record) (hasset : record.coreAsset.id ∉ planning.batchAssetIds)
    (hidentity : record.durableIdentityKey ∉ planning.batchIdentityKeys) :
    ∃ entry, repository.plan planning record = .ok {
      planned := planning.planned ++ [entry]
      batchAssetIds := planning.batchAssetIds ++ [record.coreAsset.id]
      batchIdentityKeys := planning.batchIdentityKeys ++ [record.durableIdentityKey] } := by
  have hentry : ∃ entry, repository.planEntry record = .ok entry := by
    unfold InMemoryPromotionRepository.planEntry
    cases hfound : repository.byAssetId.get? record.coreAsset.id with
    | none =>
      simp only [InMemoryPromotionRepository.validateNewAssetId, hplant]
      exact ⟨_, rfl⟩
    | some existing => exact ⟨_, planExisting_ok.mpr ⟨h.advances existing hfound, rfl⟩⟩
  rcases hentry with ⟨entry, hentry⟩
  refine ⟨entry, ?_⟩
  simp only [InMemoryPromotionRepository.plan, bind_eq_ok, refuse_eq_ok, exists_unit, pure_eq_ok]
  exact ⟨hasset, hidentity, validateIdentity_ok.mpr h.linked, entry, hentry, rfl⟩

theorem welcome_planned (hplant : repository.plant = none)
    (h : ∀ record ∈ records, Welcome repository record)
    (hassets : (planning.batchAssetIds ++ records.map (·.coreAsset.id)).Nodup)
    (hidentities : (planning.batchIdentityKeys ++ records.map (·.durableIdentityKey)).Nodup) :
    ∃ final, records.foldlM repository.plan planning = .ok final := by
  induction records generalizing planning with
  | nil => exact ⟨planning, rfl⟩
  | cons record records ih =>
    have hasset : record.coreAsset.id ∉ planning.batchAssetIds := fun hseen =>
      (nodup_append.mp hassets).2.2 _ hseen _ mem_cons_self rfl
    have hidentity : record.durableIdentityKey ∉ planning.batchIdentityKeys := fun hseen =>
      (nodup_append.mp hidentities).2.2 _ hseen _ mem_cons_self rfl
    rcases (h record mem_cons_self).plan hplant hasset hidentity with ⟨entry, hplan⟩
    rcases @ih ⟨planning.planned ++ [entry], planning.batchAssetIds ++ [record.coreAsset.id],
        planning.batchIdentityKeys ++ [record.durableIdentityKey]⟩
      (fun other hother => h other (mem_cons_of_mem record hother)) (by simpa using hassets)
      (by simpa using hidentities) with ⟨final, hfinal⟩
    exact ⟨final, foldlM_cons_ok.mpr ⟨_, hplan, hfinal⟩⟩

theorem accepted_frame {assetId : Text} {batch : CorePromotionResult}
    {outcome : PromotionPersistenceResult} (h : (repository.apply batch).2 = .ok outcome)
    (hother : assetId ∉ batch.records.map (·.coreAsset.id)) :
    (applied repository batch).byAssetId.get? assetId = repository.byAssetId.get? assetId := by
  rcases apply_accepted h with ⟨planning, hplanned, hnext⟩
  rw [hnext]
  apply stored_frame
  intro entry hentry hsame
  rcases mem_iff_getElem.mp hentry with ⟨index, hindex, hget⟩
  have hplan := hplanned.planned.get (hplanned.planned.length_eq ▸ hindex) hindex
  simp only [List.get_eq_getElem, hget] at hplan
  rw [hsame, hplan.ids.1] at hother
  exact hother (mem_map_of_mem (getElem_mem _))

end

/-! ## Runs -/

section

variable {db : CharacterDatabase} {assetOf : Text → Asset} {pipeline : Pipeline}
  {requests : List CorePromotionRequest} {result : CorePromotionResult}

/-- A batch that is promoted from the ledger: it is accepted, and each of its records advances
what is stored of its asset. -/
theorem Supplied.batch (h : Supplied assetOf pipeline)
    (hdistinct : ∀ key other, (assetOf key).id = (assetOf other).id → key = other)
    (hbuilt : ∀ request ∈ requests, buildAsset request = assetOf request.durableIdentityKey)
    (hresult : promoteLifecycleIdentities db pipeline.ledger requests = .ok result) :
    (∃ outcome, (pipeline.repository.apply result).2 = .ok outcome) ∧
      (∀ record ∈ result.records, Supplies assetOf pipeline.ledger record) ∧
      ∀ record ∈ result.records, ∀ existing,
        pipeline.repository.byAssetId.get? record.coreAsset.id = some existing →
          existing.durableIdentityKey = record.durableIdentityKey := by
  rcases promoted_result h.ledger hresult with ⟨hpromoted, hrecords, -⟩
  have hsupplies : ∀ record ∈ result.records, Supplies assetOf pipeline.ledger record := by
    intro record hmem
    rcases mem_map.mp (hrecords.mem_iff.mp hmem) with ⟨request, hrequest, hsame⟩
    exact ⟨request, hbuilt request hrequest, hsame.symm⟩
  have hidentity : ∀ record ∈ result.records, ∀ existing,
      pipeline.repository.byAssetId.get? record.coreAsset.id = some existing →
        existing.durableIdentityKey = record.durableIdentityKey := by
    intro record hmem existing hexisting
    rcases h.records _ _ hexisting with ⟨earlier, -, -, hearlier⟩
    have hid := (h.consistent.stored _ _ hexisting).1
    rw [hearlier.asset, (hsupplies record hmem).asset] at hid
    exact hdistinct _ _ hid
  have hwelcome : ∀ record ∈ result.records, Welcome pipeline.repository record := by
    intro record hmem
    constructor
    · intro assetId hlinked
      rcases h.consistent.linked _ _ hlinked with ⟨existing, hexisting, hkey⟩
      rcases h.records _ _ hexisting with ⟨earlier, -, -, hearlier⟩
      rw [← (h.consistent.stored _ _ hexisting).1, hearlier.asset, hkey,
        (hsupplies record hmem).asset]
    · intro existing hexisting
      rcases h.records _ _ hexisting with ⟨earlier, hledger, hgrown, hearlier⟩
      exact hearlier.advances (hsupplies record hmem) hledger h.ledger hgrown
        (hidentity record hmem existing hexisting)
  refine ⟨?_, hsupplies, hidentity⟩
  rcases @welcome_planned _ result.records {} h.plant hwelcome (by simpa using hpromoted.assets)
    (by simpa using hpromoted.identities) with ⟨final, hfinal⟩
  unfold InMemoryPromotionRepository.apply
  rw [hfinal]
  exact ⟨_, rfl⟩

theorem Supplied.step (h : Supplied assetOf pipeline)
    (hdistinct : ∀ key other, (assetOf key).id = (assetOf other).id → key = other)
    (step : PipelineStep) (hbuilt : ∀ requests, step = .persist requests → ∀ request ∈ requests,
      buildAsset request = assetOf request.durableIdentityKey) :
    Supplied assetOf (pipeline.step db step) := by
  cases step with
  | advance call =>
    rcases @advanced_ledger db _ h.ledger call with ⟨hledger, hgrown⟩
    refine ⟨hledger, h.consistent, h.plant, fun assetId record hfound => ?_⟩
    rcases h.records assetId record hfound with ⟨earlier, hearlier, hextends, hsupplies⟩
    exact ⟨earlier, hearlier, hextends.trans hgrown, hsupplies⟩
  | persist requests =>
    cases hresult : promoteLifecycleIdentities db pipeline.ledger requests with
    | error _ =>
      simp only [Pipeline.step, hresult]
      exact h
    | ok result =>
      simp only [Pipeline.step, hresult]
      rcases h.batch hdistinct (hbuilt requests rfl) hresult with
        ⟨⟨outcome, haccepted⟩, hsupplies, hidentity⟩
      refine ⟨h.ledger, (applied_keeps h.consistent result).1, applied_plant h.plant result,
        fun assetId record hfound => ?_⟩
      by_cases hmember : assetId ∈ result.records.map (·.coreAsset.id)
      · rcases mem_map.mp hmember with ⟨batched, hbatched, rfl⟩
        have hstored := (accepted_record haccepted hbatched).1
        have hrecord := Option.some.inj (hfound.symm.trans hstored)
        have hown := hsupplies batched hbatched
        cases hexisting : pipeline.repository.byAssetId.get? batched.coreAsset.id with
        | none =>
          have hsame : record = batched := by
            simpa [InMemoryPromotionRepository.getByAssetId, hexisting, storedRecord] using hrecord
          exact ⟨_, h.ledger, .refl _, hsame ▸ hown⟩
        | some existing =>
          have hkept := h.records _ _ hexisting
          rcases hkept with ⟨earlier, hearlier, hextends, hexistingSupplies⟩
          have hasset : existing.coreAsset = batched.coreAsset := by
            rw [hexistingSupplies.asset, hown.asset, hidentity batched hbatched existing hexisting]
          simp only [InMemoryPromotionRepository.getByAssetId, hexisting, storedRecord] at hrecord
          split at hrecord
          · exact ⟨earlier, hearlier, hextends, hrecord ▸ hexistingSupplies⟩
          · exact ⟨_, h.ledger, .refl _, by rw [hrecord, hasset]; exact hown⟩
      · exact h.records assetId record (accepted_frame haccepted hmember ▸ hfound)

theorem run_supplied {run : List PipelineStep} (h : Assigned assetOf run) :
    Supplied assetOf (after (Pipeline.step db) {} run) := by
  have hprefix : ∀ steps, (∀ step ∈ steps, step ∈ run) →
      Supplied assetOf (after (Pipeline.step db) {} steps) := by
    intro steps
    induction steps using reverseRecOn with
    | nil =>
      intro _
      exact ⟨Ledger.empty, consistent_empty none, rfl, fun _ _ hfound => by simp at hfound⟩
    | append_singleton steps step ih =>
      intro hmem
      rw [after_append]
      refine (ih fun other hother => hmem other (mem_append_left _ hother)).step h.distinct step ?_
      rintro requests rfl
      exact h.built requests (hmem _ (by simp))
  exact hprefix run fun _ hmem => hmem

end

/-- Whatever a client has done before, a batch that it promotes from the ledger is accepted by
the repository and retained: what is stored of each asset carries all that was promoted. -/
theorem pipeline_retains (db : CharacterDatabase) (assetOf : Text → Asset)
    (run : List PipelineStep) (requests : List CorePromotionRequest)
    (h : Assigned assetOf (run ++ [.persist requests])) {result : CorePromotionResult}
    (hresult : promoteLifecycleIdentities db (after (Pipeline.step db) {} run).ledger requests =
      .ok result) :
    let repository := (after (Pipeline.step db) {} run).repository
    (∃ outcome, (repository.apply result).2 = .ok outcome) ∧ Retained repository result := by
  have hbefore : Assigned assetOf run :=
    ⟨h.distinct, fun requests hmem => h.built requests (mem_append_left _ hmem)⟩
  have hsupplied := @run_supplied db _ _ hbefore
  have hbuilt := h.built requests (mem_append_right _ mem_cons_self)
  rcases hsupplied.batch h.distinct hbuilt hresult with ⟨haccepted, hsupplies, hidentity⟩
  refine ⟨haccepted, retained_iff.mpr ?_⟩
  intro _ _ record hrecord existing hexisting hsame
  rcases hsupplied.records _ _ hexisting with ⟨earlier, hledger, hgrown, hearlier⟩
  exact hearlier.carries (hsupplies record hrecord) hledger hsupplied.ledger hgrown
    (hidentity record hrecord existing hexisting) hsame

def assetOfKey (key : Text) : Asset :=
  .device (("asset-" : Text) ++ key) "Controller" .unknown none none none

/-- The identity is observed, promoted, and observed again. -/
def observedTwice : List PipelineStep :=
  [.advance ⟨⟨[acceptedRecord "a"]⟩, []⟩, .persist [firstPromotion],
    .advance ⟨⟨[acceptedRecord "a"]⟩, []⟩]

theorem pipeline_retains_twice : ∃ result,
    (∃ outcome, ((after (Pipeline.step Ascii.database) {} observedTwice).repository.apply
      result).2 = .ok outcome) ∧
    Retained (after (Pipeline.step Ascii.database) {} observedTwice).repository result := by
  have hok : (promoteLifecycleIdentities Ascii.database
      (after (Pipeline.step Ascii.database) {} observedTwice).ledger
        [firstPromotion]).toBool = true := by
    decide +kernel
  rcases promoted_of_toBool hok with ⟨result, h⟩
  have hassigned : Assigned assetOfKey (observedTwice ++ [.persist [firstPromotion]]) := by
    constructor
    · exact fun key other hsame => append_cancel_left hsame
    · intro requests hmem request hrequest
      have hrequests : requests = [firstPromotion] := by
        simpa [observedTwice] using hmem
      rw [hrequests, mem_singleton] at hrequest
      rw [hrequest]
      rfl
  exact ⟨result, pipeline_retains _ assetOfKey observedTwice _ hassigned h⟩

end TwinForge.Assembly
