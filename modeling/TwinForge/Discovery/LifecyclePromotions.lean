import TwinForge.Discovery.CandidateAcceptance
import TwinForge.Discovery.IdentitySuccession
import TwinForge.Discovery.StateStoreRuns
import TwinForge.Foundation.KeyedMatching

/-! # Promotion of lifecycle identities

An operator asks for active identities of a ledger to become core assets. What is promoted
from the ledger of a run links back to all of it, as the state store demands.
-/

namespace TwinForge.Discovery

open Guards Scans List
open Acceptance (evidenceKey compareEvidenceKeys)

structure CorePromotionRequest where
  durableIdentityKey : Text
  coreAssetId : Text
  name : Text
  assetKind : CoreAssetKind
  promotedBy : Text
  promotedAt : DateTime
  rationale : Text
  deviceType : Option DeviceType := none
  manufacturer : Option Text := none
  model : Option Text := none
  catalogNumber : Option Text := none
  acknowledgeConflictOverride : Bool := false

def buildAsset (request : CorePromotionRequest) : Asset :=
  match request.assetKind with
  | .device =>
    .device request.coreAssetId request.name (request.deviceType.getD .unknown)
      request.manufacturer request.model request.catalogNumber
  | .asset => .asset request.coreAssetId request.name

section

variable (db : CharacterDatabase) (state : IdentityLifecycleState)

def validateRequest (request : CorePromotionRequest)
    (generations : List DurableIdentityGeneration) : Except Text Unit := do
  let validate := fun value field => (validateText db value field).mapError (·.message db)
  validate request.durableIdentityKey "durable_identity_key"
  validate request.coreAssetId "core_asset_id"
  validate request.name "name"
  validate request.promotedBy "promoted_by"
  validate request.rationale "rationale"
  refuse (request.promotedAt.isAware = false) "promoted_at must include a timezone"
  refuse (∃ generation ∈ generations, generation.observedAt.isAware = false)
    "can't compare offset-naive and offset-aware datetimes"
  refuse ((DateTime.latest (generations.map (·.observedAt))).any
    (request.promotedAt.instant < ·.instant) = true)
    "promotion cannot predate its latest generation"
  refuse (generations.any (·.conflictOverridden) = true ∧
    request.acknowledgeConflictOverride = false)
    "promotion must acknowledge the accepted conflict override"
  refuse (request.assetKind = .asset ∧ (request.deviceType ≠ none ∨ request.manufacturer ≠ none ∨
      request.model ≠ none ∨ request.catalogNumber ≠ none))
    "device fields are valid only when asset_kind is device"

def promotionRecord (request : CorePromotionRequest) : CorePromotionRecord :=
  let generations := sortedBy (compareOn (·.generation))
    (state.generationsOf request.durableIdentityKey)
  let evidenceByKey := Dictionary.ofItems evidenceKey id (generations.flatMap (·.evidence))
  { coreAsset := buildAsset request, durableIdentityKey := request.durableIdentityKey
    generationNumbers := generations.map (·.generation)
    targetKeys := sortedSet (generations.flatMap (·.targetKeys))
    promotedBy := request.promotedBy, promotedAt := request.promotedAt
    rationale := request.rationale
    evidence := sortedBy compareEvidenceKeys evidenceByKey.values
    acknowledgedConflictOverride := request.acknowledgeConflictOverride }

/-- One turn of the loop over the requests. -/
def promoteIdentity (records : List CorePromotionRecord) (request : CorePromotionRequest) :
    Except Text (List CorePromotionRecord) := do
  let key := request.durableIdentityKey
  refuse (key ∉ state.activeIdentityKeys)
    (("identity " : Text) ++ db.reprText key ++ (" is not active" : Text))
  refuse (key ∈ records.map (·.durableIdentityKey))
    (("duplicate promotion for " : Text) ++ db.reprText key)
  refuse (request.coreAssetId ∈ records.map (·.coreAsset.id))
    (("duplicate core asset ID " : Text) ++ db.reprText request.coreAssetId)
  validateRequest db request
    (sortedBy (compareOn (·.generation)) (state.generationsOf key))
  return records ++ [promotionRecord state request]

def promoteLifecycleIdentities (requests : List CorePromotionRequest) :
    Except Text CorePromotionResult := do
  let records ← requests.foldlM (promoteIdentity db state) []
  return {
    records := sortedBy (compareOn (·.coreAsset.id)) records
    unpromotedIdentityKeys := sortedSet (state.activeIdentityKeys.filter
      (· ∉ requests.map (·.durableIdentityKey))) }

end

/-- Records of different assets and active identities, each with all its generations. -/
structure Promoted (state : IdentityLifecycleState) (records : List CorePromotionRecord) :
    Prop where
  active : ∀ record ∈ records, record.durableIdentityKey ∈ state.activeIdentityKeys
  whole : ∀ record ∈ records, record.generationNumbers =
    consecutive (state.generationsOf record.durableIdentityKey).length
  identities : (records.map (·.durableIdentityKey)).Nodup
  assets : (records.map (·.coreAsset.id)).Nodup

section

variable {db : CharacterDatabase} {state : IdentityLifecycleState}
  {records next : List CorePromotionRecord} {request : CorePromotionRequest}

theorem sorted_numbers (hledger : Ledger state) (key : Text) :
    (sortedBy (compareOn (·.generation)) (state.generationsOf key)).map (·.generation) =
      consecutive (state.generationsOf key).length := by
  have hperm := (sortedBy_perm (compareOn (·.generation)) (state.generationsOf key)).map
    (·.generation)
  refine (hperm.trans (hledger.numbered key)).eq_of_pairwise' ?_ (consecutive_pairwise _)
  have hsorted := @sortedBy_pairwise _ (compareOn DurableIdentityGeneration.generation) _
    (state.generationsOf key)
  exact pairwise_map.mpr (hsorted.imp fun h => Int.isLE_compare.mp h)

@[simp] theorem buildAsset_id (request : CorePromotionRequest) :
    (buildAsset request).id = request.coreAssetId := by
  unfold buildAsset
  split <;> rfl

theorem promoteIdentity_promoted (hledger : Ledger state) (h : Promoted state records)
    (hnext : promoteIdentity db state records request = .ok next) :
    Promoted state next ∧ next = records ++ [promotionRecord state request] := by
  simp only [promoteIdentity, bind_eq_ok, refuse_eq_ok, exists_unit, pure_eq_ok, not_not] at hnext
  rcases hnext with ⟨hactive, hidentity, hasset, _, _, rfl⟩
  refine ⟨⟨?_, ?_, ?_, ?_⟩, rfl⟩
  · simpa [promotionRecord, or_imp, forall_and] using ⟨h.active, hactive⟩
  · simpa [promotionRecord, or_imp, forall_and, sorted_numbers hledger] using h.whole
  · rw [map_append, nodup_append]
    simpa [promotionRecord, h.identities] using hidentity
  · rw [map_append, nodup_append]
    simpa [promotionRecord, h.assets] using hasset

theorem promoted_checked (hledger : Ledger state) {past : List CorePromotionRecord}
    (h : Promoted state (past ++ records)) :
    records.foldlM (validatePromotion state)
      (past.map (·.coreAsset.id), past.map (·.durableIdentityKey)) =
        .ok ((past ++ records).map (·.coreAsset.id),
          (past ++ records).map (·.durableIdentityKey)) := by
  induction records generalizing past with
  | nil => simp [pure, Except.pure]
  | cons record records ih =>
    have hmem : record ∈ past ++ record :: records := mem_append_right _ mem_cons_self
    have hkey := mem_sortedSet.mp (h.active record hmem)
    rcases mem_map.mp (mem_filter.mp hkey).1 with ⟨generation, hgeneration, hsame⟩
    have hnonempty : (state.generationsOf record.durableIdentityKey).length ≠ 0 := by
      have hfound : generation ∈ state.generationsOf record.durableIdentityKey :=
        mem_filter.mpr ⟨hgeneration, by simpa using hsame⟩
      exact length_pos_of_mem hfound |>.ne'
    have havailable := sortedBy_consecutive (hledger.numbered record.durableIdentityKey)
    have hassets := h.assets
    have hidentities := h.identities
    rw [map_append, map_cons, nodup_append] at hassets hidentities
    have hstep : validatePromotion state
        (past.map (·.coreAsset.id), past.map (·.durableIdentityKey)) record =
          .ok ((past ++ [record]).map (·.coreAsset.id),
            (past ++ [record]).map (·.durableIdentityKey)) := by
      simp only [validatePromotion, bind_eq_ok, refuse_eq_ok, exists_unit, pure_eq_ok, not_not,
        havailable, h.whole record hmem, ne_eq, length_consecutive]
      refine ⟨fun hseen => ?_, fun hseen => ?_, fun hnone => ?_, ?_, by simp⟩
      · exact hassets.2.2 _ hseen _ mem_cons_self rfl
      · exact hidentities.2.2 _ hseen _ mem_cons_self rfl
      · exact hnonempty ((length_consecutive _).symm.trans (congrArg length hnone))
      · exact (take_of_length_le (by simp)).symm
    have hmoved : Promoted state ((past ++ [record]) ++ records) := by simpa using h
    rw [foldlM_cons, hstep]
    simpa using ih hmoved

theorem promoted_result (hledger : Ledger state) {requests : List CorePromotionRequest}
    {result : CorePromotionResult}
    (h : promoteLifecycleIdentities db state requests = .ok result) :
    Promoted state result.records ∧
      result.records.Perm (requests.map (promotionRecord state)) ∧
      result.unpromotedIdentityKeys.Nodup ∧ ∀ key, key ∈ result.unpromotedIdentityKeys ↔
        key ∈ state.activeIdentityKeys ∧ key ∉ result.records.map (·.durableIdentityKey) := by
  simp only [promoteLifecycleIdentities, bind_eq_ok, pure_eq_ok] at h
  rcases h with ⟨records, hrecords, rfl⟩
  have hpromoted : Promoted state records ∧ records = requests.map (promotionRecord state) := by
    apply foldlM_history hrecords
    · exact ⟨⟨by simp, by simp, by simp, by simp⟩, rfl⟩
    · intro past request records next _ hpast hnext
      rcases promoteIdentity_promoted hledger hpast.1 hnext with ⟨hkept, happended⟩
      exact ⟨hkept, by rw [happended, hpast.2, map_append]; rfl⟩
  rcases hpromoted with ⟨hpromoted, rfl⟩
  have hperm := sortedBy_perm (compareOn fun record : CorePromotionRecord => record.coreAsset.id)
    (requests.map (promotionRecord state))
  refine ⟨⟨?_, ?_, ?_, ?_⟩, hperm, sortedSet_nodup _, fun key => ?_⟩
  · exact fun record hmem => hpromoted.active record (hperm.mem_iff.mp hmem)
  · exact fun record hmem => hpromoted.whole record (hperm.mem_iff.mp hmem)
  · exact (hperm.map _).nodup_iff.mpr hpromoted.identities
  · exact (hperm.map _).nodup_iff.mpr hpromoted.assets
  · rw [mem_sortedSet, mem_filter, decide_eq_true_iff, (hperm.map _).mem_iff, map_map]
    rfl

end

/-- What is promoted from the ledger of a run passes the cross-link checks of the state store
with it. Each record holds all generations of its identity, and each active identity is
promoted or left, once. -/
theorem promoted_links (db : CharacterDatabase) (run : List LifecycleCall)
    (requests : List CorePromotionRequest) {result : CorePromotionResult}
    (h : promoteLifecycleIdentities db (after (advanced db) {} run) requests = .ok result) :
    let state := after (advanced db) {} run
    validateCrossLinks state result = .ok () ∧ Promoted state result.records ∧
      (result.records.map (·.durableIdentityKey) ++ result.unpromotedIdentityKeys).Perm
        state.activeIdentityKeys := by
  have hledger := after_ledger db run
  rcases promoted_result hledger h with ⟨hpromoted, -, hunique, hunpromoted⟩
  generalize after (advanced db) {} run = state at *
  refine ⟨?_, hpromoted, ?_⟩
  · have hchecked := @promoted_checked _ _ hledger [] hpromoted
    rw [validateCrossLinks, hledger.validateGenerations_ok]
    exact bind_eq_ok.mpr ⟨(), rfl, bind_eq_ok.mpr ⟨_, hchecked, rfl⟩⟩
  · refine (perm_ext_iff_of_nodup ?_ (sortedSet_nodup _)).mpr fun key => ?_
    · rw [nodup_append]
      refine ⟨hpromoted.identities, hunique, fun key hkey other hother hsame => ?_⟩
      exact ((hunpromoted other).mp hother).2 (hsame ▸ hkey)
    · rw [mem_append, hunpromoted]
      constructor
      · rintro (hkey | hkey)
        · rcases mem_map.mp hkey with ⟨record, hrecord, rfl⟩
          exact hpromoted.active record hrecord
        · exact hkey.1
      · intro hkey
        by_cases hasked : key ∈ result.records.map (·.durableIdentityKey)
        · exact .inl hasked
        · exact .inr ⟨hkey, hasked⟩

def firstPromotion : CorePromotionRequest where
  durableIdentityKey := "a"
  coreAssetId := "asset-a"
  name := "Controller"
  assetKind := .device
  promotedBy := "operator"
  promotedAt := .epoch
  rationale := "approved"

def firstRun : List LifecycleCall := [⟨⟨[acceptedRecord "a"]⟩, []⟩]

theorem promoted_of_toBool {db : CharacterDatabase} {state : IdentityLifecycleState}
    {requests : List CorePromotionRequest}
    (h : (promoteLifecycleIdentities db state requests).toBool = true) :
    ∃ result, promoteLifecycleIdentities db state requests = .ok result := by
  cases hresult : promoteLifecycleIdentities db state requests with
  | ok result => exact ⟨result, rfl⟩
  | error _ =>
    rw [hresult] at h
    cases h

theorem promoted_links_first : ∃ result,
    let state := after (advanced Ascii.database) {} firstRun
    validateCrossLinks state result = .ok () ∧ Promoted state result.records ∧
      (result.records.map (·.durableIdentityKey) ++ result.unpromotedIdentityKeys).Perm
        state.activeIdentityKeys := by
  have hok : (promoteLifecycleIdentities Ascii.database
      (after (advanced Ascii.database) {} firstRun) [firstPromotion]).toBool = true := by
    decide +kernel
  rcases promoted_of_toBool hok with ⟨result, h⟩
  exact ⟨result, promoted_links _ firstRun _ h⟩

/-- An update of a stored ledger, with what is promoted from the later one, passes the forward
checks exactly when every asset that was promoted is asked for again, with its identity. -/
theorem repromoted_forward (db : CharacterDatabase) (run later : List LifecycleCall)
    (requests requests' : List CorePromotionRequest) {result result' : CorePromotionResult}
    (h : promoteLifecycleIdentities db (after (advanced db) {} run) requests = .ok result)
    (h' : promoteLifecycleIdentities db (after (advanced db) {} (run ++ later)) requests' =
      .ok result') (revision : Int) :
    validateForward ⟨revision, after (advanced db) {} run, result⟩
        (after (advanced db) {} (run ++ later)) result' = .ok () ↔
      ∀ request ∈ requests, ∃ request' ∈ requests', request'.coreAssetId = request.coreAssetId ∧
        request'.durableIdentityKey = request.durableIdentityKey := by
  have hgrown := after_extends db run later
  rcases promoted_result (after_ledger db run) h with ⟨hold, hrecords, -⟩
  rcases promoted_result (after_ledger db (run ++ later)) h' with ⟨hnew, hrecords', -⟩
  generalize after (advanced db) {} run = state at *
  generalize after (advanced db) {} (run ++ later) = next at *
  have hgenerations : ∀ item ∈ stableGenerations state, item ∈ stableGenerations next :=
    fun _ hitem => map_subset _ hgrown.generations.subset hitem
  have hevents : ∀ item ∈ stableEvents state, item ∈ stableEvents next :=
    fun _ hitem => map_subset _ hgrown.events.subset hitem
  simp only [validateForward, bind_eq_ok, refuse_eq_ok, exists_unit, not_exists, not_and, not_not]
  constructor
  · rintro ⟨-, -, -, hpromotions⟩ request hrequest
    have hmem := hrecords.mem_iff.mpr (mem_map_of_mem hrequest)
    rcases validateForwardPromotion_ok (forM_eq_ok.mp hpromotions _ hmem) with
      ⟨other, hother, hasset, hkey, -⟩
    rcases mem_map.mp (hrecords'.mem_iff.mp hother) with ⟨request', hrequest', rfl⟩
    exact ⟨request', hrequest', by simpa [promotionRecord] using hasset, hkey⟩
  · intro hkept
    refine ⟨hgenerations, hevents, hgrown.inactive, forM_eq_ok.mpr fun record hmem => ?_⟩
    rcases mem_map.mp (hrecords.mem_iff.mp hmem) with ⟨request, hrequest, hrecord⟩
    rcases hkept request hrequest with ⟨request', hrequest', hasset, hkey⟩
    have hother := hrecords'.mem_iff.mpr (mem_map_of_mem hrequest')
    have hfound := ofItems_get?_key hnew.assets hother
    have hid : (promotionRecord next request').coreAsset.id = record.coreAsset.id := by
      simpa [← hrecord, promotionRecord] using hasset
    have hsame : record.durableIdentityKey = (promotionRecord next request').durableIdentityKey :=
      hrecord ▸ hkey.symm
    have hcount : (state.generationsOf record.durableIdentityKey).length ≤
        (next.generationsOf record.durableIdentityKey).length :=
      (hgrown.generations.filter _).length_le
    simp only [validateForwardPromotion, ← hid, hfound, bind_eq_ok, refuse_eq_ok, exists_unit,
      ne_eq, not_not]
    refine ⟨hsame, ?_⟩
    rw [hold.whole record hmem, hnew.whole _ hother, ← hsame, length_consecutive, consecutive,
      consecutive, ← map_take, take_range, Nat.min_eq_left hcount]

theorem repromoted_forward_first : ∃ result result',
    validateForward ⟨1, after (advanced Ascii.database) {} firstRun, result⟩
      (after (advanced Ascii.database) {} (firstRun ++ firstRun)) result' = .ok () := by
  have hok : ∀ run ∈ [firstRun, firstRun ++ firstRun],
      (promoteLifecycleIdentities Ascii.database (after (advanced Ascii.database) {} run)
        [firstPromotion]).toBool = true := by
    decide +kernel
  rcases promoted_of_toBool (hok firstRun (by simp)) with ⟨result, h⟩
  rcases promoted_of_toBool (hok (firstRun ++ firstRun) (by simp)) with ⟨result', h'⟩
  exact ⟨result, result', (repromoted_forward _ firstRun firstRun _ _ h h' 1).mpr
    fun request hrequest => ⟨request, hrequest, rfl, rfl⟩⟩

end TwinForge.Discovery
