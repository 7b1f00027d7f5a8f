import Mathlib.Data.List.Perm.Subperm
import TwinForge.Discovery.PhysicalEntities
import TwinForge.Foundation.Grouping

/-! # Acceptance of reconciliation candidates

Operators accept, reject or defer candidates of three kinds. Accepted candidates of one
durable key are assembled into one identity; candidates without a review stay unreviewed.
-/

namespace TwinForge.Discovery.Acceptance

open Guards List
open PhysicalEntities (SnmpPhysicalCandidateResult)

structure CipPhysicalReconciliationCandidate where
  key : Text
  observationTarget : Text
  evidence : List TopologyEvidenceReference

structure IdentityReconciliationResult where
  «matches» : List CipPhysicalReconciliationCandidate

inductive ConfiguredModuleComparisonStatus where
  | exact | partialMatch | conflict | insufficient
deriving DecidableEq, Repr

structure ConfiguredModuleReconciliationCandidate where
  key : Text
  targetKey : Text
  status : ConfiguredModuleComparisonStatus
  evidence : List TopologyEvidenceReference

structure ConfiguredModuleReconciliationResult where
  candidates : List ConfiguredModuleReconciliationCandidate

structure CandidateDescriptor where
  key : Text
  targetKey : Text
  evidence : List TopologyEvidenceReference
  requiresOverride : Bool := false

structure AcceptancePolicyError where
  message : Text
deriving DecidableEq, Repr

/-- Accepted identities and the complete review-state partition. -/
structure ReviewedCandidates extends AcceptanceResult where
  rejectedCandidateKeys : List Text
  deferredCandidateKeys : List Text
  unreviewedCandidateKeys : List Text
deriving DecidableEq, Repr

abbrev Catalog := Dictionary Text CandidateDescriptor

/-! ## Catalogue and reviews -/

section

variable (db : CharacterDatabase) (physical : SnmpPhysicalCandidateResult)
  (identities : IdentityReconciliationResult) (configured : ConfiguredModuleReconciliationResult)

def candidateDescriptors : List CandidateDescriptor :=
  (physical.assets.map fun item => ⟨item.key, item.observationTarget, item.evidence, false⟩) ++
    (identities.matches.map fun item => ⟨item.key, item.observationTarget, item.evidence, false⟩) ++
    configured.candidates.map fun item => ⟨item.key, item.targetKey, item.evidence,
      decide (item.status = .conflict ∨ item.status = .insufficient)⟩

def candidateCatalog : Except AcceptancePolicyError Catalog := do
  let descriptors := candidateDescriptors physical identities configured
  let catalog := Dictionary.ofItems (·.key) id descriptors
  refuse (catalog.entries.length ≠ descriptors.length) ⟨"candidate keys must be unique"⟩
  return catalog

def validateReview (review : CandidateReview) (descriptor : CandidateDescriptor) :
    Except AcceptancePolicyError Unit := do
  refuse (review.reviewedAt.offset = none) ⟨"reviewed_at must include a timezone"⟩
  refuse (db.strip review.reviewedBy = []) ⟨"reviewed_by must not be blank"⟩
  refuse (review.reviewedBy ≠ db.strip review.reviewedBy) ⟨"reviewed_by must be trimmed"⟩
  refuse (db.strip review.rationale = []) ⟨"rationale must not be blank"⟩
  refuse (review.rationale ≠ db.strip review.rationale) ⟨"rationale must be trimmed"⟩
  if review.disposition = .accept then
    let durable := review.durableIdentityKey.getD []
    refuse (durable = []) ⟨"accepted candidates require a durable_identity_key"⟩
    refuse (durable ≠ db.strip durable) ⟨"durable_identity_key must be trimmed"⟩
    refuse (descriptor.requiresOverride = true ∧ review.overrideConflict = false)
      ⟨("candidate " : Text) ++ db.reprText review.candidateKey ++
        (" requires an explicit override" : Text)⟩
  else
    refuse (review.durableIdentityKey ≠ none)
      ⟨"rejected or deferred candidates cannot name a durable identity"⟩
    refuse (review.overrideConflict = true)
      ⟨"override_conflict is valid only for accepted candidates"⟩

/-- The first loop over the reviews. -/
def takeReview (catalog : Catalog) (byCandidate : Dictionary Text CandidateReview)
    (review : CandidateReview) : Except AcceptancePolicyError (Dictionary Text CandidateReview) :=
  match catalog.get? review.candidateKey with
  | none => .error ⟨("unknown candidate key " : Text) ++ db.reprText review.candidateKey⟩
  | some descriptor => do
    refuse ((byCandidate.get? review.candidateKey).isSome = true)
      ⟨("duplicate review for candidate " : Text) ++ db.reprText review.candidateKey⟩
    validateReview db review descriptor
    return byCandidate.set review.candidateKey review

/-! ## Identities -/

def evidenceKey (evidence : TopologyEvidenceReference) : Text × Text × Text × Text :=
  (evidence.protocol, evidence.observationTarget, evidence.identifier, evidence.description)

def compareEvidenceKeys : TopologyEvidenceReference → TopologyEvidenceReference → Ordering :=
  compareLex (compareOn (·.protocol)) (compareLex (compareOn (·.observationTarget))
    (compareLex (compareOn (·.identifier)) (compareOn (·.description))))

def identityRecord (catalog : Catalog) (durableKey : Text)
    (identityReviews : List CandidateReview) : AcceptedIdentityRecord :=
  let reviews := sortedBy (compareOn (·.candidateKey)) identityReviews
  let descriptors := reviews.filterMap fun item => catalog.get? item.candidateKey
  let evidenceByKey := Dictionary.ofItems evidenceKey id (descriptors.flatMap (·.evidence))
  { key := durableKey
    candidateKeys := reviews.map (·.candidateKey)
    targetKeys := sortedSet (descriptors.map (·.targetKey))
    reviews
    evidence := sortedBy compareEvidenceKeys evidenceByKey.values
    conflictOverridden := reviews.any (·.overrideConflict) }

def keysOf (disposition : CandidateDisposition) (reviews : List CandidateReview) : List Text :=
  (reviews.filter (·.disposition = disposition)).map (·.candidateKey)

def acceptedGroups (reviews : List CandidateReview) : Dictionary Text (List CandidateReview) :=
  Dictionary.groupBy (·.durableIdentityKey.getD []) (reviews.filter (·.disposition = .accept))

/-- The second loop over the reviews, and the result. -/
def assemble (catalog : Catalog) (byCandidate : Dictionary Text CandidateReview)
    (reviews : List CandidateReview) : ReviewedCandidates where
  acceptedIdentities := sortedBy (compareOn (·.key))
    ((acceptedGroups reviews).entries.map fun (key, group) => identityRecord catalog key group)
  rejectedCandidateKeys := sortedBy compare (keysOf .reject reviews)
  deferredCandidateKeys := sortedBy compare (keysOf .defer reviews)
  unreviewedCandidateKeys :=
    sortedBy compare (catalog.keys.filter fun key => key ∉ byCandidate.keys)

def applyCandidateReviews (reviews : List CandidateReview) :
    Except AcceptancePolicyError ReviewedCandidates := do
  let catalog ← candidateCatalog physical identities configured
  let byCandidate ← reviews.foldlM (takeReview db catalog) {}
  return assemble catalog byCandidate reviews

end

/-! ## Catalogues -/

section

variable {physical : SnmpPhysicalCandidateResult} {identities : IdentityReconciliationResult}
  {configured : ConfiguredModuleReconciliationResult} {catalog : Catalog}

/-- The catalogue has the candidates under their keys. -/
structure Lists (catalog : Catalog) (descriptors : List CandidateDescriptor) : Prop where
  once : (descriptors.map (·.key)).Nodup
  keys : catalog.keys = descriptors.map (·.key)
  get? : ∀ key item, catalog.get? key = some item ↔ item ∈ descriptors ∧ item.key = key

theorem candidateCatalog_lists (h : candidateCatalog physical identities configured = .ok catalog) :
    Lists catalog (candidateDescriptors physical identities configured) := by
  unfold candidateCatalog at h
  simp only [bind_eq_ok, refuse_eq_ok, exists_unit, pure_eq_ok, ne_eq, not_not] at h
  have ⟨hlength, hcatalog⟩ := h
  rw [hcatalog] at hlength
  have honce : ((candidateDescriptors physical identities configured).map (·.key)).Nodup := by
    have hsubset : catalog.keys ⊆ (candidateDescriptors physical identities configured).map (·.key) := by
      intro key hkey
      have ⟨item, hitem⟩ := (catalog.mem_keys_iff key).mp hkey
      rw [← hcatalog] at hitem
      have ⟨other, hother, hsame, _⟩ := Dictionary.ofItems_get? hitem
      exact mem_map.mpr ⟨other, hother, hsame⟩
    have hnodup : catalog.keys.Nodup := catalog.nodup
    have hperm := (subperm_of_subset hnodup hsubset).perm_of_length_le (by
      simp only [Dictionary.keys, length_map]
      omega)
    exact hperm.nodup_iff.mp hnodup
  have hentries : catalog.entries = (candidateDescriptors physical identities configured).map
      fun item => (item.key, id item) := hcatalog ▸ Dictionary.ofItems_entries honce
  refine ⟨honce, by simp [Dictionary.keys, hentries], fun key item => ?_⟩
  rw [← Dictionary.mem_entries_iff, hentries, mem_map]
  constructor
  · rintro ⟨other, hother, ⟨⟩⟩
    exact ⟨hother, rfl⟩
  · rintro ⟨hitem, rfl⟩
    exact ⟨item, hitem, rfl⟩

end

/-! ## Reviews -/

section

variable {db : CharacterDatabase} {catalog : Catalog} {review : CandidateReview}
  {descriptor : CandidateDescriptor} {reviews other : List CandidateReview}

def Trimmed (db : CharacterDatabase) (text : Text) : Prop := db.strip text = text ∧ text ≠ []

structure ValidReview (db : CharacterDatabase) (review : CandidateReview)
    (descriptor : CandidateDescriptor) : Prop where
  aware : review.reviewedAt.offset ≠ none
  reviewer : Trimmed db review.reviewedBy
  rationale : Trimmed db review.rationale
  accepted : review.disposition = .accept →
    (∃ durable ∈ review.durableIdentityKey, Trimmed db durable) ∧
      (descriptor.requiresOverride = true → review.overrideConflict = true)
  declined : review.disposition ≠ .accept →
    review.durableIdentityKey = none ∧ review.overrideConflict = false

theorem trimmed_iff {text : Text} :
    Trimmed db text ↔ ¬ db.strip text = [] ∧ ¬ text ≠ db.strip text := by
  unfold Trimmed
  constructor
  · intro ⟨hstrip, hnonempty⟩
    exact ⟨fun h => hnonempty (hstrip ▸ h), fun h => h hstrip.symm⟩
  · intro ⟨hnonempty, hstrip⟩
    have hsame := not_not.mp hstrip
    exact ⟨hsame.symm, fun h => hnonempty (hsame ▸ h)⟩

theorem durable_iff {durable : Option Text} : (∃ text ∈ durable, Trimmed db text) ↔
    ¬ durable.getD [] = [] ∧ ¬ durable.getD [] ≠ db.strip (durable.getD []) := by
  cases durable with
  | none => simp
  | some text =>
    simp only [Option.mem_def, Option.some.injEq, exists_eq_left', Option.getD_some, Trimmed,
      ne_eq, not_not]
    exact ⟨fun h => ⟨h.2, h.1.symm⟩, fun h => ⟨h.2.symm, h.1⟩⟩

theorem validateReview_eq_ok :
    validateReview db review descriptor = .ok () ↔ ValidReview db review descriptor := by
  unfold validateReview
  simp only [bind_eq_ok, refuse_eq_ok, exists_unit]
  by_cases haccept : review.disposition = .accept
  · rw [if_pos haccept]
    simp only [bind_eq_ok, refuse_eq_ok, exists_unit]
    constructor
    · intro ⟨haware, hreviewer, htrimmed, hrationale, htrimmed', hdurable, hkey, hover⟩
      refine ⟨haware, trimmed_iff.mpr ⟨hreviewer, htrimmed⟩,
        trimmed_iff.mpr ⟨hrationale, htrimmed'⟩, fun _ => ⟨durable_iff.mpr ⟨hdurable, hkey⟩, ?_⟩,
        fun h => absurd haccept h⟩
      simpa using hover
    · intro h
      have ⟨hreviewer, htrimmed⟩ := trimmed_iff.mp h.reviewer
      have ⟨hrationale, htrimmed'⟩ := trimmed_iff.mp h.rationale
      have ⟨hdurable, hover⟩ := h.accepted haccept
      have ⟨hkey, hkey'⟩ := durable_iff.mp hdurable
      exact ⟨h.aware, hreviewer, htrimmed, hrationale, htrimmed', hkey, hkey', by simpa using hover⟩
  · rw [if_neg haccept]
    simp only [bind_eq_ok, refuse_eq_ok, exists_unit, ne_eq, not_not, Bool.not_eq_true]
    constructor
    · intro ⟨haware, hreviewer, htrimmed, hrationale, htrimmed', hdeclined⟩
      exact ⟨haware, trimmed_iff.mpr ⟨hreviewer, not_not.mpr htrimmed⟩,
        trimmed_iff.mpr ⟨hrationale, not_not.mpr htrimmed'⟩, fun h => absurd h haccept,
        fun _ => hdeclined⟩
    · intro h
      have ⟨hreviewer, htrimmed⟩ := trimmed_iff.mp h.reviewer
      have ⟨hrationale, htrimmed'⟩ := trimmed_iff.mp h.rationale
      exact ⟨h.aware, hreviewer, not_not.mp htrimmed, hrationale, not_not.mp htrimmed',
        h.declined haccept⟩

/-- A review that names a candidate and keeps the policy. -/
def Admissible (db : CharacterDatabase) (catalog : Catalog) (review : CandidateReview) : Prop :=
  ∃ descriptor, catalog.get? review.candidateKey = some descriptor ∧
    ValidReview db review descriptor

theorem takeReview_eq_ok {start next : Dictionary Text CandidateReview} :
    takeReview db catalog start review = .ok next ↔ Admissible db catalog review ∧
      review.candidateKey ∉ start.keys ∧ start.set review.candidateKey review = next := by
  unfold takeReview Admissible
  have hkeys : ¬ (start.get? review.candidateKey).isSome = true ↔ review.candidateKey ∉ start.keys := by
    rw [Dictionary.mem_keys_iff, Option.isSome_iff_exists]
  cases catalog.get? review.candidateKey with
  | none => simp
  | some descriptor =>
    simp only [bind_eq_ok, refuse_eq_ok, exists_unit, pure_eq_ok, validateReview_eq_ok, hkeys,
      Option.some.injEq, exists_eq_left']
    exact and_left_comm

theorem foldlM_takeReview {start result : Dictionary Text CandidateReview} :
    reviews.foldlM (takeReview db catalog) start = .ok result ↔
      (∀ review ∈ reviews, Admissible db catalog review) ∧
      (start.keys ++ reviews.map (·.candidateKey)).Nodup ∧
      reviews.foldl (fun found review => found.set review.candidateKey review) start = result := by
  induction reviews generalizing start with
  | nil =>
    have hnodup : start.keys.Nodup := start.nodup
    simp [hnodup]
  | cons review reviews ih =>
    rw [foldlM_cons_ok]
    simp only [takeReview_eq_ok, ih, forall_mem_cons, map_cons, foldl_cons]
    have hkeys : review.candidateKey ∉ start.keys →
        (start.set review.candidateKey review).keys = start.keys ++ [review.candidateKey] :=
      fun h => by simp [Dictionary.keys, Dictionary.set, assign_absent h]
    constructor
    · rintro ⟨_, ⟨hadmissible, hnew, rfl⟩, hrest, honce, hresult⟩
      rw [hkeys hnew, append_assoc] at honce
      exact ⟨⟨hadmissible, hrest⟩, honce, hresult⟩
    · rintro ⟨⟨hadmissible, hrest⟩, honce, hresult⟩
      have hnew : review.candidateKey ∉ start.keys := fun hmem =>
        (nodup_append.mp honce).2.2 _ hmem _ (mem_cons_self ..) rfl
      refine ⟨_, ⟨hadmissible, hnew, rfl⟩, hrest, ?_, hresult⟩
      rw [hkeys hnew, append_assoc]
      exact honce

theorem foldlM_takeReview_empty {byCandidate : Dictionary Text CandidateReview} :
    reviews.foldlM (takeReview db catalog) {} = .ok byCandidate ↔
      (∀ review ∈ reviews, Admissible db catalog review) ∧
      (reviews.map (·.candidateKey)).Nodup ∧
      Dictionary.ofItems (·.candidateKey) id reviews = byCandidate := foldlM_takeReview

end

/-! ## Identities -/

section

variable {catalog : Catalog} {descriptors : List CandidateDescriptor} {durable : Text}
  {group other reviews : List CandidateReview}

theorem evidenceKey_injective : Function.Injective evidenceKey := by
  intro first second h
  cases first
  cases second
  simpa [evidenceKey] using h

theorem mem_evidence {items : List TopologyEvidenceReference} {item : TopologyEvidenceReference} :
    item ∈ (Dictionary.ofItems evidenceKey id items).values ↔ item ∈ items := by
  rw [Dictionary.mem_values_iff]
  constructor
  · intro ⟨_, hkey⟩
    have ⟨_, hmem, _, hsame⟩ := Dictionary.ofItems_get? hkey
    exact hsame ▸ hmem
  · intro hmem
    have hlast := Dictionary.ofItems_last evidenceKey id items (evidenceKey item)
    cases hfound : (Dictionary.ofItems evidenceKey id items).get? (evidenceKey item) with
    | none =>
      rw [hfound, eq_comm, List.getLast?_eq_none_iff, map_eq_nil_iff,
        filter_eq_nil_iff] at hlast
      exact absurd (decide_eq_true rfl) (hlast item hmem)
    | some found =>
      have ⟨one, _, hkey, hsame⟩ := Dictionary.ofItems_get? hfound
      have hone : one = item := evidenceKey_injective hkey
      exact ⟨_, hfound.trans (congrArg some (hsame.symm.trans hone))⟩

theorem evidence_nodup (items : List TopologyEvidenceReference) :
    (Dictionary.ofItems evidenceKey id items).values.Nodup := by
  refine List.Nodup.of_map evidenceKey ?_
  have hkeys : (Dictionary.ofItems evidenceKey id items).values.map evidenceKey =
      (Dictionary.ofItems evidenceKey id items).keys := by
    rw [Dictionary.values, Dictionary.keys, map_map]
    refine map_congr_left fun entry hentry => ?_
    obtain ⟨_, _, hkey, hsame⟩ :=
      Dictionary.ofItems_get? ((Dictionary.mem_entries_iff _ _ _).mp hentry)
    exact (congrArg evidenceKey hsame.symm).trans hkey
  rw [hkeys]
  exact (Dictionary.ofItems evidenceKey id items).nodup

theorem identityRecord_unions (h : Lists catalog descriptors) :
    let identity := identityRecord catalog durable group
    (∀ target, target ∈ identity.targetKeys ↔
      ∃ item ∈ descriptors, item.key ∈ identity.candidateKeys ∧ item.targetKey = target) ∧
    ∀ evidence, evidence ∈ identity.evidence ↔
      ∃ item ∈ descriptors, item.key ∈ identity.candidateKeys ∧ evidence ∈ item.evidence := by
  have hfound : ∀ item, item ∈ (sortedBy (compareOn (·.candidateKey)) group).filterMap
        (fun review => catalog.get? review.candidateKey) ↔
      item ∈ descriptors ∧ item.key ∈ (identityRecord catalog durable group).candidateKeys := by
    intro item
    simp only [mem_filterMap, identityRecord, mem_map, h.get?]
    constructor
    · rintro ⟨review, hreview, hitem, hkey⟩
      exact ⟨hitem, review, hreview, hkey.symm⟩
    · rintro ⟨hitem, review, hreview, hkey⟩
      exact ⟨review, hreview, hitem, hkey.symm⟩
  constructor
  · intro target
    show target ∈ sortedSet _ ↔ _
    simp only [mem_sortedSet, mem_map, hfound, and_assoc]
  · intro evidence
    show evidence ∈ sortedBy _ _ ↔ _
    simp only [mem_sortedBy, mem_evidence, mem_flatMap, hfound, and_assoc]

theorem identityRecord_perm (hperm : group.Perm other)
    (honce : (group.map (·.candidateKey)).Nodup) :
    identityRecord catalog durable group = identityRecord catalog durable other := by
  unfold identityRecord
  rw [sortedBy_keyed hperm honce]

theorem acceptedGroups_get? : (acceptedGroups reviews).get? durable = some group ↔
    group ≠ [] ∧ (reviews.filter (·.disposition = .accept)).filter
      (fun review => review.durableIdentityKey.getD [] = durable) = group := by
  unfold acceptedGroups
  rw [Dictionary.get?_groupBy]
  split
  · next h =>
    rw [h]
    exact ⟨nofun, fun hgroup => absurd hgroup.2.symm hgroup.1⟩
  · next h =>
    rw [Option.some.injEq]
    exact ⟨fun hgroup => ⟨hgroup ▸ h, hgroup⟩, And.right⟩

theorem acceptedGroups_perm (hperm : reviews.Perm other)
    (h : (acceptedGroups reviews).get? durable = some group) :
    ∃ group', (acceptedGroups other).get? durable = some group' ∧ group.Perm group' := by
  have ⟨hnonempty, hgroup⟩ := acceptedGroups_get?.mp h
  have hgroups := (hperm.filter (·.disposition = .accept)).filter
    (fun review => review.durableIdentityKey.getD [] = durable)
  rw [hgroup] at hgroups
  exact ⟨_, acceptedGroups_get?.mpr ⟨fun hnil => hnonempty (hnil ▸ hgroups).eq_nil, rfl⟩, hgroups⟩

theorem group_once (h : (acceptedGroups reviews).get? durable = some group)
    (honce : (reviews.map (·.candidateKey)).Nodup) : (group.map (·.candidateKey)).Nodup := by
  rw [← (acceptedGroups_get?.mp h).2]
  exact honce.sublist ((filter_sublist.trans filter_sublist).map _)

def records (catalog : Catalog) (reviews : List CandidateReview) : List AcceptedIdentityRecord :=
  (acceptedGroups reviews).entries.map fun (key, group) => identityRecord catalog key group

theorem mem_records {identity : AcceptedIdentityRecord} : identity ∈ records catalog reviews ↔
    ∃ durable group, (acceptedGroups reviews).get? durable = some group ∧
      identityRecord catalog durable group = identity := by
  unfold records
  simp only [mem_map, Prod.exists, Dictionary.mem_entries_iff]

theorem records_keys : ((records catalog reviews).map (·.key)).Nodup := by
  unfold records
  rw [map_map]
  exact (acceptedGroups reviews).nodup

theorem records_perm (hperm : reviews.Perm other)
    (honce : (reviews.map (·.candidateKey)).Nodup) :
    (records catalog reviews).Perm (records catalog other) := by
  refine (perm_ext_iff_of_nodup records_keys.of_map records_keys.of_map).mpr fun identity => ?_
  have hmoved : ∀ first second : List CandidateReview, first.Perm second →
      (first.map (·.candidateKey)).Nodup → identity ∈ records catalog first →
      identity ∈ records catalog second := by
    intro first second hperm honce hmem
    have ⟨durable, group, hgroup, hidentity⟩ := mem_records.mp hmem
    have ⟨group', hgroup', hgroups⟩ := acceptedGroups_perm hperm hgroup
    have hsame := @identityRecord_perm catalog durable _ _ hgroups (group_once hgroup honce)
    exact mem_records.mpr ⟨durable, group', hgroup', hsame ▸ hidentity⟩
  exact ⟨hmoved _ _ hperm honce,
    hmoved _ _ hperm.symm ((hperm.map _).nodup_iff.mp honce)⟩

/-! ## The partition -/

theorem records_candidates : ((records catalog reviews).flatMap (·.candidateKeys)).Perm
    (keysOf .accept reviews) := by
  have hgroups : ((records catalog reviews).flatMap (·.candidateKeys)).Perm
      ((acceptedGroups reviews).entries.flatMap fun entry => entry.2.map (·.candidateKey)) := by
    unfold records
    rw [flatMap_map]
    exact List.Perm.flatMap_left _ fun entry _ => (sortedBy_perm _ _).map _
  refine hgroups.trans ?_
  rw [← map_flatMap]
  exact (Dictionary.groupBy_perm _ _).map _

theorem keysOf_perm : (keysOf .accept reviews ++ keysOf .reject reviews ++
    keysOf .defer reviews).Perm (reviews.map (·.candidateKey)) := by
  unfold keysOf
  rw [← map_append, ← map_append]
  refine List.Perm.map _ ?_
  induction reviews with
  | nil => exact .nil
  | cons review reviews ih =>
    cases hdisposition : review.disposition
    · simpa [hdisposition] using ih
    · simp only [filter_cons, hdisposition]
      exact (perm_middle.append_right _).trans (ih.cons review)
    · simp only [filter_cons, hdisposition]
      exact perm_middle.trans (ih.cons review)

end

section

variable (db : CharacterDatabase) (physical : SnmpPhysicalCandidateResult)
  (identities : IdentityReconciliationResult) (configured : ConfiguredModuleReconciliationResult)

/-- Some review puts the candidate of a key into a disposition. -/
def Reviewed (reviews : List CandidateReview) (disposition : CandidateDisposition)
    (key : Text) : Prop :=
  ∃ review ∈ reviews, review.candidateKey = key ∧ review.disposition = disposition

/-- Every candidate is in one place, the one its review asks for, and an identity has what
its candidates have. -/
structure Partitioned (reviews : List CandidateReview) (result : ReviewedCandidates) : Prop where
  once : ((candidateDescriptors physical identities configured).map (·.key)).Nodup
  identity : ∀ identity ∈ result.acceptedIdentities, ∀ key, key ∈ identity.candidateKeys ↔
    ∃ review ∈ reviews, review.candidateKey = key ∧ review.disposition = .accept ∧
      review.durableIdentityKey = some identity.key
  accepted : ∀ key, Reviewed reviews .accept key ↔
    ∃ identity ∈ result.acceptedIdentities, key ∈ identity.candidateKeys
  rejected : ∀ key, Reviewed reviews .reject key ↔ key ∈ result.rejectedCandidateKeys
  deferred : ∀ key, Reviewed reviews .defer key ↔ key ∈ result.deferredCandidateKeys
  unreviewed : ∀ key, key ∈ result.unreviewedCandidateKeys ↔
    (∃ item ∈ candidateDescriptors physical identities configured, item.key = key) ∧
      ∀ review ∈ reviews, review.candidateKey ≠ key
  covered : (result.acceptedIdentities.flatMap (·.candidateKeys) ++ result.rejectedCandidateKeys ++
    result.deferredCandidateKeys ++ result.unreviewedCandidateKeys).Perm
      ((candidateDescriptors physical identities configured).map (·.key))
  overridden : ∀ identity ∈ result.acceptedIdentities, ∀ item ∈ configured.candidates,
    item.key ∈ identity.candidateKeys → item.status = .conflict ∨ item.status = .insufficient →
    ∃ review ∈ reviews, review.candidateKey = item.key ∧ review.overrideConflict = true
  targets : ∀ identity ∈ result.acceptedIdentities, identity.targetKeys.Nodup ∧
    ∀ target, target ∈ identity.targetKeys ↔
      ∃ item ∈ candidateDescriptors physical identities configured,
        item.key ∈ identity.candidateKeys ∧ item.targetKey = target
  evidence : ∀ identity ∈ result.acceptedIdentities, identity.evidence.Nodup ∧
    ∀ evidence, evidence ∈ identity.evidence ↔
      ∃ item ∈ candidateDescriptors physical identities configured,
        item.key ∈ identity.candidateKeys ∧ evidence ∈ item.evidence

/-- A review of a known candidate that keeps the policy. -/
def Permitted (review : CandidateReview) : Prop :=
  ∃ descriptor ∈ candidateDescriptors physical identities configured,
    descriptor.key = review.candidateKey ∧ ValidReview db review descriptor

end

section

variable {db : CharacterDatabase} {physical : SnmpPhysicalCandidateResult}
  {identities : IdentityReconciliationResult} {configured : ConfiguredModuleReconciliationResult}
  {reviews other : List CandidateReview} {result : ReviewedCandidates} {catalog : Catalog}

theorem applyCandidateReviews_eq_ok :
    applyCandidateReviews db physical identities configured reviews = .ok result ↔
      ∃ catalog, candidateCatalog physical identities configured = .ok catalog ∧
        (∀ review ∈ reviews, Admissible db catalog review) ∧
        (reviews.map (·.candidateKey)).Nodup ∧
        assemble catalog (Dictionary.ofItems (·.candidateKey) id reviews) reviews = result := by
  unfold applyCandidateReviews
  simp only [bind_eq_ok, pure_eq_ok, foldlM_takeReview_empty]
  constructor
  · rintro ⟨catalog, hcatalog, _, ⟨hadmissible, honce, rfl⟩, hresult⟩
    exact ⟨catalog, hcatalog, hadmissible, honce, hresult⟩
  · rintro ⟨catalog, hcatalog, hadmissible, honce, hresult⟩
    exact ⟨catalog, hcatalog, _, ⟨hadmissible, honce, rfl⟩, hresult⟩

theorem reviewed_keys (honce : (reviews.map (·.candidateKey)).Nodup) :
    (Dictionary.ofItems (·.candidateKey) id reviews).keys = reviews.map (·.candidateKey) := by
  simp [Dictionary.keys, Dictionary.ofItems_entries honce]

theorem assemble_perm (hperm : reviews.Perm other) (honce : (reviews.map (·.candidateKey)).Nodup) :
    assemble catalog (Dictionary.ofItems (·.candidateKey) id reviews) reviews =
      assemble catalog (Dictionary.ofItems (·.candidateKey) id other) other := by
  have hkeys : ∀ disposition, sortedBy compare (keysOf disposition reviews) =
      sortedBy compare (keysOf disposition other) := by
    intro disposition
    refine @sortedBy_keyed _ _ _ _ _ id _ _ ((hperm.filter _).map _) ?_
    rw [map_id]
    exact honce.sublist (filter_sublist.map _)
  have hrecords := @sortedBy_keyed _ _ _ _ _ AcceptedIdentityRecord.key _ _
    (@records_perm catalog _ _ hperm honce) records_keys
  have hunreviewed : ∀ key, key ∈ reviews.map (·.candidateKey) ↔ key ∈ other.map (·.candidateKey) :=
    fun key => (hperm.map _).mem_iff
  unfold assemble
  rw [hkeys, hkeys, reviewed_keys honce, reviewed_keys ((hperm.map _).nodup_iff.mp honce)]
  simp only [hunreviewed]
  congr 2

theorem unreviewed_perm {keys : List Text} (hkeys : keys.Nodup)
    (honce : (reviews.map (·.candidateKey)).Nodup)
    (hknown : ∀ review ∈ reviews, review.candidateKey ∈ keys) :
    (reviews.map (·.candidateKey) ++
      keys.filter fun key => key ∉ reviews.map (·.candidateKey)).Perm keys := by
  refine (perm_ext_iff_of_nodup ?_ hkeys).mpr fun key => ?_
  · refine nodup_append.mpr ⟨honce, hkeys.filter _, ?_⟩
    rintro key hkey _ hother rfl
    exact of_decide_eq_true (mem_filter.mp hother).2 hkey
  · rw [mem_append, mem_filter, decide_eq_true_eq]
    constructor
    · rintro (hkey | hkey)
      · have ⟨review, hreview, hsame⟩ := mem_map.mp hkey
        exact hsame ▸ hknown review hreview
      · exact hkey.1
    · intro hkey
      exact (Classical.em _).imp_right fun habsent => ⟨hkey, habsent⟩

theorem mem_keysOf {disposition : CandidateDisposition} {key : Text} :
    key ∈ keysOf disposition reviews ↔ Reviewed reviews disposition key := by
  simp only [keysOf, mem_map, mem_filter, decide_eq_true_eq, Reviewed]
  exact exists_congr fun review => by tauto

/-- The candidates of a record are those of the accepting reviews that name its identity. -/
theorem mem_candidateKeys (hadmissible : ∀ review ∈ reviews, Admissible db catalog review)
    {durable : Text} {group : List CandidateReview} {key : Text}
    (hgroup : (acceptedGroups reviews).get? durable = some group) :
    key ∈ (identityRecord catalog durable group).candidateKeys ↔
      ∃ review ∈ reviews, review.candidateKey = key ∧ review.disposition = .accept ∧
        review.durableIdentityKey = some durable := by
  have hnamed : ∀ review ∈ reviews, review.disposition = .accept →
      (review.durableIdentityKey.getD [] = durable ↔ review.durableIdentityKey = some durable) := by
    intro review hreview haccept
    have ⟨_, _, hvalid⟩ := hadmissible review hreview
    have ⟨⟨named, hnamed, _⟩, _⟩ := hvalid.accepted haccept
    rw [Option.mem_def.mp hnamed, Option.getD_some, Option.some.injEq]
  simp only [identityRecord, mem_map, mem_sortedBy, ← (acceptedGroups_get?.mp hgroup).2, mem_filter,
    decide_eq_true_eq]
  constructor
  · rintro ⟨review, ⟨⟨hreview, haccept⟩, hdurable⟩, hkey⟩
    exact ⟨review, hreview, hkey, haccept, (hnamed review hreview haccept).mp hdurable⟩
  · rintro ⟨review, hreview, hkey, haccept, hdurable⟩
    exact ⟨review, ⟨⟨hreview, haccept⟩, (hnamed review hreview haccept).mpr hdurable⟩, hkey⟩

theorem assemble_partitioned (hcatalog : candidateCatalog physical identities configured = .ok catalog)
    (hadmissible : ∀ review ∈ reviews, Admissible db catalog review)
    (honce : (reviews.map (·.candidateKey)).Nodup) :
    Partitioned physical identities configured reviews
      (assemble catalog (Dictionary.ofItems (·.candidateKey) id reviews) reviews) := by
  have hlists := candidateCatalog_lists hcatalog
  have hidentity : ∀ identity, identity ∈
      (assemble catalog (Dictionary.ofItems (·.candidateKey) id reviews) reviews).acceptedIdentities →
      ∃ durable group, (acceptedGroups reviews).get? durable = some group ∧
        identityRecord catalog durable group = identity :=
    fun identity hmem => mem_records.mp (mem_sortedBy.mp hmem)
  refine ⟨hlists.once, ?_, ?_, ?_, ?_, ?_, ?_, ?_, ?_, ?_⟩
  · intro identity hmem key
    have ⟨durable, group, hgroup, hrecord⟩ := hidentity identity hmem
    rw [← hrecord]
    exact mem_candidateKeys hadmissible hgroup
  · intro key
    rw [← mem_keysOf, ← records_candidates.mem_iff, mem_flatMap]
    exact exists_congr fun identity => and_congr_left' mem_sortedBy.symm
  · exact fun key => mem_keysOf.symm.trans mem_sortedBy.symm
  · exact fun key => mem_keysOf.symm.trans mem_sortedBy.symm
  · intro key
    rw [assemble, mem_sortedBy, mem_filter, reviewed_keys honce, hlists.keys]
    simp
  · rw [← hlists.keys]
    have hkeys : catalog.keys.Nodup := catalog.nodup
    have hknown : ∀ review ∈ reviews, review.candidateKey ∈ catalog.keys := by
      intro review hreview
      have ⟨descriptor, hfound, _⟩ := hadmissible review hreview
      exact (catalog.mem_keys_iff _).mpr ⟨descriptor, hfound⟩
    have haccepted := ((sortedBy_perm (compareOn (·.key)) (records catalog reviews)).flatMap_right
      (·.candidateKeys)).trans records_candidates
    have hrejected := sortedBy_perm compare (keysOf .reject reviews)
    have hdeferred := sortedBy_perm compare (keysOf .defer reviews)
    have hunreviewed := sortedBy_perm compare (catalog.keys.filter fun key =>
      key ∉ (Dictionary.ofItems (·.candidateKey) id reviews).keys)
    refine (((haccepted.append hrejected).append hdeferred).append hunreviewed).trans ?_
    rw [reviewed_keys honce]
    exact (keysOf_perm.append_right _).trans (unreviewed_perm hkeys honce hknown)
  · intro identity hmem item hitem hkey hstatus
    have ⟨durable, group, hgroup, hrecord⟩ := hidentity identity hmem
    rw [← hrecord] at hkey
    have ⟨review, hreview, hsame⟩ := mem_map.mp hkey
    have hgroup' := mem_sortedBy.mp hreview
    rw [← (acceptedGroups_get?.mp hgroup).2, mem_filter, mem_filter] at hgroup'
    have ⟨⟨hmember, haccept⟩, _⟩ := hgroup'
    have ⟨descriptor, hfound, hvalid⟩ := hadmissible review hmember
    have hdescriptor : catalog.get? review.candidateKey = some ⟨item.key, item.targetKey,
        item.evidence, true⟩ := by
      refine (hlists.get? _ _).mpr ⟨?_, hsame.symm⟩
      refine mem_append_right _ (mem_map.mpr ⟨item, hitem, ?_⟩)
      simp [hstatus]
    rw [hfound, Option.some.injEq] at hdescriptor
    have hover := (hvalid.accepted (of_decide_eq_true haccept)).2 (by rw [hdescriptor])
    exact ⟨review, hmember, hsame, hover⟩
  · intro identity hmem
    have ⟨durable, group, _, hrecord⟩ := hidentity identity hmem
    rw [← hrecord]
    exact ⟨sortedSet_nodup _, (identityRecord_unions hlists).1⟩
  · intro identity hmem
    have ⟨durable, group, _, hrecord⟩ := hidentity identity hmem
    rw [← hrecord]
    exact ⟨(sortedBy_perm _ _).nodup_iff.mpr (evidence_nodup _), (identityRecord_unions hlists).2⟩

/-- Accepted reviews partition the candidates in any order, and no invalid one is accepted. -/
theorem applyCandidateReviews_partitions :
    (∀ result, applyCandidateReviews db physical identities configured reviews = .ok result →
      Partitioned physical identities configured reviews result ∧
      ∀ other, reviews.Perm other →
        applyCandidateReviews db physical identities configured other = .ok result) ∧
    ((∃ review ∈ reviews, ¬ Permitted db physical identities configured review) →
      ∃ error, applyCandidateReviews db physical identities configured reviews = .error error) := by
  constructor
  · intro result h
    have ⟨catalog, hcatalog, hadmissible, honce, hresult⟩ := applyCandidateReviews_eq_ok.mp h
    refine ⟨hresult ▸ assemble_partitioned hcatalog hadmissible honce, fun other hperm => ?_⟩
    refine applyCandidateReviews_eq_ok.mpr ⟨catalog, hcatalog, ?_, ?_, ?_⟩
    · exact fun review hreview => hadmissible review (hperm.mem_iff.mpr hreview)
    · exact (hperm.map _).nodup_iff.mp honce
    · exact (assemble_perm hperm honce).symm.trans hresult
  · intro ⟨review, hreview, hinvalid⟩
    cases h : applyCandidateReviews db physical identities configured reviews with
    | error error => exact ⟨error, rfl⟩
    | ok result =>
      have ⟨catalog, hcatalog, hadmissible, _⟩ := applyCandidateReviews_eq_ok.mp h
      have ⟨descriptor, hfound, hvalid⟩ := hadmissible review hreview
      have ⟨hmem, hkey⟩ := ((candidateCatalog_lists hcatalog).get? _ _).mp hfound
      exact absurd ⟨descriptor, hmem, hkey, hvalid⟩ hinvalid

end

def conflictingModule : ConfiguredModuleReconciliationResult :=
  ⟨[⟨"module:1", "target:1", .conflict, []⟩]⟩

def overridingReview : CandidateReview where
  candidateKey := "module:1"
  disposition := .accept
  reviewedBy := "operator"
  reviewedAt := .epoch
  rationale := "checked"
  durableIdentityKey := some "plc"
  overrideConflict := true

theorem applyCandidateReviews_partitions_conflict : ∃ result,
    applyCandidateReviews Ascii.database ⟨[], [], []⟩ ⟨[]⟩ conflictingModule [overridingReview] =
      .ok result ∧
    Partitioned ⟨[], [], []⟩ ⟨[]⟩ conflictingModule [overridingReview] result :=
  ⟨_, rfl, (@applyCandidateReviews_partitions Ascii.database _ _ _ _).1 _ rfl |>.1⟩

end TwinForge.Discovery.Acceptance
