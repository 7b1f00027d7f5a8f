import TwinForge.Discovery.StateDocuments
import TwinForge.Foundation.JsonMembers

/-! # Reading the data of a state

Whatever the order of its members, the data of a ledger or of a promotion is read as the
entry it was written of, with its times read again.
-/

namespace TwinForge.Discovery

open Json

section

variable (coercions : Coercions)

def restoreReview (review : CandidateReview) : Option CandidateReview := do
  let reviewedAt ← coercions.time (.str review.reviewedAt.isoformat)
  some { review with reviewedAt }

def restoreGeneration (generation : DurableIdentityGeneration) :
    Option DurableIdentityGeneration := do
  guard (1 ≤ generation.generation)
  let observedAt ← coercions.time (.str generation.observedAt.isoformat)
  let acceptanceReviews ← generation.acceptanceReviews.mapM (restoreReview coercions)
  some { generation with observedAt, acceptanceReviews }

def restoreEvent (event : IdentityLifecycleEvent) : Option IdentityLifecycleEvent := do
  let occurredAt ← coercions.time (.str event.occurredAt.isoformat)
  some { event with occurredAt }

def lifecycleDocument (lifecycle : IdentityLifecycleState) : LifecycleDocument where
  activeIdentityKeys := lifecycle.activeIdentityKeys
  inactiveIdentityKeys := lifecycle.inactiveIdentityKeys
  generations := lifecycle.generations
  events := lifecycle.events

def restoreLifecycle (lifecycle : IdentityLifecycleState) : Option LifecycleDocument := do
  let generations ← lifecycle.generations.mapM (restoreGeneration coercions)
  let events ← lifecycle.events.mapM (restoreEvent coercions)
  some { lifecycleDocument lifecycle with generations, events }

def assetDocument : Asset → AssetDocument
  | .device id name deviceType manufacturer model catalogNumber =>
    ⟨id, name, .device, some deviceType, manufacturer, model, catalogNumber⟩
  | .asset id name => ⟨id, name, .asset, none, none, none, none⟩

def promotionDocument (record : CorePromotionRecord) : PromotionDocument where
  coreAsset := assetDocument record.coreAsset
  durableIdentityKey := record.durableIdentityKey
  generationNumbers := record.generationNumbers
  targetKeys := record.targetKeys
  promotedBy := record.promotedBy
  promotedAt := record.promotedAt
  rationale := record.rationale
  evidence := record.evidence
  acknowledgedConflictOverride := record.acknowledgedConflictOverride

def restorePromotion (record : CorePromotionRecord) : Option PromotionDocument := do
  let promotedAt ← coercions.time (.str record.promotedAt.isoformat)
  some { promotionDocument record with promotedAt }

def promotionsDocument (result : CorePromotionResult) : PromotionsDocument where
  records := result.records.map promotionDocument
  unpromotedIdentityKeys := result.unpromotedIdentityKeys

def restorePromotions (result : CorePromotionResult) : Option PromotionsDocument := do
  let records ← result.records.mapM (restorePromotion coercions)
  some { records, unpromotedIdentityKeys := result.unpromotedIdentityKeys }

def restoreState (lifecycle : IdentityLifecycleState) (promotions : CorePromotionResult)
    (revision : Int) : Option StateDocument := do
  guard (1 ≤ revision)
  let lifecycle ← restoreLifecycle coercions lifecycle
  let promotions ← restorePromotions coercions promotions
  some { revision, lifecycle, promotions }

end

section

variable {view : Json → Json} (h : Reorders view) {members : List (Text × Json)}
include h

theorem closed_members {Result : Type} {names : List Text} {rest : Unit → Option Result}
    {result : Option Result} (hnames : members.map Prod.fst = names) (hrest : rest () = result) :
    (closed names (view (.obj members))).bind rest = result := by
  have hclosed : ∀ name ∈ memberNames (view (.obj members)), name ∈ names := by
    intro name hname
    rwa [h.names, hnames] at hname
  rw [closed, guard, if_pos hclosed]
  exact hrest

theorem time_view (coercions : Coercions) (time : DateTime) :
    coercions.time (view (.str time.isoformat)) = coercions.time (.str time.isoformat) := by
  rw [h.str]

theorem truth_view (coercions : Coercions) (value : Bool) :
    coercions.bool (view (.bool value)) = some value := by
  rw [h.bool, coercions.bool_bool]

theorem ints_view (coercions : Coercions) : ∀ values : List Int,
    asList coercions.int (view (.arr (values.map .int))) = some values :=
  h.known fun value => by rw [h.int, coercions.int_int]

theorem readEnum_view {Value : Type} {values : List Value} {text : Value → Text} {value : Value}
    (hvalue : values.find? (fun other => text other = text value) = some value) :
    readEnum values text (view (.str (text value))) = some value := by
  rw [h.str]
  exact hvalue

theorem positive_members (coercions : Coercions) {Result : Type} {rest : Int → Option Result}
    {other : Option Result} {name : Text} {number : Int} (hnames : (members.map Prod.fst).Nodup)
    (hmember : members.find? (fun entry => entry.1 = name) = some (name, .int number))
    (hrest : rest number = other) :
    (field (readPositive coercions) name (view (.obj members))).bind rest =
      (guard (1 ≤ number) : Option Unit).bind fun _ => other := by
  rw [h.field hnames hmember, h.int, readPositive, coercions.int_int, ← hrest]
  by_cases hpositive : 1 ≤ number
  · simp [guard, hpositive, Option.filter]
  · simp [guard, hpositive]

end

section

variable {view : Json → Json} (h : Reorders view) (coercions : Coercions)
include h

theorem readEvidence_members (evidence : TopologyEvidenceReference) :
    readEvidence (view (.obj (evidenceMembers evidence))) = some evidence := by
  have hfields : evidenceFields.Nodup := by decide
  have hnames : ((evidenceMembers evidence).map Prod.fst).Nodup := hfields
  refine closed_members h rfl ?_
  refine h.next hnames rfl (h.text _) ?_
  refine h.next hnames rfl (h.text _) ?_
  refine h.next hnames rfl (h.text _) ?_
  exact h.next hnames rfl (h.text _) rfl

theorem readReview_members (review : CandidateReview) :
    readReview coercions (view (.obj (reviewMembers review))) = restoreReview coercions review := by
  have hfields : reviewFields.Nodup := by decide
  have hnames : ((reviewMembers review).map Prod.fst).Nodup := hfields
  have hdisposition : readDisposition (view (.str review.disposition.value)) =
      some review.disposition := readEnum_view h (by cases review.disposition <;> decide)
  refine closed_members h rfl ?_
  refine h.next hnames rfl (h.text _) ?_
  refine h.next hnames rfl hdisposition ?_
  refine h.next hnames rfl (h.text _) ?_
  refine h.same hnames rfl (time_view h coercions _) fun time => ?_
  refine h.next hnames rfl (h.text _) ?_
  refine h.next hnames rfl (h.optional _) ?_
  exact h.next hnames rfl (truth_view h coercions _) rfl

theorem readGeneration_members (generation : DurableIdentityGeneration) :
    readGeneration coercions (view (.obj (generationMembers generation))) =
      restoreGeneration coercions generation := by
  have hfields : generationFields.Nodup := by decide
  have hnames : ((generationMembers generation).map Prod.fst).Nodup := hfields
  have hreviews := h.list (readReview_members h coercions) generation.acceptanceReviews
  refine closed_members h rfl ?_
  refine h.next hnames rfl (h.text _) ?_
  refine positive_members h coercions hnames rfl ?_
  refine h.same hnames rfl (time_view h coercions _) fun time => ?_
  refine h.next hnames rfl (h.texts _) ?_
  refine h.next hnames rfl (h.texts _) ?_
  refine h.same hnames rfl hreviews fun reviews => ?_
  refine h.next hnames rfl (h.known (readEvidence_members h) _) ?_
  exact h.next hnames rfl (truth_view h coercions _) rfl

theorem readEvent_members (event : IdentityLifecycleEvent) :
    readEvent coercions (view (.obj (eventMembers event))) = restoreEvent coercions event := by
  have hfields : eventFields.Nodup := by decide
  have hnames : ((eventMembers event).map Prod.fst).Nodup := hfields
  have htype : readEventType (view (.str event.eventType.value)) = some event.eventType :=
    readEnum_view h (by cases event.eventType <;> decide)
  refine closed_members h rfl ?_
  refine h.next hnames rfl htype ?_
  refine h.same hnames rfl (time_view h coercions _) fun time => ?_
  refine h.next hnames rfl (h.texts _) ?_
  refine h.next hnames rfl (h.texts _) ?_
  refine h.next hnames rfl (h.text _) ?_
  exact h.next hnames rfl (h.text _) rfl

theorem readLifecycle_members (lifecycle : IdentityLifecycleState) :
    readLifecycle coercions (view (.obj (identityLifecycleMembers lifecycle))) =
      restoreLifecycle coercions lifecycle := by
  have hfields : lifecycleFields.Nodup := by decide
  have hnames : ((identityLifecycleMembers lifecycle).map Prod.fst).Nodup := hfields
  have hgenerations := h.list (readGeneration_members h coercions) lifecycle.generations
  have hevents := h.list (readEvent_members h coercions) lifecycle.events
  refine closed_members h rfl ?_
  refine h.next hnames rfl (h.texts _) ?_
  refine h.next hnames rfl (h.texts _) ?_
  refine h.same hnames rfl hgenerations fun generations => ?_
  exact h.same hnames rfl hevents fun events => rfl

theorem readAssetDocument_members (asset : Asset) :
    readAssetDocument (view (.obj (coreAssetMembers asset))) = some (assetDocument asset) := by
  have hfields : assetFields.Nodup := by decide
  cases asset with
  | asset id name =>
    have hnames : ((coreAssetMembers (.asset id name)).map Prod.fst).Nodup := hfields
    have htype : asOptional readDeviceType (view .null) = some none := by rw [h.null]; rfl
    have hkind : readEnum [.asset, .device] CoreAssetKind.value
        (view (.str CoreAssetKind.asset.value)) = some .asset := readEnum_view h (by decide)
    refine closed_members h rfl ?_
    refine h.next hnames rfl (h.text _) ?_
    refine h.next hnames rfl (h.text _) ?_
    refine h.next hnames rfl hkind ?_
    refine h.next hnames rfl htype ?_
    refine h.next hnames rfl (h.optional none) ?_
    refine h.next hnames rfl (h.optional none) ?_
    exact h.next hnames rfl (h.optional none) rfl
  | device id name deviceType manufacturer model catalogNumber =>
    have hnames : ((coreAssetMembers
      (.device id name deviceType manufacturer model catalogNumber)).map Prod.fst).Nodup := hfields
    have htype : asOptional readDeviceType (view (.str deviceType.value)) =
        some (some deviceType) := by
      rw [h.str]
      cases deviceType <;> decide
    have hkind : readEnum [.asset, .device] CoreAssetKind.value
        (view (.str CoreAssetKind.device.value)) = some .device := readEnum_view h (by decide)
    refine closed_members h rfl ?_
    refine h.next hnames rfl (h.text _) ?_
    refine h.next hnames rfl (h.text _) ?_
    refine h.next hnames rfl hkind ?_
    refine h.next hnames rfl htype ?_
    refine h.next hnames rfl (h.optional _) ?_
    refine h.next hnames rfl (h.optional _) ?_
    exact h.next hnames rfl (h.optional _) rfl

theorem readPromotion_members (record : CorePromotionRecord) :
    readPromotion coercions (view (.obj (promotionMembers record))) =
      restorePromotion coercions record := by
  have hfields : promotionFields.Nodup := by decide
  have hnames : ((promotionMembers record).map Prod.fst).Nodup := hfields
  refine closed_members h rfl ?_
  refine h.next hnames rfl (readAssetDocument_members h record.coreAsset) ?_
  refine h.next hnames rfl (h.text _) ?_
  refine h.next hnames rfl (ints_view h coercions _) ?_
  refine h.next hnames rfl (h.texts _) ?_
  refine h.next hnames rfl (h.text _) ?_
  refine h.same hnames rfl (time_view h coercions _) fun time => ?_
  refine h.next hnames rfl (h.text _) ?_
  refine h.next hnames rfl (h.known (readEvidence_members h) _) ?_
  exact h.next hnames rfl (truth_view h coercions _) rfl

theorem readPromotions_members (result : CorePromotionResult) :
    readPromotions coercions (view (.obj (corePromotionMembers result))) =
      restorePromotions coercions result := by
  have hfields : promotionsFields.Nodup := by decide
  have hnames : ((corePromotionMembers result).map Prod.fst).Nodup := hfields
  have hrecords := h.list (readPromotion_members h coercions) result.records
  refine closed_members h rfl ?_
  refine h.same hnames rfl hrecords fun records => ?_
  exact h.next hnames rfl (h.texts _) rfl

end

theorem validateDocument_documentData (coercions : Coercions)
    (lifecycle : IdentityLifecycleState) (promotions : CorePromotionResult) (revision : Int) :
    validateDocument coercions (documentData lifecycle promotions revision) =
      restoreState coercions lifecycle promotions revision := by
  have ⟨view, h, hview⟩ : ∃ view, Reorders view ∧ ∀ data, view data = data :=
    ⟨id, reorders_id, fun _ => rfl⟩
  have hfields : stateFields.Nodup := by decide
  have hnames : ((stateMembers lifecycle promotions revision).map Prod.fst).Nodup := hfields
  rw [documentData, ← hview (.obj _)]
  refine closed_members h rfl ?_
  refine h.next hnames rfl (h.text _) ?_
  refine positive_members h coercions hnames rfl ?_
  refine h.same hnames rfl (readLifecycle_members h coercions lifecycle) fun ledger => ?_
  exact h.same hnames rfl (readPromotions_members h coercions promotions) fun records => rfl

/-! ## What is read again -/

/-- The time read from the text of a time is that time, if the text is read at all. -/
def Rereads (coercions : Coercions) : Prop :=
  ∀ time found, coercions.time (.str time.isoformat) = some found → found = time

theorem mapM_restores {Item Value : Type} {restore : Item → Option Value} {image : Item → Value}
    (hsame : ∀ item value, restore item = some value → value = image item)
    {items : List Item} {values : List Value} (h : items.mapM restore = some values) :
    values = items.map image ∧ ∀ item ∈ items, restore item = some (image item) := by
  induction items generalizing values with
  | nil => simpa using h.symm
  | cons item items ih =>
    simp only [List.mapM_cons, Option.pure_def, Option.bind_eq_bind, Option.bind_eq_some_iff,
      Option.some.injEq] at h
    have ⟨value, hvalue, rest, hrest, hvalues⟩ := h
    have ⟨hrestSame, hrestored⟩ := ih hrest
    have hfirst := hsame item value hvalue
    rw [hfirst] at hvalue
    refine ⟨by rw [← hvalues, hfirst, hrestSame, List.map_cons], ?_⟩
    intro other hother
    cases List.mem_cons.mp hother with
    | inl hhere => rw [hhere, hvalue]
    | inr hthere => exact hrestored other hthere

section

variable {coercions : Coercions} (hcoercions : Rereads coercions)
include hcoercions

theorem restoreReview_same (review found : CandidateReview)
    (h : restoreReview coercions review = some found) : found = id review := by
  simp only [restoreReview, Option.bind_eq_bind, Option.bind_eq_some_iff, Option.some.injEq] at h
  have ⟨time, htime, hfound⟩ := h
  rw [← hfound, hcoercions _ _ htime]
  rfl

theorem restoreGeneration_same (generation found : DurableIdentityGeneration)
    (h : restoreGeneration coercions generation = some found) : found = id generation := by
  simp only [restoreGeneration, Option.bind_eq_bind, Option.bind_eq_some_iff,
    Option.some.injEq] at h
  have ⟨_, _, time, htime, reviews, hreviews, hfound⟩ := h
  have ⟨hsame, _⟩ := mapM_restores (restoreReview_same hcoercions) hreviews
  rw [← hfound, hcoercions _ _ htime, hsame, List.map_id]
  rfl

theorem restoreEvent_same (event found : IdentityLifecycleEvent)
    (h : restoreEvent coercions event = some found) : found = id event := by
  simp only [restoreEvent, Option.bind_eq_bind, Option.bind_eq_some_iff, Option.some.injEq] at h
  have ⟨time, htime, hfound⟩ := h
  rw [← hfound, hcoercions _ _ htime]
  rfl

theorem restorePromotion_same (record : CorePromotionRecord) (found : PromotionDocument)
    (h : restorePromotion coercions record = some found) : found = promotionDocument record := by
  simp only [restorePromotion, Option.bind_eq_bind, Option.bind_eq_some_iff,
    Option.some.injEq] at h
  have ⟨time, htime, hfound⟩ := h
  rw [← hfound, hcoercions _ _ htime]
  rfl

theorem restoreState_some {lifecycle : IdentityLifecycleState} {promotions : CorePromotionResult}
    {revision : Int} {document : StateDocument}
    (h : restoreState coercions lifecycle promotions revision = some document) :
    1 ≤ revision ∧
      (∀ other, 1 ≤ other → restoreState coercions lifecycle promotions other =
        some ⟨other, lifecycleDocument lifecycle, promotionsDocument promotions⟩) ∧
      (∀ generation ∈ lifecycle.generations,
        restoreGeneration coercions generation = some generation) ∧
      ∀ event ∈ lifecycle.events, restoreEvent coercions event = some event := by
  simp only [restoreState, restoreLifecycle, restorePromotions, guard, Option.bind_eq_bind,
    Option.bind_eq_some_iff, Option.some.injEq] at h
  have ⟨_, hguard, _, ⟨generations, hgenerations, events, hevents, hlifecycle⟩, _,
    ⟨records, hrecords, hpromotions⟩, hdocument⟩ := h
  have hrevision : 1 ≤ revision := by
    by_cases hpositive : 1 ≤ revision
    · exact hpositive
    · rw [if_neg hpositive] at hguard
      cases hguard
  have ⟨hgenerationsSame, hgenerationsRead⟩ :=
    mapM_restores (restoreGeneration_same hcoercions) hgenerations
  have ⟨heventsSame, heventsRead⟩ := mapM_restores (restoreEvent_same hcoercions) hevents
  have ⟨hrecordsSame, _⟩ := mapM_restores (restorePromotion_same hcoercions) hrecords
  refine ⟨hrevision, ?_, hgenerationsRead, heventsRead⟩
  intro other hother
  simp only [restoreState, restoreLifecycle, restorePromotions, guard, if_pos hother,
    hgenerations, hevents, hrecords, Option.bind_eq_bind, Option.bind_some]
  rw [hgenerationsSame, heventsSame, hrecordsSame, List.map_id, List.map_id]
  rfl

end

end TwinForge.Discovery
