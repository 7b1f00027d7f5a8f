import TwinForge.Discovery.DocumentRestoring
import TwinForge.Foundation.Dictionary
import TwinForge.Foundation.Scans

/-! # The discovery state file

A save loads the document, checks the state against it, and replaces the file as a whole.
What it will do is planned first: to raise, to leave the document alone, or to replace it.
-/

namespace TwinForge.Discovery

open Guards Json

structure PersistedDiscoveryState where
  revision : Int
  lifecycle : IdentityLifecycleState
  promotions : CorePromotionResult
  deriving DecidableEq, Repr

def emptyState : PersistedDiscoveryState where
  revision := 0
  lifecycle := {}
  promotions := { records := [], unpromotedIdentityKeys := [] }

/-! ## Forward history -/

def stableItem (value : Json) : Text :=
  dumps { asciiOnly := false, indent := none } (sortKeys value)

def stableGenerations (lifecycle : IdentityLifecycleState) : List Text :=
  lifecycle.generations.map fun generation => stableItem (.obj (generationMembers generation))

def stableEvents (lifecycle : IdentityLifecycleState) : List Text :=
  lifecycle.events.map fun event => stableItem (.obj (eventMembers event))

/-- The check of one stored promotion against those of the update. -/
def validateForwardPromotion (nextByAsset : Dictionary Text CorePromotionRecord)
    (old : CorePromotionRecord) : Except DiscoveryStatePersistenceError Unit :=
  let assetId := old.coreAsset.id
  match nextByAsset.get? assetId with
  | none => .error (.discardedPromotion assetId)
  | some new => do
    refuse (old.durableIdentityKey ≠ new.durableIdentityKey) (.reboundPromotion assetId)
    refuse (old.generationNumbers ≠ new.generationNumbers.take old.generationNumbers.length)
      (.regressedPromotion assetId)

def validateForward (previous : PersistedDiscoveryState) (lifecycle : IdentityLifecycleState)
    (promotions : CorePromotionResult) : Except DiscoveryStatePersistenceError Unit := do
  refuse (∃ item ∈ stableGenerations previous.lifecycle, item ∉ stableGenerations lifecycle)
    (.discarded "generations")
  refuse (∃ item ∈ stableEvents previous.lifecycle, item ∉ stableEvents lifecycle)
    (.discarded "events")
  refuse (∃ key ∈ previous.lifecycle.inactiveIdentityKeys, key ∉ lifecycle.inactiveIdentityKeys)
    .reactivated
  previous.promotions.records.forM
    (validateForwardPromotion (Dictionary.ofItems (·.coreAsset.id) id promotions.records))

/-! ## The store -/

def fileLayout : Layout := { asciiOnly := false, indent := some 2 }

def payload (state : PersistedDiscoveryState) : Text :=
  dumps fileLayout (documentData state.lifecycle state.promotions state.revision) ++ ['\n']

inductive SavePlan where
  | unchanged (current : PersistedDiscoveryState)
  | replace (next : PersistedDiscoveryState)

section

variable (coercions : Coercions)

/-- `load` of a file of that content, or of none. Reading a file that is there may fail. -/
def load (readable : Bool) (content : Option Text) :
    Except DiscoveryStatePersistenceError PersistedDiscoveryState :=
  match content with
  | none => .ok emptyState
  | some text => do
    refuse (readable = false) .invalidDocument
    match (loads text).bind (validateDocument coercions) with
    | none => .error .invalidDocument
    | some document => do
      let lifecycle ← document.lifecycle.state
      let promotions ← document.promotions.result
      validateCrossLinks lifecycle promotions
      return { revision := document.revision, lifecycle, promotions }

/-- The checks of `save`, up to the replacement of the file. -/
def planSave (readable : Bool) (content : Option Text) (lifecycle : IdentityLifecycleState)
    (promotions : CorePromotionResult) (expectedRevision : Int) :
    Except DiscoveryStatePersistenceError SavePlan := do
  let current ← load coercions readable content
  refuse (current.revision ≠ expectedRevision) (.staleRevision expectedRevision current.revision)
  validateForward current lifecycle promotions
  validateCrossLinks lifecycle promotions
  let next : PersistedDiscoveryState :=
    { revision := current.revision + 1, lifecycle, promotions }
  refuse (validateDocument coercions (documentData lifecycle promotions next.revision) = none)
    .notSerializable
  if 0 < current.revision ∧ documentData lifecycle promotions current.revision =
      documentData current.lifecycle current.promotions current.revision then
    return .unchanged current
  else return .replace next

/-- One save: the content of the file afterwards, and what the call returns or raises.
Replacing the file may fail, and then leaves it as it was. -/
def save (readable writable : Bool) (content : Option Text)
    (lifecycle : IdentityLifecycleState) (promotions : CorePromotionResult)
    (expectedRevision : Int) :
    Option Text × Except DiscoveryStatePersistenceError PersistedDiscoveryState :=
  match planSave coercions readable content lifecycle promotions expectedRevision with
  | .error error => (content, .error error)
  | .ok (.unchanged current) => (content, .ok current)
  | .ok (.replace next) =>
    if writable then (some (payload next), .ok next) else (content, .error .notPersisted)

end

/-! ## Runs of the discovery state file

A save that does not raise leaves a document that is loaded as the state it was given,
and along a run nothing that was recorded is lost.
-/

open Guards Json Scans

/-- What a later state has of an earlier one. -/
structure Keeps (earlier later : PersistedDiscoveryState) : Prop where
  generations : earlier.lifecycle.generations ⊆ later.lifecycle.generations
  events : earlier.lifecycle.events ⊆ later.lifecycle.events
  inactive : earlier.lifecycle.inactiveIdentityKeys ⊆ later.lifecycle.inactiveIdentityKeys
  promotions : ∀ old ∈ earlier.promotions.records, ∃ new ∈ later.promotions.records,
    new.coreAsset.id = old.coreAsset.id ∧ new.durableIdentityKey = old.durableIdentityKey ∧
      old.generationNumbers <+: new.generationNumbers

theorem Keeps.refl (state : PersistedDiscoveryState) : Keeps state state where
  generations := List.Subset.refl _
  events := List.Subset.refl _
  inactive := List.Subset.refl _
  promotions old hold := ⟨old, hold, rfl, rfl, List.prefix_rfl⟩

theorem Keeps.trans {first second third : PersistedDiscoveryState} (h : Keeps first second)
    (h' : Keeps second third) : Keeps first third where
  generations := List.Subset.trans h.generations h'.generations
  events := List.Subset.trans h.events h'.events
  inactive := List.Subset.trans h.inactive h'.inactive
  promotions old hold := by
    have ⟨middle, hmiddle, hid, hkey, hprefix⟩ := h.promotions old hold
    have ⟨new, hnew, hid', hkey', hprefix'⟩ := h'.promotions middle hmiddle
    exact ⟨new, hnew, hid'.trans hid, hkey'.trans hkey, hprefix.trans hprefix'⟩

/-- What a plan is based on: the loaded state it was checked against. -/
structure Planned (coercions : Coercions) (content : Option Text)
    (lifecycle : IdentityLifecycleState) (promotions : CorePromotionResult)
    (expectedRevision : Int) (current : PersistedDiscoveryState) : Prop where
  loaded : load coercions true content = .ok current
  expected : current.revision = expectedRevision
  keeps : Keeps current ⟨current.revision + 1, lifecycle, promotions⟩
  loadable : load coercions true (some (payload ⟨current.revision + 1, lifecycle, promotions⟩)) =
    .ok ⟨current.revision + 1, lifecycle, promotions⟩

/-- What a save may do to a document: raise, find nothing new, or store the next revision. -/
inductive SaveOutcome (coercions : Coercions) (content : Option Text)
    (lifecycle : IdentityLifecycleState) (promotions : CorePromotionResult) :
    Option Text × Except DiscoveryStatePersistenceError PersistedDiscoveryState → Prop where
  | raised (error : DiscoveryStatePersistenceError) :
      SaveOutcome coercions content lifecycle promotions (content, .error error)
  | unchanged (current : PersistedDiscoveryState)
      (loaded : load coercions true content = .ok current)
      (same : current.lifecycle = lifecycle ∧ current.promotions = promotions) :
      SaveOutcome coercions content lifecycle promotions (content, .ok current)
  | stored (current : PersistedDiscoveryState)
      (loaded : load coercions true content = .ok current)
      (differs : ¬ (0 < current.revision ∧ current.lifecycle = lifecycle ∧
        current.promotions = promotions))
      (loadable : load coercions true (some (payload ⟨current.revision + 1, lifecycle, promotions⟩)) =
        .ok ⟨current.revision + 1, lifecycle, promotions⟩)
      (keeps : Keeps current ⟨current.revision + 1, lifecycle, promotions⟩) :
      SaveOutcome coercions content lifecycle promotions
        (some (payload ⟨current.revision + 1, lifecycle, promotions⟩),
          .ok ⟨current.revision + 1, lifecycle, promotions⟩)

/-! ### Documents and states -/

theorem lifecycleDocument_state (lifecycle : IdentityLifecycleState) :
    (lifecycleDocument lifecycle).state = .ok lifecycle := by
  simp only [LifecycleDocument.state, lifecycleDocument, bind_eq_ok, exists_unit, pure_eq_ok]
  exact ⟨refuse_eq_ok.mpr fun h => h rfl, trivial⟩

theorem promotionDocument_record (record : CorePromotionRecord) :
    (promotionDocument record).record = .ok record := by
  have hasset : (assetDocument record.coreAsset).asset = .ok record.coreAsset := by
    cases record.coreAsset with
    | asset id name => rfl
    | device id name deviceType manufacturer model catalogNumber => rfl
  simp only [PromotionDocument.record, promotionDocument, hasset, bind_eq_ok, pure_eq_ok]
  exact ⟨_, rfl, rfl⟩

theorem promotionsDocument_result (promotions : CorePromotionResult) :
    (promotionsDocument promotions).result = .ok promotions := by
  have hrecords : (promotions.records.map promotionDocument).mapM PromotionDocument.record =
      .ok promotions.records := by
    induction promotions.records with
    | nil => rfl
    | cons record records ih =>
      rw [List.map_cons, List.mapM_cons, promotionDocument_record, ih]
      rfl
  simp only [PromotionsDocument.result, promotionsDocument, hrecords, bind_eq_ok, pure_eq_ok]
  exact ⟨_, rfl, rfl⟩

theorem validateForwardPromotion_ok {records : List CorePromotionRecord} {old : CorePromotionRecord}
    (h : validateForwardPromotion (Dictionary.ofItems (·.coreAsset.id) id records) old = .ok ()) :
    ∃ new ∈ records, new.coreAsset.id = old.coreAsset.id ∧
      new.durableIdentityKey = old.durableIdentityKey ∧
      old.generationNumbers <+: new.generationNumbers := by
  unfold validateForwardPromotion at h
  cases hfound : (Dictionary.ofItems (·.coreAsset.id) id records).get? old.coreAsset.id with
  | none => simp [hfound] at h
  | some new =>
    rcases Dictionary.ofItems_get? hfound with ⟨item, hitem, hid, hsame⟩
    simp only [hfound, bind_eq_ok, refuse_eq_ok, exists_unit, ne_eq, not_not] at h
    have hnew : item = new := hsame
    rw [hnew] at hitem hid
    refine ⟨new, hitem, hid, h.1.symm, ?_⟩
    rw [List.prefix_iff_eq_take]
    exact h.2

section

variable {coercions : Coercions} {content : Option Text} {readable writable : Bool}
  {lifecycle : IdentityLifecycleState} {promotions : CorePromotionResult}
  {expectedRevision : Int}

theorem load_readable {state : PersistedDiscoveryState}
    (h : load coercions readable content = .ok state) : load coercions true content = .ok state := by
  cases content with
  | none => exact h
  | some text =>
    simp only [load, bind_eq_ok, refuse_eq_ok, exists_unit] at h ⊢
    exact ⟨by simp, h.2⟩

variable (hcoercions : Rereads coercions)
include hcoercions

variable {revision : Int} {document : StateDocument}

theorem load_payload (hrestored : restoreState coercions lifecycle promotions revision = some document)
    (hlinks : validateCrossLinks lifecycle promotions = .ok ()) :
    load coercions true (some (payload ⟨revision, lifecycle, promotions⟩)) =
      .ok ⟨revision, lifecycle, promotions⟩ := by
  have ⟨hrevision, hread, _⟩ := restoreState_some hcoercions hrestored
  have hloads : loads (payload ⟨revision, lifecycle, promotions⟩) =
      some (documentData lifecycle promotions revision) :=
    loads_dumps fileLayout _ (by simp [isSpace])
  simp only [load, hloads, Option.bind_some, validateDocument_documentData, hread revision hrevision,
    lifecycleDocument_state, promotionsDocument_result, bind_eq_ok, refuse_eq_ok, exists_unit,
    pure_eq_ok]
  exact ⟨by simp, lifecycle, rfl, promotions, rfl, hlinks, rfl⟩

/-! ### Forward history -/

theorem generation_of_stableItem {old new : DurableIdentityGeneration}
    (hnew : restoreGeneration coercions new = some new)
    (h : stableItem (.obj (generationMembers old)) = stableItem (.obj (generationMembers new))) :
    old = new := by
  have hsorted := dumps_injective _ h
  have hread := readGeneration_members reorders_sortKeys coercions new
  rw [← hsorted, readGeneration_members reorders_sortKeys, hnew] at hread
  exact (restoreGeneration_same hcoercions old new hread).symm

theorem event_of_stableItem {old new : IdentityLifecycleEvent}
    (hnew : restoreEvent coercions new = some new)
    (h : stableItem (.obj (eventMembers old)) = stableItem (.obj (eventMembers new))) :
    old = new := by
  have hsorted := dumps_injective _ h
  have hread := readEvent_members reorders_sortKeys coercions new
  rw [← hsorted, readEvent_members reorders_sortKeys, hnew] at hread
  exact (restoreEvent_same hcoercions old new hread).symm

theorem forward_keeps {previous : PersistedDiscoveryState}
    (hrestored : restoreState coercions lifecycle promotions revision = some document)
    (h : validateForward previous lifecycle promotions = .ok ()) :
    Keeps previous ⟨revision, lifecycle, promotions⟩ := by
  have ⟨_, _, hgenerations, hevents⟩ := restoreState_some hcoercions hrestored
  simp only [validateForward, bind_eq_ok, refuse_eq_ok, exists_unit, not_exists, not_and,
    not_not] at h
  have ⟨hstableGenerations, hstableEvents, hinactive, hpromotions⟩ := h
  constructor
  · intro old hold
    have hstable := hstableGenerations _ (List.mem_map.mpr ⟨old, hold, rfl⟩)
    have ⟨new, hnew, hsame⟩ := List.mem_map.mp hstable
    rw [generation_of_stableItem hcoercions (hgenerations new hnew) hsame.symm]
    exact hnew
  · intro old hold
    have hstable := hstableEvents _ (List.mem_map.mpr ⟨old, hold, rfl⟩)
    have ⟨new, hnew, hsame⟩ := List.mem_map.mp hstable
    rw [event_of_stableItem hcoercions (hevents new hnew) hsame.symm]
    exact hnew
  · exact hinactive
  · intro old hold
    exact validateForwardPromotion_ok (forM_eq_ok.mp hpromotions old hold)

/-! ### One save -/

theorem state_of_documentData {other : PersistedDiscoveryState} (hrevision : 1 ≤ other.revision)
    (hrestored : restoreState coercions lifecycle promotions revision = some document)
    (h : documentData lifecycle promotions other.revision =
      documentData other.lifecycle other.promotions other.revision) :
    other.lifecycle = lifecycle ∧ other.promotions = promotions := by
  have ⟨_, hread, _⟩ := restoreState_some hcoercions hrestored
  have hsame := validateDocument_documentData coercions lifecycle promotions other.revision
  rw [hread other.revision hrevision, h, validateDocument_documentData] at hsame
  have ⟨_, hother, _⟩ := restoreState_some hcoercions hsame
  have hdocuments := (hother other.revision hrevision).symm.trans hsame
  simp only [Option.some.injEq, StateDocument.mk.injEq, true_and] at hdocuments
  constructor
  · have hstate := lifecycleDocument_state other.lifecycle
    rw [hdocuments.1, lifecycleDocument_state] at hstate
    exact (Except.ok.inj hstate).symm
  · have hresult := promotionsDocument_result other.promotions
    rw [hdocuments.2, promotionsDocument_result] at hresult
    exact (Except.ok.inj hresult).symm

/-- A plan leaves the document alone where the state does not differ from the stored one,
and replaces it by the next revision otherwise. -/
theorem planSave_ok {plan : SavePlan}
    (h : planSave coercions readable content lifecycle promotions expectedRevision = .ok plan) :
    ∃ current, Planned coercions content lifecycle promotions expectedRevision current ∧
      ((plan = .unchanged current ∧ current.lifecycle = lifecycle ∧
          current.promotions = promotions) ∨
        (plan = .replace ⟨current.revision + 1, lifecycle, promotions⟩ ∧
          ¬ (0 < current.revision ∧ current.lifecycle = lifecycle ∧
            current.promotions = promotions))) := by
  simp only [planSave, bind_eq_ok, refuse_eq_ok, exists_unit, ne_eq, not_not] at h
  have ⟨current, hload, hexpected, hforward, hlinks, hvalid, hplan⟩ := h
  have ⟨document, hdocument⟩ := Option.ne_none_iff_exists'.mp hvalid
  rw [validateDocument_documentData] at hdocument
  refine ⟨current, ⟨load_readable hload, hexpected, forward_keeps hcoercions hdocument hforward,
    load_payload hcoercions hdocument hlinks⟩, ?_⟩
  by_cases hsame : 0 < current.revision ∧ documentData lifecycle promotions current.revision =
      documentData current.lifecycle current.promotions current.revision
  · rw [if_pos hsame, pure_eq_ok] at hplan
    have hstates := state_of_documentData hcoercions (by omega) hdocument hsame.2
    exact .inl ⟨hplan.symm, hstates⟩
  · rw [if_neg hsame, pure_eq_ok] at hplan
    refine .inr ⟨hplan.symm, fun hequal => hsame ⟨hequal.1, ?_⟩⟩
    rw [hequal.2.1, hequal.2.2]

theorem save_outcome :
    SaveOutcome coercions content lifecycle promotions
      (save coercions readable writable content lifecycle promotions expectedRevision) := by
  unfold save
  cases hplan : planSave coercions readable content lifecycle promotions expectedRevision with
  | error error => exact .raised error
  | ok plan =>
    have ⟨current, hplanned, hcases⟩ := planSave_ok hcoercions hplan
    cases hcases with
    | inl hunchanged =>
      rw [hunchanged.1]
      exact .unchanged current hplanned.loaded hunchanged.2
    | inr hreplace =>
      rw [hreplace.1]
      by_cases hwritable : writable = true
      · simp only [hwritable, if_true]
        exact .stored current hplanned.loaded hreplace.2 hplanned.loadable hplanned.keeps
      · simp only [hwritable]
        exact .raised .notPersisted

end

/-! ### Runs -/

inductive StoreCall where
  | load (readable : Bool)
  | save (readable writable : Bool) (lifecycle : IdentityLifecycleState)
      (promotions : CorePromotionResult) (expectedRevision : Int)

/-- The file, with what the last save that did not raise was given. -/
structure StoreHistory where
  content : Option Text
  saved : Option (IdentityLifecycleState × CorePromotionResult)

def StoreHistory.perform (coercions : Coercions) (history : StoreHistory) :
    StoreCall → StoreHistory
  | .load _ => history
  | .save readable writable lifecycle promotions expectedRevision =>
    let outcome :=
      Discovery.save coercions readable writable history.content lifecycle promotions
        expectedRevision
    { content := outcome.1
      saved := if outcome.2.toBool then some (lifecycle, promotions) else history.saved }

section

variable {coercions : Coercions} (hcoercions : Rereads coercions)
include hcoercions

theorem perform_keeps {history : StoreHistory} {earlier : PersistedDiscoveryState}
    (h : load coercions true history.content = .ok earlier) (call : StoreCall) :
    ∃ later, load coercions true (history.perform coercions call).content = .ok later ∧
      Keeps earlier later := by
  cases call with
  | load readable => exact ⟨earlier, h, .refl earlier⟩
  | save readable writable lifecycle promotions expectedRevision =>
    have houtcome := @save_outcome coercions history.content readable writable lifecycle promotions
      expectedRevision hcoercions
    show ∃ later, load coercions true (save coercions readable writable history.content lifecycle
      promotions expectedRevision).1 = .ok later ∧ _
    generalize save coercions readable writable history.content lifecycle promotions
      expectedRevision = outcome at houtcome
    cases houtcome with
    | raised error => exact ⟨earlier, h, .refl earlier⟩
    | unchanged current loaded same => exact ⟨earlier, h, .refl earlier⟩
    | stored current loaded differs loadable keeps =>
      have hsame : current = earlier := Except.ok.inj (loaded.symm.trans h)
      subst hsame
      exact ⟨_, loadable, keeps⟩

theorem perform_saved {history : StoreHistory}
    (h : ∀ lifecycle promotions, history.saved = some (lifecycle, promotions) →
      ∃ revision, load coercions true history.content = .ok ⟨revision, lifecycle, promotions⟩)
    (call : StoreCall) {lifecycle : IdentityLifecycleState} {promotions : CorePromotionResult}
    (hsaved : (history.perform coercions call).saved = some (lifecycle, promotions)) :
    ∃ revision, load coercions true (history.perform coercions call).content =
      .ok ⟨revision, lifecycle, promotions⟩ := by
  cases call with
  | load readable => exact h lifecycle promotions hsaved
  | save readable writable given promoted expectedRevision =>
    have houtcome := @save_outcome coercions history.content readable writable given promoted
      expectedRevision hcoercions
    simp only [StoreHistory.perform] at hsaved ⊢
    generalize save coercions readable writable history.content given promoted
      expectedRevision = outcome at houtcome hsaved
    cases houtcome with
    | raised error => exact h lifecycle promotions (by simpa [Except.toBool] using hsaved)
    | unchanged current loaded same =>
      have hgiven : given = lifecycle ∧ promoted = promotions := by
        simpa [Except.toBool] using hsaved
      refine ⟨current.revision, ?_⟩
      rw [loaded, ← hgiven.1, ← hgiven.2, ← same.1, ← same.2]
    | stored current loaded differs loadable keeps =>
      have hgiven : given = lifecycle ∧ promoted = promotions := by
        simpa [Except.toBool] using hsaved
      rw [← hgiven.1, ← hgiven.2]
      exact ⟨_, loadable⟩

/-- Over any run of calls on a file, whatever it holds at first: a save raises, finds nothing
new, or stores the next revision; what is loaded is what the last save that did not raise was
given; and nothing that was loaded once is lost. -/
theorem state_store_runs (content : Option Text) (before : List StoreCall) :
    let history := after (StoreHistory.perform coercions) ⟨content, none⟩ before
    (∀ readable writable lifecycle promotions expectedRevision,
      SaveOutcome coercions history.content lifecycle promotions
        (save coercions readable writable history.content lifecycle promotions expectedRevision)) ∧
    (∀ lifecycle promotions, history.saved = some (lifecycle, promotions) →
      ∃ revision, load coercions true history.content = .ok ⟨revision, lifecycle, promotions⟩) ∧
    ∀ readable earlier, load coercions readable history.content = .ok earlier → ∀ calls,
      ∃ later, load coercions true (after (StoreHistory.perform coercions) history calls).content =
        .ok later ∧ Keeps earlier later := by
  intro history
  refine ⟨fun _ _ _ _ _ => save_outcome hcoercions, ?_, ?_⟩
  · apply after_history fun _ (history : StoreHistory) => ∀ lifecycle promotions,
      history.saved = some (lifecycle, promotions) →
        ∃ revision, load coercions true history.content = .ok ⟨revision, lifecycle, promotions⟩
    · intro _ _ hnone
      cases hnone
    · exact fun _ call hpast _ _ => perform_saved hcoercions hpast call
  · intro readable earlier hearlier calls
    apply after_history fun _ (later : StoreHistory) => ∃ state,
      load coercions true later.content = .ok state ∧ Keeps earlier state
    · exact ⟨earlier, load_readable hearlier, .refl earlier⟩
    · intro past call hpast
      have ⟨state, hstate, hkeeps⟩ := hpast
      have ⟨later, hlater, hnext⟩ := perform_keeps hcoercions hstate call
      exact ⟨later, hlater, hkeeps.trans hnext⟩

end

/-! ### A first save -/

def awareTime (text : Text) : Option DateTime :=
  (DateTime.fromisoformat text).filter fun time => time.isAware

/-- Integers, Booleans and aware times in their own spelling. -/
def plainCoercions : Coercions where
  int := asInt
  bool := asBool
  time data := (asText data).bind awareTime
  int_int _ := rfl
  bool_bool _ := rfl

theorem plainCoercions_rereads : Rereads plainCoercions := by
  intro time found h
  simp only [plainCoercions, asText, Option.bind_some, awareTime,
    DateTime.fromisoformat_isoformat, Option.filter_eq_some_iff] at h
  exact (Option.some.inj h.1).symm

def observedTime : DateTime := .epoch

def observedLifecycle (numbers : List Int) : IdentityLifecycleState where
  generations := numbers.map fun number => {
    identityKey := "identity:1", generation := number, observedAt := observedTime
    candidateKeys := ["candidate:1"], targetKeys := ["192.0.2.130|"]
    acceptanceReviews := [{
      candidateKey := "candidate:1", disposition := .accept, reviewedBy := "operator"
      reviewedAt := observedTime, rationale := "Accepted."
      durableIdentityKey := some "identity:1" }]
    evidence := [], conflictOverridden := false }

def observedPromotions (numbers : List Int) : CorePromotionResult where
  records := [{
    coreAsset := .device "asset-1" "Controller" .controller (some "Example") none none
    durableIdentityKey := "identity:1", generationNumbers := numbers
    targetKeys := ["192.0.2.130|"], promotedBy := "operator", promotedAt := observedTime
    rationale := "Approved.", evidence := [], acknowledgedConflictOverride := false }]
  unpromotedIdentityKeys := []

theorem first_save_loaded :
    let history := after (StoreHistory.perform plainCoercions) ⟨none, none⟩
      [.save true true (observedLifecycle [1]) (observedPromotions [1]) 0]
    ∃ revision, load plainCoercions true history.content =
      .ok ⟨revision, observedLifecycle [1], observedPromotions [1]⟩ :=
  (state_store_runs plainCoercions_rereads none
    [.save true true (observedLifecycle [1]) (observedPromotions [1]) 0]).2.1 _ _
      (by decide +kernel)

end TwinForge.Discovery
