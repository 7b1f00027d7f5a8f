import TwinForge.Discovery.InventoryReconciliation
import TwinForge.Foundation.KeyedMatching

/-! # What a reconciliation accounts for

An item is meant by its capability, its parent and its name. The key that stands for them in the
dictionaries is a text, in which a parent that is missing reads like one named `controller`, and
the bar between parent and name may be read at another place.
-/

namespace TwinForge.Discovery

open Guards List

variable {db : CharacterDatabase} {Evidence Metadata : Type}

/-! ## Identities and their keys -/

structure SoftwareIdentity where
  capability : CipSoftwareInventoryCapability
  parent : Option Text
  name : Text
  deriving DecidableEq, Repr

def CipSoftwareInventoryItem.identity (item : CipSoftwareInventoryItem db) : SoftwareIdentity :=
  ⟨item.capability, item.parent, item.name⟩

def SoftwareFields.identity (fields : SoftwareFields) : SoftwareIdentity :=
  ⟨fields.capability, fields.parent, fields.name⟩

def SoftwareIdentity.key (identity : SoftwareIdentity) : Text :=
  identity.capability.value ++ '|' :: (scopeText identity.parent ++ '|' :: identity.name)

theorem softwareItemKey_eq (item : CipSoftwareInventoryItem db) : softwareItemKey item = item.identity.key := rfl

/-- A bar of the first name ends the scope of the second. -/
def Shifted (first second : SoftwareIdentity) : Prop :=
  ∃ between, scopeText second.parent = scopeText first.parent ++ '|' :: between ∧
    first.name = between ++ '|' :: second.name

/-- Two identities that read the same, scope and name together. -/
def Collide (first second : SoftwareIdentity) : Prop :=
  first.capability = second.capability ∧
    ((scopeText first.parent = scopeText second.parent ∧ first.name = second.name) ∨
      Shifted first second ∨ Shifted second first)

theorem capability_value_free (capability : CipSoftwareInventoryCapability) :
    ∀ c ∈ capability.value, c ≠ '|' := by
  cases capability <;> decide

theorem key_eq_iff {first second : SoftwareIdentity} :
    first.key = second.key ↔ Collide first second := by
  constructor
  · intro h
    obtain ⟨hvalue, hrest⟩ := @Delimiters.run_unique _ (· ≠ '|') _ _ _ _
      (capability_value_free first.capability) (capability_value_free second.capability)
      (by simp) (by simp) h
    rw [List.cons.injEq] at hrest
    exact ⟨capability_value_injective hvalue, Delimiters.split_iff.mp hrest.2⟩
  · intro h
    obtain ⟨hcapability, hread⟩ := h
    rw [SoftwareIdentity.key, SoftwareIdentity.key, hcapability, Delimiters.split_iff.mpr hread]

/-! ## Configured items -/

theorem item_eq_ok {fields : SoftwareFields} {item : CipSoftwareInventoryItem db}
    (h : fields.item = .ok item) :
    (fields.name ≠ [] ∧ Trimmed db fields.name) ∧ item.identity = fields.identity := by
  unfold SoftwareFields.item at h
  split at h
  · next hname =>
    cases h
    exact ⟨hname, rfl⟩
  · cases h

theorem item_named {fields : SoftwareFields} (h : fields.name ≠ [] ∧ Trimmed db fields.name) :
    ∃ item : CipSoftwareInventoryItem db, fields.item = .ok item := by
  unfold SoftwareFields.item
  rw [dif_pos h]
  exact ⟨_, rfl⟩

theorem mapM_item_ok {fields : List SoftwareFields} {items : List (CipSoftwareInventoryItem db)}
    (h : fields.mapM SoftwareFields.item = .ok items) :
    (∀ field ∈ fields, field.name ≠ [] ∧ Trimmed db field.name) ∧
      items.map CipSoftwareInventoryItem.identity = fields.map SoftwareFields.identity := by
  induction fields generalizing items with
  | nil =>
    cases h
    exact ⟨by simp, rfl⟩
  | cons field fields ih =>
    rw [mapM_cons, bind_eq_ok] at h
    obtain ⟨item, hitem, h⟩ := h
    obtain ⟨later, hlater, h⟩ := bind_eq_ok.mp h
    cases h
    have ⟨hname, hidentity⟩ := item_eq_ok hitem
    have ⟨hnames, hidentities⟩ := ih hlater
    exact ⟨forall_mem_cons.mpr ⟨hname, hnames⟩,
      by rw [map_cons, map_cons, hidentity, hidentities]⟩

theorem mapM_item_named {fields : List SoftwareFields}
    (h : ∀ field ∈ fields, field.name ≠ [] ∧ Trimmed db field.name) :
    ∃ items : List (CipSoftwareInventoryItem db),
      fields.mapM SoftwareFields.item = .ok items := by
  obtain ⟨items, hitems, _⟩ := @mapM_ok _ _ _ SoftwareFields.item (fun _ _ => True) fields
    fun field hfield => (item_named (h field hfield)).imp fun _ hitem => ⟨hitem, trivial⟩
  exact ⟨items, hitems⟩

variable {capability : CipSoftwareInventoryCapability}

theorem program_members_nodup
    {Member : Type} {members : ConfiguredProgram → List Member} {name : Member → Text}
    (hmembers : ∀ program, ((members program).map name).Nodup) {programs : List ConfiguredProgram}
    (hprograms : (programs.map ConfiguredProgram.name).Nodup) :
    (programs.flatMap fun program => (members program).map fun member =>
      (⟨capability, some program.name, name member⟩ : SoftwareIdentity)).Nodup := by
  rw [nodup_flatMap]
  constructor
  · intro program _
    have hnames := hmembers program
    rw [List.Nodup, pairwise_map] at hnames ⊢
    exact hnames.imp fun hdifferent hsame => hdifferent (by injection hsame)
  · rw [List.Nodup, pairwise_map] at hprograms
    apply hprograms.imp
    intro first second hdifferent identity hfirst hsecond
    obtain ⟨_, _, rfl⟩ := mem_map.mp hfirst
    obtain ⟨_, _, hsame⟩ := mem_map.mp hsecond
    injection hsame with _ hparent
    exact hdifferent (Option.some.inj hparent).symm

theorem plain_nodup {Member : Type}
    {name : Member → Text} {members : List Member} (h : (members.map name).Nodup) :
    (members.map fun member =>
      (⟨capability, none, name member⟩ : SoftwareIdentity)).Nodup := by
  rw [List.Nodup, pairwise_map] at h ⊢
  exact h.imp fun hdifferent hsame => hdifferent (by injection hsame)

/-- Identities of one capability, wherever it is requested. -/
structure Section (capability : CipSoftwareInventoryCapability)
    (identities : List SoftwareIdentity) : Prop where
  nodup : identities.Nodup
  capability_eq : ∀ identity ∈ identities, identity.capability = capability

theorem section_requested {capability : CipSoftwareInventoryCapability} {requested : Prop}
    [Decidable requested] {fields : List SoftwareFields}
    (h : Section capability (fields.map SoftwareFields.identity)) :
    Section capability ((if requested then fields else []).map SoftwareFields.identity) := by
  split
  · exact h
  · exact ⟨nodup_nil, by simp⟩

theorem sections_nodup {earlier : List SoftwareIdentity} {identities : List SoftwareIdentity}
    (hearlier : earlier.Nodup) (hother : ∀ identity ∈ earlier, identity.capability ≠ capability)
    (h : Section capability identities) : (earlier ++ identities).Nodup := by
  rw [nodup_append]
  refine ⟨hearlier, h.nodup, ?_⟩
  intro first hfirst second hsecond hsame
  exact hother first hfirst (by rw [hsame, h.capability_eq second hsecond])

variable (controller : ConfiguredController)

theorem programs_section :
    Section .programs ((controller.programs.map fun program =>
      ({ capability := .programs, name := program.name } : SoftwareFields)).map
        SoftwareFields.identity) := by
  rw [map_map]
  exact ⟨plain_nodup controller.program_names, by simp [SoftwareFields.identity]⟩

theorem routines_section :
    Section .routines ((controller.programs.flatMap fun program =>
      program.routines.map fun routine =>
        ({ capability := .routines, name := routine.name, parent := some program.name
           language := routine.language } : SoftwareFields)).map SoftwareFields.identity) := by
  rw [map_flatMap]
  simp only [map_map]
  constructor
  · exact program_members_nodup (fun program => program.routine_names) controller.program_names
  · intro identity hidentity
    obtain ⟨_, _, hmember⟩ := mem_flatMap.mp hidentity
    obtain ⟨_, _, rfl⟩ := mem_map.mp hmember
    rfl

theorem tasks_section :
    Section .tasks ((controller.tasks.map fun task =>
      ({ capability := .tasks, name := task.name } : SoftwareFields)).map
        SoftwareFields.identity) := by
  rw [map_map]
  exact ⟨plain_nodup controller.task_names, by simp [SoftwareFields.identity]⟩

theorem tags_section :
    Section .tagDefinitions (((controller.tags.map fun tag =>
        ({ capability := .tagDefinitions, name := tag.name, dataType := tag.dataType } :
          SoftwareFields)) ++
      controller.programs.flatMap fun program => program.tags.map fun tag =>
        ({ capability := .tagDefinitions, name := tag.name, parent := some program.name
           dataType := tag.dataType } : SoftwareFields)).map SoftwareFields.identity) := by
  rw [map_append, map_flatMap]
  simp only [map_map]
  constructor
  · rw [nodup_append]
    refine ⟨plain_nodup controller.tag_names,
      program_members_nodup (fun program => program.tag_names) controller.program_names, ?_⟩
    intro first hfirst second hsecond hsame
    obtain ⟨_, _, rfl⟩ := mem_map.mp hfirst
    obtain ⟨_, _, hmember⟩ := mem_flatMap.mp hsecond
    obtain ⟨_, _, rfl⟩ := mem_map.mp hmember
    injection hsame with _ hparent
    cases hparent
  · intro identity hidentity
    cases mem_append.mp hidentity with
    | inl hplain =>
      obtain ⟨_, _, rfl⟩ := mem_map.mp hplain
      rfl
    | inr hscoped =>
      obtain ⟨_, _, hmember⟩ := mem_flatMap.mp hscoped
      obtain ⟨_, _, rfl⟩ := mem_map.mp hmember
      rfl

theorem configuredFields_nodup (capabilities : List CipSoftwareInventoryCapability) :
    ((configuredFields controller capabilities).map SoftwareFields.identity).Nodup := by
  have hprograms := @section_requested _ (.programs ∈ capabilities) _ _
    (programs_section controller)
  have hroutines := @section_requested _ (.routines ∈ capabilities) _ _
    (routines_section controller)
  have htasks := @section_requested _ (.tasks ∈ capabilities) _ _ (tasks_section controller)
  have htags := @section_requested _ (.tagDefinitions ∈ capabilities) _ _
    (tags_section controller)
  rw [configuredFields, map_append, map_append, map_append]
  apply sections_nodup _ _ htags
  · apply sections_nodup _ _ htasks
    · apply sections_nodup hprograms.nodup _ hroutines
      intro identity hidentity
      simp [hprograms.capability_eq identity hidentity]
    · intro identity hidentity
      cases mem_append.mp hidentity with
      | inl h => simp [hprograms.capability_eq identity h]
      | inr h => simp [hroutines.capability_eq identity h]
  · intro identity hidentity
    cases mem_append.mp hidentity with
    | inl h =>
      cases mem_append.mp h with
      | inl h => simp [hprograms.capability_eq identity h]
      | inr h => simp [hroutines.capability_eq identity h]
    | inr h => simp [htasks.capability_eq identity h]

/-! ## Comparisons -/

theorem compareField_key (configured discovered : CipSoftwareInventoryItem db)
    (comparison : SoftwareInventoryComparison)
    (field : Text × (CipSoftwareInventoryItem db → Option Text)) :
    (compareField configured discovered comparison field).key = comparison.key := by
  unfold compareField
  split
  · rfl
  · split
    · rfl
    · split <;> rfl

theorem compareItem_key (key : Text) (configured discovered : CipSoftwareInventoryItem db) :
    (compareItem key configured discovered).key = key := by
  simp only [compareItem, comparedFields, foldl_cons, foldl_nil, compareField_key]

theorem sortedSet_perm {texts : List Text} (h : texts.Nodup) : (sortedSet texts).Perm texts := by
  have hperm := sortedBy_perm compare texts.dedup
  rw [h.dedup] at hperm
  rw [sortedSet, h.dedup]
  exact hperm

/-! ## Accounting -/

/-- Each item of both sides has its own entry: a comparison with the item of the same capability,
parent and name on the other side, or its key on its own side. -/
structure Accounted (configured discovered : List (CipSoftwareInventoryItem db))
    (result : SoftwareInventoryReconciliationResult) : Prop where
  comparisons : result.comparisons.Perm
    (partners softwareItemKey CipSoftwareInventoryItem.identity compareItem configured discovered)
  configuredOnly : result.configuredOnly.Perm
    ((unmatched CipSoftwareInventoryItem.identity configured discovered).map softwareItemKey)
  discoveredOnly : result.discoveredOnly.Perm
    ((unmatched CipSoftwareInventoryItem.identity discovered configured).map softwareItemKey)
  once : (result.comparisons.map SoftwareInventoryComparison.key ++
    (result.configuredOnly ++ result.discoveredOnly)).Nodup

/-- The reconciliation succeeds and accounts for every item. -/
def AccountsForEverything (observation : CapturedInventory db Evidence Metadata)
    (binding : ConfiguredSoftwareBinding db) : Prop :=
  ∃ (configured : List (CipSoftwareInventoryItem db))
    (result : SoftwareInventoryReconciliationResult),
    (configuredFields binding.controller observation.capabilities).mapM SoftwareFields.item =
      .ok configured ∧
    reconcileSoftwareInventory observation binding = .ok result ∧
    Accounted configured observation.items result

def reconciledIdentities (observation : CapturedInventory db Evidence Metadata)
    (binding : ConfiguredSoftwareBinding db) : List SoftwareIdentity :=
  (configuredFields binding.controller observation.capabilities).map SoftwareFields.identity ++
    observation.items.map CipSoftwareInventoryItem.identity

section

variable {configured discovered : List (CipSoftwareInventoryItem db)}

def reconciled (bindingKey : Text) (first second : Dictionary Text (CipSoftwareInventoryItem db)) :
    SoftwareInventoryReconciliationResult where
  bindingKey := bindingKey
  comparisons := (sortedSet (first.keys.filter (· ∈ second.keys))).filterMap fun key =>
    (first.get? key).bind fun item => (second.get? key).map (compareItem key item)
  configuredOnly := sortedSet (first.keys.filter (· ∉ second.keys))
  discoveredOnly := sortedSet (second.keys.filter (· ∉ first.keys))

theorem reconcile_eq_ok {observation : CapturedInventory db Evidence Metadata}
    {binding : ConfiguredSoftwareBinding db} {result : SoftwareInventoryReconciliationResult}
    (hconfigured : (configuredFields binding.controller observation.capabilities).mapM
      SoftwareFields.item = .ok configured) :
    reconcileSoftwareInventory observation binding = .ok result ↔
      (Dictionary.ofItems softwareItemKey id observation.items).keys.length = observation.items.length ∧
        result = reconciled binding.key (Dictionary.ofItems softwareItemKey id configured)
          (Dictionary.ofItems softwareItemKey id observation.items) := by
  have hlength : (Dictionary.ofItems softwareItemKey id observation.items).entries.length =
      (Dictionary.ofItems softwareItemKey id observation.items).keys.length := (length_map ..).symm
  simp only [reconcileSoftwareInventory, configuredItems, hconfigured, bind_eq_ok, pure_eq_ok,
    refuse_eq_ok, exists_unit, ne_eq, not_not, hlength]
  constructor
  · intro h
    obtain ⟨_, ⟨_, hitems, rfl⟩, hdistinct, rfl⟩ := h
    cases hitems
    exact ⟨hdistinct, rfl⟩
  · intro h
    obtain ⟨hdistinct, rfl⟩ := h
    exact ⟨_, ⟨_, rfl, rfl⟩, hdistinct, rfl⟩

variable (bindingKey : Text) (first second : Dictionary Text (CipSoftwareInventoryItem db))

theorem reconciled_comparisons : (reconciled bindingKey first second).comparisons.Perm
    (keyedComparisons compareItem first second) := by
  have hnodup : (first.keys.filter (· ∈ second.keys)).Nodup := first.nodup.filter _
  unfold reconciled keyedComparisons
  convert (sortedSet_perm hnodup).filterMap _

theorem reconciled_configuredOnly :
    (reconciled bindingKey first second).configuredOnly.Perm (keysApart first second) := by
  have hnodup : (first.keys.filter (· ∉ second.keys)).Nodup := first.nodup.filter _
  unfold reconciled keysApart
  convert sortedSet_perm hnodup

theorem reconciled_discoveredOnly :
    (reconciled bindingKey first second).discoveredOnly.Perm (keysApart second first) :=
  reconciled_configuredOnly bindingKey second first

theorem reconciled_keys :
    (reconciled bindingKey first second).comparisons.map SoftwareInventoryComparison.key =
      sortedSet (first.keys.filter (· ∈ second.keys)) := by
  rw [reconciled, map_filterMap]
  conv => rhs; rw [← filterMap_some (l := sortedSet (first.keys.filter (· ∈ second.keys)))]
  apply filterMap_congr
  intro key hkey
  obtain ⟨hfirst, hsecond⟩ := mem_filter.mp (mem_sortedSet.mp hkey)
  obtain ⟨item, hitem⟩ := (first.mem_keys_iff key).mp hfirst
  obtain ⟨other, hother⟩ := (second.mem_keys_iff key).mp (of_decide_eq_true hsecond)
  rw [hitem, Option.bind_some, hother, Option.map_some, Option.map_some, compareItem_key]

theorem reconciled_once :
    ((reconciled bindingKey first second).comparisons.map SoftwareInventoryComparison.key ++
      ((reconciled bindingKey first second).configuredOnly ++
        (reconciled bindingKey first second).discoveredOnly)).Nodup := by
  rw [reconciled_keys]
  show (sortedSet (first.keys.filter (· ∈ second.keys)) ++
    (sortedSet (first.keys.filter (· ∉ second.keys)) ++
      sortedSet (second.keys.filter (· ∉ first.keys)))).Nodup
  have honly : (sortedSet (first.keys.filter (· ∉ second.keys)) ++
      sortedSet (second.keys.filter (· ∉ first.keys))).Nodup := by
    refine nodup_append.mpr ⟨sortedSet_nodup _, sortedSet_nodup _, ?_⟩
    intro key hkey other hother hsame
    simp only [mem_sortedSet, mem_filter, decide_eq_true_iff] at hkey hother
    exact hkey.2 (hsame ▸ hother.1)
  refine nodup_append.mpr ⟨sortedSet_nodup _, honly, ?_⟩
  intro key hkey other hother hsame
  simp only [mem_append, mem_sortedSet, mem_filter, decide_eq_true_iff] at hkey hother
  subst hsame
  cases hother with
  | inl h => exact h.2 hkey.2
  | inr h => exact h.2 hkey.1

end

theorem key_of_identity (first second : CipSoftwareInventoryItem db)
    (h : first.identity = second.identity) : softwareItemKey first = softwareItemKey second := by
  rw [softwareItemKey_eq, softwareItemKey_eq, h]

/-- The keys of all items tell their identities apart exactly when no two different ones collide. -/
theorem keysIdentify_iff {configured discovered : List (CipSoftwareInventoryItem db)} :
    KeysIdentify softwareItemKey CipSoftwareInventoryItem.identity (configured ++ discovered) ↔
      ∀ first ∈ (configured ++ discovered).map CipSoftwareInventoryItem.identity,
        ∀ second ∈ (configured ++ discovered).map CipSoftwareInventoryItem.identity,
          Collide first second → first = second := by
  simp only [forall_mem_map, KeysIdentify, softwareItemKey_eq, key_eq_iff]

/-- A reconciliation accounts for every item exactly when the configured items have proper names
and no two different items on either side read the same. -/
theorem reconcile_accounts_iff (observation : CapturedInventory db Evidence Metadata)
    (binding : ConfiguredSoftwareBinding db)
    (hdistinct : (observation.items.map CipSoftwareInventoryItem.identity).Nodup) :
    AccountsForEverything observation binding ↔
      (∀ fields ∈ configuredFields binding.controller observation.capabilities,
        fields.name ≠ [] ∧ Trimmed db fields.name) ∧
      ∀ first ∈ reconciledIdentities observation binding,
        ∀ second ∈ reconciledIdentities observation binding,
          Collide first second → first = second := by
  constructor
  · intro h
    obtain ⟨configured, result, hconfigured, hresult, haccounted⟩ := h
    have ⟨hnames, hidentities⟩ := mapM_item_ok hconfigured
    refine ⟨hnames, ?_⟩
    rw [reconciledIdentities, ← hidentities, ← map_append, ← keysIdentify_iff]
    obtain ⟨hlength, rfl⟩ := (reconcile_eq_ok hconfigured).mp hresult
    apply identify_of_counts key_of_identity hlength
    · rw [← haccounted.comparisons.length_eq]
      exact (reconciled_comparisons _ _ _).length_eq.symm
    · have honly := haccounted.configuredOnly.length_eq
      rw [length_map] at honly
      rw [← honly]
      exact (reconciled_configuredOnly _ _ _).length_eq.symm
  · intro h
    obtain ⟨hnames, hcollide⟩ := h
    obtain ⟨configured, hconfigured⟩ := mapM_item_named hnames
    have hidentities := (mapM_item_ok hconfigured).2
    rw [reconciledIdentities, ← hidentities, ← map_append, ← keysIdentify_iff] at hcollide
    have hleft : (configured.map CipSoftwareInventoryItem.identity).Nodup := by
      rw [hidentities]
      exact configuredFields_nodup _ _
    have hkeys : (observation.items.map softwareItemKey).Nodup :=
      keys_nodup (fun first hfirst second hsecond => hcollide first
        (mem_append_right _ hfirst) second (mem_append_right _ hsecond)) hdistinct
    obtain ⟨hcompared, hconfiguredOnly, hdiscoveredOnly⟩ :=
      @matched_of_identify _ _ _ _ _ softwareItemKey _ compareItem _ _ _ key_of_identity hleft hdistinct
        hcollide
    refine ⟨configured, _, hconfigured,
      (reconcile_eq_ok hconfigured).mpr ⟨ofItems_length_iff.mpr hkeys, rfl⟩, ?_⟩
    exact {
      comparisons := hcompared ▸ reconciled_comparisons _ _ _
      configuredOnly := hconfiguredOnly ▸ reconciled_configuredOnly _ _ _
      discoveredOnly := hdiscoveredOnly ▸ reconciled_discoveredOnly _ _ _
      once := reconciled_once _ _ _ }

/-! ## A tag in two scopes -/

def speedTag (parent : Option Text) : CipSoftwareInventoryItem Ascii.database where
  capability := .tagDefinitions
  name := "Speed"
  parent
  name_nonempty := by decide
  name_trimmed := by decide +kernel

/-- The tag was seen in the controller and in a program. -/
def speedObserved (program : Text) : CapturedInventory Ascii.database Unit Unit where
  target := { address := "10.0.0.1" }
  route := oneHop
  items := [speedTag none, speedTag (some program)]
  gateway := rfl
  engagement := "Survey"
  authorizationReference := "WORK-1"
  confirmedBy := "Operator"
  confirmedAt := .epoch
  capturedAt := .epoch
  capabilities := [.tagDefinitions]
  requestsUsed := 2
  providerMetadata := ()
  objectEvidence := []

def speedBinding (program : Text) : ConfiguredSoftwareBinding Ascii.database where
  key := "line-1"
  controller := {
    programs := [{ name := program, tags := [{ name := "Speed" }] }]
    tags := [{ name := "Speed" }]
    program_names := nodup_singleton _ }
  key_nonempty := by decide
  key_trimmed := by decide +kernel

theorem speed_accounted : AccountsForEverything (speedObserved "Main") (speedBinding "Main") := by
  apply (reconcile_accounts_iff (speedObserved "Main") (speedBinding "Main")
    (by decide +kernel)).mpr
  simp only [← key_eq_iff]
  decide +kernel

/-- A program named as the scope of the controller is. -/
theorem speed_not_accounted :
    ((speedObserved "controller").items.map CipSoftwareInventoryItem.identity).Nodup ∧
      ¬ AccountsForEverything (speedObserved "controller") (speedBinding "controller") := by
  refine ⟨by decide +kernel, ?_⟩
  intro h
  obtain ⟨configured, result, hconfigured, hresult, _⟩ := h
  have hlength := ((reconcile_eq_ok hconfigured).mp hresult).1
  exact absurd hlength (by decide +kernel)

end TwinForge.Discovery
