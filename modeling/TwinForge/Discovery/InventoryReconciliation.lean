import TwinForge.Discovery.PermittedCapture

/-! # Reconciling an inventory with a configured controller

Items of both sides are put under keys made of their capability, their parent and their name, and
are compared where the keys meet.
-/

namespace TwinForge.Discovery

open Guards

/-! ## The configured controller -/

structure ConfiguredRoutine where
  name : Text
  language : Option Text := none
  deriving DecidableEq, Repr

structure ConfiguredTag where
  name : Text
  dataType : Option Text := none
  deriving DecidableEq, Repr

structure ConfiguredTask where
  name : Text
  deriving DecidableEq, Repr

/-- Routines and tags are added under their names, once each. -/
structure ConfiguredProgram where
  name : Text
  routines : List ConfiguredRoutine := []
  tags : List ConfiguredTag := []
  routine_names : (routines.map ConfiguredRoutine.name).Nodup := by decide
  tag_names : (tags.map ConfiguredTag.name).Nodup := by decide

structure ConfiguredController where
  programs : List ConfiguredProgram := []
  tasks : List ConfiguredTask := []
  tags : List ConfiguredTag := []
  program_names : (programs.map ConfiguredProgram.name).Nodup := by decide
  task_names : (tasks.map ConfiguredTask.name).Nodup := by decide
  tag_names : (tags.map ConfiguredTag.name).Nodup := by decide

structure ConfiguredSoftwareBinding (db : CharacterDatabase) where
  key : Text
  controller : ConfiguredController
  key_nonempty : key ≠ []
  key_trimmed : Trimmed db key

/-! ## Configured items -/

/-- What a configured item is built from; its name is not checked yet. -/
structure SoftwareFields where
  capability : CipSoftwareInventoryCapability
  name : Text
  parent : Option Text := none
  dataType : Option Text := none
  language : Option Text := none
  deriving DecidableEq, Repr

variable {db : CharacterDatabase}

def SoftwareFields.item (fields : SoftwareFields) : Except Text (CipSoftwareInventoryItem db) :=
  if hname : fields.name ≠ [] ∧ Trimmed db fields.name then
    .ok {
      capability := fields.capability
      name := fields.name
      parent := fields.parent
      dataType := fields.dataType
      language := fields.language
      name_nonempty := hname.1
      name_trimmed := hname.2 }
  else .error "software inventory item name must be trimmed"

/-- The fields of the requested items, in the order they are built. -/
def configuredFields (controller : ConfiguredController)
    (capabilities : List CipSoftwareInventoryCapability) : List SoftwareFields :=
  (if .programs ∈ capabilities then
    controller.programs.map fun program => { capability := .programs, name := program.name }
  else []) ++
  (if .routines ∈ capabilities then
    controller.programs.flatMap fun program => program.routines.map fun routine =>
      { capability := .routines
        name := routine.name
        parent := some program.name
        language := routine.language }
  else []) ++
  (if .tasks ∈ capabilities then
    controller.tasks.map fun task => { capability := .tasks, name := task.name }
  else []) ++
  (if .tagDefinitions ∈ capabilities then
    (controller.tags.map fun tag =>
      { capability := .tagDefinitions, name := tag.name, dataType := tag.dataType }) ++
    controller.programs.flatMap fun program => program.tags.map fun tag =>
      { capability := .tagDefinitions
        name := tag.name
        parent := some program.name
        dataType := tag.dataType }
  else [])

/-- `parent or "controller"`. -/
def scopeText (parent : Option Text) : Text :=
  match parent with
  | none => "controller"
  | some parent => if parent = [] then "controller" else parent

def softwareItemKey (item : CipSoftwareInventoryItem db) : Text :=
  item.capability.value ++ '|' :: (scopeText item.parent ++ '|' :: item.name)

def configuredItems (controller : ConfiguredController)
    (capabilities : List CipSoftwareInventoryCapability) :
    Except Text (Dictionary Text (CipSoftwareInventoryItem db)) := do
  let items ← (configuredFields controller capabilities).mapM SoftwareFields.item
  pure (Dictionary.ofItems softwareItemKey id items)

/-! ## Comparison -/

inductive SoftwareInventoryComparisonStatus where
  | exact | partialMatch | conflict
  deriving DecidableEq, Repr

structure SoftwareInventoryComparison where
  key : Text
  status : SoftwareInventoryComparisonStatus
  matchedFields : List Text
  conflictingFields : List Text
  unavailableFields : List Text
  deriving DecidableEq, Repr

def comparedFields : List (Text × (CipSoftwareInventoryItem db → Option Text)) :=
  [("data_type", (·.dataType)), ("language", (·.language))]

/-- One field of the comparison; a field that is not configured says nothing. -/
def compareField (configured discovered : CipSoftwareInventoryItem db)
    (comparison : SoftwareInventoryComparison)
    (field : Text × (CipSoftwareInventoryItem db → Option Text)) : SoftwareInventoryComparison :=
  match field.2 configured with
  | none => comparison
  | some configuredValue =>
    match field.2 discovered with
    | none =>
      { comparison with unavailableFields := comparison.unavailableFields ++ [field.1] }
    | some discoveredValue =>
      if configuredValue = discoveredValue then
        { comparison with matchedFields := comparison.matchedFields ++ [field.1] }
      else { comparison with conflictingFields := comparison.conflictingFields ++ [field.1] }

def comparisonStatus (comparison : SoftwareInventoryComparison) :
    SoftwareInventoryComparisonStatus :=
  if comparison.conflictingFields ≠ [] then .conflict
  else if comparison.unavailableFields ≠ [] then .partialMatch
  else .exact

def compareItem (key : Text) (configured discovered : CipSoftwareInventoryItem db) :
    SoftwareInventoryComparison :=
  let comparison := comparedFields.foldl (compareField configured discovered)
    { key, status := .exact, matchedFields := ["name"], conflictingFields := []
      unavailableFields := [] }
  { comparison with status := comparisonStatus comparison }

structure SoftwareInventoryReconciliationResult where
  bindingKey : Text
  comparisons : List SoftwareInventoryComparison
  configuredOnly : List Text
  discoveredOnly : List Text
  deriving DecidableEq, Repr

variable {Evidence Metadata : Type}

/-- Compare only capabilities actually requested in the observation. -/
def reconcileSoftwareInventory (observation : CapturedInventory db Evidence Metadata)
    (binding : ConfiguredSoftwareBinding db) :
    Except Text SoftwareInventoryReconciliationResult := do
  let configured ← configuredItems binding.controller observation.capabilities
  let discovered : Dictionary Text (CipSoftwareInventoryItem db) :=
    Dictionary.ofItems softwareItemKey id observation.items
  refuse (discovered.entries.length ≠ observation.items.length)
    "software inventory contains duplicate structural keys"
  let shared := sortedSet (configured.keys.filter (· ∈ discovered.keys))
  pure {
    bindingKey := binding.key
    comparisons := shared.filterMap fun key =>
      (configured.get? key).bind fun item => (discovered.get? key).map (compareItem key item)
    configuredOnly := sortedSet (configured.keys.filter (· ∉ discovered.keys))
    discoveredOnly := sortedSet (discovered.keys.filter (· ∉ configured.keys)) }

end TwinForge.Discovery
