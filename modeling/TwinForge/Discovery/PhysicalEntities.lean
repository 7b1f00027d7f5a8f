import TwinForge.Discovery.Topology

/-! # Physical entities reported by a node

Rows of the entity table name the entity that contains them. Rows whose parent is missing
or whose chain of parents runs in a circle are reported; the others become containments.
-/

namespace TwinForge.Discovery.PhysicalEntities

/-- A row of the entity table; of its raw evidence the object identifiers. -/
structure SnmpPhysicalEntityObservation where
  index : Int
  containedIn : Option Int := none
  description : Option Text := none
  physicalClass : Option Int := none
  parentRelativePosition : Option Int := none
  name : Option Text := none
  serialNumber : Option Text := none
  manufacturerName : Option Text := none
  modelName : Option Text := none
  assetId : Option Text := none
  uuid : Option Text := none
  rawOids : List Text := []
  deriving DecidableEq, Repr

/-- An observed node; of its evidence the physical entities. -/
structure SnmpEntityNode where
  target : DiscoveryTarget
  physicalEntities : List SnmpPhysicalEntityObservation := []
  deriving DecidableEq, Repr

def SnmpPhysicalEntityObservation.container (entity : SnmpPhysicalEntityObservation) : Option Int :=
  match entity.containedIn with
  | none => none
  | some parent => if parent = 0 then none else some parent

/-! ## Validation -/

structure SnmpEntityContainmentIssue where
  code : Text
  entityIndex : Int
  parentIndex : Option Int
  message : Text
  deriving DecidableEq, Repr

abbrev EntitiesByIndex := Dictionary Int SnmpPhysicalEntityObservation

def byIndex (entities : List SnmpPhysicalEntityObservation) : EntitiesByIndex :=
  Dictionary.ofItems SnmpPhysicalEntityObservation.index id entities

/-- A parent that is the entity itself or no entity of the observation. -/
def parentIssue (indexed : EntitiesByIndex) (entity : SnmpPhysicalEntityObservation) :
    Option SnmpEntityContainmentIssue :=
  match entity.container with
  | none => none
  | some parent =>
    if parent = entity.index then
      some ⟨"self_parent", entity.index, some parent, "physical entity contains itself"⟩
    else if indexed.get? parent = none then
      some ⟨"missing_parent", entity.index, some parent,
        "contained-in entity is absent from the observation"⟩
    else none

/-- The entity that is visited again on the way up, if any. -/
def revisited (indexed : EntitiesByIndex) : Nat → List Int → Int → Option (Option Int)
  | 0, _, _ => none
  | fuel + 1, visited, current =>
    match indexed.get? current with
    | none => some none
    | some entity =>
      if current ∈ visited then some (some current)
      else
        match entity.container with
        | none => some none
        | some parent => revisited indexed fuel (current :: visited) parent

def cycleIssue (entity : SnmpPhysicalEntityObservation) (current : Int) :
    SnmpEntityContainmentIssue :=
  ⟨"containment_cycle", entity.index, some current, "physical-entity containment contains a cycle"⟩

def SnmpEntityContainmentIssue.key (issue : SnmpEntityContainmentIssue) : Text × Int × Option Int :=
  (issue.code, issue.entityIndex, issue.parentIndex)

def compareIssues (first second : SnmpEntityContainmentIssue) : Ordering :=
  (compare first.code second.code).then
    ((compare first.entityIndex second.entityIndex).then
      (compare (first.parentIndex.getD (-1)) (second.parentIndex.getD (-1))))

/-- The structural issues of the rows; `none` only where a walk does not end. -/
def validateEntityContainment (entities : List SnmpPhysicalEntityObservation) :
    Option (List SnmpEntityContainmentIssue) := do
  let indexed := byIndex entities
  let cycles ← entities.mapM fun entity => do
    let found ← revisited indexed (entities.length + 1) [] entity.index
    return found.map (cycleIssue entity)
  let issues := entities.filterMap (parentIssue indexed) ++ cycles.filterMap id
  let unique := Dictionary.ofItems SnmpEntityContainmentIssue.key id issues
  return sortedBy compareIssues unique.values

/-! ## Candidates -/

structure SnmpPhysicalAssetCandidate where
  key : Text
  observationTarget : Text
  entityIndex : Int
  physicalClass : Option Int
  name : Option Text
  description : Option Text
  manufacturerName : Option Text
  modelName : Option Text
  serialNumber : Option Text
  assetId : Option Text
  uuid : Option Text
  confidence : TopologyConfidence
  evidence : List TopologyEvidenceReference
  deriving DecidableEq, Repr

structure SnmpPhysicalContainmentCandidate where
  key : Text
  observationTarget : Text
  parentAssetKey : Text
  childAssetKey : Text
  parentRelativePosition : Option Int
  confidence : TopologyConfidence
  evidence : List TopologyEvidenceReference
  deriving DecidableEq, Repr

structure SnmpPhysicalCandidateIssue where
  observationTarget : Text
  code : Text
  entityIndex : Int
  parentIndex : Option Int
  message : Text
  deriving DecidableEq, Repr

structure SnmpPhysicalCandidateResult where
  assets : List SnmpPhysicalAssetCandidate
  containments : List SnmpPhysicalContainmentCandidate
  issues : List SnmpPhysicalCandidateIssue
  deriving DecidableEq, Repr

def physicalAssetKey (targetKey : Text) (entityIndex : Int) : Text :=
  ("target:" : Text) ++ targetKey ++ ("|entity:" : Text) ++ Json.writeInt entityIndex

def entityEvidence (targetKey : Text) (identifiers : List Text) : List TopologyEvidenceReference :=
  (sortedBy compare identifiers).map fun oid =>
    ⟨"snmp_entity_mib", targetKey, oid, "RFC 6933 entPhysicalTable evidence"⟩

/-- The parent and relative-position columns of the row. -/
def containmentEvidenceOids (entity : SnmpPhysicalEntityObservation) : List Text :=
  entity.rawOids.filter fun oid =>
    [(".4." : Text) ++ Json.writeInt entity.index, (".6." : Text) ++ Json.writeInt entity.index].any
      fun ending => ending.isSuffixOf oid

def assetCandidate (targetKey : Text) (entity : SnmpPhysicalEntityObservation) :
    SnmpPhysicalAssetCandidate where
  key := physicalAssetKey targetKey entity.index
  observationTarget := targetKey
  entityIndex := entity.index
  physicalClass := entity.physicalClass
  name := entity.name
  description := entity.description
  manufacturerName := entity.manufacturerName
  modelName := entity.modelName
  serialNumber := entity.serialNumber
  assetId := entity.assetId
  uuid := entity.uuid
  confidence := .protocolReported
  evidence := entityEvidence targetKey entity.rawOids

def containmentCandidate (targetKey : Text) (entity : SnmpPhysicalEntityObservation)
    (parent : Int) : SnmpPhysicalContainmentCandidate where
  key := physicalAssetKey targetKey parent ++ ("|contains:" : Text) ++
    physicalAssetKey targetKey entity.index
  observationTarget := targetKey
  parentAssetKey := physicalAssetKey targetKey parent
  childAssetKey := physicalAssetKey targetKey entity.index
  parentRelativePosition := entity.parentRelativePosition
  confidence := .protocolReported
  evidence := entityEvidence targetKey (containmentEvidenceOids entity)

/-- The edge of a row to a parent of the observation, unless an issue names the row. -/
def containmentOf (targetKey : Text) (indexed : EntitiesByIndex) (invalidChildren : List Int)
    (entity : SnmpPhysicalEntityObservation) : Option SnmpPhysicalContainmentCandidate :=
  match entity.container with
  | none => none
  | some parent =>
    if entity.index ∈ invalidChildren ∨ indexed.get? parent = none then none
    else some (containmentCandidate targetKey entity parent)

def candidateIssue (targetKey : Text) (issue : SnmpEntityContainmentIssue) :
    SnmpPhysicalCandidateIssue :=
  ⟨targetKey, issue.code, issue.entityIndex, issue.parentIndex, issue.message⟩

def correlateNode (node : SnmpEntityNode) : Option SnmpPhysicalCandidateResult := do
  let targetKey := node.target.key
  let issues ← validateEntityContainment node.physicalEntities
  let invalidChildren := issues.map SnmpEntityContainmentIssue.entityIndex
  return {
    assets := node.physicalEntities.map (assetCandidate targetKey)
    containments := node.physicalEntities.filterMap
      (containmentOf targetKey (byIndex node.physicalEntities) invalidChildren)
    issues := issues.map (candidateIssue targetKey) }

def compareFindings (first second : SnmpPhysicalCandidateIssue) : Ordering :=
  (compare first.observationTarget second.observationTarget).then
    ((compare first.entityIndex second.entityIndex).then
      ((compare first.code second.code).then
        (compare (first.parentIndex.getD (-1)) (second.parentIndex.getD (-1)))))

def correlatePhysicalEntities (nodes : List SnmpEntityNode) :
    Option SnmpPhysicalCandidateResult := do
  let results ← nodes.mapM correlateNode
  return {
    assets := sortedBy (fun first second => compare first.key second.key)
      (results.flatMap SnmpPhysicalCandidateResult.assets)
    containments := sortedBy (fun first second => compare first.key second.key)
      (results.flatMap SnmpPhysicalCandidateResult.containments)
    issues := sortedBy compareFindings (results.flatMap SnmpPhysicalCandidateResult.issues) }

end TwinForge.Discovery.PhysicalEntities
