import TwinForge.Discovery.CorePromotion
import TwinForge.Foundation.Dictionary

/-! # The promotion repository in memory

A batch is planned record by record against the state before the batch, and only a batch
planned to its end is stored.
-/

namespace TwinForge.Assembly

open Discovery Guards

inductive PromotionPersistenceStatus where
  | created | updated | unchanged
  deriving DecidableEq, Repr

structure PromotionPersistenceItem where
  coreAssetId : Text
  durableIdentityKey : Text
  status : PromotionPersistenceStatus
  deriving DecidableEq, Repr

structure PromotionPersistenceResult where
  items : List PromotionPersistenceItem
  deriving DecidableEq, Repr

inductive PromotionRepositoryError where
  | duplicateInitialAssets
  | duplicateInitialIdentities
  | duplicateAsset (assetId : Text)
  | duplicateIdentity (key : Text)
  | identityLinked (key assetId : Text)
  | existsInPlant (assetId : Text)
  | assetLinked (assetId key : Text)
  | fieldsDiffer (assetId : Text)
  | generationsRegress (assetId : Text)
  | evidenceDiscarded (assetId : Text)
  | transactionFailed (error : Text)
  deriving DecidableEq, Repr

/-- The asset list of a plant, and the identifiers of its controllers and networks. -/
structure Plant where
  assets : List Asset
  controllerIds : List Text
  networkIds : List Text
  deriving DecidableEq, Repr

namespace Plant

def addAsset (plant : Plant) (asset : Asset) : Plant :=
  { plant with assets := plant.assets ++ [asset] }

def existingIds (plant : Plant) : List Text :=
  plant.assets.map (·.id) ++ plant.controllerIds ++ plant.networkIds

end Plant

def assetSignature : Asset → List (Option Text)
  | .asset id name => [some "asset", some id, some name]
  | .device id name deviceType manufacturer model catalogNumber =>
    [some "device", some id, some name, some deviceType.value, manufacturer, model,
      catalogNumber]

def evidenceKey (item : TopologyEvidenceReference) : Text × Text × Text × Text :=
  (item.protocol, item.observationTarget, item.identifier, item.description)

def evidenceKeys (record : CorePromotionRecord) : List (Text × Text × Text × Text) :=
  record.evidence.map evidenceKey

def isPrefix (previous current : List Int) : Bool :=
  decide (previous.length ≤ current.length) && decide (current.take previous.length = previous)

structure InMemoryPromotionRepository where
  plant : Option Plant := none
  byAssetId : Dictionary Text CorePromotionRecord := {}
  assetIdByIdentity : Dictionary Text Text := {}

abbrev PlannedRecord := CorePromotionRecord × PromotionPersistenceStatus

structure Planning where
  planned : List PlannedRecord := []
  batchAssetIds : List Text := []
  batchIdentityKeys : List Text := []

namespace InMemoryPromotionRepository

variable (repository : InMemoryPromotionRepository)

/-- A repository of initial records, each asset and identity of which occurs once. -/
def ofRecords (plant : Option Plant) (initialRecords : List CorePromotionRecord) :
    Except PromotionRepositoryError InMemoryPromotionRepository := do
  let byAssetId := Dictionary.ofItems (·.coreAsset.id) id initialRecords
  let assetIdByIdentity :=
    Dictionary.ofItems (·.durableIdentityKey) (·.coreAsset.id) initialRecords
  refuse (byAssetId.entries.length ≠ initialRecords.length) .duplicateInitialAssets
  refuse (assetIdByIdentity.entries.length ≠ initialRecords.length) .duplicateInitialIdentities
  return { plant, byAssetId, assetIdByIdentity }

/-- The records in the order of their asset identifiers. -/
def records : List CorePromotionRecord :=
  (sortedBy compare repository.byAssetId.keys).filterMap repository.byAssetId.get?

def getByAssetId (assetId : Text) : Option CorePromotionRecord :=
  repository.byAssetId.get? assetId

def getByIdentityKey (durableIdentityKey : Text) : Option CorePromotionRecord :=
  (repository.assetIdByIdentity.get? durableIdentityKey).bind repository.byAssetId.get?

def validateNewAssetId (assetId : Text) : Except PromotionRepositoryError Unit :=
  match repository.plant with
  | none => .ok ()
  | some plant => refuse (assetId ∈ plant.existingIds) (.existsInPlant assetId)

def validateIdentity (identityKey assetId : Text) : Except PromotionRepositoryError Unit :=
  match repository.assetIdByIdentity.get? identityKey with
  | none => .ok ()
  | some linked => refuse (linked ≠ assetId) (.identityLinked identityKey linked)

def planExisting (existing record : CorePromotionRecord) :
    Except PromotionRepositoryError PlannedRecord := do
  let assetId := record.coreAsset.id
  refuse (existing.durableIdentityKey ≠ record.durableIdentityKey)
    (.assetLinked assetId existing.durableIdentityKey)
  refuse (assetSignature existing.coreAsset ≠ assetSignature record.coreAsset)
    (.fieldsDiffer assetId)
  refuse (isPrefix existing.generationNumbers record.generationNumbers = false)
    (.generationsRegress assetId)
  refuse (∃ key ∈ evidenceKeys existing, key ∉ evidenceKeys record) (.evidenceDiscarded assetId)
  let status : PromotionPersistenceStatus :=
    if existing.generationNumbers = record.generationNumbers then .unchanged else .updated
  return ({ record with coreAsset := existing.coreAsset }, status)

def planEntry (record : CorePromotionRecord) : Except PromotionRepositoryError PlannedRecord :=
  match repository.byAssetId.get? record.coreAsset.id with
  | none => do
    repository.validateNewAssetId record.coreAsset.id
    return (record, .created)
  | some existing => planExisting existing record

def plan (planning : Planning) (record : CorePromotionRecord) :
    Except PromotionRepositoryError Planning := do
  let assetId := record.coreAsset.id
  let identityKey := record.durableIdentityKey
  refuse (assetId ∈ planning.batchAssetIds) (.duplicateAsset assetId)
  refuse (identityKey ∈ planning.batchIdentityKeys) (.duplicateIdentity identityKey)
  repository.validateIdentity identityKey assetId
  let entry ← repository.planEntry record
  return {
    planned := planning.planned ++ [entry]
    batchAssetIds := planning.batchAssetIds ++ [assetId]
    batchIdentityKeys := planning.batchIdentityKeys ++ [identityKey] }

def store (entry : PlannedRecord) : InMemoryPromotionRepository :=
  match entry with
  | (_, .unchanged) => repository
  | (record, status) =>
    let assetId := record.coreAsset.id
    { byAssetId := repository.byAssetId.set assetId record
      assetIdByIdentity :=
        repository.assetIdByIdentity.set record.durableIdentityKey assetId
      plant :=
        if status = .created then repository.plant.map (·.addAsset record.coreAsset)
        else repository.plant }

def persistenceItem (entry : PlannedRecord) : PromotionPersistenceItem :=
  ⟨entry.1.coreAsset.id, entry.1.durableIdentityKey, entry.2⟩

def persistenceResult (planned : List PlannedRecord) : PromotionPersistenceResult :=
  ⟨sortedBy (fun first second => compare first.coreAssetId second.coreAssetId)
    (planned.map persistenceItem)⟩

/-- Apply one batch: the repository afterwards, and what the call returns or raises. -/
def apply (result : CorePromotionResult) :
    InMemoryPromotionRepository × Except PromotionRepositoryError PromotionPersistenceResult :=
  match result.records.foldlM repository.plan {} with
  | .error error => (repository, .error error)
  | .ok planning =>
    (planning.planned.foldl store repository, .ok (persistenceResult planning.planned))

end InMemoryPromotionRepository

variable (db : CharacterDatabase)

def PromotionRepositoryError.message : PromotionRepositoryError → Text
  | .duplicateInitialAssets => "initial records contain duplicate assets"
  | .duplicateInitialIdentities => "initial records contain duplicate durable identities"
  | .duplicateAsset assetId =>
    ("duplicate core asset ID in batch: " : Text) ++ db.reprText assetId
  | .duplicateIdentity key =>
    ("duplicate durable identity in batch: " : Text) ++ db.reprText key
  | .identityLinked key assetId =>
    ("identity " : Text) ++ db.reprText key ++ (" is already linked to asset " : Text) ++
      db.reprText assetId
  | .existsInPlant assetId =>
    ("core asset ID " : Text) ++ db.reprText assetId ++
      (" already exists in the plant" : Text)
  | .assetLinked assetId key =>
    ("asset " : Text) ++ db.reprText assetId ++
      (" is already linked to identity " : Text) ++ db.reprText key
  | .fieldsDiffer assetId =>
    ("asset " : Text) ++ db.reprText assetId ++
      (" core fields differ from stored promotion" : Text)
  | .generationsRegress assetId =>
    ("asset " : Text) ++ db.reprText assetId ++
      (" generations do not advance stored history" : Text)
  | .evidenceDiscarded assetId =>
    ("asset " : Text) ++ db.reprText assetId ++
      (" update would discard retained evidence" : Text)
  | .transactionFailed error => ("SQLite promotion transaction failed: " : Text) ++ error

end TwinForge.Assembly
