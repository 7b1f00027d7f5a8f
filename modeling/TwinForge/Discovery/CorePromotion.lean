import TwinForge.Discovery.IdentityLifecycle
import TwinForge.Foundation.Json

/-! # Promotions of lifecycle identities to core assets

The records a promotion yields: a generic asset or a device, the identity it stands
for, and the generations and evidence it was approved on.
-/

namespace TwinForge.Discovery

inductive DeviceType where
  | drive | instrument | ioDevice | controller | communicationDevice | other | unknown
  deriving DecidableEq, Repr

def DeviceType.value : DeviceType → Text
  | .drive => "drive"
  | .instrument => "instrument"
  | .ioDevice => "io_device"
  | .controller => "controller"
  | .communicationDevice => "communication_device"
  | .other => "other"
  | .unknown => "unknown"

/-- A core asset, with the fields a promotion retains. -/
inductive Asset where
  | asset (id name : Text)
  | device (id name : Text) (deviceType : DeviceType)
      (manufacturer model catalogNumber : Option Text)
  deriving DecidableEq, Repr

def Asset.id : Asset → Text
  | .asset id _ => id
  | .device id _ _ _ _ _ => id

structure CorePromotionRecord where
  coreAsset : Asset
  durableIdentityKey : Text
  generationNumbers : List Int
  targetKeys : List Text
  promotedBy : Text
  promotedAt : DateTime
  rationale : Text
  evidence : List TopologyEvidenceReference
  acknowledgedConflictOverride : Bool
  deriving DecidableEq, Repr

structure CorePromotionResult where
  records : List CorePromotionRecord
  unpromotedIdentityKeys : List Text
  deriving DecidableEq, Repr

/-! ## Checks between the lifecycle and the promotions of one stored state

Generations are numbered consecutively from one, assets and identities are promoted at
most once, and a promotion names a prefix of the generations of its identity.
-/

open Guards

inductive DiscoveryStatePersistenceError where
  | generationsNotConsecutive (key : Text)
  | duplicateAsset (assetId : Text)
  | duplicateIdentity (key : Text)
  | unknownIdentity (assetId : Text)
  | notLifecyclePrefix (assetId : Text)
  | activeKeysMismatch
  | deviceWithoutType
  | genericWithDeviceFields
  | discarded (field : Text)
  | reactivated
  | discardedPromotion (assetId : Text)
  | reboundPromotion (assetId : Text)
  | regressedPromotion (assetId : Text)
  | staleRevision (expected found : Int)
  | notSerializable
  | invalidDocument
  | notPersisted
  deriving DecidableEq, Repr

/-- `list(range(1, count + 1))`. -/
def consecutive (count : Nat) : List Int := (List.range count).map fun i : Nat => (i : Int) + 1

/-- `generations_by_identity`: the numbers recorded of a key, in their order. -/
def generationNumbersOf (generations : List DurableIdentityGeneration) (key : Text) : List Int :=
  (generations.filter (·.identityKey = key)).map (·.generation)

/-- The keys are checked in the order of their first generation. -/
def validateGenerations (lifecycle : IdentityLifecycleState) :
    Except DiscoveryStatePersistenceError Unit :=
  (lifecycle.generations.map (·.identityKey)).eraseDups.forM fun key =>
    let ordered := sortedBy compare (generationNumbersOf lifecycle.generations key)
    refuse (ordered ≠ consecutive ordered.length) (.generationsNotConsecutive key)

/-- The asset identifiers and identity keys of the promotions checked so far. -/
abbrev SeenPromotions := List Text × List Text

def validatePromotion (lifecycle : IdentityLifecycleState) (seen : SeenPromotions)
    (record : CorePromotionRecord) : Except DiscoveryStatePersistenceError SeenPromotions := do
  let assetId := record.coreAsset.id
  let identityKey := record.durableIdentityKey
  refuse (assetId ∈ seen.1) (.duplicateAsset assetId)
  refuse (identityKey ∈ seen.2) (.duplicateIdentity identityKey)
  let available := sortedBy compare (generationNumbersOf lifecycle.generations identityKey)
  refuse (available = []) (.unknownIdentity assetId)
  refuse (record.generationNumbers ≠ available.take record.generationNumbers.length)
    (.notLifecyclePrefix assetId)
  return (seen.1 ++ [assetId], seen.2 ++ [identityKey])

def validateCrossLinks (lifecycle : IdentityLifecycleState) (promotions : CorePromotionResult) :
    Except DiscoveryStatePersistenceError Unit := do
  validateGenerations lifecycle
  let _ ← promotions.records.foldlM (validatePromotion lifecycle) ([], [])
  return ()

variable (db : CharacterDatabase)

/-- The message of an error on the document at `path`; `detail` is what the library that
failed says. -/
def DiscoveryStatePersistenceError.message (path detail : Text) :
    DiscoveryStatePersistenceError → Text
  | .generationsNotConsecutive key =>
    ("lifecycle generations for " : Text) ++ db.reprText key ++
      (" must be consecutive from 1" : Text)
  | .duplicateAsset assetId =>
    ("duplicate promoted core asset ID " : Text) ++ db.reprText assetId
  | .duplicateIdentity key => ("duplicate promoted durable identity " : Text) ++ db.reprText key
  | .unknownIdentity assetId =>
    ("promotion " : Text) ++ db.reprText assetId ++
      (" references unknown lifecycle identity" : Text)
  | .notLifecyclePrefix assetId =>
    ("promotion " : Text) ++ db.reprText assetId ++
      (" generations are not a lifecycle prefix" : Text)
  | .activeKeysMismatch => "stored active identity keys do not match lifecycle derivation"
  | .deviceWithoutType => "stored device is missing its device_type"
  | .genericWithDeviceFields => "stored generic asset contains device-specific fields"
  | .discarded field => ("state update would discard lifecycle " : Text) ++ field
  | .reactivated => "state update would reactivate an inactive identity"
  | .discardedPromotion assetId =>
    ("state update would discard promotion " : Text) ++ db.reprText assetId
  | .reboundPromotion assetId =>
    ("state update would rebind promotion " : Text) ++ db.reprText assetId
  | .regressedPromotion assetId =>
    ("state update would regress promotion " : Text) ++ db.reprText assetId
  | .staleRevision expected found =>
    ("stale discovery state revision: expected " : Text) ++ Json.writeInt expected ++
      (", found " : Text) ++ Json.writeInt found
  | .notSerializable => ("discovery state cannot be serialized: " : Text) ++ detail
  | .invalidDocument =>
    ("invalid discovery state document " : Text) ++ path ++ (": " : Text) ++ detail
  | .notPersisted =>
    ("could not persist discovery state " : Text) ++ path ++ (": " : Text) ++ detail

end TwinForge.Discovery
