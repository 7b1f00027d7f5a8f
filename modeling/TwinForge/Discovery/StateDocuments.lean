import TwinForge.Discovery.CorePromotion

/-! # Documents of the lifecycle ledger

The data a ledger is written as, and the models it is validated by: every field is there
and no other, generations are numbered from one, and times are aware. What else than a number
is read as a number, and so on, is the `coercions` of every reader.
-/

namespace TwinForge.Discovery

open Json

/-! ## Data -/

def CandidateDisposition.value : CandidateDisposition → Text
  | .accept => "accept"
  | .reject => "reject"
  | .defer => "defer"

def textsData (texts : List Text) : Json := .arr (texts.map .str)

def evidenceMembers (evidence : TopologyEvidenceReference) : List (Text × Json) :=
  [("protocol", .str evidence.protocol), ("observation_target", .str evidence.observationTarget),
    ("identifier", .str evidence.identifier), ("description", .str evidence.description)]

def reviewMembers (review : CandidateReview) : List (Text × Json) :=
  [("candidate_key", .str review.candidateKey), ("disposition", .str review.disposition.value),
    ("reviewed_by", .str review.reviewedBy), ("reviewed_at", .str review.reviewedAt.isoformat),
    ("rationale", .str review.rationale),
    ("durable_identity_key", ofOptional review.durableIdentityKey),
    ("override_conflict", .bool review.overrideConflict)]

def generationMembers (generation : DurableIdentityGeneration) : List (Text × Json) :=
  [("identity_key", .str generation.identityKey), ("generation", .int generation.generation),
    ("observed_at", .str generation.observedAt.isoformat),
    ("candidate_keys", textsData generation.candidateKeys),
    ("target_keys", textsData generation.targetKeys),
    ("acceptance_reviews",
      .arr (generation.acceptanceReviews.map fun review => .obj (reviewMembers review))),
    ("evidence", .arr (generation.evidence.map fun evidence => .obj (evidenceMembers evidence))),
    ("conflict_overridden", .bool generation.conflictOverridden)]

def eventMembers (event : IdentityLifecycleEvent) : List (Text × Json) :=
  [("event_type", .str event.eventType.value), ("occurred_at", .str event.occurredAt.isoformat),
    ("source_keys", textsData event.sourceKeys), ("target_keys", textsData event.targetKeys),
    ("actor", .str event.actor), ("rationale", .str event.rationale)]

/-- `identity_lifecycle_data`. -/
def identityLifecycleMembers (state : IdentityLifecycleState) : List (Text × Json) :=
  [("active_identity_keys", textsData state.activeIdentityKeys),
    ("inactive_identity_keys", textsData state.inactiveIdentityKeys),
    ("generations",
      .arr (state.generations.map fun generation => .obj (generationMembers generation))),
    ("events", .arr (state.events.map fun event => .obj (eventMembers event)))]

/-! ## Validation -/

/-- Validation is lax: an integer and a Boolean are read as themselves, and other data may be
coerced to them and to an aware time. -/
structure Coercions where
  int : Json → Option Int
  bool : Json → Option Bool
  time : Json → Option DateTime
  int_int : ∀ number, int (.int number) = some number
  bool_bool : ∀ value, bool (.bool value) = some value

/-- `extra="forbid"`. -/
def closed (names : List Text) (data : Json) : Option Unit :=
  guard (∀ name ∈ memberNames data, name ∈ names)

def readEnum {Value : Type} (values : List Value) (text : Value → Text) (data : Json) :
    Option Value :=
  (asText data).bind fun found => values.find? fun value => text value = found

def readDisposition : Json → Option CandidateDisposition :=
  readEnum [.accept, .reject, .defer] CandidateDisposition.value

def readEventType : Json → Option IdentityLifecycleEventType :=
  readEnum [.created, .observed, .superseded, .merged, .split] IdentityLifecycleEventType.value

def evidenceFields : List Text := ["protocol", "observation_target", "identifier", "description"]

def readEvidence (data : Json) : Option TopologyEvidenceReference := do
  closed evidenceFields data
  let protocol ← field asText "protocol" data
  let observationTarget ← field asText "observation_target" data
  let identifier ← field asText "identifier" data
  let description ← field asText "description" data
  some { protocol, observationTarget, identifier, description }

def reviewFields : List Text :=
  ["candidate_key", "disposition", "reviewed_by", "reviewed_at", "rationale",
    "durable_identity_key", "override_conflict"]

def generationFields : List Text :=
  ["identity_key", "generation", "observed_at", "candidate_keys", "target_keys",
    "acceptance_reviews", "evidence", "conflict_overridden"]

def eventFields : List Text :=
  ["event_type", "occurred_at", "source_keys", "target_keys", "actor", "rationale"]

def lifecycleFields : List Text :=
  ["active_identity_keys", "inactive_identity_keys", "generations", "events"]

section

variable (coercions : Coercions)

/-- `Field(ge=1)`. -/
def readPositive (data : Json) : Option Int :=
  (coercions.int data).filter fun number => 1 ≤ number

def readReview (data : Json) : Option CandidateReview := do
  closed reviewFields data
  let candidateKey ← field asText "candidate_key" data
  let disposition ← field readDisposition "disposition" data
  let reviewedBy ← field asText "reviewed_by" data
  let reviewedAt ← field coercions.time "reviewed_at" data
  let rationale ← field asText "rationale" data
  let durableIdentityKey ← field (asOptional asText) "durable_identity_key" data
  let overrideConflict ← field coercions.bool "override_conflict" data
  some {
    candidateKey, disposition, reviewedBy, reviewedAt, rationale, durableIdentityKey,
    overrideConflict }

def readGeneration (data : Json) : Option DurableIdentityGeneration := do
  closed generationFields data
  let identityKey ← field asText "identity_key" data
  let generation ← field (readPositive coercions) "generation" data
  let observedAt ← field coercions.time "observed_at" data
  let candidateKeys ← field (asList asText) "candidate_keys" data
  let targetKeys ← field (asList asText) "target_keys" data
  let acceptanceReviews ← field (asList (readReview coercions)) "acceptance_reviews" data
  let evidence ← field (asList readEvidence) "evidence" data
  let conflictOverridden ← field coercions.bool "conflict_overridden" data
  some {
    identityKey, generation, observedAt, candidateKeys, targetKeys, acceptanceReviews, evidence,
    conflictOverridden }

def readEvent (data : Json) : Option IdentityLifecycleEvent := do
  closed eventFields data
  let eventType ← field readEventType "event_type" data
  let occurredAt ← field coercions.time "occurred_at" data
  let sourceKeys ← field (asList asText) "source_keys" data
  let targetKeys ← field (asList asText) "target_keys" data
  let actor ← field asText "actor" data
  let rationale ← field asText "rationale" data
  some { eventType, occurredAt, sourceKeys, targetKeys, actor, rationale }

structure LifecycleDocument where
  activeIdentityKeys : List Text
  inactiveIdentityKeys : List Text
  generations : List DurableIdentityGeneration
  events : List IdentityLifecycleEvent
  deriving DecidableEq, Repr

def readLifecycle (data : Json) : Option LifecycleDocument := do
  closed lifecycleFields data
  let activeIdentityKeys ← field (asList asText) "active_identity_keys" data
  let inactiveIdentityKeys ← field (asList asText) "inactive_identity_keys" data
  let generations ← field (asList (readGeneration coercions)) "generations" data
  let events ← field (asList (readEvent coercions)) "events" data
  some { activeIdentityKeys, inactiveIdentityKeys, generations, events }

end

/-! ## Documents of the persisted discovery state

The data of promotions and of a whole state, the models they are validated by, and the
checks with which a validated document becomes a state.
-/

open Guards Json

/-! ### Data -/

inductive CoreAssetKind where
  | asset | device
  deriving DecidableEq, Repr

def CoreAssetKind.value : CoreAssetKind → Text
  | .asset => "asset"
  | .device => "device"

def coreAssetMembers : Asset → List (Text × Json)
  | .device id name deviceType manufacturer model catalogNumber =>
    [("id", .str id), ("name", .str name), ("kind", .str CoreAssetKind.device.value),
      ("device_type", .str deviceType.value), ("manufacturer", ofOptional manufacturer),
      ("model", ofOptional model), ("catalog_number", ofOptional catalogNumber)]
  | .asset id name =>
    [("id", .str id), ("name", .str name), ("kind", .str CoreAssetKind.asset.value),
      ("device_type", .null), ("manufacturer", .null), ("model", .null),
      ("catalog_number", .null)]

def promotionMembers (record : CorePromotionRecord) : List (Text × Json) :=
  [("core_asset", .obj (coreAssetMembers record.coreAsset)),
    ("durable_identity_key", .str record.durableIdentityKey),
    ("generation_numbers", .arr (record.generationNumbers.map .int)),
    ("target_keys", textsData record.targetKeys), ("promoted_by", .str record.promotedBy),
    ("promoted_at", .str record.promotedAt.isoformat), ("rationale", .str record.rationale),
    ("evidence", .arr (record.evidence.map fun evidence => .obj (evidenceMembers evidence))),
    ("acknowledged_conflict_override", .bool record.acknowledgedConflictOverride)]

/-- `core_promotion_data`. -/
def corePromotionMembers (result : CorePromotionResult) : List (Text × Json) :=
  [("records", .arr (result.records.map fun record => .obj (promotionMembers record))),
    ("unpromoted_identity_keys", textsData result.unpromotedIdentityKeys)]

def stateSchemaVersion : Text := "1.0"

def stateMembers (lifecycle : IdentityLifecycleState) (promotions : CorePromotionResult)
    (revision : Int) : List (Text × Json) :=
  [("schema_version", .str stateSchemaVersion), ("revision", .int revision),
    ("lifecycle", .obj (identityLifecycleMembers lifecycle)),
    ("promotions", .obj (corePromotionMembers promotions))]

def documentData (lifecycle : IdentityLifecycleState) (promotions : CorePromotionResult)
    (revision : Int) : Json := .obj (stateMembers lifecycle promotions revision)

/-! ### Validation -/

def readDeviceType : Json → Option DeviceType :=
  readEnum [.drive, .instrument, .ioDevice, .controller, .communicationDevice, .other, .unknown]
    DeviceType.value

structure AssetDocument where
  id : Text
  name : Text
  kind : CoreAssetKind
  deviceType : Option DeviceType
  manufacturer : Option Text
  model : Option Text
  catalogNumber : Option Text
  deriving DecidableEq, Repr

structure PromotionDocument where
  coreAsset : AssetDocument
  durableIdentityKey : Text
  generationNumbers : List Int
  targetKeys : List Text
  promotedBy : Text
  promotedAt : DateTime
  rationale : Text
  evidence : List TopologyEvidenceReference
  acknowledgedConflictOverride : Bool
  deriving DecidableEq, Repr

structure PromotionsDocument where
  records : List PromotionDocument
  unpromotedIdentityKeys : List Text
  deriving DecidableEq, Repr

structure StateDocument where
  revision : Int
  lifecycle : LifecycleDocument
  promotions : PromotionsDocument
  deriving DecidableEq, Repr

def assetFields : List Text :=
  ["id", "name", "kind", "device_type", "manufacturer", "model", "catalog_number"]

def promotionFields : List Text :=
  ["core_asset", "durable_identity_key", "generation_numbers", "target_keys", "promoted_by",
    "promoted_at", "rationale", "evidence", "acknowledged_conflict_override"]

def promotionsFields : List Text := ["records", "unpromoted_identity_keys"]

def stateFields : List Text := ["schema_version", "revision", "lifecycle", "promotions"]

def readAssetDocument (data : Json) : Option AssetDocument := do
  closed assetFields data
  let id ← field asText "id" data
  let name ← field asText "name" data
  let kind ← field (readEnum [.asset, .device] CoreAssetKind.value) "kind" data
  let deviceType ← field (asOptional readDeviceType) "device_type" data
  let manufacturer ← field (asOptional asText) "manufacturer" data
  let model ← field (asOptional asText) "model" data
  let catalogNumber ← field (asOptional asText) "catalog_number" data
  some { id, name, kind, deviceType, manufacturer, model, catalogNumber }

section

variable (coercions : Coercions)

def readPromotion (data : Json) : Option PromotionDocument := do
  closed promotionFields data
  let coreAsset ← field readAssetDocument "core_asset" data
  let durableIdentityKey ← field asText "durable_identity_key" data
  let generationNumbers ← field (asList coercions.int) "generation_numbers" data
  let targetKeys ← field (asList asText) "target_keys" data
  let promotedBy ← field asText "promoted_by" data
  let promotedAt ← field coercions.time "promoted_at" data
  let rationale ← field asText "rationale" data
  let evidence ← field (asList readEvidence) "evidence" data
  let acknowledgedConflictOverride ← field coercions.bool "acknowledged_conflict_override" data
  some {
    coreAsset, durableIdentityKey, generationNumbers, targetKeys, promotedBy, promotedAt,
    rationale, evidence, acknowledgedConflictOverride }

def readPromotions (data : Json) : Option PromotionsDocument := do
  closed promotionsFields data
  let records ← field (asList (readPromotion coercions)) "records" data
  let unpromotedIdentityKeys ← field (asList asText) "unpromoted_identity_keys" data
  some { records, unpromotedIdentityKeys }

/-- `_StateDocument.model_validate`. -/
def validateDocument (data : Json) : Option StateDocument := do
  closed stateFields data
  let version ← field asText "schema_version" data
  guard (version = stateSchemaVersion)
  let revision ← field (readPositive coercions) "revision" data
  let lifecycle ← field (readLifecycle coercions) "lifecycle" data
  let promotions ← field (readPromotions coercions) "promotions" data
  some { revision, lifecycle, promotions }

end

/-! ### States -/

/-- `_lifecycle`. -/
def LifecycleDocument.state (document : LifecycleDocument) :
    Except DiscoveryStatePersistenceError IdentityLifecycleState := do
  let state : IdentityLifecycleState := {
    generations := document.generations
    events := document.events
    inactiveIdentityKeys := document.inactiveIdentityKeys }
  refuse (state.activeIdentityKeys ≠ document.activeIdentityKeys) .activeKeysMismatch
  return state

def AssetDocument.asset (document : AssetDocument) :
    Except DiscoveryStatePersistenceError Asset :=
  match document.kind, document.deviceType with
  | .device, none => .error .deviceWithoutType
  | .device, some deviceType =>
    .ok (.device document.id document.name deviceType document.manufacturer document.model
      document.catalogNumber)
  | .asset, deviceType => do
    refuse (deviceType ≠ none ∨ document.manufacturer ≠ none ∨ document.model ≠ none ∨
      document.catalogNumber ≠ none) .genericWithDeviceFields
    return .asset document.id document.name

def PromotionDocument.record (document : PromotionDocument) :
    Except DiscoveryStatePersistenceError CorePromotionRecord := do
  let coreAsset ← document.coreAsset.asset
  return {
    coreAsset, durableIdentityKey := document.durableIdentityKey
    generationNumbers := document.generationNumbers, targetKeys := document.targetKeys
    promotedBy := document.promotedBy, promotedAt := document.promotedAt
    rationale := document.rationale, evidence := document.evidence
    acknowledgedConflictOverride := document.acknowledgedConflictOverride }

/-- `_promotions`. -/
def PromotionsDocument.result (document : PromotionsDocument) :
    Except DiscoveryStatePersistenceError CorePromotionResult := do
  let records ← document.records.mapM PromotionDocument.record
  return { records, unpromotedIdentityKeys := document.unpromotedIdentityKeys }

end TwinForge.Discovery
