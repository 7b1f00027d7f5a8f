import TwinForge.Discovery.SoftwareInventory

/-! # Drift between two captures

A state holds normalized records of the evidence domains that were captured completely, each
record under a key of its domain. Two states are compared on the domains complete in both.
-/

namespace TwinForge.Discovery

open Guards

/-! ## Records -/

inductive DriftDomain where
  | hardware | firmware | configuration | network
  deriving DecidableEq, Repr

def DriftDomain.value : DriftDomain → Text
  | .hardware => "hardware"
  | .firmware => "firmware"
  | .configuration => "configuration"
  | .network => "network"

def DriftDomain.all : List DriftDomain := [.hardware, .firmware, .configuration, .network]

inductive DriftChangeType where
  | added | removed | changed
  deriving DecidableEq, Repr

/-- An attribute; booleans compare as the integers they are. -/
inductive DriftValue where
  | text (value : Text)
  | integer (value : Int)
  | none
  deriving DecidableEq, Repr

abbrev DriftAttributes := List (Text × DriftValue)

abbrev DriftPlace := DriftDomain × Text

structure DriftRecord where
  domain : DriftDomain
  key : Text
  attributes : DriftAttributes
  evidence : List TopologyEvidenceReference
  deriving DecidableEq, Repr

def DriftRecord.place (record : DriftRecord) : DriftPlace := (record.domain, record.key)

def comparePlaces : DriftPlace → DriftPlace → Ordering :=
  compareLex (compareOn fun place => place.1.value) (compareOn Prod.snd)

def sortedDomains (domains : List DriftDomain) : List DriftDomain :=
  sortedBy (compareOn DriftDomain.value) domains

structure DiscoveryDriftState where
  capturedAt : DateTime
  completeDomains : List DriftDomain
  records : List DriftRecord
  aware : capturedAt.isAware = true
  domains_nodup : completeDomains.Nodup
  domains_sorted : sortedDomains completeDomains = completeDomains
  keys_nodup : (records.map DriftRecord.place).Nodup
  domains_complete : ∀ record ∈ records, record.domain ∈ completeDomains

def discoveryDriftState (capturedAt : DateTime) (completeDomains : List DriftDomain)
    (records : List DriftRecord) : Except Text DiscoveryDriftState :=
  if haware : capturedAt.isAware = true then
    if hdomains : completeDomains.Nodup then
      if hsorted : sortedDomains completeDomains = completeDomains then
        if hkeys : (records.map DriftRecord.place).Nodup then
          if hcomplete : ∀ record ∈ records, record.domain ∈ completeDomains then
            .ok ⟨capturedAt, completeDomains, records, haware, hdomains, hsorted, hkeys, hcomplete⟩
          else .error "drift records require a complete captured domain"
        else .error "drift record keys must be unique within a domain"
      else .error "complete drift domains must be sorted"
    else .error "complete drift domains must be unique"
  else .error "captured_at must include a timezone"

/-! ## Evidence -/

/-- An identity with the numbers that drift is looked for in. -/
structure CipIdentityRecord extends CipIdentityObservation where
  vendorId : Nat
  deviceType : Nat
  productCode : Nat
  majorRevision : Nat
  minorRevision : Nat
  serialNumber : Nat
  deriving DecidableEq, Repr

inductive CipSlotState where
  | populated | empty | noResponse | unsupportedRoute | deviceFault
  deriving DecidableEq, Repr

def CipSlotState.value : CipSlotState → Text
  | .populated => "populated"
  | .empty => "empty"
  | .noResponse => "no_response"
  | .unsupportedRoute => "unsupported_route"
  | .deviceFault => "device_fault"

structure CipChassisSlotObservation where
  slot : Nat
  state : CipSlotState
  identity : Option CipIdentityRecord := none
  populated : identity.isSome = true ↔ state = .populated
  deriving DecidableEq

structure CipChassisSlotPlan (db : CharacterDatabase) where
  route : CipRouteDeclaration db
  slots : List Nat
  slots_nonempty : slots ≠ []
  slots_sorted : slots.Pairwise (· < ·)

structure CipChassisObservation (db : CharacterDatabase) where
  plan : CipChassisSlotPlan db
  slots : List CipChassisSlotObservation
  covers : (slots.map CipChassisSlotObservation.slot).Perm plan.slots
  gateway : ∀ item ∈ slots, ∀ identity ∈ item.identity,
    identity.target.key = plan.route.gateway.key

structure DriftEvidence (db : CharacterDatabase) where
  capturedAt : DateTime
  completeDomains : List DriftDomain
  snapshot : Option (List CipIdentityRecord) := none
  routed : Option (List (CipChassisObservation db)) := none
  software : List (CipSoftwareInventoryObservation db) := []
  topology : Option TopologyCorrelationResult := none

def optionalNumber (value : Option Nat) : DriftValue :=
  match value with
  | none => .none
  | some value => .integer value

def optionalInteger (value : Option Int) : DriftValue :=
  match value with
  | none => .none
  | some value => .integer value

def optionalText (value : Option Text) : DriftValue :=
  match value with
  | none => .none
  | some value => .text value

/-- `tuple(sorted(attributes.items()))`; the names of a record differ. -/
def driftRecord (domain : DriftDomain) (key : Text) (attributes : DriftAttributes)
    (evidence : List TopologyEvidenceReference) : DriftRecord :=
  ⟨domain, key, sortedBy (compareOn Prod.fst) attributes, evidence⟩

/-! ## Building a state -/

def identityKey (target : DiscoveryTarget) : Text := ("cip:" : Text) ++ target.key

def identityRecords (complete : List DriftDomain) (identity : CipIdentityRecord) :
    List DriftRecord :=
  let evidence : List TopologyEvidenceReference :=
    [{ protocol := "cip_identity"
       observationTarget := identity.target.key
       identifier := "cip.identity"
       description := "CIP Identity Object observation" }]
  (if .hardware ∈ complete then
    [driftRecord .hardware (identityKey identity.target)
      [("vendor_id", .integer identity.vendorId), ("device_type", .integer identity.deviceType),
        ("product_code", .integer identity.productCode),
        ("serial_number", .integer identity.serialNumber),
        ("product_name", .text identity.productName)] evidence]
  else []) ++
  if .firmware ∈ complete then
    [driftRecord .firmware (identityKey identity.target)
      [("major_revision", .integer identity.majorRevision),
        ("minor_revision", .integer identity.minorRevision)] evidence]
  else []

section

variable {db : CharacterDatabase}

/-- `{route_key}|slot:{slot}`. -/
def slotText (route : CipRouteDeclaration db) (slot : Nat) : Text :=
  route.key ++ ("|slot:" : Text) ++ decimal slot

def slotKey (route : CipRouteDeclaration db) (slot : Nat) : Text :=
  ("cip-slot:" : Text) ++ slotText route slot

def slotRecords (complete : List DriftDomain) (route : CipRouteDeclaration db)
    (slot : CipChassisSlotObservation) : List DriftRecord :=
  let evidence : List TopologyEvidenceReference :=
    [{ protocol := "cip_routed_slot"
       observationTarget := route.gateway.key
       identifier := slotText route slot.slot
       description := "bounded routed chassis-slot observation" }]
  let number (value : CipIdentityRecord → Nat) := optionalNumber (slot.identity.map value)
  (if .hardware ∈ complete then
    [driftRecord .hardware (slotKey route slot.slot)
      [("state", .text slot.state.value), ("vendor_id", number (·.vendorId)),
        ("device_type", number (·.deviceType)), ("product_code", number (·.productCode)),
        ("serial_number", number (·.serialNumber)),
        ("product_name", optionalText (slot.identity.map (·.productName)))] evidence]
  else []) ++
  match slot.identity with
  | none => []
  | some identity =>
    if .firmware ∈ complete then
      [driftRecord .firmware (slotKey route slot.slot)
        [("major_revision", .integer identity.majorRevision),
          ("minor_revision", .integer identity.minorRevision)] evidence]
    else []

/-- `{route_key}|{capability}|{parent or ''}|{name}`. -/
def itemText (route : CipRouteDeclaration db) (item : CipSoftwareInventoryItem db) : Text :=
  joinText "|" [route.key, item.capability.value, item.parent.getD [], item.name]

def itemKey (route : CipRouteDeclaration db) (item : CipSoftwareInventoryItem db) : Text :=
  ("software:" : Text) ++ itemText route item

def itemRecord (observation : CipSoftwareInventoryObservation db)
    (item : CipSoftwareInventoryItem db) : DriftRecord :=
  driftRecord .configuration (itemKey observation.route item)
    [("instance_id", optionalNumber item.instanceId), ("data_type", optionalText item.dataType),
      ("language", optionalText item.language)]
    [{ protocol := "cip_software_inventory"
       observationTarget := observation.target.key
       identifier := joinText ":" [item.capability.value, item.parent.getD [], item.name]
       description := "structural controller software metadata" }]

def TopologyRelationshipType.value : TopologyRelationshipType → Text
  | .reportedNeighbour => "reported_neighbour"
  | .macReachability => "mac_reachability"

def TopologyRelationshipType.evidenceClass : TopologyRelationshipType → Text
  | .reportedNeighbour => "protocol_reported"
  | .macReachability => "indirect_inference"

def TopologyConfidence.value : TopologyConfidence → Text
  | .indirect => "indirect"
  | .protocolReported => "protocol_reported"
  | .corroborated => "corroborated"

def relationshipRecord (item : TopologyRelationshipCandidate) : DriftRecord :=
  driftRecord .network item.key
    [("relationship_type", .text item.relationshipType.value),
      ("evidence_class", .text item.relationshipType.evidenceClass),
      ("source_node_key", .text item.sourceNodeKey), ("target_node_key", .text item.targetNodeKey),
      ("source_interface_index", optionalInteger item.sourceInterfaceIndex),
      ("source_port_number", optionalInteger item.sourcePortNumber),
      ("target_port_id", optionalText item.targetPortId),
      ("confidence", .text item.confidence.value)] item.evidence

def routedSlots (evidence : DriftEvidence db) :
    List (CipRouteDeclaration db × CipChassisSlotObservation) :=
  (evidence.routed.getD []).flatMap fun chassis =>
    chassis.slots.map fun slot => (chassis.plan.route, slot)

def softwareItems (evidence : DriftEvidence db) :
    List (CipSoftwareInventoryObservation db × CipSoftwareInventoryItem db) :=
  evidence.software.flatMap fun observation =>
    observation.items.map fun item => (observation, item)

def relationships (evidence : DriftEvidence db) : List TopologyRelationshipCandidate :=
  (evidence.topology.map TopologyCorrelationResult.relationships).getD []

def driftRecords (evidence : DriftEvidence db) : List DriftRecord :=
  let complete := evidence.completeDomains
  ((evidence.snapshot.getD []).flatMap (identityRecords complete)) ++
    ((routedSlots evidence).flatMap fun slot => slotRecords complete slot.1 slot.2) ++
    (if .configuration ∈ complete then
      (softwareItems evidence).map fun item => itemRecord item.1 item.2
    else []) ++
    if .network ∈ complete then (relationships evidence).map relationshipRecord else []

def buildDiscoveryDriftState (evidence : DriftEvidence db) : Except Text DiscoveryDriftState := do
  let complete := evidence.completeDomains
  refuse ((.hardware ∈ complete ∨ .firmware ∈ complete) ∧
      evidence.snapshot.isNone ∧ evidence.routed.isNone)
    ("hardware and firmware completeness require identity or routed evidence" : Text)
  refuse (.configuration ∈ complete ∧ evidence.software = [])
    ("configuration completeness requires software observations" : Text)
  refuse (.network ∈ complete ∧ evidence.topology.isNone)
    ("network completeness requires topology evidence" : Text)
  discoveryDriftState evidence.capturedAt (sortedDomains complete.dedup)
    (sortedBy (fun first second => comparePlaces first.place second.place) (driftRecords evidence))

end

/-! ## Comparing two states -/

structure DriftFinding where
  domain : DriftDomain
  key : Text
  changeType : DriftChangeType
  before : Option DriftRecord
  after : Option DriftRecord
  deriving DecidableEq, Repr

structure DiscoveryDriftResult where
  baselineCapturedAt : DateTime
  currentCapturedAt : DateTime
  comparedDomains : List DriftDomain
  skippedDomains : List DriftDomain
  findings : List DriftFinding
  deriving DecidableEq, Repr

def findingAt (place : DriftPlace) (old new : Option DriftRecord) : Option DriftFinding :=
  match old, new with
  | none, new => some ⟨place.1, place.2, .added, none, new⟩
  | some old, none => some ⟨place.1, place.2, .removed, some old, none⟩
  | some old, some new =>
    if old.attributes ≠ new.attributes then
      some ⟨place.1, place.2, .changed, some old, some new⟩
    else none

def comparableDomains (baseline current : DiscoveryDriftState) : List DriftDomain :=
  baseline.completeDomains.filter fun domain => domain ∈ current.completeDomains

def recordsByPlace (comparable : List DriftDomain) (records : List DriftRecord) :
    Dictionary DriftPlace DriftRecord :=
  Dictionary.ofItems DriftRecord.place id
    (records.filter fun record => record.domain ∈ comparable)

def driftFindings (baseline current : DiscoveryDriftState) : List DriftFinding :=
  let comparable := comparableDomains baseline current
  let before := recordsByPlace comparable baseline.records
  let after := recordsByPlace comparable current.records
  (sortedBy comparePlaces (before.keys ++ after.keys).dedup).filterMap fun place =>
    findingAt place (before.get? place) (after.get? place)

def detectDiscoveryDrift (baseline current : DiscoveryDriftState) : DiscoveryDriftResult where
  baselineCapturedAt := baseline.capturedAt
  currentCapturedAt := current.capturedAt
  comparedDomains := sortedDomains (comparableDomains baseline current)
  skippedDomains := sortedDomains
    (DriftDomain.all.filter fun domain => domain ∉ comparableDomains baseline current)
  findings := driftFindings baseline current

end TwinForge.Discovery
