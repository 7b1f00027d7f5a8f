import TwinForge.Discovery.IdentityLifecycle
import TwinForge.Foundation.Dictionary
import TwinForge.Foundation.Json

/-! # Correlation of topology evidence

Neighbours reported by an observed node become relationships, and forwarding entries of
the node either corroborate one of them or become relationships of their own. `lower` is
the lower-casing of texts.
-/

namespace TwinForge.Discovery

/-! ## Observations -/

structure DiscoveryTarget where
  address : Text
  route : List Nat := []
  label : Option Text := none
  deriving DecidableEq, Repr

def DiscoveryTarget.key (target : DiscoveryTarget) : Text :=
  target.address ++ '|' :: joinText "/" (target.route.map decimal)

structure CipIdentityObservation where
  target : DiscoveryTarget
  productName : Text
  deriving DecidableEq, Repr

/-- A neighbour row; of its raw evidence the object identifiers. -/
structure SnmpNeighbourObservation where
  protocol : Text
  localPortNumber : Int
  remoteChassisId : Text
  remotePortId : Text
  localInterfaceIndex : Option Int := none
  remoteSystemName : Option Text := none
  managementAddresses : List Text := []
  rawOids : List Text := []
  deriving DecidableEq, Repr

structure SnmpForwardingEntryObservation where
  macAddress : Text
  bridgePort : Int
  interfaceIndex : Option Int := none
  rawOids : List Text := []
  deriving DecidableEq, Repr

/-- An observed node; of its interfaces the addresses. -/
structure SnmpNodeObservation where
  target : DiscoveryTarget
  systemName : Option Text := none
  interfaces : List (List Text) := []
  neighbours : List SnmpNeighbourObservation := []
  forwardingEntries : List SnmpForwardingEntryObservation := []
  deriving DecidableEq, Repr

structure DiscoverySnapshot where
  targets : List DiscoveryTarget
  identities : List CipIdentityObservation := []
  snmpNodes : List SnmpNodeObservation := []
  deriving DecidableEq, Repr

/-! ## Candidates -/

inductive TopologyRelationshipType where
  | reportedNeighbour | macReachability
  deriving DecidableEq, Repr

inductive TopologyConfidence where
  | indirect | protocolReported | corroborated
  deriving DecidableEq, Repr

structure TopologyNodeCandidate where
  key : Text
  displayNames : List Text := []
  addresses : List Text := []
  chassisIds : List Text := []
  observedTargetKeys : List Text := []
  deriving DecidableEq, Repr

structure TopologyRelationshipCandidate where
  key : Text
  relationshipType : TopologyRelationshipType
  sourceNodeKey : Text
  targetNodeKey : Text
  sourceInterfaceIndex : Option Int
  sourcePortNumber : Option Int
  targetPortId : Option Text
  confidence : TopologyConfidence
  evidence : List TopologyEvidenceReference
  deriving DecidableEq, Repr

structure TopologyCorrelationResult where
  nodes : List TopologyNodeCandidate
  relationships : List TopologyRelationshipCandidate
  deriving DecidableEq, Repr

abbrev TopologyNodes := Dictionary Text TopologyNodeCandidate

def displayNames : Option Text → List Text
  | none => []
  | some name => if name.isEmpty then [] else [name]

def targetNodeKey (targetKey : Text) : Text := ("target:" : Text) ++ targetKey

def mergeNode (nodes : TopologyNodes) (candidate : TopologyNodeCandidate) : TopologyNodes :=
  match nodes.get? candidate.key with
  | none => nodes.set candidate.key candidate
  | some current =>
    nodes.set candidate.key {
      key := candidate.key
      displayNames := sortedSet (current.displayNames ++ candidate.displayNames)
      addresses := sortedSet (current.addresses ++ candidate.addresses)
      chassisIds := sortedSet (current.chassisIds ++ candidate.chassisIds)
      observedTargetKeys :=
        sortedSet (current.observedTargetKeys ++ candidate.observedTargetKeys) }

def observationNode (node : SnmpNodeObservation) : TopologyNodeCandidate where
  key := targetNodeKey node.target.key
  displayNames := displayNames node.systemName
  addresses := sortedSet node.interfaces.flatten
  observedTargetKeys := [node.target.key]

def knownTargetByAddress (snapshot : DiscoverySnapshot) : Dictionary Text Text :=
  Dictionary.ofItems (·.address) (fun target => targetNodeKey target.key) snapshot.targets

def compareEvidence : TopologyEvidenceReference → TopologyEvidenceReference → Ordering :=
  compareLex (compareOn (·.protocol))
    (compareLex (compareOn (·.observationTarget)) (compareOn (·.identifier)))

/-! ## Correlation -/

structure Correlation where
  nodes : TopologyNodes := {}
  relationships : List TopologyRelationshipCandidate := []

/-- The positions of relationships, by the lower-cased chassis and the interface of their
neighbours. -/
abbrev NeighbourLinks := Dictionary (Text × Option Int) Nat

section

variable (lower : Text → Text)

def chassisNodeKey (chassisId : Text) : Text := ("chassis:" : Text) ++ lower chassisId

def macNodeKey (macAddress : Text) : Text := ("mac:" : Text) ++ lower macAddress

/-- The one known target of the management addresses, or a node of the chassis. -/
def remoteNodeKey (knownAddresses : Dictionary Text Text) (managementAddresses : List Text)
    (chassisId : Text) : Text :=
  match (managementAddresses.filterMap knownAddresses.get?).dedup with
  | [key] => key
  | _ => chassisNodeKey lower chassisId

def neighbourLinkKey (neighbour : SnmpNeighbourObservation) : Text × Option Int :=
  (lower neighbour.remoteChassisId, neighbour.localInterfaceIndex)

def entryLinkKey (entry : SnmpForwardingEntryObservation) : Text × Option Int :=
  (lower entry.macAddress, entry.interfaceIndex)

variable (knownAddresses : Dictionary Text Text) (observed : SnmpNodeObservation)

def neighbourTargetKey (neighbour : SnmpNeighbourObservation) : Text :=
  remoteNodeKey lower knownAddresses neighbour.managementAddresses neighbour.remoteChassisId

def neighbourEvidence (neighbour : SnmpNeighbourObservation) : List TopologyEvidenceReference :=
  (sortedBy compare neighbour.rawOids).map fun oid => {
    protocol := neighbour.protocol, observationTarget := observed.target.key, identifier := oid
    description := "neighbour reported by the remote-systems table" }

def neighbourRelationship (neighbour : SnmpNeighbourObservation) :
    TopologyRelationshipCandidate :=
  let sourceKey := targetNodeKey observed.target.key
  let targetKey := neighbourTargetKey lower knownAddresses neighbour
  { key := sourceKey ++ ("|lldp:" : Text) ++ Json.writeInt neighbour.localPortNumber ++
      '|' :: targetKey ++ '|' :: neighbour.remotePortId
    relationshipType := .reportedNeighbour
    sourceNodeKey := sourceKey
    targetNodeKey := targetKey
    sourceInterfaceIndex := neighbour.localInterfaceIndex
    sourcePortNumber := some neighbour.localPortNumber
    targetPortId := some neighbour.remotePortId
    confidence := .protocolReported
    evidence := neighbourEvidence observed neighbour }

def forwardingEvidence (entry : SnmpForwardingEntryObservation) : TopologyEvidenceReference where
  protocol := "bridge_fdb"
  observationTarget := observed.target.key
  identifier := (sortedBy compare entry.rawOids).head?.getD entry.macAddress
  description := "MAC learned through the bridge forwarding table"

def corroborate (entry : SnmpForwardingEntryObservation)
    (current : TopologyRelationshipCandidate) : TopologyRelationshipCandidate :=
  { current with
    confidence := .corroborated
    evidence :=
      sortedBy compareEvidence (current.evidence ++ [forwardingEvidence observed entry]) }

def reachability (entry : SnmpForwardingEntryObservation) : TopologyRelationshipCandidate :=
  let sourceKey := targetNodeKey observed.target.key
  let targetKey := macNodeKey lower entry.macAddress
  { key := sourceKey ++ ("|fdb:" : Text) ++ Json.writeInt entry.bridgePort ++ '|' :: targetKey
    relationshipType := .macReachability
    sourceNodeKey := sourceKey
    targetNodeKey := targetKey
    sourceInterfaceIndex := entry.interfaceIndex
    sourcePortNumber := some entry.bridgePort
    targetPortId := none
    confidence := .indirect
    evidence := [forwardingEvidence observed entry] }

def addNeighbour (state : Correlation × NeighbourLinks) (neighbour : SnmpNeighbourObservation) :
    Correlation × NeighbourLinks :=
  ({ nodes := mergeNode state.1.nodes {
      key := neighbourTargetKey lower knownAddresses neighbour
      displayNames := displayNames neighbour.remoteSystemName
      addresses := sortedBy compare neighbour.managementAddresses
      chassisIds := [neighbour.remoteChassisId] }
     relationships :=
      state.1.relationships ++ [neighbourRelationship lower knownAddresses observed neighbour] },
    state.2.set (neighbourLinkKey lower neighbour) state.1.relationships.length)

def addForwardingEntry (neighbourLinks : NeighbourLinks) (state : Correlation)
    (entry : SnmpForwardingEntryObservation) : Correlation :=
  match neighbourLinks.get? (entryLinkKey lower entry) with
  | some corroboratedIndex =>
    { state with
      relationships := state.relationships.modify corroboratedIndex (corroborate observed entry) }
  | none =>
    { nodes := mergeNode state.nodes {
        key := macNodeKey lower entry.macAddress, chassisIds := [entry.macAddress] }
      relationships := state.relationships ++ [reachability lower observed entry] }

def correlateNode (state : Correlation) (observed : SnmpNodeObservation) : Correlation :=
  let observing : Correlation :=
    { state with nodes := mergeNode state.nodes (observationNode observed) }
  let reported := observed.neighbours.foldl (addNeighbour lower knownAddresses observed)
    (observing, {})
  observed.forwardingEntries.foldl (addForwardingEntry lower observed reported.2) reported.1

def targetNode (target : DiscoveryTarget) : TopologyNodeCandidate where
  key := targetNodeKey target.key
  displayNames := displayNames target.label
  addresses := [target.address]
  observedTargetKeys := [target.key]

def identityNode (identity : CipIdentityObservation) : TopologyNodeCandidate where
  key := targetNodeKey identity.target.key
  displayNames := [identity.productName]
  addresses := [identity.target.address]
  observedTargetKeys := [identity.target.key]

def correlateTopology (snapshot : DiscoverySnapshot) : TopologyCorrelationResult :=
  let known := (snapshot.targets.map targetNode).foldl mergeNode {}
  let identified := (snapshot.identities.map identityNode).foldl mergeNode known
  let correlation :=
    snapshot.snmpNodes.foldl (correlateNode lower (knownTargetByAddress snapshot))
      { nodes := identified }
  { nodes := sortedBy (fun first second => compare first.key second.key)
      correlation.nodes.values
    relationships := sortedBy (fun first second => compare first.key second.key)
      correlation.relationships }

end

end TwinForge.Discovery
