import Mathlib.Data.List.Dedup
import TwinForge.Foundation.Guards
import TwinForge.Foundation.Text

/-! # The gateway model

A communication device with protocol endpoints, mappings between them, and bindings of
controller tags. Attaching a mapping or a binding is refused where it names an endpoint the
gateway does not have.
-/

namespace TwinForge.Model

open Guards

inductive CommunicationRole where
  | adapter | scanner | master | slave | client | server | peer | unknown
deriving DecidableEq, Repr

structure CommunicationInterface where
  name : Text
  protocol : Text
  role : CommunicationRole := .unknown
  address : Option Text := none
deriving DecidableEq, Repr

/-- One value of a metadata dictionary. -/
inductive Metadatum where
  | none
  | text (value : Text)
  | integer (value : Int)
deriving DecidableEq, Repr

def Metadatum.ofText : Option Text → Metadatum
  | Option.none => .none
  | some value => .text value

def Metadatum.ofInteger : Option Int → Metadatum
  | Option.none => .none
  | some value => .integer value

structure GatewayProtocolMapping where
  sourceInterface : Text
  targetInterface : Text
  evidence : Text
  sourceReference : Option Text := none
  targetReference : Option Text := none
  metadata : List (Text × Metadatum) := []
deriving DecidableEq, Repr

inductive GatewayTagBindingRole where
  | source | target
deriving DecidableEq, Repr

/-- The link of an endpoint to a tag, by the name of the tag. -/
structure GatewayTagBinding where
  interfaceName : Text
  endpointReference : Text
  tagName : Text
  tagPath : Text
  role : GatewayTagBindingRole
  evidence : Text
deriving DecidableEq, Repr

structure GatewayDevice where
  communicationInterfaces : List CommunicationInterface
  protocolMappings : List GatewayProtocolMapping := []
  tagBindings : List GatewayTagBinding := []
  /-- `protocol_mapping_status` of the metadata. -/
  protocolMappingStatus : Option Text := none
deriving DecidableEq, Repr

/-- Why the gateway refuses an endpoint, a mapping or a binding. -/
inductive GatewayError where
  | duplicateInterface (name : Text)
  | unknownInterfaces (names : List Text)
  | sameEndpoints
  | evidenceMissing
  | bindingInterfaceUnknown (name : Text)
  | endpointMissing
  | pathMissing
  | bindingEvidenceMissing
  | pathForeign (path tagName : Text)
  | duplicateBinding (path : Text)
deriving DecidableEq, Repr

section

variable (db : CharacterDatabase)

def GatewayError.message : GatewayError → Text
  | .duplicateInterface name =>
    ("duplicate gateway interface name: " : Text) ++ db.reprText name
  | .unknownInterfaces names =>
    ("gateway mapping references unknown interfaces: " : Text) ++ joinText ", " names
  | .sameEndpoints => "gateway mapping endpoints must be distinct"
  | .evidenceMissing => "gateway mapping evidence must be explicit"
  | .bindingInterfaceUnknown name =>
    ("gateway tag binding references unknown interface: " : Text) ++ db.reprText name
  | .endpointMissing => "gateway tag binding endpoint must be explicit"
  | .pathMissing => "gateway tag binding path must be explicit"
  | .bindingEvidenceMissing => "gateway tag binding evidence must be explicit"
  | .pathForeign path tagName =>
    ("gateway tag path " : Text) ++ db.reprText path ++ (" does not reference tag " : Text) ++
      db.reprText tagName
  | .duplicateBinding path => ("duplicate gateway tag binding: " : Text) ++ db.reprText path

namespace GatewayDevice

def interfaceNames (gateway : GatewayDevice) : List Text :=
  gateway.communicationInterfaces.map (·.name)

def addCommunicationInterface (gateway : GatewayDevice) (interface : CommunicationInterface) :
    Except GatewayError GatewayDevice := do
  refuse (interface.name ∈ gateway.interfaceNames) (.duplicateInterface interface.name)
  return { gateway with
    communicationInterfaces := gateway.communicationInterfaces ++ [interface] }

/-- The interfaces a mapping names that the gateway does not have, sorted and without
repetition. -/
def missingInterfaces (gateway : GatewayDevice) (mapping : GatewayProtocolMapping) : List Text :=
  let missing := ([mapping.sourceInterface, mapping.targetInterface] : List Text).filter
    (fun name => name ∉ gateway.interfaceNames)
  (if compare mapping.targetInterface mapping.sourceInterface = .lt then missing.reverse
    else missing).dedup

def addProtocolMapping (gateway : GatewayDevice) (mapping : GatewayProtocolMapping) :
    Except GatewayError GatewayDevice := do
  refuse (gateway.missingInterfaces mapping ≠ [])
    (.unknownInterfaces (gateway.missingInterfaces mapping))
  refuse (mapping.sourceInterface = mapping.targetInterface) .sameEndpoints
  refuse (db.strip mapping.evidence = []) .evidenceMissing
  return { gateway with protocolMappings := gateway.protocolMappings ++ [mapping] }

def addTagBinding (gateway : GatewayDevice) (binding : GatewayTagBinding) :
    Except GatewayError GatewayDevice := do
  refuse (binding.interfaceName ∉ gateway.interfaceNames)
    (.bindingInterfaceUnknown binding.interfaceName)
  refuse (db.strip binding.endpointReference = []) .endpointMissing
  refuse (db.strip binding.tagPath = []) .pathMissing
  refuse (db.strip binding.evidence = []) .bindingEvidenceMissing
  refuse (binding.tagPath.takeWhile (· != '.') ≠ binding.tagName)
    (.pathForeign binding.tagPath binding.tagName)
  refuse (∃ item ∈ gateway.tagBindings, item.interfaceName = binding.interfaceName ∧
      item.endpointReference = binding.endpointReference ∧ item.tagPath = binding.tagPath ∧
      item.role = binding.role) (.duplicateBinding binding.tagPath)
  return { gateway with tagBindings := gateway.tagBindings ++ [binding] }

end GatewayDevice

end

section

variable {db : CharacterDatabase} {gateway next : GatewayDevice}

theorem missingInterfaces_eq_nil {mapping : GatewayProtocolMapping} :
    gateway.missingInterfaces mapping = [] ↔
      mapping.sourceInterface ∈ gateway.interfaceNames ∧
        mapping.targetInterface ∈ gateway.interfaceNames := by
  unfold GatewayDevice.missingInterfaces
  rw [List.dedup_eq_nil]
  split
  · rw [List.reverse_eq_nil_iff, List.filter_eq_nil_iff]
    simp
  · rw [List.filter_eq_nil_iff]
    simp

theorem addProtocolMapping_eq_ok {mapping : GatewayProtocolMapping} :
    gateway.addProtocolMapping db mapping = .ok next ↔
      (mapping.sourceInterface ∈ gateway.interfaceNames ∧
        mapping.targetInterface ∈ gateway.interfaceNames) ∧
      mapping.sourceInterface ≠ mapping.targetInterface ∧ db.strip mapping.evidence ≠ [] ∧
      next = { gateway with protocolMappings := gateway.protocolMappings ++ [mapping] } := by
  simp only [GatewayDevice.addProtocolMapping, bind_eq_ok, refuse_eq_ok, exists_unit, pure_eq_ok,
    ne_eq, not_not, missingInterfaces_eq_nil, @eq_comm _ _ next]

/-- A binding is attached exactly at an endpoint of the gateway, below its own tag, and once. -/
theorem addTagBinding_eq_ok {binding : GatewayTagBinding} :
    gateway.addTagBinding db binding = .ok next ↔
      binding.interfaceName ∈ gateway.interfaceNames ∧ db.strip binding.endpointReference ≠ [] ∧
      db.strip binding.tagPath ≠ [] ∧ db.strip binding.evidence ≠ [] ∧
      binding.tagPath.takeWhile (· != '.') = binding.tagName ∧
      (¬ ∃ item ∈ gateway.tagBindings, item.interfaceName = binding.interfaceName ∧
        item.endpointReference = binding.endpointReference ∧ item.tagPath = binding.tagPath ∧
        item.role = binding.role) ∧
      next = { gateway with tagBindings := gateway.tagBindings ++ [binding] } := by
  simp only [GatewayDevice.addTagBinding, bind_eq_ok, refuse_eq_ok, exists_unit, pure_eq_ok,
    ne_eq, not_not, @eq_comm _ _ next]

end

end TwinForge.Model
