import TwinForge.Foundation.Guards
import TwinForge.Foundation.Text

/-! # Modbus addresses and register maps

Point addresses in the four data areas, as a source entered them and, where its addressing
convention is known, as data-model offsets. Validation refuses what is no address.
-/

namespace TwinForge.Model

open Guards

inductive ModbusArea where
  | coils | discreteInputs | inputRegisters | holdingRegisters
deriving DecidableEq, Repr

def ModbusArea.value : ModbusArea → Text
  | .coils => "coils"
  | .discreteInputs => "discrete_inputs"
  | .inputRegisters => "input_registers"
  | .holdingRegisters => "holding_registers"

inductive ModbusAddressingConvention where
  | zeroBased | oneBased | unknown
deriving DecidableEq, Repr

inductive ModbusAccess where
  | readOnly | writeOnly | readWrite | unknown
deriving DecidableEq, Repr

inductive ModbusError where
  | unitIdRange
  | tcpPortRange
  | referenceMissing
  | offsetNegative
  | quantityNotPositive
  | conventionMissing
deriving DecidableEq, Repr

def ModbusError.message : ModbusError → Text
  | .unitIdRange => "Modbus unit ID must be between 0 and 255"
  | .tcpPortRange => "Modbus TCP port must be between 0 and 65535"
  | .referenceMissing => "Modbus source reference must not be empty"
  | .offsetNegative => "Modbus offset must not be negative"
  | .quantityNotPositive => "Modbus quantity must be positive"
  | .conventionMissing => "Modbus offset requires an explicit addressing convention"

structure ModbusEndpointConfiguration where
  unitId : Option Int := none
  tcpPort : Option Int := none
  addressingConvention : ModbusAddressingConvention := .unknown
deriving DecidableEq, Repr

def ModbusEndpointConfiguration.validate (endpoint : ModbusEndpointConfiguration) :
    Except ModbusError ModbusEndpointConfiguration := do
  refuse (∃ unitId ∈ endpoint.unitId, ¬ (0 ≤ unitId ∧ unitId ≤ 255)) .unitIdRange
  refuse (∃ port ∈ endpoint.tcpPort, ¬ (0 ≤ port ∧ port ≤ 65535)) .tcpPortRange
  return endpoint

structure ModbusAddress where
  area : ModbusArea
  sourceReference : Text
  offset : Option Int := none
  convention : ModbusAddressingConvention := .unknown
  unitId : Option Int := none
  quantity : Option Int := some 1
deriving DecidableEq, Repr

def ModbusAddress.validate (db : CharacterDatabase) (address : ModbusAddress) :
    Except ModbusError ModbusAddress := do
  refuse (db.strip address.sourceReference = []) .referenceMissing
  refuse (∃ offset ∈ address.offset, offset < 0) .offsetNegative
  refuse (∃ quantity ∈ address.quantity, quantity < 1) .quantityNotPositive
  refuse (∃ unitId ∈ address.unitId, ¬ (0 ≤ unitId ∧ unitId ≤ 255)) .unitIdRange
  refuse (address.convention = .unknown ∧ address.offset.isSome) .conventionMissing
  return address

structure ModbusPoint where
  name : Text
  address : ModbusAddress
  access : ModbusAccess := .unknown
  dataType : Option Text := none
deriving DecidableEq, Repr

structure ModbusRegisterMap where
  name : Text
  interfaceName : Text
  points : List ModbusPoint := []
deriving DecidableEq, Repr

def ModbusRegisterMap.addPoint (registerMap : ModbusRegisterMap) (point : ModbusPoint) :
    ModbusRegisterMap :=
  { registerMap with points := registerMap.points ++ [point] }

theorem ModbusEndpointConfiguration.validate_eq_ok {endpoint next : ModbusEndpointConfiguration} :
    endpoint.validate = .ok next ↔
      (∀ unitId ∈ endpoint.unitId, 0 ≤ unitId ∧ unitId ≤ 255) ∧
        (∀ port ∈ endpoint.tcpPort, 0 ≤ port ∧ port ≤ 65535) ∧ next = endpoint := by
  simp only [validate, bind_eq_ok, refuse_eq_ok, exists_unit, pure_eq_ok, not_exists, not_and,
    Classical.not_imp, not_not, @eq_comm _ _ next]

theorem ModbusAddress.validate_eq_ok {db : CharacterDatabase} {address next : ModbusAddress} :
    address.validate db = .ok next ↔
      db.strip address.sourceReference ≠ [] ∧ (∀ offset ∈ address.offset, 0 ≤ offset) ∧
        (∀ quantity ∈ address.quantity, 1 ≤ quantity) ∧
        (∀ unitId ∈ address.unitId, 0 ≤ unitId ∧ unitId ≤ 255) ∧
        (address.convention = .unknown → address.offset = none) ∧ next = address := by
  simp only [validate, bind_eq_ok, refuse_eq_ok, exists_unit, pure_eq_ok, not_exists, not_and,
    Classical.not_imp, not_not, Int.not_lt, Option.isSome_iff_ne_none, ne_eq, @eq_comm _ _ next]

end TwinForge.Model
