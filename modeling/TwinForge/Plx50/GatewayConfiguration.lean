import TwinForge.Foundation.Integers
import TwinForge.Model.Gateway
import TwinForge.Model.Modbus

/-! # Native PLX50 configurations

What a configured PLX50 device and its PROFIBUS devices say, as the project file has it.
-/

namespace TwinForge.Plx50

structure Plx50ProfibusDataPoint where
  dataPointType : Option Text := none
  dataFormat : Option Text := none
  byteLength : Option Int := none
  localOffset : Option Int := none
  description : Option Text := none
  modbusRegisterType : Option Text := none
  interfaceConnectionOffset : Option Int := none
deriving DecidableEq, Repr

structure Plx50ProfibusSlot where
  slotId : Option Int := none
  dataPoints : List Plx50ProfibusDataPoint := []
deriving DecidableEq, Repr

structure Plx50ProfibusDevice where
  instanceName : Option Text := none
  stationAddress : Option Int := none
  slots : List Plx50ProfibusSlot := []
deriving DecidableEq, Repr

structure Plx50DeviceConfiguration where
  instanceName : Option Text := none
  ipAddress : Option Text := none
  mode : Option Text := none
  primaryInterface : Option Text := none
  configAttributes : List (Text × Text) := []
  profibusDevices : List Plx50ProfibusDevice := []
deriving DecidableEq, Repr

/-- One native configuration attribute; the last one of its name. -/
def Plx50DeviceConfiguration.configValue (configuration : Plx50DeviceConfiguration)
    (name : Text) : Option Text :=
  configuration.configAttributes.reverse.lookup name

/-- A data point with the device and the slot it stands in. -/
structure PointSite where
  device : Plx50ProfibusDevice
  slot : Plx50ProfibusSlot
  point : Plx50ProfibusDataPoint
deriving DecidableEq, Repr

def pointSites (configuration : Plx50DeviceConfiguration) : List PointSite :=
  configuration.profibusDevices.flatMap (fun device =>
    device.slots.flatMap (fun slot => slot.dataPoints.map (fun point => ⟨device, slot, point⟩)))

/-- `str(value)` of an integer that may be missing. -/
def optionalText : Option Int → Text
  | none => "None"
  | some (.ofNat n) => decimal n
  | some (.negSucc n) => '-' :: decimal (n + 1)

/-- `repr(value)` of a text that may be missing. -/
def optionalRepr (db : CharacterDatabase) : Option Text → Text
  | none => "None"
  | some value => db.reprText value

structure ConversionDiagnostic where
  code : Text
  message : Text
  objectName : Text
  rawValue : Option Text
deriving DecidableEq, Repr

def statedText (value : Option Text) : Option Text := value.filter (fun text => !text.isEmpty)

/-! ## Application of native PLX50 configurations to gateways

The primary interface is selected and configured; for the Modbus interface the register map
is built, from the built-in registers and from the PROFIBUS data points that have an
interface connection offset.
-/

open Model Guards

inductive ConfigurationError where
  | gateway (error : GatewayError)
  | modbus (error : ModbusError)
deriving DecidableEq, Repr

structure Plx50GatewayConfigurationResult where
  primaryInterface : Option CommunicationInterface
  modbusRegisterMap : Option ModbusRegisterMap := none
  diagnostics : List ConversionDiagnostic := []
deriving DecidableEq, Repr

def warning (code message : Text) (rawValue : Option Text) : ConversionDiagnostic :=
  ⟨code, message, "PLX50 gateway", rawValue⟩

/-! ### Endpoints -/

def changeInterface (name : Text) (change : CommunicationInterface → CommunicationInterface) :
    List CommunicationInterface → List CommunicationInterface
  | [] => []
  | interface :: interfaces =>
    if interface.name = name then change interface :: interfaces
    else interface :: changeInterface name change interfaces

def withInterface (gateway : GatewayDevice) (name : Text)
    (change : CommunicationInterface → CommunicationInterface) : GatewayDevice :=
  { gateway with
    communicationInterfaces := changeInterface name change gateway.communicationInterfaces }

def findInterface (gateway : GatewayDevice) (name : Text) : Option CommunicationInterface :=
  gateway.communicationInterfaces.find? (fun interface => interface.name = name)

def configuredRole (mode : Option Text) : Option CommunicationRole :=
  if mode.getD [] = ("StandaloneMaster" : Text) then some .master
  else if mode.getD [] = ("Slave" : Text) then some .slave
  else none

def configureMode (db : CharacterDatabase) (gateway : GatewayDevice)
    (configuration : Plx50DeviceConfiguration) : GatewayDevice × List ConversionDiagnostic :=
  match findInterface gateway "PROFIBUS DP" with
  | none => (gateway, [])
  | some _ =>
    match configuredRole configuration.mode with
    | some role =>
      (withInterface gateway "PROFIBUS DP" (fun interface => { interface with role }), [])
    | none =>
      if configuration.mode = none ∨ configuration.mode = some ("Quiet" : Text) then (gateway, [])
      else (gateway, [warning "plx50_mode_unresolved"
        (("unrecognized PLX50 operating mode: " : Text) ++ optionalRepr db configuration.mode)
        configuration.mode])

/-- Name, protocol and role of the endpoint behind a native interface selection. -/
def endpointDefinition (primaryInterface : Option Text) : Option (Text × Text × CommunicationRole) :=
  if primaryInterface.getD [] = ("EtherNetIP" : Text) then some ("EtherNet/IP", "EtherNet/IP", .adapter)
  else if primaryInterface.getD [] = ("ModbusTCPSlave" : Text) then
    some ("Modbus TCP", "Modbus TCP", .server)
  else none

/-- The selected endpoint, with its address; it is added where the gateway lacks it. -/
def configureEndpoint (gateway : GatewayDevice) (configuration : Plx50DeviceConfiguration)
    (name protocol : Text) (role : CommunicationRole) : Except GatewayError GatewayDevice := do
  let gateway ← match findInterface gateway name with
    | none => gateway.addCommunicationInterface { name, protocol, role }
    | some _ => .ok gateway
  return withInterface gateway name
    (fun interface => { interface with role, address := configuration.ipAddress })

/-! ### Modbus settings -/

section

variable (db : CharacterDatabase)

def nativeInteger (configuration : Plx50DeviceConfiguration) (name : Text) :
    Option Int × List ConversionDiagnostic :=
  match configuration.configValue name with
  | none => (none, [])
  | some value =>
    match readInt db value with
    | some entered => (some entered, [])
    | none => (none, [warning "invalid_plx50_configuration_integer"
        (("PLX50 " : Text) ++ name ++ (" must be an integer, got " : Text) ++ db.reprText value)
        (some value)])

def addressingConvention (native : Option Text) : ModbusAddressingConvention :=
  if native.getD [] = ("Normal" : Text) then .zeroBased
  else if native.getD [] = ("PLC" : Text) then .oneBased
  else .unknown

def nativeConvention (configuration : Plx50DeviceConfiguration) : ModbusAddressingConvention :=
  addressingConvention (configuration.configValue "ModbusAddressOffset")

def conventionFindings (native : Option Text) : List ConversionDiagnostic :=
  if native = none ∨ native = some ("Normal" : Text) ∨ native = some ("PLC" : Text) then []
  else [warning "plx50_modbus_addressing_unresolved"
    (("unrecognized PLX50 Modbus addressing: " : Text) ++ optionalRepr db native) native]

def modbusConfiguration (configuration : Plx50DeviceConfiguration) :
    ModbusEndpointConfiguration × List ConversionDiagnostic :=
  let (unitId, unitFindings) := nativeInteger db configuration "ModbusLocalNodeNumber"
  let (tcpPort, portFindings) := nativeInteger db configuration "ModbusTCPPort"
  let findings := unitFindings ++ portFindings ++
    conventionFindings db (configuration.configValue "ModbusAddressOffset")
  let endpoint : ModbusEndpointConfiguration :=
    { unitId, tcpPort, addressingConvention := nativeConvention configuration }
  match endpoint.validate with
  | .ok endpoint => (endpoint, findings)
  | .error error =>
    ({ addressingConvention := nativeConvention configuration },
      findings ++ [warning "plx50_modbus_endpoint_value_out_of_range" error.message none])

def dataModelOffset (convention : ModbusAddressingConvention) (entered : Int) : Int :=
  if convention = .oneBased then entered - 1 else entered

/-! ### Built-in registers -/

structure MapStep where
  points : List ModbusPoint := []
  diagnostics : List ConversionDiagnostic := []

def configuredModbusPoint (configuration : Plx50DeviceConfiguration)
    (endpoint : ModbusEndpointConfiguration) (nativeField name : Text) (area : ModbusArea)
    (quantity : Option Int) (access : ModbusAccess) : Except ModbusError MapStep :=
  match configuration.configValue nativeField with
  | none => .ok {}
  | some sourceReference =>
    match nativeInteger db configuration nativeField with
    | (none, findings) => .ok { diagnostics := findings }
    | (some entered, findings) =>
      if endpoint.addressingConvention = .unknown then .ok { diagnostics := findings }
      else
        let offset := dataModelOffset endpoint.addressingConvention entered
        if offset < 0 then
          .ok { diagnostics := findings ++ [warning "plx50_modbus_address_out_of_range"
            (("PLX50 " : Text) ++ nativeField ++
              (" does not resolve to a valid offset" : Text)) (some sourceReference)] }
        else do
          let address ← ModbusAddress.validate db
            { area, sourceReference, offset := some offset
              convention := endpoint.addressingConvention, unitId := endpoint.unitId, quantity }
          return { points := [{ name, address, access }], diagnostics := findings }

def statusArea (registerType : Option Text) : Option ModbusArea :=
  if registerType.getD [] = ("CS" : Text) then some .coils
  else if registerType.getD [] = ("HR" : Text) then some .holdingRegisters
  else none

def masterControlPoint (configuration : Plx50DeviceConfiguration)
    (endpoint : ModbusEndpointConfiguration) : Except ModbusError MapStep :=
  if configuration.configValue "ModbusMasterControlEnable" = some ("true" : Text) then
    configuredModbusPoint db configuration endpoint "ModbusMasterControlHROffset"
      "PROFIBUS Master Control" .holdingRegisters (some 1) .unknown
  else .ok {}

def statusPoint (configuration : Plx50DeviceConfiguration)
    (endpoint : ModbusEndpointConfiguration) : Except ModbusError MapStep :=
  let registerType := configuration.configValue "ModbusStatusRegisterType"
  match statusArea registerType with
  | none => .ok { diagnostics := [warning "plx50_modbus_status_area_unresolved"
      "unrecognized PLX50 Modbus status register type" registerType] }
  | some area =>
    configuredModbusPoint db configuration endpoint "ModbusStatusOffset" "PROFIBUS Status Base"
      area none .readOnly

def modbusRegisterMap (configuration : Plx50DeviceConfiguration) (interfaceName : Text)
    (endpoint : ModbusEndpointConfiguration) :
    Except ModbusError (ModbusRegisterMap × List ConversionDiagnostic) := do
  let control ← masterControlPoint db configuration endpoint
  let status ← statusPoint db configuration endpoint
  return ({ name := "PLX50 built-in Modbus registers", interfaceName
            points := control.points ++ status.points }, control.diagnostics ++ status.diagnostics)

/-! ### Data points -/

def dataPointArea (registerType : Option Text) : Option ModbusArea :=
  if registerType.getD [] = ("HR" : Text) then some .holdingRegisters
  else if registerType.getD [] = ("IR" : Text) then some .inputRegisters
  else if registerType.getD [] = ("CS" : Text) then some .coils
  else if registerType.getD [] = ("IS" : Text) then some .discreteInputs
  else none

def ModbusArea.isBits (area : ModbusArea) : Bool := area ∈ [ModbusArea.coils, .discreteInputs]

def modbusQuantity (byteLength : Option Int) (area : ModbusArea) :
    Option Int × List ConversionDiagnostic :=
  match byteLength with
  | none => (none, [])
  | some length =>
    if length < 1 then (none, [])
    else if ModbusArea.isBits area then (some (length * 8), [])
    else if length % 2 ≠ 0 then
      (none, [warning "plx50_data_point_register_alignment_invalid"
        "PLX50 register data-point byte length must be even" (some (optionalText (some length)))])
    else (some (length / 2), [])

structure Lowering where
  gateway : GatewayDevice
  registerMap : ModbusRegisterMap
  diagnostics : List ConversionDiagnostic

def pointName (site : PointSite) : Text :=
  (statedText site.point.description).getD (("station " : Text) ++
    optionalText site.device.stationAddress ++ (" slot " : Text) ++ optionalText site.slot.slotId)

def loweredPoint (site : PointSite) (address : ModbusAddress) : ModbusPoint where
  name := pointName site
  address := address
  access := if site.point.dataPointType = some ("Input" : Text) then .readOnly else .readWrite
  dataType := site.point.dataFormat

def profibusPointReference (site : PointSite) : Text :=
  ("station " : Text) ++ optionalText site.device.stationAddress ++ ("/slot " : Text) ++
    optionalText site.slot.slotId ++ '/' ::
    (statedText site.point.dataPointType).getD "data" ++ (" offset " : Text) ++
    optionalText site.point.localOffset

def loweredMapping (site : PointSite) (area : ModbusArea) (entered quantity : Int) :
    GatewayProtocolMapping :=
  let profibusReference := profibusPointReference site
  let modbusReference := area.value ++ ' ' :: optionalText (some entered) ++
    (" quantity " : Text) ++ optionalText (some quantity)
  let input := site.point.dataPointType = some ("Input" : Text)
  { sourceInterface := if input then "PROFIBUS DP" else "Modbus TCP"
    sourceReference := some (if input then profibusReference else modbusReference)
    targetInterface := if input then "Modbus TCP" else "PROFIBUS DP"
    targetReference := some (if input then modbusReference else profibusReference)
    evidence := "PLX50 PSJ configured PROFIBUS data-point InterfaceConnectionOffset"
    metadata :=
      [("profibus_device", .ofText site.device.instanceName),
       ("profibus_station", .ofInteger site.device.stationAddress),
       ("profibus_slot", .ofInteger site.slot.slotId),
       ("data_point", .text (pointName site)),
       ("native_interface_connection_offset", .integer entered)] }

/-- Lower one data point; one without an offset, or with offset zero, is not connected. -/
def lowerPoint (endpoint : ModbusEndpointConfiguration) (state : Lowering) (site : PointSite) :
    Except ConfigurationError Lowering :=
  match site.point.interfaceConnectionOffset with
  | none => .ok state
  | some entered =>
    if entered = 0 then .ok state
    else if endpoint.addressingConvention = .unknown then .ok state
    else match dataPointArea site.point.modbusRegisterType with
      | none => .ok { state with diagnostics := state.diagnostics ++
          [warning "plx50_data_point_modbus_area_unresolved"
            "unrecognized PLX50 data-point Modbus register type" site.point.modbusRegisterType] }
      | some area =>
        match modbusQuantity site.point.byteLength area with
        | (none, findings) => .ok { state with diagnostics := state.diagnostics ++ findings }
        | (some quantity, findings) =>
          let offset := dataModelOffset endpoint.addressingConvention entered
          if offset < 0 then .ok { state with diagnostics := state.diagnostics ++ findings }
          else do
            let address ← (ModbusAddress.validate db
              { area, sourceReference := optionalText (some entered), offset := some offset
                convention := endpoint.addressingConvention, unitId := endpoint.unitId
                quantity := some quantity }).mapError .modbus
            let gateway ← (state.gateway.addProtocolMapping db
              (loweredMapping site area entered quantity)).mapError .gateway
            return { gateway
                     registerMap := state.registerMap.addPoint (loweredPoint site address)
                     diagnostics := state.diagnostics ++ findings }

def lowerProfibusModbusMappings (configuration : Plx50DeviceConfiguration)
    (endpoint : ModbusEndpointConfiguration) (state : Lowering) :
    Except ConfigurationError Lowering := do
  let lowered ← (pointSites configuration).foldlM (lowerPoint db endpoint) state
  return { lowered with gateway :=
    if lowered.gateway.protocolMappings = [] then lowered.gateway
    else { lowered.gateway with protocolMappingStatus := some "partially_evidenced" } }

/-! ### The configuration -/

def applyPlx50GatewayConfiguration (gateway : GatewayDevice)
    (configuration : Plx50DeviceConfiguration) :
    Except ConfigurationError (GatewayDevice × Plx50GatewayConfigurationResult) :=
  let (gateway, modeFindings) := configureMode db gateway configuration
  match endpointDefinition configuration.primaryInterface with
  | none => .ok (gateway, {
      primaryInterface := none
      diagnostics := modeFindings ++ [warning "plx50_primary_interface_unresolved"
        (("unrecognized PLX50 primary interface: " : Text) ++
          optionalRepr db configuration.primaryInterface) configuration.primaryInterface] })
  | some (name, protocol, role) => do
    let gateway ← (configureEndpoint gateway configuration name protocol role).mapError .gateway
    if protocol = ("Modbus TCP" : Text) then
      let (endpoint, endpointFindings) := modbusConfiguration db configuration
      let (registerMap, mapFindings) ←
        (modbusRegisterMap db configuration name endpoint).mapError .modbus
      let lowered ← lowerProfibusModbusMappings db configuration endpoint
        ⟨gateway, registerMap, modeFindings ++ endpointFindings ++ mapFindings⟩
      return (lowered.gateway, {
        primaryInterface := findInterface lowered.gateway name
        modbusRegisterMap := some lowered.registerMap
        diagnostics := lowered.diagnostics })
    else
      return (gateway, {
        primaryInterface := findInterface gateway name
        diagnostics := modeFindings })

end

end TwinForge.Plx50
