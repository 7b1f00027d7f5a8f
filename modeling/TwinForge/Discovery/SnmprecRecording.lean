import Mathlib.Data.List.Infix
import TwinForge.Discovery.PhysicalEntities
import TwinForge.Foundation.CodePoints
import TwinForge.Foundation.Integers
import TwinForge.Foundation.Lines

/-! # SNMPREC recordings

A recording is text with one value a line: object identifier, type code and value between
bars. Lines that are no value are kept beside the records.
-/

namespace TwinForge.Discovery.Snmprec

open Guards

/-- `str | int`. -/
inductive SnmprecScalar where
  | text (value : Text)
  | integer (value : Int)
deriving DecidableEq, Repr

structure SnmprecValue where
  typeCode : Text
  value : SnmprecScalar
deriving DecidableEq, Repr

structure SnmprecUnparsedLine where
  number : Nat
  text : Text
  reason : Text
deriving DecidableEq, Repr

abbrev Records := Dictionary Text SnmprecValue

structure SnmprecRecording where
  records : Records := {}
  unparsedLines : List SnmprecUnparsedLine := []

/-- The text of a payload; every byte is a character where the payload is no UTF-8. -/
def decodePayload (payload : List UInt8) : Text :=
  match Points.decodeUtf8 payload with
  | some text => text
  | none => payload.map (fun byte => Char.ofNat byte.toNat)

/-- `line.split("|", maxsplit=2)`, where it has three fields. -/
def recordFields (line : Text) : Option (Text × Text × Text) :=
  match Lines.cutAt '|' line with
  | none => none
  | some (oid, rest) =>
    match Lines.cutAt '|' rest with
    | none => none
    | some (typeCode, rawValue) => some (oid, typeCode, rawValue)

def integerTypes : List Text := ["2", "65", "66", "67", "70"]

inductive LineOutcome where
  | recorded (oid : Text) (value : SnmprecValue)
  | unparsed (line : SnmprecUnparsedLine)
deriving DecidableEq, Repr

section

variable (db : CharacterDatabase)

def lineOutcome (number : Nat) (line : Text) : Option LineOutcome :=
  if line = [] ∨ line.head? = some '#' then none
  else match recordFields line with
    | none => some (.unparsed ⟨number, line, "syntax"⟩)
    | some (oid, typeCode, rawValue) =>
      if typeCode ∈ integerTypes then
        match readInt db rawValue with
        | none => some (.unparsed ⟨number, line, "integer_value"⟩)
        | some value => some (.recorded oid ⟨typeCode, .integer value⟩)
      else some (.recorded oid ⟨typeCode, .text rawValue⟩)

def SnmprecRecording.add (recording : SnmprecRecording) : LineOutcome → SnmprecRecording
  | .recorded oid value => { recording with records := recording.records.set oid value }
  | .unparsed line => { recording with unparsedLines := recording.unparsedLines ++ [line] }

def readLine (number : Nat) (line : Text) (recording : SnmprecRecording) : SnmprecRecording :=
  match lineOutcome db number line with
  | none => recording
  | some outcome => recording.add outcome

def readLines : Nat → List Text → SnmprecRecording → SnmprecRecording
  | _, [], recording => recording
  | number, line :: lines, recording =>
    readLines (number + 1) lines (readLine db number line recording)

inductive SnmprecError where
  | sizeLimit (maxBytes : Nat)
  | invalidRecord (number : Nat)
deriving DecidableEq, Repr

/-- `read_snmprec_recording`, from the payload of the file on. -/
def readSnmprecRecording (maxBytes : Option Nat) (payload : List UInt8) :
    Except SnmprecError SnmprecRecording := do
  refuse (∃ limit ∈ maxBytes, limit < payload.length) (.sizeLimit (maxBytes.getD 0))
  return readLines db 1 (Lines.splitLines (decodePayload payload)) {}

/-- The strict reading, without unparsed lines. -/
def readSnmprec (maxBytes : Option Nat) (payload : List UInt8) : Except SnmprecError Records := do
  let recording ← readSnmprecRecording db maxBytes payload
  match recording.unparsedLines with
  | [] => return recording.records
  | first :: _ => .error (.invalidRecord first.number)

end

/-! ## Nodes from SNMP records

The records of a recording are lowered to interfaces, neighbours, forwarding entries and
physical entities. Object identifiers are taken apart at their dots, and their parts are read
as integers; where such a reading is not guarded, its error leaves the provider.
-/

def ifTable : Text := "1.3.6.1.2.1.2.2.1"
def ifName : Text := "1.3.6.1.2.1.31.1.1.1.1"
def ipAddress : Text := "1.3.6.1.2.1.4.20.1"
def bridgePortIfIndex : Text := "1.3.6.1.2.1.17.1.4.1.2"
def bridgeFdb : Text := "1.3.6.1.2.1.17.4.3.1"
def lldpLocalPortId : Text := "1.0.8802.1.1.2.1.3.7.1.3"
def lldpRemote : Text := "1.0.8802.1.1.2.1.4.1.1"
def entPhysicalEntry : Text := "1.3.6.1.2.1.47.1.1.1.1"

structure SnmpNetworkAddressObservation where
  address : Text
  prefixLength : Option Nat := none
deriving DecidableEq, Repr

abbrev RawOids := List (Text × SnmprecScalar)

structure SnmpInterfaceObservation where
  index : Int
  name : Option Text := none
  description : Option Text := none
  interfaceType : Option Int := none
  macAddress : Option Text := none
  speedBps : Option Int := none
  adminStatus : Option Int := none
  operationalStatus : Option Int := none
  addresses : List SnmpNetworkAddressObservation := []
  rawOids : RawOids := []
deriving DecidableEq, Repr

structure SnmpNeighbourObservation where
  protocol : Text
  localPortNumber : Int
  remoteChassisId : Text
  remotePortId : Text
  localInterfaceIndex : Option Int := none
  remoteSystemName : Option Text := none
  rawOids : RawOids := []
deriving DecidableEq, Repr

structure SnmpForwardingEntryObservation where
  macAddress : Text
  bridgePort : Int
  interfaceIndex : Option Int := none
  status : Option Int := none
  rawOids : RawOids := []
deriving DecidableEq, Repr

structure SnmpNodeObservation where
  target : DiscoveryTarget
  capturedAt : DateTime
  systemName : Option Text
  systemDescription : Option Text
  systemObjectId : Option Text
  systemContact : Option Text
  systemLocation : Option Text
  uptimeTicks : Option Int
  interfaces : List SnmpInterfaceObservation
  neighbours : List SnmpNeighbourObservation
  forwardingEntries : List SnmpForwardingEntryObservation
  physicalEntities : List PhysicalEntities.SnmpPhysicalEntityObservation
  rawOids : RawOids

/-- How the lowering ends without a node: a provider error, or a bare `ValueError`. -/
inductive SnmpNodeError where
  | provider (code message : Text)
  | value (message : Text)
deriving DecidableEq, Repr

/-! ### Records -/

/-- `str(value)`. -/
def SnmprecScalar.str : SnmprecScalar → Text
  | .text value => value
  | .integer value => Json.writeInt value

def SnmprecScalar.integer? : SnmprecScalar → Option Int
  | .text _ => none
  | .integer value => some value

/-- `_string`: the text of a record. -/
def stringAt (records : Records) (oid : Text) : Option Text :=
  (records.get? oid).map (·.value.str)

/-- `_integer`: the integer of a record. -/
def integerAt (records : Records) (oid : Text) : Option Int :=
  (records.get? oid).bind (·.value.integer?)

def below (oid part : Text) : Text := oid ++ '.' :: part

/-- `_suffix`. -/
def suffixOf (oid table : Text) : Option Text :=
  if (table ++ ['.']).isPrefixOf oid then some (oid.drop (table.length + 1)) else none

/-- `text.split(".")`. -/
def splitDots (text : Text) : List Text := Lines.pieces (· == '.') text

def pairs : Text → List Text
  | first :: second :: rest => [first, second] :: pairs rest
  | _ => []

/-- `_mac`. -/
def macText (value : Text) : Text :=
  if value.length % 2 = 1 then value else joinText ":" (pairs value)

section

variable (db : CharacterDatabase)

/-! ### Interfaces -/

def octetBits (octet : Nat) : List Bool := (List.range 8).reverse.map octet.testBit

def netmaskPrefix (netmask : Option Text) : Option Nat :=
  match netmask.bind (fun text => (splitDots text).mapM (readInt db)) with
  | none => none
  | some octets =>
    if octets.length ≠ 4 ∨ ∃ octet ∈ octets, octet < 0 ∨ octet > 255 then none
    else
      let bits := octets.flatMap (fun octet => octetBits octet.toNat)
      if [false, true] <:+: bits then none else some (bits.count true)

def interfaceIndexes (records : Records) : List Int :=
  sortedBy compare (records.entries.filterMap (fun (oid, record) =>
    if (suffixOf oid (below ifTable "1")).isSome then record.value.integer? else none))

def interfaceAddresses (records : Records) (index : Int) : List SnmpNetworkAddressObservation :=
  records.entries.filterMap (fun (oid, _) =>
    match suffixOf oid (below ipAddress "1") with
    | none => none
    | some address =>
      if integerAt records (below (below ipAddress "2") address) = some index then
        some ⟨address, netmaskPrefix db (stringAt records (below (below ipAddress "3") address))⟩
      else none)

def interfaceRaw (records : Records) (index : Int) : RawOids :=
  records.entries.filterMap (fun (oid, record) =>
    if (suffixOf oid ifTable).isSome ∧
        ((splitDots oid).getLast?.bind (readInt db)) = some index then some (oid, record.value)
    else none)

def interfaceAt (records : Records) (index : Int) : SnmpInterfaceObservation :=
  let column (number : Text) : Text := below (below ifTable number) (Json.writeInt index)
  { index
    name := stringAt records (below ifName (Json.writeInt index))
    description := stringAt records (column "2")
    interfaceType := integerAt records (column "3")
    macAddress := (stringAt records (column "6")).map macText
    speedBps := integerAt records (column "5")
    adminStatus := integerAt records (column "7")
    operationalStatus := integerAt records (column "8")
    addresses := interfaceAddresses db records index
    rawOids := interfaceRaw db records index }

def interfaces (records : Records) : List SnmpInterfaceObservation :=
  (interfaceIndexes records).map (interfaceAt db records)

/-! ### Forwarding entries -/

/-- `int(text)`, with its error. -/
def parseInt (text : Text) : Except SnmpNodeError Int :=
  match readInt db text with
  | some value => .ok value
  | none => .error (.value
      (("invalid literal for int() with base 10: " : Text) ++ db.reprText text))

def bridgePortRows (records : Records) : List (Text × Int) :=
  records.entries.filterMap (fun (oid, record) =>
    match suffixOf oid bridgePortIfIndex, record.value.integer? with
    | some port, some index => some (port, index)
    | _, _ => none)

def keyedRows {Value : Type} (rows : List (Text × Value)) :
    Except SnmpNodeError (List (Int × Value)) :=
  rows.mapM (fun (key, value) => do
    let key ← parseInt db key
    return (key, value))

/-- Two hexadecimal digits, or as many as the number needs. -/
def hexOctet (octet : Int) : Text :=
  let digits := Nat.toDigits 16 octet.natAbs
  if octet < 0 then '-' :: digits
  else if digits.length < 2 then '0' :: digits else digits

/-- The rows of the forwarding table whose bridge port is known. -/
def forwardingRows (records : Records) : List (Text × SnmprecValue × Text × Int) :=
  records.entries.filterMap (fun (oid, record) =>
    match suffixOf oid (below bridgeFdb "1") with
    | none => none
    | some suffix =>
      match integerAt records (below (below bridgeFdb "2") suffix) with
      | none => none
      | some bridgePort => some (oid, record, suffix, bridgePort))

def forwardingEntry (records : Records) (bridgeToInterface : Dictionary Int Int)
    (row : Text × SnmprecValue × Text × Int) : Except SnmpNodeError SnmpForwardingEntryObservation :=
  let (oid, record, suffix, bridgePort) := row
  do
    let octets ← (splitDots suffix).mapM (parseInt db)
    return {
      macAddress := joinText ":" (octets.map hexOctet)
      bridgePort
      interfaceIndex := bridgeToInterface.get? bridgePort
      status := integerAt records (below (below bridgeFdb "3") suffix)
      rawOids := [(oid, record.value)] }

def forwardingEntries (records : Records) :
    Except SnmpNodeError (List SnmpForwardingEntryObservation) := do
  let ports ← keyedRows db (bridgePortRows records)
  (forwardingRows records).mapM (forwardingEntry db records (Dictionary.ofItems Prod.fst Prod.snd ports))

/-! ### Neighbours -/

/-- The indexes of the named interfaces; of one name that of the last. -/
def nameToIndex (interfaces : List SnmpInterfaceObservation) : Dictionary Text Int :=
  Dictionary.ofItems Prod.fst Prod.snd
    (interfaces.filterMap (fun interface => interface.name.map (fun name => (name, interface.index))))

def localPortRows (records : Records) : List (Text × SnmprecScalar) :=
  records.entries.filterMap (fun (oid, record) =>
    (suffixOf oid lldpLocalPortId).map (fun port => (port, record.value)))

/-- The remote rows with an index of at least three parts; of it the local port. -/
def remoteRows (records : Records) : List (Text × SnmprecValue × Text × Text) :=
  records.entries.filterMap (fun (oid, record) =>
    match suffixOf oid (below lldpRemote "5") with
    | none => none
    | some suffix =>
      match (splitDots suffix).reverse with
      | _ :: localPort :: _ :: _ => some (oid, record, suffix, localPort)
      | _ => none)

/-- `str(local_port_ids.get(local_port))`. -/
def localPortText (localPortIds : Dictionary Int SnmprecScalar) (localPort : Int) : Text :=
  match localPortIds.get? localPort with
  | none => "None"
  | some localPortId => localPortId.str

def neighbour (records : Records) (names : Dictionary Text Int)
    (localPortIds : Dictionary Int SnmprecScalar) (row : Text × SnmprecValue × Text × Text) :
    Except SnmpNodeError SnmpNeighbourObservation :=
  let (oid, record, suffix, portText) := row
  do
    let localPort ← parseInt db portText
    let rawChassis := record.value.str
    return {
      protocol := "lldp"
      localPortNumber := localPort
      localInterfaceIndex := names.get? (localPortText localPortIds localPort)
      remoteChassisId := if macText rawChassis = [] then rawChassis else macText rawChassis
      remotePortId := (stringAt records (below (below lldpRemote "7") suffix)).getD []
      remoteSystemName := stringAt records (below (below lldpRemote "9") suffix)
      rawOids := [(oid, record.value)] }

def neighbours (records : Records) (interfaces : List SnmpInterfaceObservation) :
    Except SnmpNodeError (List SnmpNeighbourObservation) := do
  let ports ← keyedRows db (localPortRows records)
  (remoteRows records).mapM
    (neighbour db records (nameToIndex interfaces) (Dictionary.ofItems Prod.fst Prod.snd ports))

/-! ### Physical entities -/

def entityIndex (oid : Text) : Option Int :=
  match (suffixOf oid entPhysicalEntry).map splitDots with
  | some [_, index] => readInt db index
  | _ => none

def physicalEntity (records : Records) (index : Int) :
    PhysicalEntities.SnmpPhysicalEntityObservation :=
  let column (number : Text) : Text := below (below entPhysicalEntry number) (Json.writeInt index)
  { index
    description := stringAt records (column "2")
    containedIn := integerAt records (column "4")
    physicalClass := integerAt records (column "5")
    parentRelativePosition := integerAt records (column "6")
    name := stringAt records (column "7")
    serialNumber := stringAt records (column "11")
    manufacturerName := stringAt records (column "12")
    modelName := stringAt records (column "13")
    assetId := stringAt records (column "15")
    uuid := stringAt records (column "19")
    rawOids := records.keys.filter (fun oid => entityIndex db oid = some index) }

def physicalEntities (records : Records) : List PhysicalEntities.SnmpPhysicalEntityObservation :=
  (sortedBy compare (records.keys.filterMap (entityIndex db)).dedup).map (physicalEntity db records)

/-! ### Nodes -/

def systemOid (last : Text) : Text := below (below "1.3.6.1.2.1.1" last) "0"

def buildSnmpNode (target : DiscoveryTarget) (capturedAt : DateTime) (records : Records) :
    Except SnmpNodeError SnmpNodeObservation := do
  let interfaces := interfaces db records
  let neighbours ← neighbours db records interfaces
  let forwardingEntries ← forwardingEntries db records
  let uptimeTicks := integerAt records (systemOid "3")
  refuse (capturedAt.isAware = false) (.value "captured_at must include a timezone")
  refuse (∃ ticks ∈ uptimeTicks, ticks < 0) (.value "uptime_ticks must not be negative")
  return {
    target, capturedAt
    systemName := stringAt records (systemOid "5")
    systemDescription := stringAt records (systemOid "1")
    systemObjectId := stringAt records (systemOid "2")
    systemContact := stringAt records (systemOid "4")
    systemLocation := stringAt records (systemOid "6")
    uptimeTicks, interfaces, neighbours, forwardingEntries
    physicalEntities := physicalEntities db records
    rawOids := sortedBy (fun first second => compare first.1 second.1)
      (records.entries.map (fun (oid, record) => (oid, record.value))) }

/-- The recordings of a provider, by the key of their target. -/
structure SnmprecDiscoveryProvider where
  recordings : List (Text × Text)

/-- `read_snmp_node`; `read` is the strict reading of a path, with the text of its error. -/
def SnmprecDiscoveryProvider.readSnmpNode (provider : SnmprecDiscoveryProvider)
    (read : Text → Except Text Records) (target : DiscoveryTarget) (capturedAt : DateTime) :
    Except SnmpNodeError SnmpNodeObservation :=
  match provider.recordings.lookup target.key with
  | none => .error (.provider "snmprec_mapping_missing"
      (("no SNMPSim recording is mapped to " : Text) ++ target.key))
  | some path =>
    match read path with
    | .error error => .error (.provider "snmprec_read_failed"
        (("could not read SNMPSim recording for " : Text) ++ target.key ++ (": " : Text) ++ error))
    | .ok records => buildSnmpNode db target capturedAt records

end

end TwinForge.Discovery.Snmprec
