import TwinForge.Analysis.SoftwareCalls
import TwinForge.Foundation.BasedIntegers
import TwinForge.Plx50.GatewayConfiguration

/-! # Generated Logix mapping logic

Programs generated for a PLX50 assign a station number to a tag with `MOV`, and copy between a
module assembly and a tag with `CPS`. Both are collected from the calls of a controller.
-/

namespace TwinForge.Plx50.LogixMapping

open Model

/-! ## Controllers -/

mutual

inductive Datatype where
  | mk (members : List DatatypeMember)

inductive DatatypeMember where
  | mk (name : Text) (dataType : Option Datatype)

end

def Datatype.members : Datatype → List DatatypeMember
  | .mk members => members

def DatatypeMember.name : DatatypeMember → Text
  | .mk name _ => name

def DatatypeMember.dataType : DatatypeMember → Option Datatype
  | .mk _ dataType => dataType

structure Tag where
  name : Text := []
  dataTypeDefinition : Option Datatype := none

structure Controller where
  tags : Dictionary Text Tag := {}
  programs : Dictionary Text SoftwareCalls.Program := {}

/-! ## Module assemblies -/

inductive TransferDirection where
  | input | output
deriving DecidableEq, Repr

def TransferDirection.letter : TransferDirection → Char
  | .input => 'I'
  | .output => 'O'

def readDirection (c : Char) : Option TransferDirection :=
  if c = 'I' then some .input else if c = 'O' then some .output else none

/-- What `_ASSEMBLY_OPERAND` captures. -/
structure AssemblyOperand where
  moduleName : Text
  direction : TransferDirection
  connection : Nat
  offset : Nat
deriving DecidableEq, Repr

/-- One generated CPS transfer between a module assembly and a tag. -/
structure Plx50LogixTransfer where
  moduleName : Text
  direction : TransferDirection
  connectionNumber : Nat
  assemblyOffset : Nat
  copyLength : Int
  controllerTag : Text
  sourceText : Text
deriving DecidableEq, Repr

/-- The exact Logix module-side operand. -/
def Plx50LogixTransfer.assemblyReference (transfer : Plx50LogixTransfer) : Text :=
  transfer.moduleName ++ ':' :: transfer.direction.letter :: decimal transfer.connectionNumber ++
    (".Data[" : Text) ++ decimal transfer.assemblyOffset ++ ("]" : Text)

def isModuleStart (c : Char) : Bool := c.isAlpha || c == '_'

def isModuleCharacter (c : Char) : Bool := c.isAlphanum || c == '_'

section

variable (db : CharacterDatabase)

def isDecimal (c : Char) : Bool := (db.decimalDigit c).isSome

/-- A run of digits and the text behind it. -/
def readNumber (text : Text) : Option (Nat × Text) :=
  (readDigits db 0 false (text.takeWhile (isDecimal db))).map fun value =>
    (value, text.dropWhile (isDecimal db))

/-- The index behind `.Data`, zero where none is written. -/
def readOffset : Text → Option Nat
  | [] => some 0
  | '[' :: inner =>
    match readNumber db inner with
    | some (offset, [']']) => some offset
    | _ => none
  | _ => none

def assemblyMatch (value : Text) : Option AssemblyOperand :=
  let moduleName := value.takeWhile isModuleCharacter
  if (moduleName.head?.map isModuleStart).getD false then
    match value.dropWhile isModuleCharacter with
    | ':' :: letter :: rest => do
      let direction ← readDirection letter
      let (connection, behind) ← readNumber db rest
      match behind with
      | '.' :: 'D' :: 'a' :: 't' :: 'a' :: index =>
        let offset ← readOffset db index
        return { moduleName, direction, connection, offset }
      | _ => none
    | _ => none
  else none

def integer (value : Text) : Option Int := readSigned db readLiteral value

/-! ## Evidence -/

def transferOf (operand : AssemblyOperand) (copyLength : Int) (controllerTag sourceText : Text) :
    Plx50LogixTransfer where
  moduleName := operand.moduleName
  direction := operand.direction
  connectionNumber := operand.connection
  assemblyOffset := operand.offset
  copyLength := copyLength
  controllerTag := controllerTag
  sourceText := sourceText

/-- `_cps_transfer`: out of an input assembly, or into an output assembly. -/
def cpsTransfer (source destination length sourceText : Text) : Option Plx50LogixTransfer := do
  let copyLength ← integer db length
  if copyLength < 1 then none
  else
    let first := (assemblyMatch db source).filter (·.direction = .input)
    let second := (assemblyMatch db destination).filter (·.direction = .output)
    match first, second with
    | some operand, _ => return transferOf operand copyLength destination sourceText
    | none, some operand => return transferOf operand copyLength source sourceText
    | none, none => none

/-- The transfers of a module, and the tags that each station number is assigned to. -/
structure Evidence where
  transfers : List Plx50LogixTransfer := []
  stationTags : Dictionary Int (List Text) := {}

def stationSuffix : Text := ".Output.Control.StationNumber"

/-- A `MOV` of a station number. -/
def stationAssignment (source destination : Text) : Option (Int × Text) := do
  let station ← integer db source
  if stationSuffix.isSuffixOf destination then
    return (station, destination.take (destination.length - stationSuffix.length))
  else none

def Evidence.assign (evidence : Evidence) (station : Int) (base : Text) : Evidence :=
  { evidence with stationTags :=
      evidence.stationTags.set station ((evidence.stationTags.get? station).getD [] ++ [base]) }

def collectCall (moduleName : Option Text) (evidence : Evidence) (call : SoftwareCallSite) :
    Evidence :=
  let operands := call.arguments.map fun argument => db.strip argument.source
  let mnemonic := db.upperText call.callee
  match operands with
  | [source, destination] =>
    if mnemonic = ("MOV" : Text) then
      match stationAssignment db source destination with
      | some (station, base) => evidence.assign station base
      | none => evidence
    else evidence
  | [source, destination, length] =>
    if mnemonic = ("CPS" : Text) then
      match cpsTransfer db source destination length call.sourceText with
      | some transfer =>
        if moduleName = none ∨ moduleName = some transfer.moduleName then
          { evidence with transfers := evidence.transfers ++ [transfer] }
        else evidence
      | none => evidence
    else evidence
  | _ => evidence

def generatedEvidence (fuel : Nat) (controller : Controller) (moduleName : Option Text) :
    Option (Except SoftwareCalls.IndexError Evidence) :=
  (controller.programs.values.mapM fun program =>
    SoftwareCalls.extractProgramCalls db fuel program none).map fun found =>
      (found.mapM id).map fun calls => calls.flatten.foldl (collectCall db moduleName) {}

/-- `station_tags.get(station, ())`, each tag once. -/
def Evidence.tagsOf (evidence : Evidence) (station : Int) : List Text :=
  ((evidence.stationTags.get? station).getD []).eraseDups

def mappingWarning (code message : Text) (rawValue : Option Text) : ConversionDiagnostic :=
  ⟨code, message, "PLX50 Logix mapping", rawValue⟩

def evidenceFindings (moduleName : Option Text) (evidence : Evidence) : List ConversionDiagnostic :=
  match statedText moduleName with
  | none => []
  | some name =>
    if evidence.transfers = [] then
      [mappingWarning "plx50_logix_module_transfer_unresolved"
        (("no generated CPS transfers reference module " : Text) ++ db.reprText name) (some name)]
    else []

end

end TwinForge.Plx50.LogixMapping
