import TwinForge.Codesys.ClockGuard
import TwinForge.Foundation.Integers
import TwinForge.IecSt.Emitter

/-! # CODESYS PLCopen export of reusable units

Each unit becomes a POU whose body holds the routines of the normal scan, and whose
`FB_Init` method holds the mapped Prescan routine. The diagnostics of the export
are put together from separate emissions of the same routines.
-/

namespace TwinForge.Codesys

open IR
open IecSt

/-! ## Dialect -/

/-- Zero-based SIZE semantics using one-based CODESYS bounds. -/
def renderArrayDimension (array dimension : Text) : Option Text :=
  let targetDimension := ("(" : Text) ++ dimension ++ (" + 1)" : Text)
  some (("((UPPER_BOUND(" : Text) ++ array ++ (", " : Text) ++ targetDimension ++
    (") - LOWER_BOUND(" : Text) ++ array ++ (", " : Text) ++ targetDimension ++ (")) + 1)" : Text))

/-- CODESYS supports variable arrays in `VAR_IN_OUT`. -/
def supportsGenericArrayInterface (direction : Direction) : Bool := direction == .inout

/-- Read CODESYS milliseconds while preserving the neutral unit. -/
def renderWallClockRead (destination timestampUnit : Text) : Option (List Text) :=
  if timestampUnit ≠ ("microseconds" : Text) then none
  else some
    ["tfWallClockResult := SysTimeRtcHighResGet(tfWallClockMilliseconds);",
     "IF tfWallClockResult = 0 THEN",
     ("    " : Text) ++ destination ++
       (" := ULINT_TO_LINT(tfWallClockMilliseconds * ULINT#1000);" : Text),
     "END_IF;"]

def codesysDialect : Dialect where
  renderArrayDimension := renderArrayDimension
  supportsGenericArrayInterface := supportsGenericArrayInterface
  renderWallClockRead := renderWallClockRead

section

variable (db : CharacterDatabase)

/-- Emit a reusable unit with known CODESYS requirements resolved. -/
def emitCodesysStUnit (unit : ReusableUnit) : Emission :=
  emitIecStUnit db (some codesysDialect) (adaptCodesysRuntime db unit)

/-- Emit one routine with known CODESYS requirements resolved. -/
def emitCodesysStRoutine (routine : Routine) : Emission :=
  emitIecStRoutine db (some codesysDialect) routine

/-- `text.rstrip()`. -/
def stripEnd (text : Text) : Text := (text.reverse.dropWhile db.isSpace).reverse

/-! ## Lifecycle mapping -/

/-- The enabled Prescan routine eligible for `FB_Init`. -/
def mappedPrescan (unit : ReusableUnit) : Option Routine :=
  if unit.kind ≠ .functionBlock ∨ unit.lifecycle.prescanEnabled ≠ some true then none
  else unit.routines.find? (fun routine => routine.role == .prescan)

/-- The body of `FB_Init`. -/
def initText (routine : Routine) : Text :=
  stripEnd db (emitCodesysStRoutine db routine).text ++ ("\nFB_Init := TRUE;" : Text)

/-! ## POUs -/

/-- A declared type; arrays with their upper bounds. -/
structure DeclaredType where
  base : Text
  upperBounds : Option (List Nat) := none
deriving DecidableEq

/-- One scalar, array or derived type; no type when a dimension is no integer. -/
def declaredType (dataType : Option Text) (dimensions : Option Text) : Option DeclaredType :=
  let base := match dataType with
    | none | some [] => ("TF_UNRESOLVED_TYPE" : Text)
    | some name => name
  match dimensions with
  | none => some ⟨base, none⟩
  | some dimensions => do
    let lengths ← (dimensions.splitOn ',').mapM (readInt db)
    return ⟨base, some (lengths.map (fun length => (length - 1).toNat))⟩

structure Declaration where
  name : Text
  type : DeclaredType
  initialValue : Option Text := none
deriving DecidableEq

/-- The declarations under one list of the interface; a generic array stands in a list of
its own as a pointer with `*` dimensions. -/
inductive InterfaceList where
  | variables (element : Text) (declarations : List Declaration)
  | genericArray (name : Text) (base : DeclaredType) (direction : Direction) (dimensions : Nat)
deriving DecidableEq

def declareParameter (parameter : Parameter) : Option Declaration := do
  let type ← declaredType db parameter.dataType parameter.dimensions
  return ⟨parameter.name, type, none⟩

def genericArrayParameter (parameter : Parameter) : Option InterfaceList := do
  let base ← declaredType db parameter.dataType none
  return .genericArray parameter.name base parameter.direction
    ((parameter.dimensions.getD []).splitOn ',').length

/-- The parameters of one direction: the ordinary ones, then each generic array. -/
def parameterLists (parameters : List Parameter) (direction : Direction) (element : Text) :
    Option (List InterfaceList) := do
  let members := parameters.filter (fun parameter => parameter.direction == direction)
  let ordinary ← (members.filter (fun parameter => !parameter.genericDimensions)).mapM
    (declareParameter db)
  let generic ← (members.filter (·.genericDimensions)).mapM (genericArrayParameter db)
  return (if ordinary.isEmpty then [] else [.variables element ordinary]) ++ generic

def declareVariable (item : Variable) : Option Declaration := do
  let type ← declaredType db item.dataType item.dimensions
  return ⟨item.name, type, none⟩

/-- Parameters and local variables in CODESYS source order. -/
def pouInterface (unit : ReusableUnit) : Option (List InterfaceList) := do
  let inputs ← parameterLists db unit.parameters .input "inputVars"
  let outputs ← parameterLists db unit.parameters .output "outputVars"
  let inouts ← parameterLists db unit.parameters .inout "inOutVars"
  let others ← parameterLists db unit.parameters .unknown "localVars"
  let variables_ ← unit.instanceVariables.mapM (declareVariable db)
  return inputs ++ outputs ++ inouts ++ others ++
    (if variables_.isEmpty then [] else [.variables "localVars" variables_])

def bodyPieces (several : Bool) (routine : Routine) : List Text :=
  let emission := emitCodesysStRoutine db routine
  (if several then [("(* Routine: " : Text) ++ routine.name ++ (" *)\n" : Text)] else []) ++
    [emission.text]

def bodyText (unit : ReusableUnit) : Text :=
  let routines := executableRoutines unit
  if routines.isEmpty then []
  else joinText "\n"
    ((routines.flatMap (bodyPieces db (1 < routines.length))).map (stripEnd db))

structure Pou where
  name : Text
  functionBlock : Bool
  interface : List InterfaceList
  body : Text
  fbInit : Option Text
deriving DecidableEq

def emitPou (unit : ReusableUnit) : Option Pou := do
  let interface ← pouInterface db unit
  return ⟨unit.name, unit.kind == .functionBlock, interface, bodyText db unit,
    (mappedPrescan unit).map (initText db)⟩

/-! ## The scheduled program -/

/-- Bind one reusable-unit parameter to a program-local variable. -/
structure ArgumentBinding where
  parameterName : Text
  variableName : Text
  dimensions : Option Text := none
  initialValue : Option Text := none

/-- Declare one additional program-local variable for target integration. -/
structure ProgramVariable where
  name : Text
  dataType : Text
  dimensions : Option Text := none
  initialValue : Option Text := none

/-- Call one reusable unit instance from a generated program. -/
structure ProgramCall where
  unitName : Text
  instanceName : Text
  bindings : List ArgumentBinding
  statementsBeforeCall : List Text := []
  statementsAfterCall : List Text := []

/-- Explicit program and call configuration for reusable units. -/
structure ProjectIntegration where
  bindings : List ArgumentBinding
  programName : Text := "PLC_PRG"
  instanceName : Text := "fbInstance"
  programVariables : List ProgramVariable := []
  statementsBeforeCall : List Text := []
  statementsAfterCall : List Text := []
  calls : List ProgramCall := []

/-- Explicit calls or the backwards-compatible primary call. -/
def programCalls (unit : ReusableUnit) (integration : ProjectIntegration) : List ProgramCall :=
  if integration.calls.isEmpty then
    [{ unitName := unit.name, instanceName := integration.instanceName,
       bindings := integration.bindings }]
  else integration.calls

def declareProgramVariable (declared : List Declaration) (item : ProgramVariable) :
    Option (List Declaration) :=
  if declared.any (fun other => other.name == item.name) then none
  else do
    let type ← declaredType db (some item.dataType) item.dimensions
    return declared ++ [⟨item.name, type, item.initialValue⟩]

def unitNamed (units : List ReusableUnit) (name : Text) : Option ReusableUnit :=
  units.reverse.find? (fun unit => unit.name == name)

def parameterNamed (unit : ReusableUnit) (name : Text) : Option Parameter :=
  unit.parameters.reverse.find? (fun parameter => parameter.name == name)

/-- The type a bound variable is declared with: `parameter.data_type or "BOOL"`. -/
def boundType (parameter : Parameter) : Text :=
  match parameter.dataType with
  | none | some [] => "BOOL"
  | some name => name

def declareBinding (unit : ReusableUnit) (declared : List Declaration)
    (binding : ArgumentBinding) : Option (List Declaration) := do
  let parameter ← parameterNamed unit binding.parameterName
  declareProgramVariable db declared
    ⟨binding.variableName, boundType parameter, binding.dimensions, binding.initialValue⟩

def declareCall (units : List ReusableUnit) (declared : List Declaration) (call : ProgramCall) :
    Option (List Declaration) := do
  let unit ← unitNamed units call.unitName
  let declared ← declareProgramVariable db declared ⟨call.instanceName, call.unitName, none, none⟩
  call.bindings.foldlM (declareBinding db unit) declared

/-- One argument of a call: outputs with `=>`. -/
def argumentText (unit : ReusableUnit) (binding : ArgumentBinding) : Option Text := do
  let parameter ← parameterNamed unit binding.parameterName
  let operator : Text := if parameter.direction = .output then "=>" else ":="
  return ("    " : Text) ++ binding.parameterName ++ (" " : Text) ++ operator ++ (" " : Text) ++
    binding.variableName

def programCall (unit : ReusableUnit) (call : ProgramCall) : Option Text := do
  let arguments ← call.bindings.mapM (argumentText unit)
  return call.instanceName ++ ("(\n" : Text) ++ joinText ",\n" arguments ++ ("\n);" : Text)

def callStatements (units : List ReusableUnit) (call : ProgramCall) : Option (List Text) := do
  let unit ← unitNamed units call.unitName
  let text ← programCall unit call
  return call.statementsBeforeCall ++ [text] ++ call.statementsAfterCall

structure ProgramPou where
  name : Text
  declarations : List Declaration
  body : Text
deriving DecidableEq

def emitProgram (unit : ReusableUnit) (additional : List ReusableUnit)
    (integration : ProjectIntegration) : Option ProgramPou := do
  let units := unit :: additional
  let calls := programCalls unit integration
  let declared ← calls.foldlM (declareCall db units) []
  let declared ← integration.programVariables.foldlM (declareProgramVariable db) declared
  let called ← calls.mapM (callStatements units)
  let statements := integration.statementsBeforeCall ++ called.flatten ++
    integration.statementsAfterCall
  return ⟨integration.programName, declared,
    joinText "\n\n" ((statements.map db.strip).filter (fun text => !text.isEmpty))⟩

/-! ## Export -/

/-- The parts of the project document that hold code. -/
structure Project where
  program : Option ProgramPou
  pous : List Pou
deriving DecidableEq

structure PlcopenResult where
  project : Project
  diagnostics : List Diagnostic
  requirements : List Requirement

/-- Whether the target document has no blocking issue. -/
def PlcopenResult.complete (result : PlcopenResult) : Bool :=
  result.requirements.isEmpty && !result.diagnostics.any (fun item => item.code ∈ blockingCodes)

def prescanRequired : Text := "prescan_mapping_required"

def prescanMapped : Diagnostic :=
  ⟨"codesys_prescan_mapped_to_fb_init",
    ("mapped enabled AOI Prescan logic to the CODESYS " : Text) ++
      ("FB_Init lifecycle method" : Text), noSpan⟩

def sortRequirements (found : List Requirement) : List Requirement :=
  [.arrayDimension, .controllerObjectAccess, .dynamicBitAccess, .genericArrayInterface,
    .sourceOperationAdapter, .wallClockRead].filter (· ∈ found)

def buildProject (unit : ReusableUnit) (additional : List ReusableUnit)
    (integration : Option ProjectIntegration) : Option Project := do
  let program ← integration.mapM (emitProgram db unit additional)
  let pous ← (unit :: additional).mapM (emitPou db)
  return ⟨program, pous⟩

/-- Serialize reusable units and an optional scheduled program call. -/
def exportUnits (unit : ReusableUnit) (additional : List ReusableUnit)
    (integration : Option ProjectIntegration) : Option PlcopenResult := do
  let unit := adaptCodesysRuntime db unit
  let additional := additional.map (adaptCodesysRuntime db)
  let emission := emitCodesysStUnit db unit
  let additionalEmissions := additional.map (emitCodesysStUnit db)
  let project ← buildProject db unit additional integration
  let diagnostics := emission.diagnostics ++ additionalEmissions.flatMap (·.diagnostics)
  let requirements := emission.requirements ++ additionalEmissions.flatMap (·.requirements)
  match mappedPrescan unit with
  | none => return ⟨project, diagnostics, sortRequirements requirements⟩
  | some prescan =>
    return ⟨project,
      diagnostics.filter (fun item => item.code != prescanRequired) ++ [prescanMapped],
      sortRequirements (requirements ++ (emitCodesysStRoutine db prescan).requirements)⟩

end

end TwinForge.Codesys
