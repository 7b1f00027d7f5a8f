import TwinForge.IR.Lowering

/-! # Reusable units from Add-On Instructions

The assembly of a unit, the promotion of inputs its logic writes, and the enable
behaviour of its normal scan.
-/

namespace TwinForge.IR

open StructuredText (SourceSpan)
open Model (AddOnInstruction AddOnInstructionParameter)

/-! ## Statements at any depth -/

mutual

def walkStatement : Statement → List Statement
  | .ifThen span branches elseStatements =>
    .ifThen span branches elseStatements ::
      (walkBranches branches ++ walkStatements elseStatements)
  | .whileDo span condition statements =>
    .whileDo span condition statements :: walkStatements statements
  | statement => [statement]

def walkStatements : List Statement → List Statement
  | [] => []
  | statement :: rest => walkStatement statement ++ walkStatements rest

def walkBranches : List (IfBranch Statement) → List Statement
  | [] => []
  | ⟨_, _, statements⟩ :: rest => walkStatements statements ++ walkBranches rest

end

/-- The name of the variable an access goes into. -/
def rootReference : Expression → Option Text
  | .reference _ _ name => some name
  | .member _ _ target _ => rootReference target
  | .index _ _ target _ _ => rootReference target
  | _ => none

/-- Roles that are not part of the normal scan. -/
def RoutineRole.isLifecycle : RoutineRole → Bool
  | .prescan | .postscan | .enableInFalse | .unknownLifecycle => true
  | _ => false

section

variable (db : CharacterDatabase)

/-! ## Assembly -/

def directionOf (usage : Option Text) : Direction :=
  let normalized := db.casefoldText (usage.getD [])
  if normalized = "input" then .input
  else if normalized = "output" then .output
  else if normalized = "inout" then .inout
  else .unknown

/-- Resolve lifecycle roles independently of their source XML container. -/
def namedLifecycleRole (name : Text) : Option RoutineRole :=
  let name := db.casefoldText name
  if name = "prescan" then some .prescan
  else if name = "postscan" then some .postscan
  else if name = "enableinfalse" then some .enableInFalse
  else none

def scanModeRole (name : Text) : RoutineRole :=
  (namedLifecycleRole db name).getD .unknownLifecycle

def noSpan : SourceSpan := ⟨0, 0⟩

/-- The routines under Routines: the first without a lifecycle name is the primary one. -/
def lowerRoutines (semantics : Text → Option Semantics) :
    Bool → List Model.Routine → Option (Lowered (List Routine))
  | _, [] => some (return [])
  | primaryAssigned, routine :: rest =>
    match semantics routine.name with
    | none => do
      let lowered ← lowerRoutines semantics primaryAssigned rest
      return do
        Reported.report ⟨"missing_routine_semantics", ("routine " : Text) ++
          db.reprText routine.name ++ (" has no semantic analysis" : Text), noSpan⟩
        lowered
    | some answers =>
      match namedLifecycleRole db routine.name with
      | some role => do
        let first ← lowerStructuredText db answers routine.name role
        let lowered ← lowerRoutines semantics primaryAssigned rest
        return do
          Reported.report ⟨"lifecycle_routine_in_routines_container", ("routine " : Text) ++
            db.reprText routine.name ++ (" has a documented lifecycle " : Text) ++
            ("name despite being captured under Routines" : Text), noSpan⟩
          let routines ← lowered
          return first :: routines
      | none => do
        let role := if primaryAssigned then .auxiliary else .primary
        let first ← lowerStructuredText db answers routine.name role
        let lowered ← lowerRoutines semantics true rest
        return do
          let routines ← lowered
          return first :: routines

def lowerScanModeRoutines (semantics : Text → Option Semantics) :
    List Model.Routine → Option (Lowered (List Routine))
  | [] => some (return [])
  | routine :: rest =>
    match semantics routine.name with
    | none => do
      let lowered ← lowerScanModeRoutines semantics rest
      return do
        Reported.report ⟨"missing_routine_semantics", ("scan-mode routine " : Text) ++
          db.reprText routine.name ++ (" has no semantic analysis" : Text), noSpan⟩
        lowered
    | some answers => do
      let role := scanModeRole db routine.name
      let first ← lowerStructuredText db answers routine.name role
      let lowered ← lowerScanModeRoutines semantics rest
      return do
        if role = .unknownLifecycle then
          Reported.report ⟨"unknown_scan_mode_routine", ("scan-mode routine " : Text) ++
            db.reprText routine.name ++ (" has no documented lifecycle role" : Text), noSpan⟩
        let routines ← lowered
        return first :: routines

def lowerParameter (parameter : AddOnInstructionParameter) : Parameter where
  name := parameter.name
  direction := directionOf db parameter.usage
  dataType := parameter.effectiveDataType
  dimensions := parameter.dimensions
  genericDimensions := parameter.dimensions.isSome &&
    db.casefoldText (parameter.usage.getD []) == ("inout" : Text)
  systemDefined := db.casefoldText parameter.name ∈ ([("enablein" : Text), "enableout"] : List Text)

def assignedName : Statement → Option (Text × SourceSpan)
  | .assignment span target _ => (rootReference target).map (fun name => (name, span))
  | _ => none

def scannedAssignments (routines : List Routine) : List (Text × SourceSpan) :=
  (routines.filter (fun routine => !routine.role.isLifecycle)).flatMap
    (fun routine => (walkStatements routine.statements).filterMap assignedName)

/-- One diagnostic for each input written by the normal scan; `reported` are the
case-folded names already seen. -/
def writeDiagnostics (inputs : List (Text × Text)) :
    List Text → List (Text × SourceSpan) → List Diagnostic
  | _, [] => []
  | reported, (root, span) :: rest =>
    match inputs.reverse.lookup (db.casefoldText root) with
    | none => writeDiagnostics inputs reported rest
    | some name =>
      if db.casefoldText name ∈ reported then writeDiagnostics inputs reported rest
      else ⟨"write_to_input_parameter", ("captured logic writes input parameter " : Text) ++
          db.reprText name ++ ("; a target interface must preserve or redesign this effect" : Text),
          span⟩ ::
        writeDiagnostics inputs (db.casefoldText name :: reported) rest

def interfaceDiagnostics (instruction : AddOnInstruction) (routines : List Routine) :
    List Diagnostic :=
  let inputs := ((instruction.parameters.map (·.2)).filter (fun parameter =>
    db.casefoldText (parameter.usage.getD []) == ("input" : Text))).map
      (fun parameter => (db.casefoldText parameter.name, parameter.name))
  writeDiagnostics db inputs [] (scannedAssignments routines)

/-- Assemble a neutral reusable unit from captured AOI evidence. -/
def lowerAddOnInstruction (instruction : AddOnInstruction) (semantics : Text → Option Semantics) :
    Option ReusableUnit := do
  let main ← lowerRoutines db semantics false (instruction.routines.map (·.2))
  let scanMode ← lowerScanModeRoutines db semantics (instruction.scanModeRoutines.map (·.2))
  let routines := main.value ++ scanMode.value
  let kind := if !instruction.localTags.isEmpty || instruction.executePrescan == some true ||
      instruction.executePostscan == some true || instruction.executeEnableInFalse == some true
    then .functionBlock else .function
  return {
    name := instruction.name
    kind
    parameters := instruction.parameters.map (fun item => lowerParameter db item.2)
    instanceVariables := instruction.localTags.map
      (fun item => ⟨item.2.name, item.2.dataType, item.2.dimensions⟩)
    routines
    lifecycle := ⟨instruction.executePrescan, instruction.executePostscan,
      instruction.executeEnableInFalse⟩
    diagnostics := main.items ++ scanMode.items ++
      interfaceDiagnostics db instruction routines }

/-! ## Normalization -/

/-- Permitted transformations of a captured reusable interface. -/
inductive NormalizationPolicy where
  | preserve
  | promoteWrittenInputs
deriving DecidableEq, Repr

/-- The inputs the normal scan assigns, with the first such assignment of each. -/
def collectWritten (inputs : List Text) :
    List (Text × SourceSpan) → List (Text × SourceSpan) → List (Text × SourceSpan)
  | written, [] => written
  | written, (root, span) :: rest =>
    let name := db.casefoldText root
    if name ∈ inputs ∧ name ∉ written.map (·.1) then
      collectWritten inputs (written ++ [(name, span)]) rest
    else collectWritten inputs written rest

def writtenInputs (unit : ReusableUnit) : List (Text × SourceSpan) :=
  let inputs := (unit.parameters.filter (fun parameter => parameter.direction == .input)).map
    (fun parameter => db.casefoldText parameter.name)
  collectWritten db inputs [] (scannedAssignments unit.routines)

/-- A written input as an output, with the change that says so. -/
def promoteParameter (written : List (Text × SourceSpan)) (parameter : Parameter) :
    Lowered Parameter :=
  match parameter.direction, written.lookup (db.casefoldText parameter.name) with
  | .input, some span => do
    Reported.report ⟨"input_promoted_to_output", ("promoted written input parameter " : Text) ++
      db.reprText parameter.name ++ (" to an IEC output" : Text), span⟩
    return { parameter with direction := .output }
  | _, _ => return parameter

def promoteParameters (written : List (Text × SourceSpan)) :
    List Parameter → Lowered (List Parameter)
  | [] => return []
  | parameter :: rest => do
    let first ← promoteParameter db written parameter
    let rest ← promoteParameters written rest
    return first :: rest

def promoteKind (kind : UnitKind) (span : SourceSpan) : Lowered UnitKind := do
  if kind ≠ .functionBlock then
    Reported.report ⟨"unit_promoted_to_function_block",
      ("promoted function candidate to function block to preserve " : Text) ++
      ("the normalized multi-direction interface" : Text), span⟩
  return .functionBlock

/-- Apply one named policy without losing the captured IR; the unit and its changes. -/
def normalizeReusableUnit (unit : ReusableUnit) (policy : NormalizationPolicy := .preserve) :
    ReusableUnit × List Diagnostic :=
  match policy, writtenInputs db unit with
  | .preserve, _ => (unit, [])
  | .promoteWrittenInputs, [] => (unit, [])
  | .promoteWrittenInputs, (first, span) :: rest =>
    let parameters := promoteParameters db ((first, span) :: rest) unit.parameters
    let kind := promoteKind unit.kind span
    let changes := parameters.items ++ kind.items
    ({ unit with
        kind := kind.value
        parameters := parameters.value
        diagnostics := unit.diagnostics.filter
          (fun item => item.code != ("write_to_input_parameter" : Text)) ++ changes }, changes)

/-! ## Execution semantics -/

def systemParameter (unit : ReusableUnit) (name : Text) (direction : Direction) :
    Option Parameter :=
  unit.parameters.find? (fun parameter => parameter.systemDefined &&
    db.casefoldText parameter.name == name && parameter.direction == direction)

def unmappedLifecycleDiagnostics (unit : ReusableUnit) : List Diagnostic :=
  let mode (name words : Text) : Diagnostic :=
    ⟨name ++ ("_mapping_required" : Text), ("enabled AOI " : Text) ++ words ++
      (" behavior is captured but requires an explicit target lifecycle mapping" : Text), noSpan⟩
  (if unit.lifecycle.prescanEnabled = some true then [mode "prescan" "prescan"] else []) ++
  (if unit.lifecycle.postscanEnabled = some true then [mode "postscan" "postscan"] else []) ++
  (if unit.lifecycle.enableInFalseEnabled = some true &&
      !unit.routines.any (fun routine => routine.role == .enableInFalse) then
    [⟨"enable_in_false_mapping_required",
      ("enabled AOI enable in false behavior requires a " : Text) ++
      ("captured EnableInFalse ScanModeRoutine" : Text), noSpan⟩] else [])

def enableApplied : Text := "aoi_enable_semantics_applied"

/-- The statements of the mapped EnableInFalse routine; none when it is not mapped. -/
def mappedEnableInFalse (unit : ReusableUnit) : Option (List Statement) :=
  if unit.lifecycle.enableInFalseEnabled = some true then
    (unit.routines.find? (fun routine => routine.role == .enableInFalse)).map (·.statements)
  else none

def guardedPrimary (enableIn enableOut : Text) (span : SourceSpan)
    (primary enableInFalse : List Statement) : List Statement :=
  let enabled : Expression := .reference span (some "BOOL") enableIn
  [.assignment span (.reference span (some "BOOL") enableOut) enabled,
   .ifThen span [⟨span, enabled, primary⟩] enableInFalse]

/-- Apply documented AOI enable behavior without target assumptions. -/
def applyAoiExecutionSemantics (unit : ReusableUnit) : ReusableUnit :=
  if unit.diagnostics.any (fun item => item.code == enableApplied) then unit
  else
    let diagnostics := unit.diagnostics ++ unmappedLifecycleDiagnostics unit
    match systemParameter db unit "enablein" .input, systemParameter db unit "enableout" .output,
      unit.routines.findIdx? (fun routine => routine.role == .primary) with
    | some enableIn, some enableOut, some primaryIndex =>
      match unit.routines[primaryIndex]? with
      | none => unit
      | some primary =>
        let span := (primary.statements.head?.map (·.span)).getD noSpan
        let mapped := mappedEnableInFalse unit
        { unit with
          kind := .functionBlock
          routines := unit.routines.set primaryIndex
            { primary with
              statements := guardedPrimary enableIn.name enableOut.name span
                primary.statements (mapped.getD []) }
          diagnostics := diagnostics ++
            [⟨"default_enable_out_synthesized",
              ("synthesized the documented AOI default " : Text) ++
                ("EnableOut := EnableIn behavior" : Text), span⟩,
             ⟨"main_routine_guarded_by_enable_in",
              "guarded the AOI primary routine with EnableIn", span⟩,
             ⟨enableApplied, "applied target-neutral AOI normal-scan semantics", span⟩] ++
            (if mapped.isSome then
              [⟨"enable_in_false_mapped",
                "mapped enabled EnableInFalse logic to the false branch", span⟩] else []) }
    | _, _, _ =>
      { unit with
        diagnostics := diagnostics ++
          [⟨"aoi_enable_interface_unavailable",
            ("AOI execution semantics require system-defined EnableIn, " : Text) ++
              ("EnableOut, and a primary routine" : Text), noSpan⟩] }

end

end TwinForge.IR
