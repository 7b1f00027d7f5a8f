import TwinForge.Foundation.Integers
import TwinForge.IR.ReusableUnit

/-! # Structured Text from the IR

Target-neutral emission: text, diagnostics, and the operations a target adapter must
still provide. A dialect may render some of these operations.
-/

namespace TwinForge.IecSt

open IR

/-- Neutral operation that a target adapter must implement, by its sorted name. -/
inductive Requirement where
  | arrayDimension
  | controllerObjectAccess
  | dynamicBitAccess
  | genericArrayInterface
  | sourceOperationAdapter
  | wallClockRead
deriving DecidableEq, Repr

/-- Target capabilities used while rendering otherwise neutral IEC ST. -/
structure Dialect where
  renderArrayDimension : Text → Text → Option Text
  supportsGenericArrayInterface : Direction → Bool
  renderWallClockRead : Text → Text → Option (List Text)

inductive Finding where
  | diagnostic (item : Diagnostic)
  | requirement (item : Requirement)
deriving DecidableEq, Repr

abbrev Emitted (Value : Type) := Reported Finding Value

def require (item : Requirement) : Emitted Unit := Reported.report (.requirement item)

def diagnose (code message : Text) (span : StructuredText.SourceSpan) : Emitted Unit :=
  Reported.report (.diagnostic ⟨code, message, span⟩)

def findingDiagnostics (findings : List Finding) : List Diagnostic :=
  findings.filterMap (fun finding =>
    match finding with
    | .diagnostic item => some item
    | .requirement _ => none)

def sortedRequirements (findings : List Finding) : List Requirement :=
  [.arrayDimension, .controllerObjectAccess, .dynamicBitAccess, .genericArrayInterface,
    .sourceOperationAdapter, .wallClockRead].filter (fun item => .requirement item ∈ findings)

/-- Canonical text plus explicit completeness and target requirements. -/
structure Emission where
  text : Text
  diagnostics : List Diagnostic
  requirements : List Requirement

def blockingCodes : List Text :=
  ["unsupported_expression", "unsupported_statement", "write_to_input_parameter",
    "unknown_data_type", "multiple_routines_require_lifecycle_mapping", "prescan_mapping_required",
    "postscan_mapping_required", "enable_in_false_mapping_required",
    "aoi_enable_interface_unavailable", "unknown_scan_mode_routine"]

/-- Whether no unresolved or unsupported issue remains. -/
def Emission.complete (emission : Emission) : Bool :=
  !emission.diagnostics.any (fun item => item.code ∈ blockingCodes)

section

variable (db : CharacterDatabase)

/-! ## Words -/

def operatorText (value : Text) : Text :=
  let upper := db.upperText value
  if upper = "&" then "AND" else if upper = "|" then "OR" else if upper = "^" then "XOR" else upper

def isWordCharacter (character : Char) : Bool := db.isAlnum character || character == '_'

def underscoreRuns : Bool → Text → Text
  | _, [] => []
  | inRun, character :: rest =>
    if isWordCharacter db character then character :: underscoreRuns false rest
    else if inRun then underscoreRuns true rest
    else '_' :: underscoreRuns true rest

def stripUnderscores (value : Text) : Text :=
  ((value.dropWhile (· == '_')).reverse.dropWhile (· == '_')).reverse

def identifierText (value : Text) : Text :=
  match stripUnderscores (underscoreRuns db false value) with
  | [] => "Operation"
  | cleaned => cleaned

/-- `value.replace("*)", "* )")`. -/
def separateClosing : Text → Text
  | '*' :: ')' :: rest => '*' :: ' ' :: ')' :: separateClosing rest
  | character :: rest => character :: separateClosing rest
  | [] => []

/-- `value.split()`. -/
def splitSpaces : Text → List Text
  | [] => []
  | character :: rest =>
    if db.isSpace character then splitSpaces rest
    else
      match rest with
      | [] => [[character]]
      | next :: _ =>
        if db.isSpace next then [character] :: splitSpaces rest
        else
          match splitSpaces rest with
          | word :: words => (character :: word) :: words
          | [] => [[character]]

def commentText (value : Text) : Text := joinText " " (splitSpaces db (separateClosing value))

/-! ## Expressions -/

variable (dialect : Option Dialect)

mutual

def emitExpression : Expression → Emitted Text
  | .reference _ _ name => return name
  | .literal _ _ lexicalValue => return lexicalValue
  | .unary _ _ operator operand => do
    let operand ← emitExpression operand
    return operator ++ (" (" : Text) ++ operand ++ (")" : Text)
  | .binary _ _ left operator right => do
    let left ← emitExpression left
    let right ← emitExpression right
    return ("(" : Text) ++ left ++ (" " : Text) ++ operatorText db operator ++ (" " : Text) ++
      right ++ (")" : Text)
  | .member _ _ target member => do
    let target ← emitExpression target
    return target ++ ("." : Text) ++ member
  | .index _ _ target indices sourceOperator => do
    let indices ← emitExpressions indices
    let indices := joinText ", " indices
    if sourceOperator = ".[]" then
      require .dynamicBitAccess
      let target ← emitExpression target
      return ("TF_BitAt(" : Text) ++ target ++ (", " : Text) ++ indices ++ (")" : Text)
    else
      let target ← emitExpression target
      return target ++ ("[" : Text) ++ indices ++ ("]" : Text)
  | .arrayDimension _ _ array dimension => do
    let array ← emitExpression array
    let dimension ← emitExpression dimension
    match dialect.bind (fun target => target.renderArrayDimension array dimension) with
    | some rendered => return rendered
    | none => do
      require .arrayDimension
      return ("TF_ArrayDimension(" : Text) ++ array ++ (", " : Text) ++ dimension ++
        (")" : Text)
  | .call _ _ operation arguments adapterRequired _ => do
    if adapterRequired then require .sourceOperationAdapter
    let name := if adapterRequired then ("TF_" : Text) ++ identifierText db operation
      else if operation = "absolute_value" then ("ABS" : Text) else operation
    let arguments ← emitExpressions arguments
    return name ++ ("(" : Text) ++ joinText ", " arguments ++ (")" : Text)
  | .unsupported span _ _ reason => do
    diagnose "unsupported_expression" reason span
    return "TF_UNSUPPORTED()"

def emitExpressions : List Expression → Emitted (List Text)
  | [] => return []
  | expression :: rest => do
    let expression ← emitExpression expression
    let rest ← emitExpressions rest
    return expression :: rest

end

/-! ## Statements -/

/-- The white space in front of a line. -/
def margin (indent : Nat) : Text := List.replicate (4 * indent) ' '

def objectComment (indent : Nat) (action arrow objectClass objectInstance objectAttribute operand :
    Text) : Text :=
  margin indent ++ ("(* TwinForge target adapter required: " : Text) ++ action ++ (" " : Text) ++
    commentText db objectClass ++ ("/" : Text) ++ commentText db objectInstance ++ ("/" : Text) ++
    commentText db objectAttribute ++ (" " : Text) ++ arrow ++ (" " : Text) ++
    commentText db operand ++ (" *)" : Text)

mutual

def emitStatement (indent : Nat) : Statement → Emitted (List Text)
  | .assignment _ target value => do
    let target ← emitExpression db dialect target
    let value ← emitExpression db dialect value
    return [margin indent ++ target ++ (" := " : Text) ++ value ++ (";" : Text)]
  | .callStatement _ call => do
    let call ← emitExpression db dialect call
    return [margin indent ++ call ++ (";" : Text)]
  | .wallClockRead _ destination timestampUnit => do
    let destination ← emitExpression db dialect destination
    match dialect.bind (fun target => target.renderWallClockRead destination timestampUnit) with
    | some rendered => return rendered.map (fun line => margin indent ++ line)
    | none => do
      require .wallClockRead
      return [margin indent ++ ("TF_WallClockRead(" : Text) ++ destination ++ (");" : Text)]
  | .controllerObjectRead _ objectClass objectInstance objectAttribute destination _ _ => do
    require .controllerObjectAccess
    let destination ← emitExpression db dialect destination
    return [objectComment db indent "read" "->" objectClass objectInstance objectAttribute
      destination]
  | .controllerObjectWrite _ objectClass objectInstance objectAttribute value _ _ => do
    require .controllerObjectAccess
    let value ← emitExpression db dialect value
    return [objectComment db indent "write" "<-" objectClass objectInstance objectAttribute value]
  | .ifThen _ branches elseStatements => do
    let branches ← emitBranches indent "IF" branches
    let elseLines ← emitStatements (indent + 1) elseStatements
    return branches ++
      (if elseStatements.isEmpty then [] else (margin indent ++ ("ELSE" : Text)) :: elseLines) ++
      [margin indent ++ ("END_IF;" : Text)]
  | .whileDo _ condition statements => do
    let condition ← emitExpression db dialect condition
    let body ← emitStatements (indent + 1) statements
    return (margin indent ++ ("WHILE " : Text) ++ condition ++ (" DO" : Text)) ::
      (body ++ [margin indent ++ ("END_WHILE;" : Text)])
  | .exit _ => return [margin indent ++ ("EXIT;" : Text)]
  | .unsupported span source reason => do
    diagnose "unsupported_statement" reason span
    return [margin indent ++ ("(* TwinForge unsupported: " : Text) ++ commentText db source ++
      (" *)" : Text)]

def emitStatements (indent : Nat) : List Statement → Emitted (List Text)
  | [] => return []
  | statement :: rest => do
    let lines ← emitStatement indent statement
    let rest ← emitStatements indent rest
    return lines ++ rest

def emitBranches (indent : Nat) (keyword : Text) : List (IfBranch Statement) → Emitted (List Text)
  | [] => return []
  | ⟨_, condition, statements⟩ :: rest => do
    let condition ← emitExpression db dialect condition
    let lines ← emitStatements (indent + 1) statements
    let rest ← emitBranches indent "ELSIF" rest
    return (margin indent ++ keyword ++ (" " : Text) ++ condition ++ (" THEN" : Text)) ::
      (lines ++ rest)

end

/-! ## Declarations -/

def dimensionBounds (dimension : Text) : Text :=
  match readInt db dimension with
  | none => "0..0"
  | some length => ("0.." : Text) ++ decimal (length - 1).toNat

def emitDataType (dataType : Option Text) (dimensions : Option Text := none) : Emitted Text := do
  if dataType.isNone then
    diagnose "unknown_data_type" "declaration has no resolved data type" noSpan
  let base := dataType.getD "TF_UNRESOLVED_TYPE"
  match dimensions with
  | none => return base
  | some dimensions =>
    return ("ARRAY[" : Text) ++
      joinText ", " ((dimensions.splitOn ',').map (dimensionBounds db)) ++
      ("] OF " : Text) ++ base

/-- Render scalar, fixed-array, or generic-array parameter type. -/
def emitParameterType (parameter : Parameter) : Emitted Text :=
  match parameter.dimensions with
  | none => emitDataType db parameter.dataType
  | some dimensions => do
    let element ← emitDataType db parameter.dataType
    if parameter.genericDimensions then
      if !dialect.any (fun target => target.supportsGenericArrayInterface parameter.direction)
        then require .genericArrayInterface
      return ("ARRAY[" : Text) ++
        joinText ", " ((dimensions.splitOn ',').map (fun _ => ("*" : Text))) ++
        ("] OF " : Text) ++ element
    else emitDataType db parameter.dataType (some dimensions)

def emitDeclaration (name type : Text) : Text :=
  ("    " : Text) ++ name ++ (" : " : Text) ++ type ++ (";" : Text)

def emitParameters : List Parameter → Emitted (List Text)
  | [] => return []
  | parameter :: rest => do
    let type ← emitParameterType db dialect parameter
    let rest ← emitParameters rest
    return emitDeclaration parameter.name type :: rest

def emitSection (parameters : List Parameter) (direction : Direction) (keyword : Text) :
    Emitted (List Text) := do
  match parameters.filter (fun parameter => parameter.direction == direction) with
  | [] => return []
  | members =>
    let lines ← emitParameters db dialect members
    return keyword :: (lines ++ [("END_VAR" : Text)])

def emitInterface (parameters : List Parameter) : Emitted (List Text) := do
  let inputs ← emitSection db dialect parameters .input "VAR_INPUT"
  let outputs ← emitSection db dialect parameters .output "VAR_OUTPUT"
  let inouts ← emitSection db dialect parameters .inout "VAR_IN_OUT"
  let others ← emitSection db dialect parameters .unknown "VAR"
  return inputs ++ outputs ++ inouts ++ others

def emitVariables : List Variable → Emitted (List Text)
  | [] => return []
  | item :: rest => do
    let type ← emitDataType db item.dataType item.dimensions
    let rest ← emitVariables rest
    return emitDeclaration item.name type :: rest

/-! ## Routines and units -/

def emitIecStRoutine (routine : Routine) : Emission :=
  let lines := emitStatements db dialect 0 routine.statements
  { text := joinText "\n" lines.value ++ (if lines.value.isEmpty then [] else ("\n" : Text))
    diagnostics := routine.diagnostics ++ findingDiagnostics lines.items
    requirements := sortedRequirements lines.items }

def executableRoutines (unit : ReusableUnit) : List Routine :=
  unit.routines.filter (fun routine => !routine.role.isLifecycle)

/-- The bodies of the routines, named and separated when there are several. -/
def emitRoutines (several : Bool) : List Routine → Emitted (List Text)
  | [] => return []
  | routine :: rest => do
    let lines ← emitStatements db dialect 0 routine.statements
    let others ← emitRoutines several rest
    return (if several then [("(* Routine: " : Text) ++ routine.name ++ (" *)" : Text)] else []) ++
      lines ++ (if rest.isEmpty then [] else [([] : Text)]) ++ others

def emitUnitBody (unit : ReusableUnit) : Emitted (List Text) := do
  let interface_ ← emitInterface db dialect unit.parameters
  let variables_ ← emitVariables db unit.instanceVariables
  let declarations := if unit.instanceVariables.isEmpty then []
    else [("VAR" : Text)] ++ variables_ ++ [("END_VAR" : Text)]
  let routines := executableRoutines unit
  let bodies ← emitRoutines db dialect (1 < routines.length) routines
  return interface_ ++ declarations ++ bodies

/-- Emit a conservative IEC function block preserving the IR interface. -/
def emitIecStUnit (unit : ReusableUnit) : Emission :=
  let body := emitUnitBody db dialect unit
  let lines := [("FUNCTION_BLOCK " : Text) ++ unit.name] ++ body.value ++
    [("END_FUNCTION_BLOCK" : Text)]
  { text := joinText "\n" lines ++ ("\n" : Text)
    diagnostics := unit.diagnostics ++
      (if unit.kind ≠ .functionBlock then
        [⟨"implementation_shape_adjusted",
          ("neutral IEC text uses FUNCTION_BLOCK to preserve the " : Text) ++
            ("captured multi-direction interface" : Text), noSpan⟩] else []) ++
      (if 1 < (executableRoutines unit).length then
        [⟨"multiple_routines_require_lifecycle_mapping",
          ("multiple source routines require explicit execution-role " : Text) ++
            ("and lifecycle mapping before target emission" : Text), noSpan⟩] else []) ++
      unit.routines.flatMap (·.diagnostics) ++ findingDiagnostics body.items
    requirements := sortedRequirements body.items }

end

end TwinForge.IecSt
