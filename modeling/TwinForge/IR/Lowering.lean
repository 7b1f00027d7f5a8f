import TwinForge.Foundation.Traces
import TwinForge.IR.Model
import TwinForge.IR.Semantics
import TwinForge.Model.Controller

/-! # Lowering resolved Structured Text to the IR

Diagnostics are reported in the order of the descent. Reading an argument that a
controller-object call does not have raises an error, shown as none.
-/

namespace TwinForge.IR

open StructuredText (SourceSpan CallArgument)
open Model (AddOnInstruction AddOnInstructionParameter)

abbrev Lowered (Value : Type) := Reported Diagnostic Value

section

variable (db : CharacterDatabase) (semantics : Semantics)

def unsupportedExpression (span : SourceSpan) (reason : Text) : Lowered Expression := do
  Reported.report ⟨"unsupported_expression", reason, span⟩
  return .unsupported span (semantics.dataType span) (semantics.sourceAt span) reason

def unsupportedStatement (span : SourceSpan) (reason : Text) : Lowered Statement := do
  Reported.report ⟨"unsupported_statement", reason, span⟩
  return .unsupported span (semantics.sourceAt span) reason

mutual

def lowerExpression : StructuredText.Expression → Lowered Expression
  | .name span name =>
    if semantics.resolvedReference span then
      return .reference span (semantics.dataType span) name
    else unsupportedExpression semantics span
      (("unresolved reference " : Text) ++ db.reprText name)
  | .literal span value => return .literal span (semantics.dataType span) value
  | .unary span operator operand => do
    let operand ← lowerExpression operand
    return .unary span (semantics.dataType span) (db.upperText operator) operand
  | .binary span left operator right => do
    let left ← lowerExpression left
    let right ← lowerExpression right
    return .binary span (semantics.dataType span) left (db.upperText operator) right
  | .member span target member => do
    if semantics.resolvedAccess span then
      let target ← lowerExpression target
      return .member span (semantics.dataType span) target member
    else unsupportedExpression semantics span "member access is not semantically resolved"
  | .index span target indices operator => do
    if semantics.resolvedAccess span then
      let target ← lowerExpression target
      let indices ← lowerExpressions indices
      return .index span (semantics.dataType span) target indices operator
    else unsupportedExpression semantics span "index access is not semantically resolved"
  | .parenthesized _ expression => lowerExpression expression
  | .call span _ arguments =>
    match semantics.call span with
    | some call =>
      if call.kind = .unknown then
        unsupportedExpression semantics span "call has no resolved neutral operation"
      else do
        let values ← lowerArguments arguments
        return .call span (semantics.dataType span) call.neutralName values call.vendor.isSome
          call.vendor
    | none => unsupportedExpression semantics span "call has no resolved neutral operation"
  | .missing span => unsupportedExpression semantics span "missing source expression"
  | .directAddress span _ =>
    unsupportedExpression semantics span "unsupported expression node DirectAddressExpression"

def lowerExpressions : List StructuredText.Expression → Lowered (List Expression)
  | [] => return []
  | expression :: rest => do
    let expression ← lowerExpression expression
    let rest ← lowerExpressions rest
    return expression :: rest

/-- The values of a call, without the positions left empty. -/
def lowerArguments :
    List (CallArgument StructuredText.Expression) → Lowered (List Expression)
  | [] => return []
  | ⟨_, .missing _, _, _⟩ :: rest => lowerArguments rest
  | ⟨_, value, _, _⟩ :: rest => do
    let value ← lowerExpression value
    let rest ← lowerArguments rest
    return value :: rest

end

def argumentValues (arguments : List (CallArgument StructuredText.Expression)) :
    List StructuredText.Expression :=
  arguments.map (fun argument => argument.value)

/-- Recognize the documented GSV WallClockTime CurrentValue service. -/
def isWallClockRead (arguments : List (CallArgument StructuredText.Expression)) : Bool :=
  match argumentValues arguments with
  | [.name _ objectClass, _, .name _ objectAttribute, _] =>
    db.casefoldText objectClass == ("wallclocktime" : Text) &&
      db.casefoldText objectAttribute == ("currentvalue" : Text)
  | _ => false

/-- Classify known source services without discarding their raw names. -/
def controllerObjectIntent (vendor : Option Text) (objectClass objectAttribute : Text)
    (write : Bool) : ControllerObjectIntent :=
  let name := db.casefoldText objectAttribute
  if db.casefoldText (vendor.getD []) ≠ "rockwell automation" ∨
      db.casefoldText objectClass ≠ "module" then .sourceSpecific
  else if write then if name = "mode" then .setInhibited else .sourceSpecific
  else if name = "instance" then .instanceIdentity
  else if name = "entrystatus" then .connectionStatus
  else if name = "faultcode" then .faultCode
  else if name = "faultinfo" then .faultInformation
  else if name = "mode" then .operatingMode
  else .sourceSpecific

/-- The stripped source of an argument; none past the last one. -/
def argumentSource (arguments : List (CallArgument StructuredText.Expression)) (index : Nat) :
    Option Text :=
  arguments[index]?.map (fun argument => db.strip (semantics.sourceAt argument.value.span))

/-- Calls that lower to statements of their own: none where the source raises,
`some none` for every other call. -/
def instructionStatement (span : SourceSpan)
    (arguments : List (CallArgument StructuredText.Expression)) :
    Option (Option (Lowered Statement)) :=
  match semantics.call span with
  | none => some none
  | some call =>
    match call.kind with
    | .controllerObjectRead =>
      if isWallClockRead db arguments then do
        let argument ← arguments[3]?
        return some do
          let destination ← lowerExpression db semantics argument.value
          return .wallClockRead span destination "microseconds"
      else do
        let objectClass ← argumentSource db semantics arguments 0
        let objectAttribute ← argumentSource db semantics arguments 2
        let objectInstance ← argumentSource db semantics arguments 1
        let argument ← arguments[3]?
        return some do
          let destination ← lowerExpression db semantics argument.value
          return .controllerObjectRead span objectClass objectInstance objectAttribute
            destination
            (controllerObjectIntent db call.vendor objectClass objectAttribute false)
            call.vendor
    | .controllerObjectWrite => do
      let objectClass ← argumentSource db semantics arguments 0
      let objectAttribute ← argumentSource db semantics arguments 2
      let objectInstance ← argumentSource db semantics arguments 1
      let argument ← arguments[3]?
      return some do
        let value ← lowerExpression db semantics argument.value
        return .controllerObjectWrite span objectClass objectInstance objectAttribute value
          (controllerObjectIntent db call.vendor objectClass objectAttribute true) call.vendor
    | .arrayDimensionQuery =>
      match argumentValues arguments with
      | [array, dimension, destination] =>
        some (some do
          let target ← lowerExpression db semantics destination
          let array ← lowerExpression db semantics array
          let dimension ← lowerExpression db semantics dimension
          return .assignment span target
            (.arrayDimension span (some ("DINT" : Text)) array dimension))
      | _ => some (some (unsupportedStatement semantics span
          "array dimension query requires array, dimension, destination"))
    | _ => some none

def lowerCallStatement (span callSpan : SourceSpan) (callee : StructuredText.Expression)
    (arguments : List (CallArgument StructuredText.Expression)) : Option (Lowered Statement) := do
  match ← instructionStatement db semantics callSpan arguments with
  | some special => return special
  | none =>
    return do
      match ← lowerExpression db semantics (.call callSpan callee arguments) with
      | .call s d operation values adapterRequired vendor =>
        return .callStatement span (.call s d operation values adapterRequired vendor)
      | _ => unsupportedStatement semantics span "expression statement did not lower to a call"

/-- One more result behind the results so far. -/
def lowerCons {A : Type} (first : Option (Lowered A)) (rest : Option (Lowered (List A))) :
    Option (Lowered (List A)) := do
  let first ← first
  let rest ← rest
  return do
    let value ← first
    let values ← rest
    return value :: values

mutual

def lowerStatement : StructuredText.Statement → Option (Lowered Statement)
  | .assignment span target _ value => some do
      let target ← lowerExpression db semantics target
      let value ← lowerExpression db semantics value
      return .assignment span target value
  | .expression span (.call callSpan callee arguments) =>
    lowerCallStatement db semantics span callSpan callee arguments
  | .expression span _ =>
    some (unsupportedStatement semantics span "expression statement did not lower to a call")
  | .ifThen span branches elseStatements => do
    let branches ← lowerBranches branches
    let elseStatements ← lowerStatements elseStatements
    return do
      let branches ← branches
      let elseStatements ← elseStatements
      return .ifThen span branches elseStatements
  | .whileDo span condition statements => do
    let statements ← lowerStatements statements
    return do
      let condition ← lowerExpression db semantics condition
      let statements ← statements
      return .whileDo span condition statements
  | .exit span => some (return .exit span)
  | .unsupported span _ =>
    some (unsupportedStatement semantics span "source parser retained an unsupported statement")
  | .label span _ =>
    some (unsupportedStatement semantics span "unsupported statement node LabelStatement")
  | .jump span _ =>
    some (unsupportedStatement semantics span "unsupported statement node JumpStatement")

def lowerStatements : List StructuredText.Statement → Option (Lowered (List Statement))
  | [] => some (return [])
  | statement :: rest => lowerCons (lowerStatement statement) (lowerStatements rest)

def lowerBranches : List (StructuredText.IfBranch StructuredText.Statement) →
    Option (Lowered (List (IfBranch Statement)))
  | [] => some (return [])
  | ⟨span, condition, statements⟩ :: rest =>
    lowerCons (do
      let statements ← lowerStatements statements
      return do
        let condition ← lowerExpression db semantics condition
        let statements ← statements
        return ⟨span, condition, statements⟩) (lowerBranches rest)

end

/-- Lower one resolved ST document without target-specific decisions. -/
def lowerStructuredText (routineName : Text := []) (role : RoutineRole := .unknown) :
    Option Routine := do
  let lowered ← lowerStatements db semantics semantics.document.statements
  return { name := routineName, statements := lowered.value
           diagnostics := semantics.diagnostics.map (fun item =>
             ⟨item.code, item.message, item.span⟩) ++ lowered.items
           role }

end

end TwinForge.IR
