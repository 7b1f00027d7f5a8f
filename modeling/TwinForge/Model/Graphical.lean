import TwinForge.Foundation.Dictionary
import TwinForge.Foundation.Text

/-! # Graphical source evidence

Ordered diagram objects with their pins and explicit wires, and what the analyses write
beside them. A symbol is told from another one by its identity.
-/

namespace TwinForge.Graphical

structure LadderPosition where
  column : Int
  row : Int
deriving DecidableEq, Repr

/-! ## Declarations -/

structure Tag where
  identity : Nat
  name : Text
deriving DecidableEq, Repr

structure AddOnInstructionParameter where
  identity : Nat
  name : Text
deriving DecidableEq, Repr

/-- What an identifier of a diagram may stand for. -/
inductive Symbol where
  | tag (tag : Tag)
  | parameter (parameter : AddOnInstructionParameter)
deriving DecidableEq, Repr

/-- An index/member/bit-select expression whose every step was proven by a type definition. -/
structure MemberPath where
  base : Text
  steps : List Text
  typeName : Option Text
  isArray : Bool := false
deriving DecidableEq, Repr

mutual

inductive ExpressionOperand where
  | literal (text : Text)
  | declaredSymbol (text : Text) (target : Symbol)
  | declaredMemberPath (text : Text) (target : Option Symbol) (path : MemberPath)
  | declaredExpression (text : Text) (expression : BinaryExpression)

/-- A single binary operator between two independently proven operands. -/
inductive BinaryExpression where
  | mk (operator : Text) (left right : ExpressionOperand)

end

/-! ## Diagrams -/

/-- The interface direction of a pin; a pin is built without one. -/
inductive PinDirection where
  | unstated
  | input
  | output
deriving DecidableEq, Repr

inductive BindingKind where
  | unresolved
  | unbound
  | literal
  | invalidOutputLiteral
  | directAddress
  | ambiguousSymbol
  | declaredSymbol
  | missingSymbol
  | declaredProgramReference
  | declaredStepReference
  | ambiguousStepState
  | declaredStepState
  | missingStepState
  | unresolvedExpression
  | declaredMemberPath
  | memberPathOutOfBounds
  | declaredExpression
deriving DecidableEq, Repr

structure GraphicalPin where
  name : Option Text := none
  direction : PinDirection := .unstated
  expression : Option Text := none
  bindingKind : BindingKind := .unresolved
  targetTag : Option Tag := none
  targetParameter : Option AddOnInstructionParameter := none
  memberPath : Option MemberPath := none
  binaryExpression : Option BinaryExpression := none
  targetProgramName : Option Text := none
  targetStepName : Option Text := none

/-- Pins referring to the same declared symbol, as pairs of an object index and a pin index. -/
structure GraphicalVariableReferences where
  symbolName : Text
  inputPins : List (Nat × Nat) := []
  outputPins : List (Nat × Nat) := []
deriving DecidableEq, Repr

inductive LinkStatus where
  | unresolved
  | resolved
  | missingObject
  | ambiguousObject
  | missingPin
  | ambiguousPin
deriving DecidableEq, Repr

structure GraphicalLinkEndpoint where
  status : LinkStatus := .unresolved
  objectIndex : Option Nat := none
deriving DecidableEq, Repr

structure GraphicalLink where
  source : GraphicalLinkEndpoint := {}
  destination : GraphicalLinkEndpoint := {}
deriving DecidableEq, Repr

inductive ObjectKind where
  | block
  | contact
  | coil
  | annotation
deriving DecidableEq, Repr

structure GraphicalObject where
  kind : ObjectKind
  instanceName : Option Text := none
  typeName : Option Text := none
  operand : Option Text := none
  position : Option LadderPosition := none
  pins : List GraphicalPin := []
  executionAfter : Option Text := none
  operandBindingKind : Option BindingKind := none
  targetTag : Option Tag := none
  targetStepName : Option Text := none
  operandMemberPath : Option MemberPath := none
  operandBinaryExpression : Option BinaryExpression := none

inductive Language where
  | ld
  | fbd
deriving DecidableEq, Repr

/-- What an execution order rests on; `sharedVariableDataflow` is no longer given. -/
inductive ExecutionOrderBasis where
  | singleBlockNetwork
  | documentedDependencyOrder
  | dependencyOrderWithExecAfter
  | sharedVariableDataflow
deriving DecidableEq, Repr

structure GraphicalDiagram where
  language : Language
  objects : List GraphicalObject := []
  links : List GraphicalLink := []
  executionOrderResolved : Bool := false
  executionOrder : List Nat := []
  executionOrderBasis : Option ExecutionOrderBasis := none
  sharedVariables : List GraphicalVariableReferences := []

structure Routine where
  name : Text
  graphicalDiagrams : List GraphicalDiagram := []

/-- A program or a reusable instruction: what holds routines. -/
structure Container where
  name : Text
  routines : List Routine := []

/-- Which kind of container an issue is about. -/
inductive IssueScope where
  | program
  | functionBlock
deriving DecidableEq, Repr

/-! ## Controllers -/

/-- What schedules tasks; `ambiguousNames` are case folded. -/
structure Resource where
  tags : List Tag := []
  ambiguousNames : List Text := []

/-- A task with the name of its resource and the names of the programs it schedules. -/
structure Task where
  resource : Option Text := none
  scheduledPrograms : List Text := []

structure Controller where
  tags : List Tag := []
  resources : Dictionary Text Resource := {}
  tasks : List Task := []
  programs : List Container := []
  addOnInstructions : List Container := []

end TwinForge.Graphical
