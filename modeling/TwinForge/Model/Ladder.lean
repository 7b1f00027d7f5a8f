import TwinForge.Foundation.Text

/-! # Ladder networks

A network is a series of instructions and parallel sections, retained recursively.
Comparisons and assignments carry a typed expression tree.
-/

namespace TwinForge.Model

/-! ## Typed expressions -/

inductive DataType where
  | INT | DINT | REAL | BOOL
  | untyped (name : Text)
deriving DecidableEq, Repr

inductive Operator where
  | add | sub | mul | div
  | eq | ne | lt | gt | le | ge
  | assign
deriving DecidableEq, Repr

inductive ShiftFunction where
  | SHL | SHR | ROL | ROR
deriving DecidableEq, Repr

def DataType.spelling : DataType → Text
  | .INT => "INT"
  | .DINT => "DINT"
  | .REAL => "REAL"
  | .BOOL => "BOOL"
  | .untyped name => name

def Operator.spelling : Operator → Text
  | .add => "+"
  | .sub => "-"
  | .mul => "*"
  | .div => "/"
  | .eq => "="
  | .ne => "<>"
  | .lt => "<"
  | .gt => ">"
  | .le => "<="
  | .ge => ">="
  | .assign => ":="

def ShiftFunction.spelling : ShiftFunction → Text
  | .SHL => "SHL"
  | .SHR => "SHR"
  | .ROL => "ROL"
  | .ROR => "ROR"

/-- One node of a typed scalar expression tree. The nodes that are computed carry their
identity, by which later passes know them. -/
inductive Expression where
  | literal (dataType : DataType) (text : Text)
  | variable_ (dataType : DataType) (text : Text)
  | binary (identity : Nat) (dataType : DataType) (operator : Operator) (left right : Expression)
  | call (identity : Nat) (dataType : DataType) (operator : ShiftFunction) (left right : Expression)
deriving DecidableEq, Repr

namespace Expression

def dataType : Expression → DataType
  | literal dataType _ => dataType
  | variable_ dataType _ => dataType
  | binary _ dataType _ _ _ => dataType
  | call _ dataType _ _ _ => dataType

/-- The lexical value or the name of a leaf; nothing for the other nodes. -/
def text : Expression → Text
  | literal _ text => text
  | variable_ _ text => text
  | _ => []

def operatorSpelling? : Expression → Option Text
  | binary _ _ operator _ _ => some operator.spelling
  | call _ _ operator _ _ => some operator.spelling
  | _ => none

def identity? : Expression → Option Nat
  | binary identity _ _ _ _ => some identity
  | call identity _ _ _ _ => some identity
  | _ => none

/-- This node and every node below it, depth first, left to right. -/
def iterNodes : Expression → List Expression
  | node@(binary _ _ _ left right) => node :: (left.iterNodes ++ right.iterNodes)
  | node@(call _ _ _ left right) => node :: (left.iterNodes ++ right.iterNodes)
  | node => [node]

end Expression

/-! ## Instructions -/

/-- Portable meaning assigned only when source evidence is sufficient. -/
inductive LadderOperation where
  | NORMALLY_OPEN_CONTACT | NORMALLY_CLOSED_CONTACT
  | COIL | SET_COIL | RESET_COIL
  | POSITIVE_TRANSITION_CONTACT | NEGATIVE_TRANSITION_CONTACT
  | NEGATED_COIL
  | BLOCK_OUTPUT_REFERENCE
  | FUNCTION_BLOCK_INPUT
  | COMPARISON
  | ASSIGNMENT
  | UNSUPPORTED
deriving DecidableEq, Repr

def LadderOperation.value : LadderOperation → Text
  | .NORMALLY_OPEN_CONTACT => "normally_open_contact"
  | .NORMALLY_CLOSED_CONTACT => "normally_closed_contact"
  | .COIL => "coil"
  | .SET_COIL => "set_coil"
  | .RESET_COIL => "reset_coil"
  | .POSITIVE_TRANSITION_CONTACT => "positive_transition_contact"
  | .NEGATIVE_TRANSITION_CONTACT => "negative_transition_contact"
  | .NEGATED_COIL => "negated_coil"
  | .BLOCK_OUTPUT_REFERENCE => "block_output_reference"
  | .FUNCTION_BLOCK_INPUT => "function_block_input"
  | .COMPARISON => "comparison"
  | .ASSIGNMENT => "assignment"
  | .UNSUPPORTED => "unsupported"

def LadderOperation.isExpression (operation : LadderOperation) : Bool :=
  operation ∈ [LadderOperation.COMPARISON, .ASSIGNMENT]

/-- One source instruction; only a comparison or an assignment has an expression. -/
structure LadderInstruction where
  operation : LadderOperation
  sourceMnemonic : Text
  operand : Option Text := none
  expression : Option Expression := none
  typed : expression.isSome = true → operation.isExpression = true := by simp
deriving DecidableEq, Repr

/-- An element of a series: an instruction, or alternative ladder paths. -/
inductive LadderNode where
  | instruction (instruction : LadderInstruction)
  | parallel (branches : List (List LadderNode))

abbrev LadderSeries := List LadderNode

mutual

/-- The instructions of a network, in the order they are drawn. -/
def instructions : LadderSeries → List LadderInstruction
  | [] => []
  | node :: rest => nodeInstructions node ++ instructions rest

def nodeInstructions : LadderNode → List LadderInstruction
  | .instruction instruction => [instruction]
  | .parallel branches => branchInstructions branches

def branchInstructions : List LadderSeries → List LadderInstruction
  | [] => []
  | branch :: rest => instructions branch ++ branchInstructions rest

end

end TwinForge.Model
