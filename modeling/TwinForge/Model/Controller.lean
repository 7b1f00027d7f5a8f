import TwinForge.Foundation.Text

/-! # The controller model

The parts of a controller that the ladder targets read. Dictionaries keep their
insertion order; a lookup takes the first entry.
-/

namespace TwinForge.Model

structure Tag where
  name : Text
  dataType : Option Text
  /-- The members of the retained decorated data, with their integer values. -/
  decoratedMembers : List (Text × Option Int) := []
  dimensions : Option Text := none
  aliasFor : Option Text := none
  radix : Option Text := none
  description : Option Text := none
  metadata : List (Text × Text) := []
deriving DecidableEq, Repr

/-- Read an integer member from retained decorated tag data. -/
def decoratedMemberInteger (tag : Tag) (member : Text) : Option Int :=
  (tag.decoratedMembers.lookup member).join

structure LadderRung where
  number : Option Nat
  comment : Option Text
  text : Option Text
  /-- Instruction List lines of a rung without rung text. -/
  instructionList : List Text := []
deriving DecidableEq, Repr

structure Routine where
  name : Text
  ladderRungs : List LadderRung
deriving DecidableEq, Repr

structure Program where
  name : Text
  routines : List (Text × Routine)
  tags : List (Text × Tag)
  mainRoutine : Option Routine
deriving DecidableEq, Repr

structure Controller where
  tags : List (Text × Tag)
  programs : List (Text × Program)
deriving DecidableEq, Repr

/-- One externally visible parameter of a reusable instruction. -/
structure AddOnInstructionParameter where
  name : Text
  dataType : Option Text := none
  resolvedDataType : Option Text := none
  usage : Option Text := none
  dimensions : Option Text := none
deriving DecidableEq, Repr

/-- Documented datatype evidence, or the resolved one where that is empty. -/
def AddOnInstructionParameter.effectiveDataType (parameter : AddOnInstructionParameter) :
    Option Text :=
  match parameter.dataType with
  | some (first :: rest) => some (first :: rest)
  | _ => parameter.resolvedDataType

/-- Reusable controller instruction and its implementation routines. -/
structure AddOnInstruction where
  name : Text
  executePrescan : Option Bool := none
  executePostscan : Option Bool := none
  executeEnableInFalse : Option Bool := none
  parameters : List (Text × AddOnInstructionParameter) := []
  routines : List (Text × Routine) := []
  scanModeRoutines : List (Text × Routine) := []
  localTags : List (Text × Tag) := []
deriving DecidableEq, Repr

/-- The rungs of the main routine; none when there is no main routine. -/
def Program.mainRungs (program : Program) : List LadderRung :=
  (program.mainRoutine.map (·.ladderRungs)).getD []

/-- `repr` of an optional rung number. -/
def reprNumber : Option Nat → Text
  | none => "None"
  | some number => decimal number

end TwinForge.Model
