import TwinForge.Foundation.Text

/-! # Calls made by controller programs -/

namespace TwinForge.Model

/-- Source representation in which a call was observed. -/
inductive SoftwareCallLanguage where
  | ladder | structuredText
deriving DecidableEq, Repr

/-- One losslessly captured call operand. -/
structure SoftwareCallArgument where
  position : Nat
  source : Text
  name : Option Text := none
  direction : Option Text := none
deriving DecidableEq, Repr

/-- A candidate software invocation and its exact source evidence. -/
structure SoftwareCallSite where
  callee : Text
  arguments : List SoftwareCallArgument
  programName : Text
  routineName : Text
  language : SoftwareCallLanguage
  sourceText : Text
  sourcePath : Option Text := none
  rungNumber : Option Nat := none
  lineNumber : Option Nat := none
deriving DecidableEq, Repr

end TwinForge.Model
