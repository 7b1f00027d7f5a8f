import TwinForge.StructuredText.Syntax

/-! # Executable intermediate representation

Typed, vendor-neutral expressions, statements and reusable units. The default
values of parameters and the dimensions of source tags are not modelled.
-/

namespace TwinForge.IR

open StructuredText (SourceSpan)

inductive UnitKind where
  | function
  | functionBlock
deriving DecidableEq, Repr

inductive Direction where
  | input
  | output
  | inout
  | unknown
deriving DecidableEq, Repr

inductive RoutineRole where
  | primary
  | auxiliary
  | prescan
  | postscan
  | enableInFalse
  | unknownLifecycle
  | unknown
deriving DecidableEq, Repr

/-- Vendor-neutral meaning of a controller-managed object operation. -/
inductive ControllerObjectIntent where
  | instanceIdentity
  | connectionStatus
  | faultCode
  | faultInformation
  | operatingMode
  | setInhibited
  | sourceSpecific
deriving DecidableEq, Repr

/-- Captured reusable-unit lifecycle activation evidence. -/
structure Lifecycle where
  prescanEnabled : Option Bool := none
  postscanEnabled : Option Bool := none
  enableInFalseEnabled : Option Bool := none
deriving DecidableEq, Repr

inductive Expression where
  | unsupported (span : SourceSpan) (dataType : Option Text) (source reason : Text)
  | reference (span : SourceSpan) (dataType : Option Text) (name : Text)
  | literal (span : SourceSpan) (dataType : Option Text) (lexicalValue : Text)
  | unary (span : SourceSpan) (dataType : Option Text) (operator : Text) (operand : Expression)
  | binary (span : SourceSpan) (dataType : Option Text) (left : Expression) (operator : Text)
      (right : Expression)
  | member (span : SourceSpan) (dataType : Option Text) (target : Expression) (member : Text)
  | index (span : SourceSpan) (dataType : Option Text) (target : Expression)
      (indices : List Expression) (sourceOperator : Text)
  | call (span : SourceSpan) (dataType : Option Text) (operation : Text)
      (arguments : List Expression) (adapterRequired : Bool) (sourceVendor : Option Text)
  | arrayDimension (span : SourceSpan) (dataType : Option Text) (array dimension : Expression)
deriving Repr

structure IfBranch (S : Type) where
  span : SourceSpan
  condition : Expression
  statements : List S
deriving Repr

inductive Statement where
  | assignment (span : SourceSpan) (target value : Expression)
  | callStatement (span : SourceSpan) (call : Expression)
  | wallClockRead (span : SourceSpan) (destination : Expression) (timestampUnit : Text)
  | controllerObjectRead (span : SourceSpan) (objectClass objectInstance objectAttribute : Text)
      (destination : Expression) (intent : ControllerObjectIntent) (sourceVendor : Option Text)
  | controllerObjectWrite (span : SourceSpan) (objectClass objectInstance objectAttribute : Text)
      (value : Expression) (intent : ControllerObjectIntent) (sourceVendor : Option Text)
  | ifThen (span : SourceSpan) (branches : List (IfBranch Statement))
      (elseStatements : List Statement)
  | whileDo (span : SourceSpan) (condition : Expression) (statements : List Statement)
  | exit (span : SourceSpan)
  | unsupported (span : SourceSpan) (source reason : Text)
deriving Repr

structure Diagnostic where
  code : Text
  message : Text
  span : SourceSpan
deriving DecidableEq, Repr

/-- Reusable-unit parameter with its captured interface evidence. -/
structure Parameter where
  name : Text
  direction : Direction
  dataType : Option Text := none
  dimensions : Option Text := none
  genericDimensions : Bool := false
  systemDefined : Bool := false
deriving DecidableEq, Repr

structure Variable where
  name : Text
  dataType : Option Text := none
  dimensions : Option Text := none
deriving DecidableEq, Repr

structure Routine where
  name : Text
  statements : List Statement
  diagnostics : List Diagnostic := []
  role : RoutineRole := .unknown

/-- Vendor-neutral executable form of a reusable instruction. -/
structure ReusableUnit where
  name : Text
  kind : UnitKind
  parameters : List Parameter
  instanceVariables : List Variable
  routines : List Routine
  lifecycle : Lifecycle := {}
  diagnostics : List Diagnostic := []

namespace Expression

/-- Induction over expression trees, with indices and arguments as direct subtrees. -/
@[elab_as_elim, induction_eliminator]
theorem treeInduction {P : Expression → Prop} (unsupported : ∀ s d t r, P (.unsupported s d t r))
    (reference : ∀ s d n, P (.reference s d n)) (literal : ∀ s d v, P (.literal s d v))
    (unary : ∀ s d o e, P e → P (.unary s d o e))
    (binary : ∀ s d l o r, P l → P r → P (.binary s d l o r))
    (member : ∀ s d t m, P t → P (.member s d t m))
    (index : ∀ s d t is o, P t → (∀ i ∈ is, P i) → P (.index s d t is o))
    (call : ∀ s d o as r v, (∀ a ∈ as, P a) → P (.call s d o as r v))
    (arrayDimension : ∀ s d a i, P a → P i → P (.arrayDimension s d a i))
    (e : Expression) : P e := by
  refine @Expression.rec P (fun es => ∀ e ∈ es, P e)
    unsupported reference literal unary binary member index call arrayDimension
    (by simp) ?_ e
  intro head tail hhead htail e he
  rcases List.mem_cons.mp he with rfl | he
  · exact hhead
  · exact htail e he

mutual

def references : Expression → List Text
  | .unsupported .. => []
  | .reference _ _ n => [n]
  | .literal .. => []
  | .unary _ _ _ e => references e
  | .binary _ _ l _ r => references l ++ references r
  | .member _ _ t _ => references t
  | .index _ _ t is _ => references t ++ listReferences is
  | .call _ _ _ as _ _ => listReferences as
  | .arrayDimension _ _ a i => references a ++ references i

def listReferences : List Expression → List Text
  | [] => []
  | e :: es => references e ++ listReferences es

end

end Expression

namespace Statement

def span : Statement → SourceSpan
  | .assignment s _ _ => s
  | .callStatement s _ => s
  | .wallClockRead s _ _ => s
  | .controllerObjectRead s .. => s
  | .controllerObjectWrite s .. => s
  | .ifThen s _ _ => s
  | .whileDo s _ _ => s
  | .exit s => s
  | .unsupported s _ _ => s

mutual

def references : Statement → List Text
  | .assignment _ t v => t.references ++ v.references
  | .callStatement _ c => c.references
  | .wallClockRead _ d _ => d.references
  | .controllerObjectRead _ _ _ _ d _ _ => d.references
  | .controllerObjectWrite _ _ _ _ v _ _ => v.references
  | .ifThen _ bs es => branchReferences bs ++ listReferences es
  | .whileDo _ c ss => c.references ++ listReferences ss
  | .exit _ => []
  | .unsupported .. => []

def listReferences : List Statement → List Text
  | [] => []
  | s :: ss => references s ++ listReferences ss

def branchReferences : List (IfBranch Statement) → List Text
  | [] => []
  | ⟨_, c, ss⟩ :: bs => c.references ++ listReferences ss ++ branchReferences bs

end

end Statement

def ReusableUnit.declaredNames (db : CharacterDatabase) (unit : ReusableUnit) : List Text :=
  unit.parameters.map (fun p => db.casefoldText p.name) ++
    unit.instanceVariables.map (fun v => db.casefoldText v.name)

/-- Every reference of a routine names a parameter or variable of the unit. -/
def ReusableUnit.Resolved (db : CharacterDatabase) (unit : ReusableUnit) : Prop :=
  ∀ routine ∈ unit.routines, ∀ n ∈ Statement.listReferences routine.statements,
    db.casefoldText n ∈ unit.declaredNames db

end TwinForge.IR
