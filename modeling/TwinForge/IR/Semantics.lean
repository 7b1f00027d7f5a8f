import TwinForge.StructuredText.Syntax

/-! # Semantic answers about a parsed document

What the lowering reads of a semantic analysis: tables keyed by source ranges, of
which the last entry for a range counts.
-/

namespace TwinForge.IR

open StructuredText

/-- Outcome of resolving a name against the supplied scope. -/
inductive ReferenceStatus where
  | resolved
  | unresolved
deriving DecidableEq, Repr

/-- Validation outcome for a member or index access. -/
inductive AccessStatus where
  | resolved
  | unverified
  | invalid
deriving DecidableEq, Repr

inductive TypeStatus where
  | known
  | unknown
  | invalid
deriving DecidableEq, Repr

/-- Portable semantic classification of a call expression. -/
inductive CallKind where
  | arrayDimensionQuery
  | absoluteValue
  | byteSwap
  | controllerObjectRead
  | controllerObjectWrite
  | explicitMessage
  | memoryCopy
  | retentiveTimer
  | typeConversion
  | userDefinedInstruction
  | routine
  | functionBlockInstance
  | unknown
deriving DecidableEq, Repr

structure SymbolReference where
  span : SourceSpan
  status : ReferenceStatus
deriving DecidableEq, Repr

structure SemanticAccess where
  span : SourceSpan
  status : AccessStatus
deriving DecidableEq, Repr

structure ExpressionType where
  span : SourceSpan
  status : TypeStatus
  dataType : Option Text
deriving DecidableEq, Repr

structure SemanticCall where
  neutralName : Text
  kind : CallKind
  span : SourceSpan
  vendor : Option Text := none
deriving DecidableEq, Repr

structure SemanticDiagnostic where
  code : Text
  message : Text
  span : SourceSpan
deriving DecidableEq, Repr

/-- Resolved document: the parsed document and the answers about its nodes. -/
structure Semantics where
  document : StructuredTextDocument
  references : List SymbolReference := []
  accesses : List SemanticAccess := []
  expressionTypes : List ExpressionType := []
  calls : List SemanticCall := []
  diagnostics : List SemanticDiagnostic := []

namespace Semantics

variable (semantics : Semantics)

def reference (span : SourceSpan) : Option SymbolReference :=
  semantics.references.reverse.find? (fun item => item.span = span)

def access (span : SourceSpan) : Option SemanticAccess :=
  semantics.accesses.reverse.find? (fun item => item.span = span)

def expressionType (span : SourceSpan) : Option ExpressionType :=
  semantics.expressionTypes.reverse.find? (fun item => item.span = span)

def call (span : SourceSpan) : Option SemanticCall :=
  semantics.calls.reverse.find? (fun item => item.span = span)

/-- `source[start:end]`. -/
def sourceAt (span : SourceSpan) : Text :=
  (semantics.document.source.drop span.start).take (span.stop - span.start)

def resolvedReference (span : SourceSpan) : Bool :=
  (semantics.reference span).any (fun item => item.status == .resolved)

def resolvedAccess (span : SourceSpan) : Bool :=
  (semantics.access span).any (fun item => item.status == .resolved)

/-- The data type of an expression, where it is known. -/
def dataType (span : SourceSpan) : Option Text :=
  match semantics.expressionType span with
  | some item => if item.status = .known then item.dataType else none
  | none => none

end Semantics

end TwinForge.IR
