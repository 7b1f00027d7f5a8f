import TwinForge.Foundation.Integers
import TwinForge.Foundation.Lines
import TwinForge.IR.Semantics
import TwinForge.StructuredText.StatementExpressions

/-! # Semantic analysis of Structured Text

The value of each expression and the answers recorded for it, in the order in which the descent
appends them.
-/

namespace TwinForge.IR

open StructuredText (SourceSpan CallArgument StructuredTextDocument)

/-- One declaration made visible to semantic analysis. -/
structure SemanticSymbol where
  name : Text
  dataType : Option Text := none
  dimensions : Option Text := none

/-- Captured member declaration used for path validation. -/
structure SemanticTypeMember where
  name : Text
  dataType : Option Text := none
  dimensions : Option Text := none

structure SemanticType where
  name : Text
  members : List SemanticTypeMember
  complete : Bool := true

/-- Declarative meaning for a source-language call name; of its parameters, the names. -/
structure CallRule where
  sourceName : Text
  kind : CallKind
  neutralName : Text
  vendor : Option Text := none
  opaqueArgumentIndices : List Nat := []
  resultType : Option Text := none
  resultFromArgument : Option Nat := none
  instanceDataType : Option Text := none
  parameters : List Text := []

structure SemanticContext where
  symbols : List SemanticSymbol := []
  types : List SemanticType := []
  callRules : List CallRule := []

structure TypeValue where
  dataType : Option Text := none
  dimensions : Option Text := none
  status : TypeStatus := .unknown

def TypeValue.known (dataType : Text) : TypeValue := { dataType := some dataType, status := .known }

def TypeValue.declared (dataType dimensions : Option Text) : TypeValue :=
  { dataType, dimensions, status := if dataType.isSome then .known else .unknown }

/-- An answer of the analysis, as the lowering reads it. -/
inductive Answer where
  | reference (item : SymbolReference)
  | access (item : SemanticAccess)
  | call (item : SemanticCall)
  | expressionType (item : ExpressionType)

abbrev Entry := StructuredText.Expression × Answer

section

variable (db : CharacterDatabase)

def integerTypes : List Text :=
  ["SINT", "USINT", "INT", "UINT", "DINT", "UDINT", "LINT", "ULINT"]

def isIntegerType (dataType : Option Text) : Bool :=
  integerTypes.contains (db.upperText (dataType.getD []))

/-- Some item is a positive number. Digits that `int` does not read raise an error in the source;
here they are no number. -/
def isArrayDimension (value : Text) : Bool :=
  (Lines.pieces (· == ',') value).any fun item =>
    db.isDigitText (db.strip item) && (readInt db (db.strip item)).any (0 < ·)

/-- The later one in the order of the types. -/
def promoteNumeric (left right : Option Text) : Option Text :=
  let order := integerTypes ++ ([("REAL" : Text), ("LREAL" : Text)])
  let normalized := (left.toList ++ right.toList).map db.upperText
  if normalized.all order.contains then (order.filter normalized.contains).getLast? else none

def binaryType (operator : Text) (left right : TypeValue) : TypeValue :=
  let normalized := db.upperText operator
  if normalized ∈ (["=", "<>", "<", "<=", ">", ">="] : List Text) then .known "BOOL"
  else if normalized ∈ (["AND", "OR", "XOR", "&", "|", "^"] : List Text) then
    if left.dataType = right.dataType then left else {}
  else ((promoteNumeric db left.dataType right.dataType).map .known).getD {}

def expressionName : StructuredText.Expression → Text
  | .name _ name => name
  | .member _ target member => expressionName target ++ '.' :: member
  | .index _ target _ operator => expressionName target ++ operator
  | _ => "<expression>"

/-- The entry for a name in a dictionary with case-folded keys; the last one counts. -/
def declaration? {Item : Type} (name : Item → Text) (items : List Item) (sought : Text) :
    Option Item :=
  items.reverse.find? fun item => db.casefoldText (name item) = db.casefoldText sought

variable ( isIdentifier : Text → Bool) (context : SemanticContext)

/-- The type of a literal; `isIdentifier` is `str.isidentifier`. -/
def literalType (value : Text) : TypeValue :=
  let typeName := db.upperText (value.takeWhile (· != '#'))
  if db.upperText value ∈ (["TRUE", "FALSE"] : List Text) then .known "BOOL"
  else if value.head? = some '\'' ∨ value.head? = some '"' then .known "STRING"
  else if value.contains '#' ∧ isIdentifier typeName = true then .known typeName
  else if value.any fun c => c == '.' || c == 'e' || c == 'E' then .known "REAL"
  else .known "DINT"

def symbol? (name : Text) : Option SemanticSymbol :=
  declaration? db SemanticSymbol.name context.symbols name

def memberAccess (target : TypeValue) (member : Text) : AccessStatus × TypeValue :=
  if db.isDigitText member ∧ isIntegerType db target.dataType = true then (.resolved, .known "BOOL")
  else match target.dataType.bind (declaration? db SemanticType.name context.types) with
    | none => (.unverified, {})
    | some definition =>
      match definition.members.find? fun item =>
          db.casefoldText item.name = db.casefoldText member with
      | some item => (.resolved, .declared item.dataType item.dimensions)
      | none =>
        if definition.complete then (.invalid, { status := .invalid }) else (.unverified, {})

def indexAccess (target : TypeValue) (operator : Text) : AccessStatus × TypeValue :=
  if operator = ".[]" ∧ isIntegerType db target.dataType = true then (.resolved, .known "BOOL")
  else match target.status with
    | .invalid => (.invalid, target)
    | .unknown => (.unverified, {})
    | .known =>
      if target.dimensions.any (isArrayDimension db) then
        (.resolved, { dataType := target.dataType, status := target.status })
      else (.invalid, { status := .invalid })

def callRule? (callee : StructuredText.Expression) : Option CallRule :=
  declaration? db CallRule.sourceName context.callRules (expressionName callee)

def boundCount (rule : Option CallRule) (count : Nat) : Nat :=
  match rule with
  | none => 0
  | some rule => min count (rule.instanceDataType.toList.length + rule.parameters.length)

/-- An argument that is not analysed unless it is bound. -/
def isOpaque (rule : Option CallRule) (index : Nat) : Bool :=
  rule.any fun rule => rule.opaqueArgumentIndices.contains index

def callType (rule : Option CallRule) (arguments : List TypeValue) : TypeValue :=
  match rule with
  | none => {}
  | some known =>
    match known.resultType, known.resultFromArgument with
    | some dataType, _ => .known dataType
    | none, some index =>
      if boundCount rule arguments.length ≤ index ∧ isOpaque rule index = false then
        arguments[index]?.getD {}
      else {}
    | none, none => {}

mutual

def typeOf : StructuredText.Expression → TypeValue
  | .name _ name => ((symbol? db context name).map fun symbol =>
      .declared symbol.dataType symbol.dimensions).getD {}
  | .literal _ value => literalType db isIdentifier value
  | .unary _ _ operand => typeOf operand
  | .binary _ left operator right => binaryType db operator (typeOf left) (typeOf right)
  | .member _ target member => (memberAccess db context (typeOf target) member).2
  | .index _ target _ operator => (indexAccess db (typeOf target) operator).2
  | .parenthesized _ expression => typeOf expression
  | .call _ callee arguments => callType (callRule? db context callee) (argumentTypes arguments)
  | .missing _ => {}
  | .directAddress _ _ => {}

def argumentTypes : List (CallArgument StructuredText.Expression) → List TypeValue
  | [] => []
  | ⟨_, value, _, _⟩ :: rest => typeOf value :: argumentTypes rest

end

def callAnswer (span : SourceSpan) (callee : StructuredText.Expression) : SemanticCall :=
  match callRule? db context callee with
  | some rule => { neutralName := rule.neutralName, kind := rule.kind, span, vendor := rule.vendor }
  | none =>
    let name := expressionName callee
    match callee with
    | .name _ _ =>
      let kind := if (symbol? db context name).isSome then .functionBlockInstance else .unknown
      { neutralName := name, kind, span }
    | _ => { neutralName := name, kind := .unknown, span }

/-- The result recorded for a name, a member, an index or a call. -/
def resultOf : StructuredText.Expression → Option Answer
  | .name span name => some (.reference
      ⟨span, if (symbol? db context name).isSome then .resolved else .unresolved⟩)
  | .member span target member => some (.access
      ⟨span, (memberAccess db context (typeOf db isIdentifier context target) member).1⟩)
  | .index span target _ operator => some (.access
      ⟨span, (indexAccess db (typeOf db isIdentifier context target) operator).1⟩)
  | .call span callee _ => some (.call (callAnswer db context span callee))
  | _ => none

def typeAnswer (e : StructuredText.Expression) : Answer :=
  let value := typeOf db isIdentifier context e
  .expressionType ⟨e.span, value.status, value.dataType⟩

def recorded (e : StructuredText.Expression) : List Entry :=
  (resultOf db isIdentifier context e).toList.map fun answer => (e, answer)

mutual

/-- What the analysis of an expression appends. -/
def answersOf (e : StructuredText.Expression) : List Entry :=
  (match e with
  | .name _ _ => recorded db isIdentifier context e
  | .unary _ _ operand => answersOf operand
  | .binary _ left _ right => answersOf left ++ answersOf right
  | .member _ target _ => answersOf target ++ recorded db isIdentifier context e
  | .index _ target indices _ =>
    answersOf target ++ recorded db isIdentifier context e ++ answersOfAll indices
  | .parenthesized _ inner => answersOf inner
  | .call _ callee arguments =>
    let rule := callRule? db context callee
    let answers := answersOfArguments arguments
    let bound := boundCount rule answers.length
    (answers.take bound).flatten ++ recorded db isIdentifier context e ++
      (if callee matches .name _ _ then [] else answersOf callee) ++
      ((answers.zipIdx.drop bound).filter fun item => !isOpaque rule item.2).flatMap Prod.fst
  | _ => []) ++ [(e, typeAnswer db isIdentifier context e)]

def answersOfAll : List StructuredText.Expression → List Entry
  | [] => []
  | e :: rest => answersOf e ++ answersOfAll rest

def answersOfArguments : List (CallArgument StructuredText.Expression) → List (List Entry)
  | [] => []
  | ⟨_, value, _, _⟩ :: rest => answersOf value :: answersOfArguments rest

end

def documentAnswers (document : StructuredTextDocument) : List Entry :=
  (StructuredText.statementsExpressions document.statements).flatMap
    (answersOf db isIdentifier context)

def analyzeSemantics (document : StructuredTextDocument) (diagnostics : List SemanticDiagnostic) :
    Semantics :=
  let answers := (documentAnswers db isIdentifier context document).map Prod.snd
  { document
    references := answers.filterMap fun | .reference item => some item | _ => none
    accesses := answers.filterMap fun | .access item => some item | _ => none
    expressionTypes := answers.filterMap fun | .expressionType item => some item | _ => none
    calls := answers.filterMap fun | .call item => some item | _ => none
    diagnostics }

end

end TwinForge.IR
