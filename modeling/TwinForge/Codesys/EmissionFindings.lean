import TwinForge.Codesys.PlcopenExport

/-! # What CODESYS emissions report

The emitter notes a diagnostic for everything without a target form and a requirement
for everything left to an adapter, at any depth. The emission of a unit speaks for its
declarations and for the routines of the normal scan.
-/

namespace TwinForge.Codesys

open IR List
open IecSt

/-! ## What an emitted routine reports -/

mutual

def expressionNodes : Expression → List Expression
  | .unary span dataType operator operand =>
    .unary span dataType operator operand :: expressionNodes operand
  | .binary span dataType left operator right =>
    .binary span dataType left operator right :: (expressionNodes left ++ expressionNodes right)
  | .member span dataType target name =>
    .member span dataType target name :: expressionNodes target
  | .index span dataType target indices sourceOperator =>
    .index span dataType target indices sourceOperator ::
      (expressionNodes target ++ nodesOf indices)
  | .call span dataType operation arguments adapterRequired vendor =>
    .call span dataType operation arguments adapterRequired vendor :: nodesOf arguments
  | .arrayDimension span dataType array dimension =>
    .arrayDimension span dataType array dimension ::
      (expressionNodes array ++ expressionNodes dimension)
  | expression => [expression]

def nodesOf : List Expression → List Expression
  | [] => []
  | expression :: rest => expressionNodes expression ++ nodesOf rest

end

def operands : Statement → List Expression
  | .assignment _ target value => [target, value]
  | .callStatement _ call => [call]
  | .wallClockRead _ destination _ => [destination]
  | .controllerObjectRead _ _ _ _ destination _ _ => [destination]
  | .controllerObjectWrite _ _ _ _ value _ _ => [value]
  | .ifThen _ branches _ => branches.map (·.condition)
  | .whileDo _ condition _ => [condition]
  | .exit _ | .unsupported .. => []

def untranslatedNode : Expression → Bool
  | .unsupported .. => true
  | _ => false

def adapterNode : Expression → Bool
  | .index _ _ _ _ sourceOperator => sourceOperator == (".[]" : Text)
  | .call _ _ _ _ adapterRequired _ => adapterRequired
  | _ => false

def untranslatedStatement : Statement → Bool
  | .unsupported .. => true
  | _ => false

def adapterStatement : Statement → Bool
  | .wallClockRead _ _ timestampUnit => timestampUnit != ("microseconds" : Text)
  | .controllerObjectRead .. | .controllerObjectWrite .. => true
  | _ => false

/-- Something in the statements, at any depth, has no target form. -/
def Untranslated (statements : List Statement) : Prop :=
  ∃ statement ∈ walkStatements statements, untranslatedStatement statement = true ∨
    ∃ node ∈ nodesOf (operands statement), untranslatedNode node = true

/-- Something in the statements, at any depth, is left to a target adapter. -/
def NeedsAdapter (statements : List Statement) : Prop :=
  ∃ statement ∈ walkStatements statements, adapterStatement statement = true ∨
    ∃ node ∈ nodesOf (operands statement), adapterNode node = true

def nodeFindings : Expression → List Finding
  | .unsupported span _ _ reason => [.diagnostic ⟨"unsupported_expression", reason, span⟩]
  | .index _ _ _ _ sourceOperator =>
    if sourceOperator = (".[]" : Text) then [.requirement .dynamicBitAccess] else []
  | .call _ _ _ _ adapterRequired _ =>
    if adapterRequired then [.requirement .sourceOperationAdapter] else []
  | _ => []

def statementFindings : Statement → List Finding
  | .wallClockRead _ _ timestampUnit =>
    if timestampUnit ≠ ("microseconds" : Text) then [.requirement .wallClockRead] else []
  | .controllerObjectRead .. | .controllerObjectWrite .. => [.requirement .controllerObjectAccess]
  | .unsupported span _ reason => [.diagnostic ⟨"unsupported_statement", reason, span⟩]
  | _ => []

@[simp] theorem codesysDialect_arrayDimension :
    codesysDialect.renderArrayDimension = renderArrayDimension := rfl

@[simp] theorem codesysDialect_wallClockRead :
    codesysDialect.renderWallClockRead = renderWallClockRead := rfl

section

variable (db : CharacterDatabase)

mutual

theorem emitExpression_findings (finding : Finding) (expression : Expression) :
    finding ∈ (emitExpression db (some codesysDialect) expression).items ↔
      ∃ node ∈ expressionNodes expression, finding ∈ nodeFindings node := by
  cases expression with
  | unsupported span dataType source reason =>
    simp [emitExpression, expressionNodes, nodeFindings, diagnose]
  | reference span dataType name => simp [emitExpression, expressionNodes, nodeFindings]
  | literal span dataType value => simp [emitExpression, expressionNodes, nodeFindings]
  | unary span dataType operator operand =>
    have hown : nodeFindings (.unary span dataType operator operand) = [] := rfl
    simp [emitExpression, expressionNodes, hown, emitExpression_findings finding operand]
  | binary span dataType left operator right =>
    have hown : nodeFindings (.binary span dataType left operator right) = [] := rfl
    simp [emitExpression, expressionNodes, hown, emitExpression_findings finding left,
      emitExpression_findings finding right, or_and_right, exists_or]
  | member span dataType target name =>
    have hown : nodeFindings (.member span dataType target name) = [] := rfl
    simp [emitExpression, expressionNodes, hown, emitExpression_findings finding target]
  | index span dataType target indices sourceOperator =>
    have htarget := emitExpression_findings finding target
    have hindices := emitExpressions_findings finding indices
    by_cases hbit : sourceOperator = (".[]" : Text)
    · subst hbit
      have hown : nodeFindings (.index span dataType target indices ".[]") =
          [.requirement .dynamicBitAccess] := rfl
      simp [emitExpression, expressionNodes, hown, htarget, hindices, require, or_and_right,
        exists_or]
      exact or_left_comm.trans (or_congr_right or_comm)
    · have hown : nodeFindings (.index span dataType target indices sourceOperator) = [] :=
        if_neg hbit
      simp [emitExpression, expressionNodes, hown, hbit, htarget, hindices, or_and_right,
        exists_or]
      exact or_comm
  | call span dataType operation arguments adapterRequired vendor =>
    have harguments := emitExpressions_findings finding arguments
    cases adapterRequired with
    | false =>
      have hown : nodeFindings (.call span dataType operation arguments false vendor) = [] := rfl
      simp [emitExpression, expressionNodes, hown, harguments]
    | true =>
      have hown : nodeFindings (.call span dataType operation arguments true vendor) =
        [.requirement .sourceOperationAdapter] := rfl
      simp [emitExpression, expressionNodes, hown, harguments, require]
  | arrayDimension span dataType array dimension =>
    have hown : nodeFindings (.arrayDimension span dataType array dimension) = [] := rfl
    simp [emitExpression, expressionNodes, hown, emitExpression_findings finding array,
      emitExpression_findings finding dimension, renderArrayDimension, or_and_right, exists_or]

theorem emitExpressions_findings (finding : Finding) (expressions : List Expression) :
    finding ∈ (emitExpressions db (some codesysDialect) expressions).items ↔
      ∃ node ∈ nodesOf expressions, finding ∈ nodeFindings node := by
  cases expressions with
  | nil => simp [emitExpressions, nodesOf]
  | cons expression rest =>
    have hfirst := emitExpression_findings finding expression
    have hrest := emitExpressions_findings finding rest
    simp [emitExpressions, nodesOf, hfirst, hrest, or_and_right, exists_or]

end

/-- The finding is noted at one of the statements, or at an expression of one. -/
def NotedIn (finding : Finding) (statements : List Statement) : Prop :=
  ∃ statement ∈ statements, finding ∈ statementFindings statement ∨
    ∃ node ∈ nodesOf (operands statement), finding ∈ nodeFindings node

theorem notedIn_append {finding : Finding} {first second : List Statement} :
    NotedIn finding (first ++ second) ↔ NotedIn finding first ∨ NotedIn finding second := by
  simp [NotedIn, or_and_right, exists_or]

theorem notedIn_cons {finding : Finding} {first : Statement} {rest : List Statement} :
    NotedIn finding (first :: rest) ↔
      (finding ∈ statementFindings first ∨
        ∃ node ∈ nodesOf (operands first), finding ∈ nodeFindings node) ∨
      NotedIn finding rest := by
  simp [NotedIn]

mutual

theorem emitStatement_findings (finding : Finding) (indent : Nat) (statement : Statement) :
    finding ∈ (emitStatement db (some codesysDialect) indent statement).items ↔
      NotedIn finding (walkStatement statement) := by
  cases statement with
  | assignment span target value =>
    simp [emitStatement, walkStatement, NotedIn, statementFindings, operands, nodesOf,
      emitExpression_findings, or_and_right, exists_or]
  | callStatement span call =>
    simp [emitStatement, walkStatement, NotedIn, statementFindings, operands, nodesOf,
      emitExpression_findings]
  | wallClockRead span destination timestampUnit =>
    by_cases hunit : timestampUnit = ("microseconds" : Text)
    · simp [emitStatement, walkStatement, NotedIn, statementFindings, operands, nodesOf,
        emitExpression_findings, renderWallClockRead, hunit]
    · simp [emitStatement, walkStatement, NotedIn, statementFindings, operands, nodesOf,
        emitExpression_findings, renderWallClockRead, hunit, require]
      exact or_comm
  | controllerObjectRead =>
    simp [emitStatement, walkStatement, NotedIn, statementFindings, operands, nodesOf,
      emitExpression_findings, require]
  | controllerObjectWrite =>
    simp [emitStatement, walkStatement, NotedIn, statementFindings, operands, nodesOf,
      emitExpression_findings, require]
  | ifThen span branches elseStatements =>
    have hbranches := emitBranches_findings finding indent "IF" branches
    have helse := emitStatements_findings finding (indent + 1) elseStatements
    simp only [emitStatement, walkStatement, Reported.bind_items, Reported.pure_items,
      append_nil, mem_append, notedIn_cons, notedIn_append, statementFindings,
      operands, not_mem_nil, false_or, hbranches, helse, or_assoc]
  | whileDo span condition statements =>
    have hbody := emitStatements_findings finding (indent + 1) statements
    simp [emitStatement, walkStatement, notedIn_cons, statementFindings, operands, nodesOf,
      emitExpression_findings, hbody]
  | exit span => simp [emitStatement, walkStatement, NotedIn, statementFindings, operands, nodesOf]
  | unsupported span source reason =>
    simp [emitStatement, walkStatement, NotedIn, statementFindings, operands, nodesOf, diagnose]

theorem emitStatements_findings (finding : Finding) (indent : Nat) (statements : List Statement) :
    finding ∈ (emitStatements db (some codesysDialect) indent statements).items ↔
      NotedIn finding (walkStatements statements) := by
  cases statements with
  | nil => simp [emitStatements, walkStatements, NotedIn]
  | cons statement rest =>
    have hfirst := emitStatement_findings finding indent statement
    have hrest := emitStatements_findings finding indent rest
    simp [emitStatements, walkStatements, notedIn_append, hfirst, hrest]

theorem emitBranches_findings (finding : Finding) (indent : Nat) (keyword : Text)
    (branches : List (IfBranch Statement)) :
    finding ∈ (emitBranches db (some codesysDialect) indent keyword branches).items ↔
      (∃ node ∈ nodesOf (branches.map (·.condition)), finding ∈ nodeFindings node) ∨
        NotedIn finding (walkBranches branches) := by
  match branches with
  | [] => simp [emitBranches, walkBranches, nodesOf, NotedIn]
  | ⟨span, condition, statements⟩ :: rest =>
    have hbody := emitStatements_findings finding (indent + 1) statements
    have hrest := emitBranches_findings finding indent "ELSIF" rest
    simp only [emitBranches, walkBranches, nodesOf, map_cons, Reported.bind_items,
      Reported.pure_items, append_nil, mem_append, notedIn_append,
      emitExpression_findings, hbody, hrest, or_and_right, exists_or]
    rw [← or_assoc]
    exact or_or_or_comm

end

/-! ## Blocking diagnostics and requirements -/

/-- Some diagnostic keeps a document from being complete. -/
def Blocked (diagnostics : List Diagnostic) : Prop :=
  ∃ item ∈ diagnostics, item.code ∈ blockingCodes

/-- An emission with no blocking diagnostic and no requirement. -/
def Clean (emission : Emission) : Prop :=
  ¬ Blocked emission.diagnostics ∧ emission.requirements = []

variable {item : Diagnostic}

theorem mem_findingDiagnostics {findings : List Finding} :
    item ∈ findingDiagnostics findings ↔ .diagnostic item ∈ findings := by
  unfold findingDiagnostics
  rw [mem_filterMap]
  constructor
  · rintro ⟨finding, hfinding, hitem⟩
    cases finding with
    | diagnostic other =>
      cases hitem
      exact hfinding
    | requirement other => cases hitem
  · intro hitem
    exact ⟨_, hitem, rfl⟩

theorem mem_sortedRequirements {item : Requirement} {findings : List Finding} :
    item ∈ sortedRequirements findings ↔ .requirement item ∈ findings := by
  unfold sortedRequirements
  rw [mem_filter]
  cases item <;> simp

theorem mem_sortRequirements {item : Requirement} {found : List Requirement} :
    item ∈ sortRequirements found ↔ item ∈ found := by
  unfold sortRequirements
  rw [mem_filter]
  cases item <;> simp

/-- A blocking code other than that of a missing Prescan mapping. -/
def EmitterCode (code : Text) : Prop := code ∈ blockingCodes ∧ code ≠ prescanRequired

theorem node_untranslated (node : Expression) :
    (∃ item, .diagnostic item ∈ nodeFindings node) ↔ untranslatedNode node = true := by
  cases node with
  | index span dataType target indices sourceOperator =>
    by_cases hbit : sourceOperator = (".[]" : Text) <;>
      simp [nodeFindings, untranslatedNode, hbit]
  | call span dataType operation arguments adapterRequired vendor =>
    cases adapterRequired <;> simp [nodeFindings, untranslatedNode]
  | _ => simp [nodeFindings, untranslatedNode]

theorem node_adapter (node : Expression) :
    (∃ item, .requirement item ∈ nodeFindings node) ↔ adapterNode node = true := by
  cases node with
  | index span dataType target indices sourceOperator =>
    by_cases hbit : sourceOperator = (".[]" : Text) <;> simp [nodeFindings, adapterNode, hbit]
  | call span dataType operation arguments adapterRequired vendor =>
    cases adapterRequired <;> simp [nodeFindings, adapterNode]
  | _ => simp [nodeFindings, adapterNode]

theorem node_code {node : Expression}
    (h : .diagnostic item ∈ nodeFindings node) : EmitterCode item.code := by
  cases node with
  | unsupported span dataType source reason =>
    have hitem : item = ⟨"unsupported_expression", reason, span⟩ := by
      simpa [nodeFindings] using h
    have hcode : EmitterCode "unsupported_expression" := ⟨by decide, by decide⟩
    rwa [hitem]
  | index span dataType target indices sourceOperator =>
    by_cases hbit : sourceOperator = (".[]" : Text) <;> simp [nodeFindings, hbit] at h
  | call span dataType operation arguments adapterRequired vendor =>
    cases adapterRequired <;> simp [nodeFindings] at h
  | _ => simp [nodeFindings] at h

theorem statement_untranslated (statement : Statement) :
    (∃ item, .diagnostic item ∈ statementFindings statement) ↔
      untranslatedStatement statement = true := by
  cases statement with
  | wallClockRead span destination timestampUnit =>
    by_cases hunit : timestampUnit = ("microseconds" : Text) <;>
      simp [statementFindings, untranslatedStatement, hunit]
  | _ => simp [statementFindings, untranslatedStatement]

theorem statement_adapter (statement : Statement) :
    (∃ item, .requirement item ∈ statementFindings statement) ↔
      adapterStatement statement = true := by
  cases statement with
  | wallClockRead span destination timestampUnit =>
    by_cases hunit : timestampUnit = ("microseconds" : Text) <;>
      simp [statementFindings, adapterStatement, hunit]
  | _ => simp [statementFindings, adapterStatement]

theorem statement_code {statement : Statement}
    (h : .diagnostic item ∈ statementFindings statement) : EmitterCode item.code := by
  cases statement with
  | unsupported span source reason =>
    have hitem : item = ⟨"unsupported_statement", reason, span⟩ := by
      simpa [statementFindings] using h
    have hcode : EmitterCode "unsupported_statement" := ⟨by decide, by decide⟩
    rwa [hitem]
  | wallClockRead span destination timestampUnit =>
    by_cases hunit : timestampUnit = ("microseconds" : Text) <;>
      simp [statementFindings, hunit] at h
  | _ => simp [statementFindings] at h

/-- Findings of one kind are noted in statements when one of them, or an expression of
one, has the property that goes with the kind. -/
theorem notedIn_kind {Item : Type} {kind : Item → Finding} {own : Statement → Bool}
    {inner : Expression → Bool}
    (hown : ∀ statement, (∃ item, kind item ∈ statementFindings statement) ↔ own statement = true)
    (hinner : ∀ node, (∃ item, kind item ∈ nodeFindings node) ↔ inner node = true)
    (statements : List Statement) :
    (∃ item, NotedIn (kind item) statements) ↔
      ∃ statement ∈ statements, own statement = true ∨
        ∃ node ∈ nodesOf (operands statement), inner node = true := by
  constructor
  · rintro ⟨item, statement, hmem, hnoted | ⟨node, hnode, hnoted⟩⟩
    · exact ⟨statement, hmem, .inl ((hown statement).mp ⟨item, hnoted⟩)⟩
    · exact ⟨statement, hmem, .inr ⟨node, hnode, (hinner node).mp ⟨item, hnoted⟩⟩⟩
  · rintro ⟨statement, hmem, hheld | ⟨node, hnode, hheld⟩⟩
    · obtain ⟨item, hitem⟩ := (hown statement).mpr hheld
      exact ⟨item, statement, hmem, .inl hitem⟩
    · obtain ⟨item, hitem⟩ := (hinner node).mpr hheld
      exact ⟨item, statement, hmem, .inr ⟨node, hnode, hitem⟩⟩

theorem noted_untranslated (statements : List Statement) :
    (∃ item, NotedIn (.diagnostic item) (walkStatements statements)) ↔ Untranslated statements :=
  notedIn_kind statement_untranslated node_untranslated _

theorem noted_adapter (statements : List Statement) :
    (∃ item, NotedIn (.requirement item) (walkStatements statements)) ↔ NeedsAdapter statements :=
  notedIn_kind statement_adapter node_adapter _

theorem noted_code {statements : List Statement}
    (h : NotedIn (.diagnostic item) statements) : EmitterCode item.code := by
  obtain ⟨statement, -, hown | ⟨node, -, hnoted⟩⟩ := h
  · exact statement_code hown
  · exact node_code hnoted

theorem emitCodesysStRoutine_requirements (routine : Routine) :
    (emitCodesysStRoutine db routine).requirements = [] ↔ ¬ NeedsAdapter routine.statements := by
  rw [← noted_adapter, eq_nil_iff_forall_not_mem, not_exists]
  apply forall_congr'
  intro item
  rw [← emitStatements_findings db _ 0, ← mem_sortedRequirements]
  rfl

/-- The emission of a routine is clean when nothing was captured against it and its
statements are all translated. -/
theorem emitCodesysStRoutine_clean (routine : Routine) :
    Clean (emitCodesysStRoutine db routine) ↔
      ¬ Blocked routine.diagnostics ∧ ¬ Untranslated routine.statements ∧
        ¬ NeedsAdapter routine.statements := by
  have hfound : Blocked (findingDiagnostics
      (emitStatements db (some codesysDialect) 0 routine.statements).items) ↔
      Untranslated routine.statements := by
    rw [← noted_untranslated]
    constructor
    · rintro ⟨item, hitem, -⟩
      rw [mem_findingDiagnostics, emitStatements_findings] at hitem
      exact ⟨item, hitem⟩
    · rintro ⟨item, hitem⟩
      refine ⟨item, ?_, (noted_code hitem).1⟩
      rwa [mem_findingDiagnostics, emitStatements_findings]
  have hsplit : Blocked (emitCodesysStRoutine db routine).diagnostics ↔
      Blocked routine.diagnostics ∨ Untranslated routine.statements := by
    rw [← hfound]
    simp [Blocked, emitCodesysStRoutine, emitIecStRoutine, or_and_right, exists_or]
  rw [Clean, hsplit, emitCodesysStRoutine_requirements, not_or, and_assoc]

/-! ## What an emitted unit reports -/

def Untyped (unit : ReusableUnit) : Prop :=
  (∃ parameter ∈ unit.parameters, parameter.dataType = none) ∨
    ∃ item ∈ unit.instanceVariables, item.dataType = none

/-- A variable array that CODESYS does not take in its direction. -/
def genericLeft (parameter : Parameter) : Bool :=
  parameter.dimensions.isSome && parameter.genericDimensions && parameter.direction != .inout

def untypedFinding : Finding :=
  .diagnostic ⟨"unknown_data_type", "declaration has no resolved data type", noSpan⟩

theorem emitDataType_findings (finding : Finding) (dataType dimensions : Option Text) :
    finding ∈ (emitDataType db dataType dimensions).items ↔
      dataType = none ∧ finding = untypedFinding := by
  cases dataType <;> cases dimensions <;> simp [emitDataType, diagnose, untypedFinding]

theorem emitParameterType_findings (finding : Finding) (parameter : Parameter) :
    finding ∈ (emitParameterType db (some codesysDialect) parameter).items ↔
      (parameter.dataType = none ∧ finding = untypedFinding) ∨
        (genericLeft parameter = true ∧ finding = .requirement .genericArrayInterface) := by
  unfold emitParameterType genericLeft
  cases hdimensions : parameter.dimensions with
  | none => simp [emitDataType_findings]
  | some dimensions =>
    cases hgeneric : parameter.genericDimensions with
    | false => simp [emitDataType_findings]
    | true =>
      cases hdirection : parameter.direction <;>
        simp [emitDataType_findings, codesysDialect, supportsGenericArrayInterface, require]

theorem emitParameters_findings (finding : Finding) (parameters : List Parameter) :
    finding ∈ (emitParameters db (some codesysDialect) parameters).items ↔
      ∃ parameter ∈ parameters,
        finding ∈ (emitParameterType db (some codesysDialect) parameter).items := by
  induction parameters with
  | nil => simp [emitParameters]
  | cons parameter rest ih => simp [emitParameters, ih]

theorem emitSection_findings (finding : Finding) (parameters : List Parameter)
    (direction : Direction) (keyword : Text) :
    finding ∈ (emitSection db (some codesysDialect) parameters direction keyword).items ↔
      ∃ parameter ∈ parameters, parameter.direction = direction ∧
        finding ∈ (emitParameterType db (some codesysDialect) parameter).items := by
  have hmembers := emitParameters_findings db finding
    (parameters.filter (fun parameter => parameter.direction == direction))
  simp only [mem_filter, beq_iff_eq, and_assoc] at hmembers
  rw [← hmembers, emitSection]
  cases parameters.filter (fun parameter => parameter.direction == direction) with
  | nil => simp [emitParameters]
  | cons first rest => simp

theorem emitInterface_findings (finding : Finding) (parameters : List Parameter) :
    finding ∈ (emitInterface db (some codesysDialect) parameters).items ↔
      ∃ parameter ∈ parameters,
        finding ∈ (emitParameterType db (some codesysDialect) parameter).items := by
  simp only [emitInterface, Reported.bind_items, Reported.pure_items, append_nil,
    mem_append, emitSection_findings]
  constructor
  · rintro (⟨parameter, hmem, -, hfound⟩ | ⟨parameter, hmem, -, hfound⟩ |
      ⟨parameter, hmem, -, hfound⟩ | ⟨parameter, hmem, -, hfound⟩) <;>
      exact ⟨parameter, hmem, hfound⟩
  · intro ⟨parameter, hmem, hfound⟩
    cases hdirection : parameter.direction with
    | input => exact .inl ⟨parameter, hmem, hdirection, hfound⟩
    | output => exact .inr (.inl ⟨parameter, hmem, hdirection, hfound⟩)
    | inout => exact .inr (.inr (.inl ⟨parameter, hmem, hdirection, hfound⟩))
    | unknown => exact .inr (.inr (.inr ⟨parameter, hmem, hdirection, hfound⟩))

theorem emitVariables_findings (finding : Finding) (items : List Variable) :
    finding ∈ (emitVariables db items).items ↔
      ∃ item ∈ items, item.dataType = none ∧ finding = untypedFinding := by
  induction items with
  | nil => simp [emitVariables]
  | cons item rest ih => simp [emitVariables, emitDataType_findings, ih]

theorem emitRoutines_findings (finding : Finding) (several : Bool) (routines : List Routine) :
    finding ∈ (emitRoutines db (some codesysDialect) several routines).items ↔
      ∃ routine ∈ routines, NotedIn finding (walkStatements routine.statements) := by
  induction routines with
  | nil => simp [emitRoutines]
  | cons routine rest ih => simp [emitRoutines, emitStatements_findings, ih]

theorem emitUnitBody_findings (finding : Finding) (unit : ReusableUnit) :
    finding ∈ (emitUnitBody db (some codesysDialect) unit).items ↔
      (Untyped unit ∧ finding = untypedFinding) ∨
        ((∃ parameter ∈ unit.parameters, genericLeft parameter = true) ∧
          finding = .requirement .genericArrayInterface) ∨
        ∃ routine ∈ executableRoutines unit,
          NotedIn finding (walkStatements routine.statements) := by
  simp only [emitUnitBody, Reported.bind_items, Reported.pure_items, append_nil,
    mem_append, emitInterface_findings, emitVariables_findings, emitRoutines_findings,
    emitParameterType_findings, Untyped]
  constructor
  · rintro (⟨parameter, hmem, ⟨huntyped, hfinding⟩ | ⟨hgeneric, hfinding⟩⟩ |
      ⟨item, hmem, huntyped, hfinding⟩ | hroutine)
    · exact .inl ⟨.inl ⟨parameter, hmem, huntyped⟩, hfinding⟩
    · exact .inr (.inl ⟨⟨parameter, hmem, hgeneric⟩, hfinding⟩)
    · exact .inl ⟨.inr ⟨item, hmem, huntyped⟩, hfinding⟩
    · exact .inr (.inr hroutine)
  · rintro (⟨⟨parameter, hmem, huntyped⟩ | ⟨item, hmem, huntyped⟩, hfinding⟩ |
      ⟨⟨parameter, hmem, hgeneric⟩, hfinding⟩ | hroutine)
    · exact .inl ⟨parameter, hmem, .inl ⟨huntyped, hfinding⟩⟩
    · exact .inr (.inl ⟨item, hmem, huntyped, hfinding⟩)
    · exact .inl ⟨parameter, hmem, .inr ⟨hgeneric, hfinding⟩⟩
    · exact .inr (.inr hroutine)

end

end TwinForge.Codesys
