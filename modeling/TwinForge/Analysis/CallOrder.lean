import TwinForge.Analysis.SoftwareCalls
import TwinForge.Foundation.Forests
import TwinForge.StructuredText.ParserTotal
import TwinForge.StructuredText.StatementExpressions

/-! # The order of calls in structured text

The walk over a syntax tree lists every node once, parents first and fields in their order. The
calls among the nodes start one after the other in the source.
-/

namespace TwinForge.SoftwareCalls

open StructuredText Forest List

/-! ## The walk -/

theorem node_preordered {node : SyntaxNode} {range : SourceSpan} {below nodes : List SyntaxNode}
    (hfields : node.fields = .span range :: below) (h : Preordered SyntaxNode.fields below nodes) :
    Preordered SyntaxNode.fields [node] (node :: .span range :: nodes) := by
  have hinner : Preordered SyntaxNode.fields node.fields (.span range :: nodes) := by
    have hspan : Preordered SyntaxNode.fields (SyntaxNode.fields (.span range)) [] := .nil
    rw [hfields]
    exact Preordered.cons hspan h
  have hnode := Preordered.cons hinner .nil
  rwa [append_nil] at hnode

theorem walkExpression_preordered (e : Expression) :
    Preordered SyntaxNode.fields [.expression e] (walkExpression e) := by
  induction e with
  | unary range operator operand ih => exact node_preordered rfl ih
  | binary range left operator right hleft hright =>
    exact node_preordered rfl (Preordered.append hleft hright)
  | member range target member ih => exact node_preordered rfl ih
  | index range target indices operator htarget hindices =>
    have hall : Preordered SyntaxNode.fields (indices.map .expression) (walkExpressions indices) := by
      induction indices with
      | nil => exact .nil
      | cons index rest ih =>
        exact Preordered.append (hindices index mem_cons_self)
          (ih fun other hother => hindices other (mem_cons_of_mem index hother))
    exact node_preordered rfl (Preordered.append htarget hall)
  | call range callee arguments hcallee harguments =>
    have hall : Preordered SyntaxNode.fields (arguments.map .argument) (walkArguments arguments) := by
      induction arguments with
      | nil => exact .nil
      | cons argument rest ih =>
        have hvalue := harguments argument mem_cons_self
        have hargument : Preordered SyntaxNode.fields [.argument argument] (walkArgument argument) := by
          cases argument with
          | mk range value name direction => exact node_preordered rfl hvalue
        exact Preordered.append hargument
          (ih fun other hother => harguments other (mem_cons_of_mem argument hother))
    exact node_preordered rfl (Preordered.append hcallee hall)
  | parenthesized range inner ih => exact node_preordered rfl ih
  | _ => exact node_preordered rfl .nil

theorem walkStatements_preordered_of {statements : List Statement}
    (h : ∀ s ∈ statements, Preordered SyntaxNode.fields [.statement s] (walkStatement s)) :
    Preordered SyntaxNode.fields (statements.map .statement) (walkStatements statements) := by
  induction statements with
  | nil => exact .nil
  | cons s rest ih =>
    exact Preordered.append (h s mem_cons_self)
      (ih fun other hother => h other (mem_cons_of_mem s hother))

theorem walkStatement_preordered (s : Statement) :
    Preordered SyntaxNode.fields [.statement s] (walkStatement s) := by
  induction s with
  | assignment range target operator value =>
    exact node_preordered rfl
      (Preordered.append (walkExpression_preordered target) (walkExpression_preordered value))
  | expression range e => exact node_preordered rfl (walkExpression_preordered e)
  | ifThen range branches elseStatements hbranches helse =>
    have hall : Preordered SyntaxNode.fields (branches.map .branch) (walkBranches branches) := by
      induction branches with
      | nil => exact .nil
      | cons branch rest ih =>
        have hbody := walkStatements_preordered_of (hbranches branch mem_cons_self)
        have hbranch : Preordered SyntaxNode.fields [.branch branch] (walkBranch branch) := by
          cases branch with
          | mk range condition statements =>
            exact node_preordered rfl
              (Preordered.append (walkExpression_preordered condition) hbody)
        exact Preordered.append hbranch
          (ih fun other hother => hbranches other (mem_cons_of_mem branch hother))
    exact node_preordered rfl (Preordered.append hall (walkStatements_preordered_of helse))
  | whileDo range condition statements ih =>
    exact node_preordered rfl
      (Preordered.append (walkExpression_preordered condition) (walkStatements_preordered_of ih))
  | _ => exact node_preordered rfl .nil

theorem walkStatements_preordered (statements : List Statement) :
    Preordered SyntaxNode.fields (statements.map .statement) (walkStatements statements) :=
  walkStatements_preordered_of fun s _ => walkStatement_preordered s

theorem calls_placed (statements : List Statement) :
    ∃ places : List (List Nat), places.Pairwise (· < ·) ∧
      (∀ place, place ∈ places ↔ ∃ call, ((nodeAt SyntaxNode.fields (statements.map .statement)
        place).bind SyntaxNode.call?) = some call) ∧
      (statementCalls statements).map some = places.map fun place =>
        (nodeAt SyntaxNode.fields (statements.map .statement) place).bind SyntaxNode.call? := by
  have ⟨places, hordered, hcomplete, hlisted⟩ := (walkStatements_preordered statements).places
  have hcalls : statementCalls statements = places.filterMap fun place =>
      (nodeAt SyntaxNode.fields (statements.map .statement) place).bind SyntaxNode.call? := by
    have hmapped := congrArg (filterMap fun node => Option.bind node SyntaxNode.call?) hlisted
    rw [filterMap_map, filterMap_map] at hmapped
    exact hmapped
  refine ⟨places.filter fun place =>
    ((nodeAt SyntaxNode.fields (statements.map .statement) place).bind SyntaxNode.call?).isSome,
    hordered.filter _, fun place => ?_, ?_⟩
  · rw [mem_filter, hcomplete, ← Option.isSome_iff_exists]
    refine ⟨fun h => h.2, fun h => ⟨?_, h⟩⟩
    exact Option.isSome_of_isSome_bind h
  · rw [hcalls]
    clear hordered hcomplete hlisted hcalls
    induction places with
    | nil => rfl
    | cons place places ih =>
      rw [filterMap_cons, filter_cons]
      cases hcall : (nodeAt SyntaxNode.fields (statements.map .statement) place).bind
          SyntaxNode.call? with
      | none => exact ih
      | some call =>
        rw [Option.isSome_some, if_pos rfl, map_cons, map_cons, hcall, ih]

/-! ## Where calls start -/

def callStarts (nodes : List SyntaxNode) : List Nat :=
  (nodes.filterMap SyntaxNode.call?).map (·.span.start)

/-- Positions in their order, between two bounds. -/
structure Within (low high : Nat) (starts : List Nat) : Prop where
  ordered : starts.Pairwise (· ≤ ·)
  bounded : ∀ start ∈ starts, low ≤ start ∧ start ≤ high

theorem Within.nil (low high : Nat) : Within low high [] :=
  ⟨.nil, fun _ h => absurd h not_mem_nil⟩

theorem Within.mono {low high low' high' : Nat} {starts : List Nat} (h : Within low high starts)
    (hlow : low' ≤ low) (hhigh : high ≤ high') : Within low' high' starts :=
  ⟨h.ordered, fun start hstart =>
    ⟨hlow.trans (h.bounded start hstart).1, (h.bounded start hstart).2.trans hhigh⟩⟩

theorem Within.sublist {low high : Nat} {starts some : List Nat} (h : Within low high starts)
    (hsome : some <+ starts) : Within low high some :=
  ⟨h.ordered.sublist hsome, fun start hstart => h.bounded start (hsome.mem hstart)⟩

theorem Within.append {low middle high : Nat} {first second : List Nat}
    (hfirst : Within low middle first) (hsecond : Within middle high second)
    (hlow : low ≤ middle) (hhigh : middle ≤ high) : Within low high (first ++ second) := by
  constructor
  · rw [pairwise_append]
    refine ⟨hfirst.ordered, hsecond.ordered, fun a ha b hb => ?_⟩
    exact (hfirst.bounded a ha).2.trans (hsecond.bounded b hb).1
  · intro start hstart
    cases mem_append.mp hstart with
    | inl hmem => exact (hfirst.mono (Nat.le_refl _) hhigh).bounded start hmem
    | inr hmem => exact (hsecond.mono hlow (Nat.le_refl _)).bounded start hmem

theorem Within.cons {low high : Nat} {starts : List Nat} (h : Within low high starts)
    (hlow : low ≤ high) : Within low high (low :: starts) :=
  ⟨pairwise_cons.mpr ⟨fun start hstart => (h.bounded start hstart).1, h.ordered⟩, by
    intro start hstart
    cases mem_cons.mp hstart with
    | inl hsame => rw [hsame]; exact ⟨Nat.le_refl _, hlow⟩
    | inr hmem => exact h.bounded start hmem⟩

def expressionNodes (nodes : List SyntaxNode) : List Expression :=
  nodes.filterMap fun node => match node with
    | .expression e => some e
    | _ => none

/-- An expression and the expressions below it, parents first. -/
abbrev partsOf (e : Expression) : List Expression := expressionNodes (walkExpression e)

theorem mem_expressionNodes {nodes : List SyntaxNode} {e : Expression} :
    e ∈ expressionNodes nodes ↔ .expression e ∈ nodes := by
  constructor
  · intro h
    have ⟨node, hnode, hsome⟩ := mem_filterMap.mp h
    cases node with
    | expression other =>
      cases hsome
      exact hnode
    | _ => cases hsome
  · exact fun h => mem_filterMap.mpr ⟨_, h, rfl⟩

theorem expressionNodes_append (first second : List SyntaxNode) :
    expressionNodes (first ++ second) = expressionNodes first ++ expressionNodes second :=
  filterMap_append

theorem expressionNodes_walk (es : List Expression) :
    expressionNodes (walkExpressions es) = es.flatMap partsOf := by
  induction es with
  | nil => rfl
  | cons e rest ih => rw [walkExpressions, expressionNodes_append, ih, flatMap_cons]

theorem expressionNodes_arguments (arguments : List (CallArgument Expression)) :
    expressionNodes (walkArguments arguments) = (arguments.map (·.value)).flatMap partsOf := by
  induction arguments with
  | nil => rfl
  | cons argument rest ih =>
    rw [walkArguments, expressionNodes_append, ih, map_cons, flatMap_cons]
    cases argument with
    | mk range value name direction => rfl

theorem expressionNodes_pair (first second : Expression) :
    expressionNodes (walkExpression first ++ walkExpression second) =
      [first, second].flatMap partsOf := by
  rw [expressionNodes_append]
  simp

theorem partsOf_eq (e : Expression) : partsOf e = e :: e.children.flatMap partsOf := by
  cases e with
  | binary range first operator second =>
    exact congrArg (.binary range first operator second :: ·) (expressionNodes_pair first second)
  | index range target indices operator =>
    have hparts := expressionNodes_append (walkExpression target) (walkExpressions indices)
    rw [expressionNodes_walk] at hparts
    exact congrArg (.index range target indices operator :: ·) hparts
  | call range callee arguments =>
    have hparts := expressionNodes_append (walkExpression callee) (walkArguments arguments)
    rw [expressionNodes_arguments] at hparts
    exact congrArg (.call range callee arguments :: ·) hparts
  | unary range operator part | member range part operator | parenthesized range part =>
    simp [Expression.children, expressionNodes, walkExpression]
  | _ => rfl

theorem Within.chained {low high : Nat} {es : List Expression}
    (h : ∀ e ∈ es, Within e.span.start e.span.stop ((partsOf e).map (·.span.start)))
    (hchained : Chained low (es.map (·.span)) high) :
    Within low high ((es.flatMap partsOf).map (·.span.start)) := by
  induction es generalizing low with
  | nil => exact Within.nil _ _
  | cons e rest ih =>
    have ⟨hfirst, hforward, hrest⟩ := hchained
    have hhere := (h e mem_cons_self).mono hfirst (Nat.le_refl _)
    rw [flatMap_cons, map_append]
    exact hhere.append (ih (fun other hother => h other (mem_cons_of_mem e hother)) hrest)
      (hfirst.trans hforward) hrest.le

theorem partsOf_within {lax : Prop} {e : Expression} (h : Nested lax e) :
    Within e.span.start e.span.stop ((partsOf e).map (·.span.start)) := by
  induction h with
  | @node e _ hchained _ ih =>
    rw [partsOf_eq, map_cons]
    exact (Within.chained ih hchained).cons hchained.le

theorem partsOf_inside {lax : Prop} {e part : Expression} (h : Nested lax e)
    (hpart : part ∈ partsOf e) :
    Nested lax part ∧ e.span.start ≤ part.span.start ∧ part.span.stop ≤ e.span.stop := by
  induction h with
  | @node e hbelow hchained hproper ih =>
    rw [partsOf_eq] at hpart
    cases mem_cons.mp hpart with
    | inl hsame =>
      rw [hsame]
      exact ⟨.node hbelow hchained hproper, Nat.le_refl _, Nat.le_refl _⟩
    | inr hlater =>
      have ⟨child, hchild, hbelow⟩ := mem_flatMap.mp hlater
      have ⟨hnested, hstart, hstop⟩ := ih child hchild hbelow
      have ⟨hfirst, hlast⟩ := hchained.inside (mem_map_of_mem hchild)
      exact ⟨hnested, hfirst.trans hstart, hstop.trans hlast⟩

/-- Only missing expressions share a range. -/
def Apart (e other : Expression) : Prop :=
  e.span = other.span → e.isMissing = true ∧ other.isMissing = true

theorem span_eq {range other : SourceSpan} (hstart : range.start = other.start)
    (hstop : range.stop = other.stop) : range = other := by
  cases range
  cases other
  cases hstart
  cases hstop
  rfl

theorem missing_of_empty {e : Expression} (h : Nested False e) (hempty : e.span.stop ≤ e.span.start) :
    e.isMissing = true := by
  cases h with
  | node hbelow hchained hproper =>
    rcases hproper with hlax | hmissing | hproper
    · exact hlax.elim
    · exact hmissing
    · exact absurd hproper.1 (Nat.not_lt.mpr hempty)

theorem apart_chained {low high : Nat} {es : List Expression}
    (h : ∀ e ∈ es, Nested False e ∧ (partsOf e).Pairwise Apart)
    (hchained : Chained low (es.map (·.span)) high) : (es.flatMap partsOf).Pairwise Apart := by
  induction es generalizing low with
  | nil => exact Pairwise.nil
  | cons e rest ih =>
    have ⟨hnested, hparts⟩ := h e mem_cons_self
    have hothers := fun other hother => h other (mem_cons_of_mem e hother)
    have ⟨_, _, hrest⟩ := hchained
    rw [flatMap_cons, pairwise_append]
    refine ⟨hparts, ih hothers hrest, fun part hpart other hother hsame => ?_⟩
    have ⟨next, hnext, hbelow⟩ := mem_flatMap.mp hother
    have ⟨hfirst, _, hend⟩ := partsOf_inside hnested hpart
    have ⟨hsecond, hbegin, _⟩ := partsOf_inside (hothers next hnext).1 hbelow
    have hbetween := (hrest.inside (mem_map_of_mem hnext)).1.trans hbegin
    have hempty := hend.trans hbetween
    constructor
    · exact missing_of_empty hfirst (hsame ▸ hempty)
    · exact missing_of_empty hsecond (hsame ▸ hempty)

theorem partsOf_apart {e : Expression} (h : Nested False e) : (partsOf e).Pairwise Apart := by
  induction h with
  | @node e hbelow hchained hproper ih =>
    rw [partsOf_eq, pairwise_cons]
    refine ⟨fun part hpart hsame => ?_, apart_chained (fun c hc => ⟨hbelow c hc, ih c hc⟩) hchained⟩
    have ⟨child, hchild, hinside⟩ := mem_flatMap.mp hpart
    have ⟨_, hstart, hstop⟩ := partsOf_inside (hbelow child hchild) hinside
    have ⟨hfirst, hlast⟩ := hchained.inside (mem_map_of_mem hchild)
    rcases hproper with hlax | hmissing | hproper
    · exact hlax.elim
    · cases e with
      | missing range => cases hchild
      | _ => cases hmissing
    · apply absurd _ (hproper.2 child hchild)
      rw [← hsame] at hstart hstop
      exact span_eq (Nat.le_antisymm hstart hfirst) (Nat.le_antisymm hlast hstop)

/-! ## Statements -/

theorem expressionNodes_statements_of {statements : List Statement}
    (h : ∀ s ∈ statements,
      expressionNodes (walkStatement s) = (statementExpressions s).flatMap partsOf) :
    expressionNodes (walkStatements statements) =
      (statementsExpressions statements).flatMap partsOf := by
  induction statements with
  | nil => rfl
  | cons s rest ih =>
    rw [walkStatements, expressionNodes_append, statementsExpressions, flatMap_append,
      h s mem_cons_self, ih fun other hother => h other (mem_cons_of_mem s hother)]

theorem expressionNodes_statement (s : Statement) :
    expressionNodes (walkStatement s) = (statementExpressions s).flatMap partsOf := by
  induction s with
  | assignment range target operator value => exact expressionNodes_pair target value
  | expression range e => exact (append_nil _).symm
  | ifThen range branches elseStatements hbranches helse =>
    have hall : expressionNodes (walkBranches branches) =
        (branchesExpressions branches).flatMap partsOf := by
      induction branches with
      | nil => rfl
      | cons branch rest ih =>
        have hbody := expressionNodes_statements_of (hbranches branch mem_cons_self)
        have hrest := ih fun other hother => hbranches other (mem_cons_of_mem branch hother)
        cases branch with
        | mk range condition statements =>
          have hbranch := expressionNodes_append (walkExpression condition)
            (walkStatements statements)
          rw [hbody] at hbranch
          rw [walkBranches, expressionNodes_append, hrest, branchesExpressions, flatMap_append]
          exact congrArg (· ++ _) hbranch
    have hparts := expressionNodes_append (walkBranches branches) (walkStatements elseStatements)
    rw [hall, expressionNodes_statements_of helse, ← flatMap_append] at hparts
    exact hparts
  | whileDo range condition statements ih =>
    have hparts := expressionNodes_append (walkExpression condition) (walkStatements statements)
    rw [expressionNodes_statements_of ih] at hparts
    exact hparts
  | _ => rfl

/-! ## Documents -/

theorem callStarts_sublist (nodes : List SyntaxNode) :
    callStarts nodes <+ (expressionNodes nodes).map (·.span.start) := by
  induction nodes with
  | nil => exact Sublist.refl _
  | cons node nodes ih =>
    cases node with
    | expression e =>
      cases e with
      | call range callee arguments => exact ih.cons_cons range.start
      | _ => exact ih.cons _
    | _ => exact ih

theorem document_laid {db : CharacterDatabase} {fuel : Nat} {source : Text}
    {document : StructuredTextDocument} {lax : Prop}
    (h : parseStructuredText db fuel source = some document)
    (hclean : lax ∨ document.diagnostics = []) :
    Laid lax 0 (statementsExpressions document.statements) source.length := by
  have ⟨front, marker, diagnostics, hlex, _, _, _, hspan, _⟩ := lexStructuredText_lossless db source
  have ⟨last, hlast, _, hplaced⟩ := placed_start hlex
  have hmarker : (front ++ [marker]).getLast? = some marker := List.getLast?_concat
  rw [Option.some.inj (hmarker.symm.trans hlast)] at hspan
  unfold parseStructuredText at h
  simp only [hlex, hlast, Option.bind_eq_bind, Option.bind_some] at h
  have ⟨⟨statements, q⟩, hlist, hdocument⟩ := Option.bind_eq_some_iff.mp h
  cases hdocument
  have ⟨hbehind, hknown⟩ := (Parser.statementsEnd db lax fuel).statementList [] 0 [] _ hplaced
    (Parser.Known.nil (Nat.zero_le _)) statements q hlist
  have hahead := (hplaced.behind hbehind).horizon_marker
  rw [hbehind.marker] at hahead
  change q.horizon ≤ last.span.start at hahead
  rw [hspan] at hahead
  exact (hknown hclean).mono (Nat.le_refl _) hahead

/-- With enough fuel every source parses to one document, whose expressions nest within the
source, one behind the other. Without a diagnostic each that is not missing has a range of
its own. -/
theorem parseStructuredText_laid (db : CharacterDatabase) (source : Text) :
    ∃ document, Fuel.Converges (fun fuel => parseStructuredText db fuel source) document ∧
      Laid (document.diagnostics ≠ []) 0 (statementsExpressions document.statements)
        source.length := by
  rcases parseStructuredText_total db source with ⟨document, htotal⟩
  have hparsed := htotal _ (Nat.le_refl _)
  have hclean := (Decidable.em (document.diagnostics = [])).symm
  exact ⟨document, parseStructuredText_converges hparsed, document_laid hparsed hclean⟩

theorem expressionNodes_document (document : StructuredTextDocument) :
    expressionNodes (walkStatements document.statements) =
      (statementsExpressions document.statements).flatMap partsOf :=
  expressionNodes_statements_of fun s _ => expressionNodes_statement s

theorem document_ordered {db : CharacterDatabase} {fuel : Nat} {source : Text}
    {document : StructuredTextDocument} (h : parseStructuredText db fuel source = some document) :
    Within 0 source.length (callStarts (walkStatements document.statements)) := by
  have hlaid := document_laid h (Or.inl trivial)
  have hall := Within.chained (fun e he => partsOf_within (hlaid.nested e he)) hlaid.chained
  rw [← expressionNodes_document] at hall
  exact hall.sublist (callStarts_sublist _)

end TwinForge.SoftwareCalls
