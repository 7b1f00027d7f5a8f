import Mathlib.Data.List.Flatten
import Mathlib.Data.List.Pairwise
import Mathlib.Data.List.Perm.Subperm
import TwinForge.Analysis.CallOrder
import TwinForge.IR.SemanticAnalysis

/-! # Answers by their keys

The lowering finds the answers for a node by its range. In a source that parses without
diagnostics, only the answers for that node have this range.
-/

namespace TwinForge.IR

open StructuredText (SourceSpan StructuredTextDocument parseStructuredText)
open SoftwareCalls List

def Answer.span : Answer → SourceSpan
  | .reference item => item.span
  | .access item => item.span
  | .call item => item.span
  | .expressionType item => item.span

/-- A name, an access or a call; every node has a type besides. -/
def Answer.isResult : Answer → Bool
  | .expressionType _ => false
  | _ => true

section

variable {db : CharacterDatabase} { isIdentifier : Text → Bool} {context : SemanticContext}
  {e node : StructuredText.Expression} {answer other : Answer} {answers : List Entry}
  {nodes : List StructuredText.Expression} {Item : Type}

/-! ## The answers for a node -/

abbrev own (db : CharacterDatabase) ( isIdentifier : Text → Bool) (context : SemanticContext)
    (e : StructuredText.Expression) : List Entry :=
  recorded db isIdentifier context e ++ [(e, typeAnswer db isIdentifier context e)]

theorem callAnswer_span (range : SourceSpan) (callee : StructuredText.Expression) :
    (callAnswer db context range callee).span = range := by
  unfold callAnswer
  split
  · rfl
  · split <;> rfl

theorem resultOf_some (h : resultOf db isIdentifier context e = some answer) :
    answer.isResult = true ∧ answer.span = e.span ∧ e.isMissing = false := by
  cases e with
  | name | member | index =>
    cases h
    exact ⟨rfl, rfl, rfl⟩
  | call range callee arguments =>
    cases h
    exact ⟨rfl, callAnswer_span range callee, rfl⟩
  | _ => cases h

theorem mem_own (h : (node, answer) ∈ own db isIdentifier context e) : node = e ∧
    (resultOf db isIdentifier context e = some answer ∨
      answer = typeAnswer db isIdentifier context e) := by
  cases mem_append.mp h with
  | inl hrecorded =>
    have ⟨_, hresult, heq⟩ := mem_map.mp hrecorded
    cases heq
    exact ⟨rfl, .inl (Option.mem_toList.mp hresult)⟩
  | inr htyped =>
    cases mem_singleton.mp htyped
    exact ⟨rfl, .inr rfl⟩

theorem own_span (h : (node, answer) ∈ own db isIdentifier context e) :
    answer.span = node.span := by
  have ⟨hnode, hanswer⟩ := mem_own h
  rw [hnode]
  rcases hanswer with hresult | htype
  · exact (resultOf_some hresult).2.1
  · rw [htype]
    rfl

theorem own_unique (h : (e, answer) ∈ own db isIdentifier context e)
    (hother : (e, other) ∈ own db isIdentifier context e)
    (hkind : answer.isResult = other.isResult) : answer = other := by
  rcases (mem_own h).2 with hfirst | hfirst <;> rcases (mem_own hother).2 with hsecond | hsecond
  · exact Option.some.inj (hfirst.symm.trans hsecond)
  · rw [(resultOf_some hfirst).1, hsecond] at hkind
    cases hkind
  · rw [(resultOf_some hsecond).1, hfirst] at hkind
    cases hkind
  · rw [hfirst, hsecond]

/-! ## The answers for a node and for the nodes below it -/

theorem answersOfAll_eq (es : List StructuredText.Expression) :
    answersOfAll db isIdentifier context es = es.flatMap (answersOf db isIdentifier context) := by
  induction es with
  | nil => simp [answersOfAll]
  | cons e rest ih => rw [answersOfAll, ih, flatMap_cons]

theorem answersOfArguments_eq
    (arguments : List (StructuredText.CallArgument StructuredText.Expression)) :
    (answersOfArguments db isIdentifier context arguments).flatten =
      (arguments.map (·.value)).flatMap (answersOf db isIdentifier context) := by
  induction arguments with
  | nil => simp [answersOfArguments]
  | cons argument rest ih =>
    cases argument
    rw [answersOfArguments, flatten_cons, ih, map_cons, flatMap_cons]

theorem split_sublist (items : List (List Item)) (bound : Nat) (later : List Item × Nat → Bool) :
    (items.take bound).flatten ++ ((items.zipIdx.drop bound).filter later).flatMap Prod.fst <+
      items.flatten := by
  have hlater := (filter_sublist (p := later) (l := items.zipIdx.drop bound)).flatMap Prod.fst
  rw [flatMap_def (l := drop _ _), map_drop, zipIdx_map_fst] at hlater
  have hsplit := hlater.append_left (items.take bound).flatten
  rwa [← flatten_append, take_append_drop] at hsplit

theorem unless_sublist (skipped : Bool) (items : List Item) :
    (if skipped then [] else items) <+ items := by
  cases skipped <;> simp

theorem moved_perm (bound result callee later : List Item) :
    bound ++ result ++ callee ++ later ~ result ++ (callee ++ (bound ++ later)) := by
  rw [← append_assoc, ← append_assoc, append_assoc bound result callee]
  exact perm_append_comm.append_right later

theorem subperm_own {below before : List Entry}
    (h : before <+~ recorded db isIdentifier context e ++ below) :
    before ++ [(e, typeAnswer db isIdentifier context e)] <+~
      own db isIdentifier context e ++ below := by
  apply (h.append (Subperm.refl _)).trans
  rw [append_assoc, append_assoc]
  exact (perm_append_comm.append_left _).subperm

theorem answersOf_subperm (e : StructuredText.Expression) :
    answersOf db isIdentifier context e <+~
      own db isIdentifier context e ++ e.children.flatMap (answersOf db isIdentifier context) := by
  unfold answersOf
  apply subperm_own
  cases e with
  | call range callee arguments =>
    rw [StructuredText.Expression.children, flatMap_cons, ← answersOfArguments_eq]
    apply (moved_perm _ _ _ _).subperm.trans
    exact (((unless_sublist _ _).append (split_sublist _ _ _)).append_left _).subperm
  | index range target indices operator =>
    rw [StructuredText.Expression.children, flatMap_cons, ← answersOfAll_eq, ← append_assoc]
    exact (perm_append_comm.append_right _).subperm
  | member range target member =>
    rw [StructuredText.Expression.children, flatMap_singleton]
    exact perm_append_comm.subperm
  | unary | binary | parenthesized =>
    simp only [StructuredText.Expression.children, flatMap_cons, flatMap_nil, append_nil]
    exact (sublist_append_right _ _).subperm
  | name => exact (sublist_append_left _ _).subperm
  | _ => exact (nil_sublist _).subperm

def resultNodes (answers : List Entry) : List StructuredText.Expression :=
  (answers.filter (·.2.isResult)).map Prod.fst

theorem resultNodes_append (first second : List Entry) :
    resultNodes (first ++ second) = resultNodes first ++ resultNodes second := by
  rw [resultNodes, filter_append, map_append, resultNodes, resultNodes]

theorem resultNodes_subperm {first second : List Entry}
    (h : first <+~ second) : resultNodes first <+~ resultNodes second := by
  have ⟨kept, hperm, hsublist⟩ := h.filter (·.2.isResult)
  exact ⟨kept.map Prod.fst, hperm.map _, hsublist.map _⟩

theorem resultNodes_own : resultNodes (own db isIdentifier context e) <+ [e] := by
  have htyped : resultNodes [(e, typeAnswer db isIdentifier context e)] = [] := rfl
  rw [resultNodes_append, htyped, append_nil]
  unfold recorded
  cases resultOf db isIdentifier context e with
  | none => exact nil_sublist _
  | some answer => exact filter_sublist.map Prod.fst

theorem flatMap_subperm {es : List StructuredText.Expression}
    (h : ∀ e ∈ es, resultNodes (answersOf db isIdentifier context e) <+~ partsOf e) :
    resultNodes (es.flatMap (answersOf db isIdentifier context)) <+~ es.flatMap partsOf := by
  induction es with
  | nil => exact Subperm.refl _
  | cons e rest ih =>
    rw [flatMap_cons, flatMap_cons, resultNodes_append]
    exact (h e mem_cons_self).append (ih fun other hother => h other (mem_cons_of_mem e hother))

theorem results_subperm {lax : Prop} (h : StructuredText.Nested lax e) :
    resultNodes (answersOf db isIdentifier context e) <+~ partsOf e := by
  induction h with
  | @node e _ _ _ ih =>
    apply (resultNodes_subperm (answersOf_subperm e)).trans
    rw [resultNodes_append, partsOf_eq]
    exact resultNodes_own.subperm.append (flatMap_subperm ih)

theorem mem_answersOf {lax : Prop} (h : StructuredText.Nested lax e)
    (hanswer : (node, answer) ∈ answersOf db isIdentifier context e) :
    node ∈ partsOf e ∧ (node, answer) ∈ own db isIdentifier context node := by
  induction h with
  | @node e _ _ _ ih =>
    rw [partsOf_eq]
    cases mem_append.mp ((answersOf_subperm e).subset hanswer) with
    | inl hown =>
      have hnode := (mem_own hown).1
      subst hnode
      exact ⟨mem_cons_self, hown⟩
    | inr hbelow =>
      have ⟨child, hchild, hinside⟩ := mem_flatMap.mp hbelow
      have ⟨hpart, hown⟩ := ih child hchild hinside
      exact ⟨mem_cons_of_mem e (mem_flatMap.mpr ⟨child, hchild, hpart⟩), hown⟩

/-! ## Lookups by range -/

theorem parts_eq (h : nodes.Pairwise Apart)
    (hnode : node ∈ nodes) (he : e ∈ nodes) (hspan : node.span = e.span) : node = e := by
  have hsame : nodes.Pairwise fun x y => x.span = y.span → x = y := h.imp fun {x y} hapart heq => by
    have ⟨hfirst, hsecond⟩ := hapart heq
    cases x with
    | missing range =>
      cases y with
      | missing other => exact congrArg StructuredText.Expression.missing heq
      | _ => cases hsecond
    | _ => cases hfirst
  have hback : Std.Symm fun x y : StructuredText.Expression => x.span = y.span → x = y :=
    ⟨fun _ _ hforth heq => (hforth heq.symm).symm⟩
  exact hsame.forall_of_forall (fun _ _ _ => rfl) hnode he hspan

theorem results_apart (hnodes : nodes.Pairwise Apart) (hresults : resultNodes answers <+~ nodes)
    (hown : ∀ x ∈ answers, x ∈ own db isIdentifier context x.1) :
    (answers.filter (·.2.isResult)).Pairwise fun x y => x.1.span ≠ y.1.span := by
  have ⟨kept, hperm, hsublist⟩ := hresults
  have hback : ∀ {x y}, Apart x y → Apart y x := fun h heq => (h heq.symm).symm
  have hapart := (hnodes.sublist hsublist).perm hperm hback
  rw [resultNodes, pairwise_map] at hapart
  apply hapart.imp_of_mem
  intro x y hx _ hdistinct heq
  have ⟨hmem, hresult⟩ := mem_filter.mp hx
  have hmissing := (hdistinct heq).1
  rcases (mem_own (hown x hmem)).2 with hsome | htype
  · rw [(resultOf_some hsome).2.2] at hmissing
    cases hmissing
  · rw [htype] at hresult
    cases hresult

theorem lookup_iff {pick : Answer → Option Item} (tag : Item → Answer)
    (span : Item → SourceSpan) (hpick : ∀ answer item, pick answer = some item ↔ answer = tag item)
    (hspan : ∀ item, (tag item).span = span item)
    (hkind : ∀ item next, (tag item).isResult = (tag next).isResult)
    (hown : ∀ x ∈ answers, x ∈ own db isIdentifier context x.1)
    (hnode : ∀ x ∈ answers, x.1.span = e.span → x.1 = e) (found : Item) :
    ((answers.map Prod.snd).filterMap pick).reverse.find? (fun item => span item = e.span) =
      some found ↔ (e, tag found) ∈ answers := by
  have hback : ∀ item, ((answers.map Prod.snd).filterMap pick).reverse.find?
      (fun item => span item = e.span) = some item → (e, tag item) ∈ answers := by
    intro item hitem
    have hrange : span item = e.span := by simpa using find?_some hitem
    have ⟨answer, hanswer, hpicked⟩ :=
      mem_filterMap.mp (mem_reverse.mp (mem_of_find?_eq_some hitem))
    have ⟨x, hx, hxanswer⟩ := mem_map.mp hanswer
    rw [(hpick answer item).mp hpicked] at hxanswer
    have hxspan := own_span (hown x hx)
    rw [hxanswer, hspan, hrange] at hxspan
    rwa [← hnode x hx hxspan.symm, ← hxanswer]
  refine ⟨hback found, fun hmem => ?_⟩
  cases hfind : ((answers.map Prod.snd).filterMap pick).reverse.find?
      (fun item => span item = e.span) with
  | none =>
    have hlisted : found ∈ (answers.map Prod.snd).filterMap pick :=
      mem_filterMap.mpr ⟨tag found, mem_map.mpr ⟨_, hmem, rfl⟩, (hpick _ _).mpr rfl⟩
    have hother := find?_eq_none.mp hfind found (mem_reverse.mpr hlisted)
    have hhere := own_span (hown _ hmem)
    rw [hspan] at hhere
    exact absurd (decide_eq_true hhere) hother
  | some item =>
    have hsame := own_unique (hown _ (hback item hfind)) (hown _ hmem) (hkind item found)
    rw [← (hpick _ item).mpr rfl, hsame]
    exact (hpick _ found).mpr rfl

/-! ## Documents -/

/-- No two results of a clean document have the same range, and a lookup by the range of a node
finds the answer that was computed for this node. -/
theorem answers_keyed (db : CharacterDatabase) ( isIdentifier : Text → Bool)
    (context : SemanticContext) (diagnostics : List SemanticDiagnostic) {fuel : Nat}
    {source : Text} {document : StructuredTextDocument}
    (h : parseStructuredText db fuel source = some document) (hclean : document.diagnostics = []) :
    let nodes := SoftwareCalls.walkStatements document.statements
    let answers := documentAnswers db isIdentifier context document
    let semantics := analyzeSemantics db isIdentifier context document diagnostics
    ((answers.filter (·.2.isResult)).Pairwise fun x y => x.1.span ≠ y.1.span) ∧
      (∀ x ∈ answers, .expression x.1 ∈ nodes ∧ x ∈ own db isIdentifier context x.1) ∧
      ∀ e, .expression e ∈ nodes →
        (∀ found, semantics.reference e.span = some found ↔ (e, .reference found) ∈ answers) ∧
        (∀ found, semantics.access e.span = some found ↔ (e, .access found) ∈ answers) ∧
        (∀ found, semantics.call e.span = some found ↔ (e, .call found) ∈ answers) ∧
        ∀ found, semantics.expressionType e.span = some found ↔
          (e, .expressionType found) ∈ answers := by
  intro nodes answers semantics
  have hlaid := @document_laid _ _ _ _ False h (.inr hclean)
  have hnodes := apart_chained (fun e he => ⟨hlaid.nested e he, partsOf_apart (hlaid.nested e he)⟩)
    hlaid.chained
  rw [← expressionNodes_document] at hnodes
  have hresults : resultNodes answers <+~ expressionNodes nodes := by
    rw [expressionNodes_document]
    exact flatMap_subperm fun e he => results_subperm (hlaid.nested e he)
  have hmem : ∀ x ∈ answers, x.1 ∈ expressionNodes nodes ∧
      x ∈ own db isIdentifier context x.1 := by
    intro x hx
    have ⟨e, he, hanswer⟩ := mem_flatMap.mp hx
    have ⟨hpart, hown⟩ := mem_answersOf (hlaid.nested e he) hanswer
    rw [expressionNodes_document]
    exact ⟨mem_flatMap.mpr ⟨e, he, hpart⟩, hown⟩
  have hown := fun x hx => (hmem x hx).2
  refine ⟨results_apart hnodes hresults hown, fun x hx => ⟨?_, hown x hx⟩, fun e he => ?_⟩
  · exact mem_expressionNodes.mp (hmem x hx).1
  · have hnode : ∀ x ∈ answers, x.1.span = e.span → x.1 = e := fun x hx =>
      parts_eq hnodes (hmem x hx).1 (mem_expressionNodes.mpr he)
    refine ⟨lookup_iff .reference (·.span) ?_ (fun _ => rfl) (fun _ _ => rfl) hown hnode,
      lookup_iff .access (·.span) ?_ (fun _ => rfl) (fun _ _ => rfl) hown hnode,
      lookup_iff .call (·.span) ?_ (fun _ => rfl) (fun _ _ => rfl) hown hnode,
      lookup_iff .expressionType (·.span) ?_ (fun _ => rfl) (fun _ _ => rfl) hown hnode⟩
    all_goals
      intro answer item
      cases answer <;> simp

/-- The names `A` and `B`, the member and the call are told apart. -/
theorem answers_keyed_call :
    ∃ document, parseStructuredText Ascii.database 40 "A := F(B.1);" = some document ∧
      ∃ results, results = (documentAnswers Ascii.database (fun _ => true) {} document).filter
          (·.2.isResult) ∧
        results.length = 4 ∧ results.Pairwise fun x y => x.1.span ≠ y.1.span := by
  have hchecked : (parseStructuredText Ascii.database 40 "A := F(B.1);").map
      (fun document => decide (document.diagnostics = [] ∧
        ((documentAnswers Ascii.database (fun _ => true) {} document).filter
          (·.2.isResult)).length = 4)) = some true := by
    decide +kernel
  obtain ⟨document, hparse, hvalue⟩ := Option.map_eq_some_iff.mp hchecked
  have ⟨hclean, hcount⟩ := of_decide_eq_true hvalue
  exact ⟨document, hparse, _, rfl, hcount,
    (answers_keyed Ascii.database (fun _ => true) {} [] hparse hclean).1⟩

end

end TwinForge.IR
