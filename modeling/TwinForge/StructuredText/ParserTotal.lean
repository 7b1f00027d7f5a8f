import TwinForge.StructuredText.TokenCoverage

/-! # Every source has a document

The parser moves over a token before it calls itself at the same depth again, so fuel
proportional to the tokens ahead is enough for every cursor.
-/

namespace TwinForge.StructuredText

open Fuel List

namespace Parser

variable {db : CharacterDatabase}

/-! ## Moves of the cursor -/

/-- Closing end markers behind a token that is not looked over. -/
structure Fence where
  lead : StructuredTextToken
  closing : List StructuredTextToken
  solid : isTrivia lead = false
  ends : ∀ token ∈ closing, token.kind = .endOfFile

/-- The cursor stands before the lead or at the first closing marker. -/
def Fence.Holds (fence : Fence) (p : Parser) : Prop :=
  p.rest = fence.closing ∨ fence.lead :: fence.closing <:+ p.rest

/-- A later cursor, behind no fence that the earlier one stood before. -/
structure Moves (p q : Parser) : Prop where
  behind : Behind p q
  fenced : ∀ fence : Fence, fence.Holds p → fence.Holds q

theorem Moves.refl (p : Parser) : Moves p p := ⟨Behind.refl p, fun _ h => h⟩

variable {p q : Parser}

theorem Moves.trans {r : Parser} (h : Moves p q) (h' : Moves q r) : Moves p r :=
  ⟨h.behind.trans h'.behind, fun fence hholds => h'.fenced fence (h.fenced fence hholds)⟩

/-- The number of tokens ahead. -/
def size (p : Parser) : Nat := p.rest.length

theorem Moves.size (h : Moves p q) : q.size ≤ p.size := h.behind.ahead.length_le

def Closed (p : Parser) : Prop := p.marker.kind = .endOfFile

theorem Closed.behind (h : Closed p) (hbehind : Behind p q) : Closed q := by
  rw [Closed, hbehind.marker]
  exact h

theorem Closed.moves (h : Closed p) (hmoves : Moves p q) : Closed q :=
  h.behind hmoves.behind

theorem moves_diagnostic (p : Parser) (code message : Text) (span : SourceSpan) :
    Moves p (p.diagnostic code message span) := ⟨behind_diagnostic p code message span, fun _ h => h⟩

theorem suffix_dropWhile {lead : StructuredTextToken} {closing tokens : List StructuredTextToken}
    (hsolid : isTrivia lead = false) (h : lead :: closing <:+ tokens) :
    lead :: closing <:+ tokens.dropWhile isTrivia := by
  induction tokens with
  | nil => exact h
  | cons token tokens ih =>
    cases htrivia : isTrivia token with
    | false =>
      rw [dropWhile_cons_of_neg (by simp [htrivia])]
      exact h
    | true =>
      rw [dropWhile_cons_of_pos htrivia]
      cases suffix_cons_iff.mp h with
      | inl hsame =>
        rw [(List.cons.inj hsame).1, htrivia] at hsolid
        cases hsolid
      | inr hlater => exact ih hlater

theorem solid_of_end {token : StructuredTextToken} (h : token.kind = .endOfFile) :
    isTrivia token = false := by
  rw [isTrivia, h]
  rfl

theorem moves_skipTrivia (p : Parser) : Moves p p.skipTrivia := by
  refine ⟨behind_skipTrivia p, fun fence hholds => ?_⟩
  cases hholds with
  | inl hclosing =>
    have hskip : p.rest.dropWhile isTrivia = p.rest := by
      rw [hclosing]
      cases hmarkers : fence.closing with
      | nil => rfl
      | cons first markers =>
        have hfirst := solid_of_end (fence.ends first (hmarkers ▸ mem_cons_self))
        rw [dropWhile_cons_of_neg (by simp [hfirst])]
    exact .inl (hskip.trans hclosing)
  | inr hbefore => exact .inr (suffix_dropWhile fence.solid hbefore)

theorem Fence.Holds.before {fence : Fence} (hholds : fence.Holds p) (h : Closed p)
    (hplain : p.current.kind ≠ .endOfFile) : fence.lead :: fence.closing <:+ p.rest := by
  cases hholds with
  | inr hbefore => exact hbefore
  | inl hclosing =>
    rw [current, hclosing] at hplain
    cases hmarkers : fence.closing with
    | nil =>
      rw [hmarkers] at hplain
      exact absurd h hplain
    | cons first markers =>
      rw [hmarkers] at hplain
      exact absurd (fence.ends first (hmarkers ▸ mem_cons_self)) hplain

/-- A step over the next token that is not trivia, from a cursor that is at no end marker. -/
theorem moves_pass (h : Closed p) (hplain : p.current.kind ≠ .endOfFile) :
    Moves p p.take := by
  refine ⟨behind_take p, fun fence hholds => ?_⟩
  have hskipped := suffix_dropWhile fence.solid (hholds.before h hplain)
  show p.skipTrivia.rest.tail = fence.closing ∨ _ <:+ p.skipTrivia.rest.tail
  have hrest : p.skipTrivia.rest = p.rest.dropWhile isTrivia := rfl
  rw [hrest]
  cases htokens : p.rest.dropWhile isTrivia with
  | nil =>
    rw [htokens] at hskipped
    exact absurd (suffix_nil.mp hskipped) (cons_ne_nil _ _)
  | cons first tokens =>
    rw [htokens] at hskipped
    cases suffix_cons_iff.mp hskipped with
    | inl hsame => exact .inl (List.cons.inj hsame).2.symm
    | inr hlater => exact .inr hlater

theorem skipTrivia_of_solid (h : isTrivia p.current = false) : p.skipTrivia = p := by
  have hrest : p.rest.dropWhile isTrivia = p.rest := by
    cases hrest : p.rest with
    | nil => rfl
    | cons first rest =>
      rw [current, hrest] at h
      have hfirst : isTrivia first = false := h
      rw [dropWhile_cons_of_neg (by simp [hfirst])]
  rw [skipTrivia, hrest]

theorem current_plain (hplain : p.peek.kind ≠ .endOfFile) :
    p.current.kind ≠ .endOfFile := by
  intro hend
  rw [peek, skipTrivia_of_solid (solid_of_end hend)] at hplain
  exact hplain hend

theorem moves_take (h : Closed p) (hplain : p.peek.kind ≠ .endOfFile) :
    Moves p p.take := moves_pass h (current_plain hplain)

theorem moves_advance (h : Closed p) (hsolid : isTrivia p.current = false)
    (hplain : p.current.kind ≠ .endOfFile) : Moves p p.advance := by
  have htake : p.take = p.advance := by rw [take, skipTrivia_of_solid hsolid]
  rw [← htake]
  exact moves_pass h hplain

theorem size_pass (h : Closed p) (hplain : p.current.kind ≠ .endOfFile) :
    p.take.size < p.size := by
  have hnonempty : p.rest ≠ [] := by
    intro hnil
    rw [current, hnil] at hplain
    exact hplain h
  have hpos : 0 < p.size := length_pos_iff.mpr hnonempty
  have hskipped := (moves_skipTrivia p).size
  have htake : p.take.size = p.skipTrivia.size - 1 := length_tail
  omega

theorem size_take (h : Closed p) (hplain : p.peek.kind ≠ .endOfFile) :
    p.take.size < p.size := size_pass h (current_plain hplain)

theorem plain_of_kind {kind : TokenKind} (h : p.atKind kind = true)
    (hkind : kind ≠ .endOfFile) : p.peek.kind ≠ .endOfFile := by
  have hpeek : p.peek.kind = kind := by simpa [atKind] using h
  rw [hpeek]
  exact hkind

/-! ## Outcomes -/

/-- There is an outcome, with a later cursor. -/
def Lands {α : Type} (p : Parser) (x : Option (α × Parser)) : Prop :=
  ∃ a q, x = some (a, q) ∧ Moves p q

theorem Lands.some {α : Type} {p q : Parser} {a : α} (h : Moves p q) :
    Lands p (.some (a, q)) := ⟨a, q, rfl, h⟩

theorem Lands.bind {α β : Type} {x : Option (α × Parser)}
    {f : α × Parser → Option (β × Parser)} (hx : Lands p x)
    (hf : ∀ a q, x = .some (a, q) → Moves p q → Lands q (f (a, q))) : Lands p (x >>= f) := by
  have ⟨a, q, hread, hmoves⟩ := hx
  have ⟨b, r, hrest, hlater⟩ := hf a q hread hmoves
  have hwhole : (x >>= f) = .some (b, r) := by
    rw [hread]
    exact hrest
  exact ⟨b, r, hwhole, hmoves.trans hlater⟩

theorem Lands.after {α : Type} {x : Option (α × Parser)} (hmoves : Moves p q)
    (h : Lands q x) : Lands p x := by
  have ⟨a, r, hx, hlater⟩ := h
  exact ⟨a, r, hx, hmoves.trans hlater⟩

/-- One iteration of a loop ends it or goes on at a cursor. -/
inductive Iteration (State Result : Type) where
  | stop (result : Result) (p : Parser)
  | again (state : State) (p : Parser)

/-- The loop from one iteration on. -/
def Iteration.run {State Result : Type} (loop : State → Parser → Option (Result × Parser)) :
    Iteration State Result → Option (Result × Parser)
  | .stop result p => some (result, p)
  | .again state p => loop state p

theorem Iteration.run_ite {State Result : Type} (loop : State → Parser → Option (Result × Parser))
    (condition : Prop) [Decidable condition] (state : State) (result : Result) (p q : Parser) :
    Iteration.run loop (if condition then .again state p else .stop result q) =
      if condition then loop state p else some (result, q) := by
  split <;> rfl

/-- An iteration that goes on has taken a token. -/
def Iteration.Progresses {State Result : Type} (p : Parser) : Iteration State Result → Prop
  | .stop _ q => Moves p q
  | .again _ q => Moves p q ∧ q.size < p.size

theorem Lands.iterate {State Result : Type} {x : Option (Iteration State Result)}
    {loop : State → Parser → Option (Result × Parser)}
    (hx : ∃ iteration, x = .some iteration ∧ iteration.Progresses p)
    (hloop : ∀ state q, Moves p q → q.size < p.size → Lands q (loop state q)) :
    Lands p (x >>= Iteration.run loop) := by
  have ⟨iteration, hread, hprogress⟩ := hx
  rw [hread]
  cases iteration with
  | stop result q => exact Lands.some hprogress
  | again state q => exact Lands.after hprogress.1 (hloop state q hprogress.1 hprogress.2)

/-! ## Expressions -/

/-- Enough fuel for the tokens ahead gives every function of the expression parser an outcome. -/
structure ExpressionsLand (db : CharacterDatabase) (fuel : Nat) : Prop where
  expression : ∀ minimum p, Closed p → 6 * p.size + 4 ≤ fuel →
    Lands p (expression db fuel minimum p)
  binaryLoop : ∀ minimum left p, Closed p → 6 * p.size + 1 ≤ fuel →
    Lands p (binaryLoop db fuel minimum left p)
  unary : ∀ p, Closed p → 6 * p.size + 3 ≤ fuel → Lands p (unary db fuel p)
  postfixExpression : ∀ p, Closed p → 6 * p.size + 2 ≤ fuel → Lands p (postfixExpression db fuel p)
  postfixLoop : ∀ target p, Closed p → 6 * p.size + 1 ≤ fuel → Lands p (postfixLoop db fuel target p)
  primary : ∀ p, Closed p → 6 * p.size + 1 ≤ fuel → Lands p (primary db fuel p)
  indexExpression : ∀ target operator p, Closed p → p.peek.kind ≠ .endOfFile →
    6 * p.size ≤ fuel → Lands p.take (indexExpression db fuel target operator p)
  indexLoop : ∀ indices p, Closed p → 6 * p.size + 5 ≤ fuel → Lands p (indexLoop db fuel indices p)
  callExpression : ∀ callee p, Closed p → p.peek.kind ≠ .endOfFile →
    6 * p.size ≤ fuel → Lands p.take (callExpression db fuel callee p)
  callLoop : ∀ arguments p, Closed p → 6 * p.size + 5 ≤ fuel →
    Lands p (callLoop db fuel arguments p)

section

variable {fuel : Nat}

theorem expression_lands (ih : ExpressionsLand db fuel) (minimum : Nat) (h : Closed p)
    (hfuel : 6 * p.size + 4 ≤ fuel + 1) : Lands p (expression db (fuel + 1) minimum p) := by
  rw [expression]
  refine Lands.bind (ih.unary p h (by omega)) fun left q _ hmoves => ?_
  have hsize := hmoves.size
  cases left with
  | none => exact Lands.some (Moves.refl q)
  | some left => exact ih.binaryLoop minimum left q (h.moves hmoves) (by omega)

theorem binaryLoop_lands (ih : ExpressionsLand db fuel) (minimum : Nat) (left : Expression)
    (h : Closed p) (hfuel : 6 * p.size + 1 ≤ fuel + 1) :
    Lands p (binaryLoop db (fuel + 1) minimum left p) := by
  rw [binaryLoop]
  cases hoperator : binaryOperator db p with
  | none => exact Lands.some (Moves.refl p)
  | some value =>
    simp only
    split
    · exact Lands.some (Moves.refl p)
    · have hplain := plain_of_operator hoperator
      have hshorter := size_take h hplain
      have htaken := moves_take h hplain
      apply Lands.after htaken
      refine Lands.bind (ih.expression (value + 1) p.take (h.moves htaken) (by omega))
        fun right q _ hmoves => ?_
      have hsize := hmoves.size
      cases right with
      | none => exact Lands.some (moves_diagnostic q _ _ _)
      | some right => exact ih.binaryLoop _ _ q (h.moves (htaken.trans hmoves)) (by omega)

theorem unary_lands (ih : ExpressionsLand db fuel) (h : Closed p)
    (hfuel : 6 * p.size + 3 ≤ fuel + 1) : Lands p (unary db (fuel + 1) p) := by
  rw [unary]
  split
  · next hoperator =>
    have hplain := plain_of_unary hoperator
    have hshorter := size_take h hplain
    have htaken := moves_take h hplain
    apply Lands.after htaken
    refine Lands.bind (ih.unary p.take (h.moves htaken) (by omega)) fun operand q _ _ => ?_
    cases operand with
    | none => exact Lands.some (moves_diagnostic q _ _ _)
    | some operand => exact Lands.some (Moves.refl q)
  · exact ih.postfixExpression p h (by omega)

theorem postfixExpression_lands (ih : ExpressionsLand db fuel) (h : Closed p)
    (hfuel : 6 * p.size + 2 ≤ fuel + 1) : Lands p (postfixExpression db (fuel + 1) p) := by
  rw [postfixExpression]
  refine Lands.bind (ih.primary p h (by omega)) fun target q _ hmoves => ?_
  have hsize := hmoves.size
  cases target with
  | none => exact Lands.some (Moves.refl q)
  | some target => exact ih.postfixLoop target q (h.moves hmoves) (by omega)

theorem postfixLoop_lands (ih : ExpressionsLand db fuel) (target : Expression)
    (h : Closed p) (hfuel : 6 * p.size + 1 ≤ fuel + 1) :
    Lands p (postfixLoop db (fuel + 1) target p) := by
  have hloop : ∀ (e : Expression) (q : Parser), Moves p.take q → p.peek.kind ≠ .endOfFile →
      Lands q (postfixLoop db fuel e q) := by
    intro e q hmoves hplain
    have hshorter := size_take h hplain
    have hsize := hmoves.size
    exact ih.postfixLoop e q (h.moves ((moves_take h hplain).trans hmoves)) (by omega)
  rw [postfixLoop]
  simp only
  split
  · next hdot =>
    have hplain := plain_of_kind hdot (by decide)
    have hshorter := size_take h hplain
    have htaken := h.moves (moves_take h hplain)
    apply Lands.after (moves_take h hplain)
    split
    · next hbracket =>
      have hnext := plain_of_kind hbracket (by decide)
      apply Lands.after (moves_take htaken hnext)
      refine Lands.bind (ih.indexExpression target ".[]" p.take htaken hnext (by omega))
        fun indexed q _ hmoves => ?_
      exact hloop indexed q ((moves_take htaken hnext).trans hmoves) hplain
    · split
      · exact Lands.some (moves_diagnostic _ _ _ _)
      · next hmember =>
        have hnext : p.take.peek.kind ≠ .endOfFile := by
          intro hend
          rw [hend] at hmember
          exact hmember (by decide)
        have hmoves := moves_take htaken hnext
        exact Lands.after hmoves (hloop _ _ hmoves hplain)
  · split
    · next hbracket =>
      have hplain := plain_of_kind hbracket (by decide)
      apply Lands.after (moves_take h hplain)
      refine Lands.bind (ih.indexExpression target "[]" p h hplain (by omega))
        fun indexed q _ hmoves => ?_
      exact hloop indexed q hmoves hplain
    · split
      · next hparen =>
        have hplain := plain_of_kind hparen (by decide)
        apply Lands.after (moves_take h hplain)
        refine Lands.bind (ih.callExpression target p h hplain (by omega))
          fun called q _ hmoves => ?_
        exact hloop called q hmoves hplain
      · exact Lands.some (Moves.refl p)

theorem primary_lands (ih : ExpressionsLand db fuel) (h : Closed p)
    (hfuel : 6 * p.size + 1 ≤ fuel + 1) : Lands p (primary db (fuel + 1) p) := by
  have htaken : ∀ kind, p.peek.kind = kind → kind ≠ .endOfFile → Moves p p.take := by
    intro kind hkind hne
    exact moves_take h (hkind ▸ hne)
  unfold primary
  cases hkind : p.peek.kind <;> simp only [hkind]
  case identifier => split <;> exact Lands.some (htaken _ hkind (by decide))
  case literal => exact Lands.some (htaken _ hkind (by decide))
  case string => exact Lands.some (htaken _ hkind (by decide))
  case directAddress => exact Lands.some (htaken _ hkind (by decide))
  case leftParen =>
    have hplain : p.peek.kind ≠ .endOfFile := by
      rw [hkind]
      decide
    have hshorter := size_take h hplain
    have hopened := moves_take h hplain
    apply Lands.after hopened
    refine Lands.bind (ih.expression 1 p.take (h.moves hopened) (by omega)) fun inner q _ hmoves => ?_
    split
    · next hclose =>
      exact Lands.some (moves_take (h.moves (hopened.trans hmoves)) (plain_of_kind hclose (by decide)))
    · exact Lands.some (moves_diagnostic q _ _ _)
  all_goals exact Lands.some (Moves.refl p)

theorem closing_lands {α : Type} {kind : TokenKind} (hkind : kind ≠ .endOfFile)
    (h : Closed p) (closed missing : α) (code message : Text) (span : SourceSpan) :
    Lands p (if p.atKind kind then some (closed, p.take)
      else some (missing, p.diagnostic code message span)) := by
  split
  · next hclose => exact Lands.some (moves_take h (plain_of_kind hclose hkind))
  · exact Lands.some (moves_diagnostic p _ _ _)

theorem indexExpression_lands (ih : ExpressionsLand db fuel) (target : Expression) (operator : Text)
    (h : Closed p) (hplain : p.peek.kind ≠ .endOfFile) (hfuel : 6 * p.size ≤ fuel + 1) :
    Lands p.take (indexExpression db (fuel + 1) target operator p) := by
  have hshorter := size_take h hplain
  have htaken := h.moves (moves_take h hplain)
  unfold indexExpression
  refine Lands.bind (ih.indexLoop [] p.take htaken (by omega)) fun indices q _ hmoves => ?_
  exact closing_lands (by decide) (htaken.moves hmoves) _ _ _ _ _

def indexIteration (db : CharacterDatabase) (fuel : Nat) (indices : List Expression) (p : Parser) :
    Option (Iteration (List Expression) (List Expression)) :=
  if p.atKind .rightBracket then some (.stop indices p)
  else do
    let (index, p) ← expression db fuel 1 p
    let indices := indices ++ [index.getD (.missing ⟨p.peek.span.start, p.peek.span.start⟩)]
    return if p.atKind .comma then .again indices p.take else .stop indices p

theorem indexLoop_iteration (indices : List Expression) (p : Parser) :
    indexLoop db (fuel + 1) indices p =
      indexIteration db fuel indices p >>= Iteration.run (indexLoop db fuel) := by
  rw [indexLoop, indexIteration]
  split
  · rfl
  · cases expression db fuel 1 p with
    | none => rfl
    | some read =>
      rcases read with ⟨index, q⟩
      exact (Iteration.run_ite _ _ _ _ _ _).symm

theorem indexIteration_progresses (indices : List Expression) (h : Closed p)
    (hvalue : Lands p (expression db fuel 1 p)) : ∃ iteration,
    indexIteration db fuel indices p = some iteration ∧ iteration.Progresses p := by
  unfold indexIteration
  split
  · exact ⟨_, rfl, Moves.refl p⟩
  · have ⟨index, q, hread, hmoves⟩ := hvalue
    rw [hread]
    refine ⟨_, rfl, ?_⟩
    split
    · next hcomma =>
      have hq := h.moves hmoves
      have hplain := plain_of_kind hcomma (by decide)
      have hshorter := size_take hq hplain
      have hsize := hmoves.size
      exact ⟨hmoves.trans (moves_take hq hplain), by omega⟩
    · exact hmoves

theorem indexLoop_lands (ih : ExpressionsLand db fuel) (indices : List Expression)
    (h : Closed p) (hfuel : 6 * p.size + 5 ≤ fuel + 1) :
    Lands p (indexLoop db (fuel + 1) indices p) := by
  rw [indexLoop_iteration]
  refine Lands.iterate (indexIteration_progresses indices h (ih.expression 1 p h (by omega)))
    fun later q hmoves hshorter => ?_
  exact ih.indexLoop later q (h.moves hmoves) (by omega)

theorem callExpression_lands (ih : ExpressionsLand db fuel) (callee : Expression)
    (h : Closed p) (hplain : p.peek.kind ≠ .endOfFile) (hfuel : 6 * p.size ≤ fuel + 1) :
    Lands p.take (callExpression db (fuel + 1) callee p) := by
  have hshorter := size_take h hplain
  have htaken := h.moves (moves_take h hplain)
  unfold callExpression
  refine Lands.bind (ih.callLoop [] p.take htaken (by omega)) fun arguments q _ hmoves => ?_
  exact closing_lands (by decide) (htaken.moves hmoves) _ _ _ _ _

def callIteration (db : CharacterDatabase) (fuel : Nat) (arguments : List (CallArgument Expression))
    (p : Parser) :
    Option (Iteration (List (CallArgument Expression)) (List (CallArgument Expression))) :=
  if p.atKind .rightParen then some (.stop arguments p)
  else
    let start := p.peek.span.start
    if p.atKind .comma then
      let missing := Expression.missing ⟨start, start⟩
      some (.again (arguments ++ [{ span := missing.span, value := missing }]) p.take)
    else do
      let named := p.atNamedArgument
      let name := if named then some p.peek.text else none
      let direction := if named then some p.peekSecond.text else none
      let p := if named then p.take.take else p
      let (value, p) ← expression db fuel 1 p
      let missing := Expression.missing ⟨start, start⟩
      let p := if value.isNone then
          p.diagnostic "missing_call_argument" "call argument is missing" missing.span
        else p
      let value := value.getD missing
      let arguments := arguments ++ [⟨⟨start, value.span.stop⟩, value, name, direction⟩]
      return if p.atKind .comma then .again arguments p.take else .stop arguments p

theorem callLoop_iteration (arguments : List (CallArgument Expression)) (p : Parser) :
    callLoop db (fuel + 1) arguments p =
      callIteration db fuel arguments p >>= Iteration.run (callLoop db fuel) := by
  rw [callLoop, callIteration]
  split
  · rfl
  simp only
  split
  · rfl
  · cases expression db fuel 1 (if p.atNamedArgument then p.take.take else p) with
    | none => rfl
    | some read =>
      rcases read with ⟨value, q⟩
      cases value with
      | none => exact (Iteration.run_ite _ _ _ _ _ _).symm
      | some value => exact (Iteration.run_ite _ _ _ _ _ _).symm

theorem moves_named (h : Closed p) :
    Moves p (if p.atNamedArgument then p.take.take else p) := by
  split
  · next hnamed =>
    rw [atNamedArgument, Bool.and_eq_true] at hnamed
    have hfirst : p.peek.kind ≠ .endOfFile := by
      rw [beq_iff_eq.mp hnamed.1]
      decide
    have hsecond : p.take.peek.kind ≠ .endOfFile := by
      intro hend
      have hdirection := hnamed.2
      rw [show p.peekSecond = p.take.peek from rfl, hend] at hdirection
      revert hdirection
      decide
    have htaken := moves_take h hfirst
    exact htaken.trans (moves_take (h.moves htaken) hsecond)
  · exact Moves.refl p

theorem callIteration_progresses (arguments : List (CallArgument Expression))
    (h : Closed p) (hvalue : ∀ q, Moves p q → Lands q (expression db fuel 1 q)) : ∃ iteration,
    callIteration db fuel arguments p = some iteration ∧ iteration.Progresses p := by
  have hcomma : ∀ q, Moves p q → q.atKind .comma = true → Moves p q.take ∧ q.take.size < p.size := by
    intro q hmoves hkind
    have hq := h.moves hmoves
    have hplain := plain_of_kind hkind (by decide)
    have hshorter := size_take hq hplain
    have hsize := hmoves.size
    exact ⟨hmoves.trans (moves_take hq hplain), by omega⟩
  have hclose : ∀ (read : List (CallArgument Expression)) (q : Parser), Moves p q →
      (if q.atKind .comma then Iteration.again read q.take
        else Iteration.stop read q).Progresses p := by
    intro read q hmoves
    split
    · next hkind => exact hcomma q hmoves hkind
    · exact hmoves
  unfold callIteration
  split
  · exact ⟨_, rfl, Moves.refl p⟩
  simp only
  split
  · next hkind => exact ⟨_, rfl, hcomma p (Moves.refl p) hkind⟩
  · have hnamed := moves_named h
    have ⟨value, q, hread, hmoves⟩ := hvalue _ hnamed
    rw [hread]
    have hbehind := hnamed.trans hmoves
    cases value with
    | none => exact ⟨_, rfl, hclose _ _ (hbehind.trans (moves_diagnostic q _ _ _))⟩
    | some value => exact ⟨_, rfl, hclose _ _ hbehind⟩

theorem callLoop_lands (ih : ExpressionsLand db fuel) (arguments : List (CallArgument Expression))
    (h : Closed p) (hfuel : 6 * p.size + 5 ≤ fuel + 1) :
    Lands p (callLoop db (fuel + 1) arguments p) := by
  have hvalue : ∀ q, Moves p q → Lands q (expression db fuel 1 q) := by
    intro q hmoves
    have hsize := hmoves.size
    exact ih.expression 1 q (h.moves hmoves) (by omega)
  rw [callLoop_iteration]
  refine Lands.iterate (callIteration_progresses arguments h hvalue) fun later q hmoves hshorter => ?_
  exact ih.callLoop later q (h.moves hmoves) (by omega)

end

theorem expressionsLand (db : CharacterDatabase) (fuel : Nat) : ExpressionsLand db fuel := by
  induction fuel with
  | zero =>
    constructor
    case indexExpression =>
      intro target operator p h hplain hfuel
      have hshorter := size_take h hplain
      omega
    case callExpression =>
      intro callee p h hplain hfuel
      have hshorter := size_take h hplain
      omega
    all_goals intros; omega
  | succ fuel ih =>
    constructor
    · exact fun minimum p h hfuel => expression_lands ih minimum h hfuel
    · exact fun minimum left p h hfuel => binaryLoop_lands ih minimum left h hfuel
    · exact fun p h hfuel => unary_lands ih h hfuel
    · exact fun p h hfuel => postfixExpression_lands ih h hfuel
    · exact fun target p h hfuel => postfixLoop_lands ih target h hfuel
    · exact fun p h hfuel => primary_lands ih h hfuel
    · exact fun target operator p h hplain hfuel =>
        indexExpression_lands ih target operator h hplain hfuel
    · exact fun indices p h hfuel => indexLoop_lands ih indices h hfuel
    · exact fun callee p h hplain hfuel => callExpression_lands ih callee h hplain hfuel
    · exact fun arguments p h hfuel => callLoop_lands ih arguments h hfuel

/-! ## Statements -/

def recoverIteration (db : CharacterDatabase) (p : Parser) : Iteration Unit Nat :=
  if p.current.kind = .endOfFile then .stop p.current.span.stop p
  else if p.current.kind = .semicolon then .stop p.current.span.stop p.advance
  else
    let p := p.skipTrivia
    if keywordIn db ["ELSIF", "ELSE", "END_IF"] p then .stop p.current.span.start p
    else .again () p.advance

theorem recoverLoop_iteration (fuel : Nat) (p : Parser) :
    recoverLoop db (fuel + 1) p =
      some (recoverIteration db p) >>= Iteration.run fun _ => recoverLoop db fuel := by
  rw [recoverLoop, recoverIteration]
  split
  · rfl
  split
  · rfl
  simp only
  split <;> rfl

theorem recoverIteration_progresses (h : Closed p) :
    (recoverIteration db p).Progresses p := by
  unfold recoverIteration
  split
  · exact Moves.refl p
  next hplain =>
  split
  · next hsemicolon =>
    have hsolid : isTrivia p.current = false := by
      rw [isTrivia, hsemicolon]
      rfl
    exact moves_advance h hsolid hplain
  simp only
  split
  · exact moves_skipTrivia p
  · exact ⟨moves_pass h hplain, size_pass h hplain⟩

theorem recoverLoop_lands {fuel : Nat} (h : Closed p) (hfuel : p.size < fuel) :
    Lands p (recoverLoop db fuel p) := by
  induction fuel generalizing p with
  | zero => omega
  | succ fuel ih =>
    rw [recoverLoop_iteration]
    refine Lands.iterate ⟨_, rfl, recoverIteration_progresses h⟩ fun _ q hmoves hshorter => ?_
    exact ih (h.moves hmoves) (by omega)

theorem recoverStatement_lands {fuel : Nat} (code : Text) {p : Parser} (h : Closed p)
    (hfuel : p.size < fuel) : Lands p (recoverStatement db fuel code p) := by
  have hskipped := moves_skipTrivia p
  have hsize := hskipped.size
  apply Lands.after hskipped
  unfold recoverStatement
  refine Lands.bind (recoverLoop_lands (h.moves hskipped) (by omega)) fun stop q _ _ => ?_
  exact Lands.some (moves_diagnostic q _ _ _)

theorem moves_statementEnd (fallback : Nat) (h : Closed p) :
    Moves p (statementEnd fallback p).2 := by
  unfold statementEnd
  split
  · next hsemicolon => exact moves_take h (plain_of_kind hsemicolon (by decide))
  · exact moves_diagnostic p _ _ _

theorem plain_of_keyword {value : Text} (h : keyword db value p = true) :
    p.peek.kind ≠ .endOfFile := by
  have hkind : p.peek.kind = .identifier := by
    rw [keyword, Bool.and_eq_true] at h
    exact beq_iff_eq.mp h.1
  rw [hkind]
  decide

theorem moves_closeKeyword (value code message : Text) (start : Nat) (h : Closed p) :
    Moves p (closeKeyword db value code message start p).2 := by
  unfold closeKeyword
  split
  · next hkeyword =>
    have htaken := moves_take h (plain_of_keyword hkeyword)
    exact htaken.trans (moves_statementEnd _ (h.moves htaken))
  · exact moves_diagnostic p _ _ _

theorem moves_orMissing (e : Option Expression) (code message : Text) (start : Nat) (p : Parser) :
    Moves p (orMissing e code message start p).2 := by
  cases e with
  | none => exact moves_diagnostic p _ _ _
  | some e => exact Moves.refl p

theorem moves_expectKeyword (value code message : Text) (span : SourceSpan)
    (h : Closed p) : Moves p (expectKeyword db value code message span p) := by
  unfold expectKeyword
  split
  · next hkeyword => exact moves_take h (plain_of_keyword hkeyword)
  · exact moves_diagnostic p _ _ _

theorem moves_opened (condition : Option Expression) (value missing missingMessage code message : Text)
    (start : Nat) {p : Parser} (h : Closed p) :
    Moves p (expectKeyword db value code message
      (orMissing condition missing missingMessage start p).1.span
      (orMissing condition missing missingMessage start p).2) := by
  have hread := moves_orMissing condition missing missingMessage start p
  exact hread.trans (moves_expectKeyword _ _ _ _ (h.moves hread))

theorem Placed.closed {p : Parser} (h : Placed p) : Closed p := h.marker

/-- There is an outcome, and it takes a token that is no end marker. -/
def Takes {α : Type} (p : Parser) (x : Option (α × Parser)) : Prop :=
  ∃ a q, x = some (a, q) ∧ Moves p q ∧ (p.peek.kind ≠ .endOfFile → q.size < p.size)

theorem Lands.takes {α : Type} {x : Option (α × Parser)} (h : Closed p)
    (hplain : p.peek.kind ≠ .endOfFile) (hx : Lands p.take x) : Takes p x := by
  have ⟨a, q, hread, hmoves⟩ := hx
  have hshorter := size_take h hplain
  have hsize := hmoves.size
  exact ⟨a, q, hread, (moves_take h hplain).trans hmoves, fun _ => by omega⟩

theorem Lands.kept {α β : Type} {x : Option (α × Parser)} (h : Lands p x) (f : α → β) :
    Lands p (x >>= fun read => .some (f read.1, read.2)) :=
  Lands.bind h fun _ q _ _ => Lands.some (Moves.refl q)

/-- Enough fuel for the tokens ahead gives every function of the statement parser an outcome. -/
structure StatementsLand (db : CharacterDatabase) (fuel : Nat) : Prop where
  statementList : ∀ terminators statements p, Closed p → 6 * p.size + 6 ≤ fuel →
    Lands p (statementList db fuel terminators statements p)
  statement : ∀ p, Closed p → 6 * p.size + 5 ≤ fuel → Takes p (statement db fuel p)
  ifStatement : ∀ p, Closed p → p.peek.kind ≠ .endOfFile → 6 * p.size + 2 ≤ fuel →
    Lands p.take (ifStatement db fuel p)
  elsifLoop : ∀ branches p, Closed p → 6 * p.size + 2 ≤ fuel → Lands p (elsifLoop db fuel branches p)
  ifBranch : ∀ start p, Closed p → 6 * p.size + 7 ≤ fuel → Lands p (ifBranch db fuel start p)
  whileStatement : ∀ p, Closed p → p.peek.kind ≠ .endOfFile → 6 * p.size + 1 ≤ fuel →
    Lands p.take (whileStatement db fuel p)

section

variable {fuel : Nat}

theorem body_lands (ih : StatementsLand db fuel) (terminators : List Text)
    (h : Closed p) (hmoves : Moves p q) (hfuel : 6 * p.size + 6 ≤ fuel) :
    Lands q (statementList db fuel terminators [] q) := by
  have hsize := hmoves.size
  exact ih.statementList terminators [] q (h.moves hmoves) (by omega)

theorem ifBranch_lands (ih : StatementsLand db fuel) (start : Nat) (h : Closed p)
    (hfuel : 6 * p.size + 7 ≤ fuel + 1) : Lands p (ifBranch db (fuel + 1) start p) := by
  unfold ifBranch
  refine Lands.bind ((expressionsLand db fuel).expression 1 p h (by omega))
    fun condition q _ hmoves => ?_
  have hopened := @moves_opened db condition "THEN" "missing_if_condition"
    "IF branch is missing a condition" "missing_then" "IF branch is missing THEN" start
    _ (h.moves hmoves)
  apply Lands.after hopened
  refine Lands.bind (body_lands ih _ h (hmoves.trans hopened) (by omega)) fun statements r _ _ => ?_
  exact Lands.some (Moves.refl r)

theorem whileStatement_lands (ih : StatementsLand db fuel) (h : Closed p)
    (hplain : p.peek.kind ≠ .endOfFile) (hfuel : 6 * p.size + 1 ≤ fuel + 1) :
    Lands p.take (whileStatement db (fuel + 1) p) := by
  have hshorter := size_take h hplain
  have htaken := h.moves (moves_take h hplain)
  unfold whileStatement
  refine Lands.bind ((expressionsLand db fuel).expression 1 p.take htaken (by omega))
    fun condition q _ hmoves => ?_
  have hopened := @moves_opened db condition "DO" "missing_while_condition"
    "WHILE statement is missing a condition" "missing_do" "WHILE statement is missing DO"
    p.peek.span.start _ (htaken.moves hmoves)
  apply Lands.after hopened
  have hread := hmoves.trans hopened
  refine Lands.bind (body_lands ih _ htaken hread (by omega)) fun statements r _ hbody => ?_
  exact Lands.some (moves_closeKeyword _ _ _ _ (htaken.moves (hread.trans hbody)))

theorem elsifLoop_lands (ih : StatementsLand db fuel) (branches : List (IfBranch Statement))
    (h : Closed p) (hfuel : 6 * p.size + 2 ≤ fuel + 1) :
    Lands p (elsifLoop db (fuel + 1) branches p) := by
  unfold elsifLoop
  split
  · next hkeyword =>
    have hplain := plain_of_keyword hkeyword
    have hshorter := size_take h hplain
    have htaken := h.moves (moves_take h hplain)
    apply Lands.after (moves_take h hplain)
    refine Lands.bind (ih.ifBranch p.peek.span.start p.take htaken (by omega))
      fun branch q _ hmoves => ?_
    have hsize := hmoves.size
    exact ih.elsifLoop _ q (htaken.moves hmoves) (by omega)
  · exact Lands.some (Moves.refl p)

theorem ifStatement_lands (ih : StatementsLand db fuel) (h : Closed p)
    (hplain : p.peek.kind ≠ .endOfFile) (hfuel : 6 * p.size + 2 ≤ fuel + 1) :
    Lands p.take (ifStatement db (fuel + 1) p) := by
  have hshorter := size_take h hplain
  have htaken := h.moves (moves_take h hplain)
  unfold ifStatement
  refine Lands.bind (ih.ifBranch p.peek.span.start p.take htaken (by omega))
    fun first q _ hfirst => ?_
  have hsize := hfirst.size
  refine Lands.bind (ih.elsifLoop [first] q (htaken.moves hfirst) (by omega))
    fun branches r _ hbranches => ?_
  have hread := hfirst.trans hbranches
  have hr := htaken.moves hread
  simp only
  split
  · next helse =>
    have hopened := moves_take hr (plain_of_keyword helse)
    apply Lands.after hopened
    refine Lands.bind (body_lands ih _ htaken (hread.trans hopened) (by omega))
      fun statements t _ hbody => ?_
    exact Lands.some (moves_closeKeyword _ _ _ _ (hr.moves (hopened.trans hbody)))
  · exact Lands.some (moves_closeKeyword _ _ _ _ hr)

theorem statement_takes (ih : StatementsLand db fuel) (h : Closed p)
    (hfuel : 6 * p.size + 5 ≤ fuel + 1) : Takes p (statement db (fuel + 1) p) := by
  have hskipped := moves_skipTrivia p
  have hsize := hskipped.size
  have hq := h.moves hskipped
  have hskip := skipTrivia_skipTrivia p
  have hpeek : p.peek = p.skipTrivia.peek := by rw [peek, peek, hskip]
  have hcurrent : p.skipTrivia.current = p.skipTrivia.peek := by rw [peek, hskip]
  have hreturn : Takes p.skipTrivia (statement db (fuel + 1) p) → Takes p (statement db (fuel + 1) p) := by
    rintro ⟨parsed, r, hread, hmoves, htakes⟩
    refine ⟨parsed, r, hread, hskipped.trans hmoves, fun hplain => ?_⟩
    have hshorter := htakes (hpeek ▸ hplain)
    omega
  apply hreturn
  simp only [statement]
  generalize p.skipTrivia = q at hskipped hsize hq hskip hcurrent
  split
  · next hend =>
    have hpeeked : q.peek.kind = .endOfFile := hcurrent ▸ hend
    exact ⟨none, q, rfl, Moves.refl q, fun hplain => absurd hpeeked hplain⟩
  next hplain =>
  have hnext : q.peek.kind ≠ .endOfFile := hcurrent ▸ hplain
  have htake := moves_take hq hnext
  have htaken := hq.moves htake
  have hrecover : ∀ (code : Text) (r : Parser), Moves q r →
      Lands r (recoverStatement db fuel code r >>= fun read => some (some read.1, read.2)) := by
    intro code r hmoves
    have hlater := hmoves.size
    exact Lands.kept (recoverStatement_lands code (hq.moves hmoves) (by omega)) some
  have hexpression : ∀ r, Moves q r → Lands r (expression db fuel 1 r) := by
    intro r hmoves
    have hlater := hmoves.size
    exact (expressionsLand db fuel).expression 1 r (hq.moves hmoves) (by omega)
  split
  · exact Lands.takes hq hnext (Lands.kept (ih.ifStatement q hq hnext (by omega)) some)
  split
  · exact Lands.takes hq hnext (Lands.kept (ih.whileStatement q hq hnext (by omega)) some)
  split
  · exact Lands.takes hq hnext (Lands.some (moves_statementEnd _ htaken))
  split
  · apply Lands.takes hq hnext
    split
    · next hlabel =>
      have hmoves := moves_take htaken (plain_of_kind hlabel (by decide))
      exact Lands.some (hmoves.trans (moves_statementEnd _ (htaken.moves hmoves)))
    · exact hrecover _ q.take htake
  split
  · next hlabel =>
    have hcolon : q.take.peek.kind ≠ .endOfFile := by
      rw [show q.take.peek = q.peekSecond from rfl, hlabel.2]
      decide
    exact Lands.takes hq hnext (Lands.some (moves_take htaken hcolon))
  rcases hexpression q (Moves.refl q) with ⟨target, r, hread, hmoves⟩
  rcases expression_begins fuel 1 q target r hread with ⟨hnone, hsome⟩
  have hr := hq.moves hmoves
  rw [hread]
  cases target with
  | none =>
    -- nothing is taken, so the recovery starts at a token that is no name
    rcases hnone rfl with ⟨hsame, hname⟩
    subst hsame
    obtain ⟨recovered, t, hrecovered, hlands⟩ := @recoverStatement_lands db fuel
      "expected_statement" _ hq (show r.size < fuel by omega)
    have hadvanced := (recoverStatement_advances hskip hplain hname hrecovered).ahead.length_le
    have hshorter := size_take hq hnext
    refine ⟨some recovered, t, ?_, hlands, fun _ => Nat.lt_of_le_of_lt hadvanced hshorter⟩
    simp only [Option.bind_eq_bind, Option.bind_some, hrecovered]
    rfl
  | some target =>
    have hbegun := (hsome target rfl).ahead.length_le
    have hshorter := size_take hq hnext
    have hfinish : ∀ {x : Option (Option Statement × Parser)}, Lands r x → Takes q x := by
      rintro x ⟨parsed, t, hx, hlater⟩
      have hbound : r.size ≤ q.take.size := hbegun
      have hsmaller := hlater.size
      exact ⟨parsed, t, hx, hmoves.trans hlater, fun _ => by omega⟩
    apply hfinish
    simp only [Option.bind_eq_bind, Option.bind_some]
    split
    · next hassign =>
      have htakes := moves_take hr (plain_of_kind hassign (by decide))
      apply Lands.after htakes
      have hwhole := hmoves.trans htakes
      refine Lands.bind (hexpression r.take hwhole) fun value t _ hvalue => ?_
      cases value with
      | none => exact hrecover _ t (hwhole.trans hvalue)
      | some value => exact Lands.some (moves_statementEnd _ (hq.moves (hwhole.trans hvalue)))
    · have hend := moves_statementEnd target.span.stop hr
      cases target with
      | call range callee arguments => exact Lands.some hend
      | _ => exact Lands.some (hend.trans (moves_diagnostic _ _ _ _))

def statementIteration (db : CharacterDatabase) (fuel : Nat) (terminators : List Text)
    (statements : List Statement) (p : Parser) :
    Option (Iteration (List Statement) (List Statement)) :=
  if p.current.kind = .endOfFile then some (.stop statements p)
  else
    let p := p.skipTrivia
    if keywordIn db terminators p then some (.stop statements p)
    else if p.current.kind = .endOfFile then some (.stop statements p)
    else do
      let (parsed, q) ← statement db fuel p
      let statements := statements ++ parsed.toList
      if q.samePosition p then
        let (recovered, q) ← recoverStatement db fuel "unsupported_statement" q
        return .again (statements ++ [recovered]) q
      else return .again statements q

theorem statementList_iteration (terminators : List Text) (statements : List Statement) (p : Parser) :
    statementList db (fuel + 1) terminators statements p =
      statementIteration db fuel terminators statements p >>=
        Iteration.run (statementList db fuel terminators) := by
  rw [statementList, statementIteration]
  split
  · rfl
  simp only
  split
  · rfl
  split
  · rfl
  · cases statement db fuel p.skipTrivia with
    | none => rfl
    | some read =>
      rcases read with ⟨parsed, q⟩
      simp only [Option.bind_eq_bind, Option.bind_some]
      split
      · cases recoverStatement db fuel "unsupported_statement" q with
        | none => rfl
        | some recovered => rfl
      · rfl

theorem statementIteration_progresses (terminators : List Text) (statements : List Statement)
    (hstatement : Takes p.skipTrivia (statement db fuel p.skipTrivia)) :
    ∃ iteration, statementIteration db fuel terminators statements p = some iteration ∧
      iteration.Progresses p := by
  have hskipped := moves_skipTrivia p
  have hsize := hskipped.size
  have hpeek : p.skipTrivia.peek = p.skipTrivia.current := by rw [peek, skipTrivia_skipTrivia]
  unfold statementIteration
  split
  · exact ⟨_, rfl, Moves.refl p⟩
  simp only
  split
  · exact ⟨_, rfl, hskipped⟩
  split
  · exact ⟨_, rfl, hskipped⟩
  next hplain =>
  rcases hstatement with ⟨parsed, q, hread, hmoves, htakes⟩
  have hshorter := htakes (hpeek ▸ hplain)
  have hmoved : q.samePosition p.skipTrivia = false := by
    have hne : q.size ≠ p.skipTrivia.size := by omega
    exact beq_eq_false_iff_ne.mpr hne
  refine ⟨.again (statements ++ parsed.toList) q, ?_, hskipped.trans hmoves, by omega⟩
  rw [hread]
  simp only [Option.bind_eq_bind, Option.bind_some, hmoved]
  rfl

theorem statementList_lands (ih : StatementsLand db fuel) (terminators : List Text)
    (statements : List Statement) (h : Closed p) (hfuel : 6 * p.size + 6 ≤ fuel + 1) :
    Lands p (statementList db (fuel + 1) terminators statements p) := by
  have hskipped := moves_skipTrivia p
  have hsize := hskipped.size
  rw [statementList_iteration]
  refine Lands.iterate (statementIteration_progresses terminators statements
    (ih.statement _ (h.moves hskipped) (by omega))) fun later q hmoves hshorter => ?_
  exact ih.statementList terminators later q (h.moves hmoves) (by omega)

end

theorem statementsLand (db : CharacterDatabase) (fuel : Nat) : StatementsLand db fuel := by
  induction fuel with
  | zero =>
    constructor
    case ifStatement =>
      intro p h hplain hfuel
      omega
    case whileStatement =>
      intro p h hplain hfuel
      omega
    all_goals intros; omega
  | succ fuel ih =>
    constructor
    · exact fun terminators statements p h hfuel =>
        statementList_lands ih terminators statements h hfuel
    · exact fun p h hfuel => statement_takes ih h hfuel
    · exact fun p h hplain hfuel => ifStatement_lands ih h hplain hfuel
    · exact fun branches p h hfuel => elsifLoop_lands ih branches h hfuel
    · exact fun start p h hfuel => ifBranch_lands ih start h hfuel
    · exact fun p h hplain hfuel => whileStatement_lands ih h hplain hfuel

end Parser

/-! ## Documents -/

/-- Fuel for a source: a token takes at least one character, and the end marker none. -/
def parseFuel (source : Text) : Nat := 6 * source.length + 12

theorem tiles_length (source : Text) {start stop : Nat} {tokens : List StructuredTextToken}
    (h : Tiles source start tokens stop) : start + tokens.length ≤ stop := by
  induction tokens generalizing start with
  | nil => exact Nat.le_of_eq h
  | cons token tokens ih =>
    have ⟨_, hstart, hlt, _, _, _, _, htail⟩ := h
    have hrest := ih htail
    rw [length_cons]
    omega

/-- The parser has a document for every source. -/
theorem parseStructuredText_total (db : CharacterDatabase) (source : Text) :
    ∃ document, ∀ fuel, parseFuel source ≤ fuel →
      parseStructuredText db fuel source = some document := by
  have ⟨front, marker, diagnostics, hlex, htiles, _⟩ := lexStructuredText_lossless db source
  have ⟨last, hlast, hrest, hplaced⟩ := placed_start hlex
  have hlength := tiles_length source htiles
  have henough : 6 * (Parser.start source (front ++ [marker]).dropLast last diagnostics).size + 6 ≤
      parseFuel source := by
    rw [Parser.size, hrest, length_append, length_singleton, parseFuel]
    omega
  have hread : ∃ document, parseStructuredText db (parseFuel source) source = some document := by
    have ⟨statements, q, hlist, _⟩ :=
      (Parser.statementsLand db (parseFuel source)).statementList [] [] _ hplaced.closed henough
    unfold parseStructuredText
    simp only [hlex, hlast, Option.bind_eq_bind, Option.bind_some, hlist]
    exact ⟨_, rfl⟩
  have ⟨document, hdocument⟩ := hread
  refine ⟨document, fun fuel hfuel => ?_⟩
  have hlands : ∃ other, parseStructuredText db fuel source = some other := by
    have ⟨statements, q, hlist, _⟩ :=
      (Parser.statementsLand db fuel).statementList [] [] _ hplaced.closed (henough.trans hfuel)
    unfold parseStructuredText
    simp only [hlex, hlast, Option.bind_eq_bind, Option.bind_some, hlist]
    exact ⟨_, rfl⟩
  have ⟨other, hother⟩ := hlands
  have hsame := (parseStructuredText_converges hdocument).unique (parseStructuredText_converges hother)
  rw [hother, hsame]

end TwinForge.StructuredText
