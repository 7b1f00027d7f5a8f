import TwinForge.StructuredText.ExpressionRanges
import TwinForge.StructuredText.LexerLossless
import TwinForge.StructuredText.ParserFuel
import TwinForge.StructuredText.StatementWords

/-! # The source ranges of statements

The ranges of the statements of a source stand one behind the other. Every token lies in one of them
unless a statement is left without the token that ends its range.
-/

namespace TwinForge.StructuredText

open Fuel List

namespace Parser

variable {db : CharacterDatabase}

/-- Neither trivia nor the end marker. -/
def Significant (token : StructuredTextToken) : Prop :=
  isTrivia token = false ∧ token.kind ≠ .endOfFile

/-! ## Tokens before a cursor -/

theorem horizon_skipTrivia (p : Parser) : p.skipTrivia.horizon = p.horizon := by
  rw [horizon, peek, skipTrivia_skipTrivia]
  rfl

theorem current_mem (p : Parser) : p.current ∈ p.rest ++ [p.marker] := by
  unfold current
  cases p.rest with
  | nil => simp
  | cons token rest => simp

variable {token : StructuredTextToken}

theorem Placed.current_le {p : Parser} (h : Placed p) : p.current.span.start ≤ p.horizon := by
  cases hrest : p.rest with
  | nil =>
    have hpeek : p.peek = p.current := by simp [peek, current, Parser.skipTrivia, hrest]
    rw [horizon, hpeek]
  | cons token rest =>
    have hcurrent : p.current = token := by simp [current, hrest]
    cases htrivia : isTrivia token with
    | false =>
      have hpeek : p.peek = token := by
        simp [peek, current, Parser.skipTrivia, hrest, htrivia]
      rw [horizon, hpeek, hcurrent]
    | true =>
      have hordered := h.ordered
      rw [hrest, cons_append] at hordered
      have hpeek := peek_mem { p with rest := rest }
      have hsame : ({ p with rest := rest } : Parser).peek = p.peek := by
        simp [peek, current, Parser.skipTrivia, hrest, htrivia]
      rw [hsame] at hpeek
      have hnext := rel_of_pairwise_cons hordered hpeek
      have hforward := h.forward (show token ∈ p.rest ++ [p.marker] by simp [hrest])
      rw [hcurrent]
      exact hforward.trans hnext

variable {p q : Parser}

theorem Placed.ahead_or_before (h : Placed p) (hbehind : Behind p q) (hmem : token ∈ p.rest) :
    token ∈ q.rest ∨ token.span.stop ≤ q.current.span.start := by
  obtain ⟨front, hfront⟩ := hbehind.ahead
  rw [← hfront] at hmem
  obtain hearly | hlate := mem_append.mp hmem
  · right
    have hordered := h.ordered
    rw [← hfront, ← hbehind.marker, append_assoc] at hordered
    exact (pairwise_append.mp hordered).2.2 token hearly _ (current_mem q)
  · exact Or.inl hlate

/-- The tokens between the cursors end by the offset. -/
def Past (p q : Parser) (stop : Nat) : Prop :=
  ∀ token ∈ p.rest, Significant token → token.span.start < q.horizon → token.span.stop ≤ stop

theorem Past.of_current {stop : Nat} (h : Placed p) (hbehind : Behind p q)
    (hstop : q.current.span.start ≤ stop) : Past p q stop := by
  intro token hmem hsignificant hbefore
  obtain hahead | hdone := h.ahead_or_before hbehind hmem
  · have hlate := (h.behind hbehind).horizon_le hahead hsignificant.1
    omega
  · omega

theorem Past.take (h : Placed p) (hbehind : Behind p q) : Past p q.take q.peek.span.stop := by
  have hq := h.behind hbehind
  intro token hmem hsignificant hbefore
  obtain hahead | hdone := h.ahead_or_before hbehind hmem
  · have hrest := mem_skipTrivia hahead hsignificant.1
    cases hskipped : q.skipTrivia.rest with
    | nil => simp [hskipped] at hrest
    | cons first rest =>
      have hpeek : q.peek = first := by
        rw [peek, current, hskipped]
        rfl
      have htake : q.take.rest = rest := by
        rw [Parser.take, advance, hskipped]
        rfl
      rw [hskipped] at hrest
      obtain rfl | hlater := mem_cons.mp hrest
      · rw [hpeek]
      · have hlate := hq.take.horizon_le (htake ▸ hlater) hsignificant.1
        omega
  · have hcurrent := hq.current_le
    have hforward := hq.peek_forward
    omega

/-! ## Ends of ranges -/

theorem statementEnd_taken (fallback : Nat) (h : Placed p) (hbehind : Behind p q)
    (hsemicolon : q.atKind .semicolon = true) :
    Behind p (statementEnd fallback q).2 ∧
      Past p (statementEnd fallback q).2 (statementEnd fallback q).1 ∧
      (statementEnd fallback q).1 ≤ (statementEnd fallback q).2.horizon := by
  rw [statementEnd, if_pos hsemicolon]
  exact ⟨hbehind.trans (behind_take q), Past.take h hbehind, (h.behind hbehind).take_horizon⟩

theorem statementEnd_missing {q : Parser} (fallback : Nat)
    (hsemicolon : ¬ q.atKind .semicolon = true) :
    (statementEnd fallback q).1 = fallback ∧ Behind q (statementEnd fallback q).2 ∧
      (statementEnd fallback q).2.horizon = q.horizon := by
  rw [statementEnd, if_neg hsemicolon]
  exact ⟨rfl, behind_diagnostic q _ _ _, rfl⟩

theorem statementEnd_ranges {fallback : Nat} (h : Placed p) (hbehind : Behind p q)
    (hpast : Past p q fallback) (hle : fallback ≤ q.horizon) :
    Behind p (statementEnd fallback q).2 ∧
      Past p (statementEnd fallback q).2 (statementEnd fallback q).1 ∧
      (statementEnd fallback q).1 ≤ (statementEnd fallback q).2.horizon := by
  by_cases hsemicolon : q.atKind .semicolon = true
  · exact statementEnd_taken fallback h hbehind hsemicolon
  · obtain ⟨hstop, hnext, hhorizon⟩ := statementEnd_missing fallback hsemicolon
    rw [hstop, hhorizon]
    refine ⟨hbehind.trans hnext, ?_, hle⟩
    intro token hmem hsignificant hbefore
    exact hpast token hmem hsignificant (hhorizon ▸ hbefore)

theorem closeKeyword_ranges (value code message : Text) (start : Nat) (h : Placed p)
    (hbehind : Behind p q) :
    Behind p (closeKeyword db value code message start q).2 ∧
      Past p (closeKeyword db value code message start q).2
        (closeKeyword db value code message start q).1 ∧
      (closeKeyword db value code message start q).1 ≤
        (closeKeyword db value code message start q).2.horizon := by
  unfold closeKeyword
  split
  · exact statementEnd_ranges h (hbehind.trans (behind_take q)) (Past.take h hbehind)
      (h.behind hbehind).take_horizon
  · refine ⟨hbehind.trans (behind_diagnostic q _ _ _), ?_, (h.behind hbehind).current_le⟩
    intro token hmem hsignificant hbefore
    exact Past.of_current h hbehind (Nat.le_refl _) token hmem hsignificant hbefore

variable {fuel : Nat}

theorem recoverLoop_ranges {p q r : Parser} {stop : Nat} (h : Placed p)
    (hbehind : Behind p q) (hloop : recoverLoop db fuel q = some (stop, r)) :
    Behind q r ∧ Past p r stop ∧ stop ≤ r.horizon := by
  induction fuel generalizing q with
  | zero => cases hloop
  | succ fuel ih =>
    have hq := h.behind hbehind
    unfold recoverLoop at hloop
    split at hloop
    · next hend =>
      rw [Option.some.injEq, Prod.mk.injEq] at hloop
      obtain ⟨rfl, rfl⟩ := hloop
      have hhollow := hq.hollow _ (current_mem q) hend
      have hcurrent := hq.current_le
      refine ⟨Behind.refl q, Past.of_current h hbehind (Nat.le_of_eq hhollow), by omega⟩
    · split at hloop
      · next hsemicolon =>
        cases hloop
        have hpeek : q.peek = q.current ∧ q.advance = q.take := by
          cases hrest : q.rest with
          | nil =>
            have hmarker := hq.marker
            simp [current, hrest, hmarker] at hsemicolon
          | cons token rest =>
            have hkind : token.kind = .semicolon := by simpa [current, hrest] using hsemicolon
            have hplain : isTrivia token = false := by simp [isTrivia, hkind]
            have hsame : q.skipTrivia = q := by
              unfold skipTrivia
              rw [hrest, dropWhile_cons_of_neg (by simp [hplain]), ← hrest]
            exact ⟨by rw [peek, hsame], by rw [Parser.take, hsame]⟩
        rw [hpeek.2, ← hpeek.1]
        exact ⟨behind_take q, Past.take h hbehind, hq.take_horizon⟩
      · simp only at hloop
        split at hloop
        · cases hloop
          have hskip := behind_skipTrivia q
          refine ⟨hskip, Past.of_current h (hbehind.trans hskip) (Nat.le_refl _), ?_⟩
          exact hq.skipTrivia.current_le
        · obtain ⟨hnext, hpast, hle⟩ := ih (hbehind.trans (behind_take q)) hloop
          exact ⟨(behind_take q).trans hnext, hpast, hle⟩

theorem recoverStatement_ranges {p q r : Parser} {code : Text} {s : Statement}
    (h : Placed p) (hbehind : Behind p q) (hrecover : recoverStatement db fuel code q = some (s, r)) :
    Behind q r ∧ s.span.start = q.horizon ∧ Past p r s.span.stop ∧ s.span.stop ≤ r.horizon := by
  unfold recoverStatement at hrecover
  obtain ⟨⟨stop, q'⟩, hloop, hread⟩ := Option.bind_eq_some_iff.mp hrecover
  cases hread
  obtain ⟨hnext, hpast, hle⟩ :=
    recoverLoop_ranges h (hbehind.trans (behind_skipTrivia q)) hloop
  refine ⟨(behind_skipTrivia q).trans (hnext.trans (behind_diagnostic q' _ _ _)), rfl, ?_, hle⟩
  exact hpast

/-! ## What an expression takes at least -/

/-- Without a value nothing is taken and no name is ahead; with one the next token is taken. -/
def Begins (p : Parser) (x : Option (Option Expression × Parser)) : Prop :=
  ∀ e q, x = some (e, q) →
    (e = none → q = p ∧ p.peek.kind ≠ .identifier) ∧ (∀ found, e = some found → Behind p.take q)

theorem Begins.value {e : Expression} (h : Behind p.take q) : Begins p (some (some e, q)) := by
  intro found r hx
  cases hx
  exact ⟨nofun, fun _ _ => h⟩

theorem Begins.missing (h : q = p ∧ p.peek.kind ≠ .identifier) : Begins p (some (none, q)) := by
  intro found r hx
  cases hx
  exact ⟨fun _ => h, nofun⟩

theorem postfixLoop_value (fuel : Nat) (target : Expression) (p q : Parser) :
    postfixLoop db fuel target p ≠ some (none, q) := by
  induction fuel generalizing target p with
  | zero =>
    intro h
    cases h
  | succ fuel ih =>
    intro h
    simp only [postfixLoop] at h
    split at h
    · split at h
      · obtain ⟨⟨indexed, r⟩, _, hrest⟩ := Option.bind_eq_some_iff.mp h
        exact ih indexed r hrest
      · split at h
        · cases h
        · exact ih _ _ h
    · split at h
      · obtain ⟨⟨indexed, r⟩, _, hrest⟩ := Option.bind_eq_some_iff.mp h
        exact ih indexed r hrest
      · split at h
        · obtain ⟨⟨called, r⟩, _, hrest⟩ := Option.bind_eq_some_iff.mp h
          exact ih called r hrest
        · cases h

theorem binaryLoop_value (fuel minimum : Nat) (left : Expression) (p q : Parser) :
    binaryLoop db fuel minimum left p ≠ some (none, q) := by
  induction fuel generalizing left p with
  | zero =>
    intro h
    cases h
  | succ fuel ih =>
    intro h
    simp only [binaryLoop] at h
    split at h
    · cases h
    · split at h
      · cases h
      · obtain ⟨⟨right, r⟩, _, hrest⟩ := Option.bind_eq_some_iff.mp h
        cases right with
        | none => cases hrest
        | some right => exact ih _ r hrest

theorem primary_begins (fuel : Nat) (p : Parser) : Begins p (primary db fuel p) := by
  cases fuel with
  | zero =>
    intro e q h
    cases h
  | succ fuel =>
    simp only [primary]
    cases hkind : p.peek.kind <;> simp only
    case identifier =>
      split
      · exact Begins.value (Behind.refl _)
      · exact Begins.value (Behind.refl _)
    case literal => exact Begins.value (Behind.refl _)
    case string => exact Begins.value (Behind.refl _)
    case directAddress => exact Begins.value (Behind.refl _)
    case leftParen =>
      intro e q h
      obtain ⟨⟨inner, r⟩, hinner, hrest⟩ := Option.bind_eq_some_iff.mp h
      have hbehind := ((expressionsTrack db fuel).expression 1 p.take p.take
        (Alike.refl _) inner r hinner).1
      simp only at hrest
      split at hrest
      · cases hrest
        exact Begins.value (hbehind.trans (behind_take r)) _ _ rfl
      · cases hrest
        exact Begins.value (hbehind.trans (behind_diagnostic r _ _ _)) _ _ rfl
    all_goals exact Begins.missing ⟨rfl, by simp [hkind]⟩

theorem postfixExpression_begins (fuel : Nat) (p : Parser) :
    Begins p (postfixExpression db fuel p) := by
  cases fuel with
  | zero =>
    intro e q h
    cases h
  | succ fuel =>
    simp only [postfixExpression]
    intro e q h
    obtain ⟨⟨target, r⟩, hprimary, hrest⟩ := Option.bind_eq_some_iff.mp h
    obtain ⟨hnone, hsome⟩ := primary_begins fuel p target r hprimary
    cases target with
    | none =>
      cases hrest
      exact Begins.missing (hnone rfl) _ _ rfl
    | some target =>
      have hloop := ((expressionsTrack db fuel).postfixLoop target target r r rfl
        (Alike.refl r) e q hrest).1
      refine ⟨fun he => ?_, fun _ _ => (hsome target rfl).trans hloop⟩
      exact absurd (he ▸ hrest) (postfixLoop_value fuel target r q)

theorem unary_begins (fuel : Nat) (p : Parser) : Begins p (unary db fuel p) := by
  cases fuel with
  | zero =>
    intro e q h
    cases h
  | succ fuel =>
    simp only [unary]
    split
    · intro e q h
      obtain ⟨⟨operand, r⟩, hoperand, hrest⟩ := Option.bind_eq_some_iff.mp h
      have hbehind := ((expressionsTrack db fuel).unary p.take p.take (Alike.refl _)
        operand r hoperand).1
      cases operand with
      | none =>
        cases hrest
        exact Begins.value (hbehind.trans (behind_diagnostic r _ _ _)) _ _ rfl
      | some operand =>
        cases hrest
        exact Begins.value hbehind _ _ rfl
    · exact postfixExpression_begins fuel p

theorem expression_begins (fuel minimum : Nat) (p : Parser) :
    Begins p (expression db fuel minimum p) := by
  cases fuel with
  | zero =>
    intro e q h
    cases h
  | succ fuel =>
    simp only [expression]
    intro e q h
    obtain ⟨⟨left, r⟩, hunary, hrest⟩ := Option.bind_eq_some_iff.mp h
    obtain ⟨hnone, hsome⟩ := unary_begins fuel p left r hunary
    cases left with
    | none =>
      cases hrest
      exact Begins.missing (hnone rfl) _ _ rfl
    | some left =>
      have hloop := ((expressionsTrack db fuel).binaryLoop minimum left left r r rfl
        (Alike.refl r) e q hrest).1
      refine ⟨fun he => ?_, fun _ _ => (hsome left rfl).trans hloop⟩
      exact absurd (he ▸ hrest) (binaryLoop_value fuel minimum left r q)

/-! ## Statements -/

def ReadsAt (db : CharacterDatabase) (p : Parser) (e : Option Expression) (q : Parser) : Prop :=
  Converges (fun fuel => expression db fuel 1 p) (e, q)

/-- A semicolon ends the range, or the expression has no token behind its own range. -/
def ReachesEnd (p q : Parser) (e : Expression) : Prop :=
  q.atKind .semicolon = true ∨ Past p q e.span.stop

/-- A statement that is read with all its tokens: `EXIT` has its semicolon, `JMP` its label and an
assignment its value, and without a semicolon the expression ends with its last token. -/
def Covered (db : CharacterDatabase) (p : Parser) : Prop :=
  if keyword db "IF" p || keyword db "WHILE" p then True
  else if keyword db "EXIT" p then p.take.atKind .semicolon = true
  else if keyword db "JMP" p then p.take.atKind .identifier = true
  else if p.atKind .identifier ∧ p.peekSecond.kind = .colon then True
  else ∀ target q, ReadsAt db p (some target) q →
    if q.atKind .assign then ∃ value r, ReadsAt db q.take (some value) r ∧ ReachesEnd p r value
    else ReachesEnd p q target

/-- The tokens between the cursors lie in the range of the statement. -/
def Encloses (p q : Parser) (s : Statement) : Prop :=
  ∀ token ∈ p.rest, Significant token → token.span.start < q.horizon →
    s.span.start ≤ token.span.start ∧ token.span.stop ≤ s.span.stop

/-- What the range of a statement has to do with the tokens taken for it. -/
structure Spanned (p q : Parser) (s : Statement) (condition : Prop) : Prop where
  advances : Behind p.take q
  first : p.horizon ≤ s.span.start
  last : s.span.stop ≤ q.horizon
  encloses : Encloses p q s ↔ condition

theorem reads_of {e : Option Expression} (h : expression db fuel 1 p = some (e, q)) :
    ReadsAt db p e q :=
  converges_of_below (fun fuel => (expressionsGrow db fuel).expression 1 p) h

theorem Placed.peek_significant {p : Parser} (h : Placed p) (hplain : p.peek.kind ≠ .endOfFile) :
    p.peek ∈ p.rest ∧ Significant p.peek := by
  cases hskipped : p.skipTrivia.rest with
  | nil =>
    have hpeek : p.peek = p.marker := by
      rw [peek, current, hskipped]
      rfl
    rw [hpeek] at hplain
    exact absurd h.marker hplain
  | cons first rest =>
    have hpeek : p.peek = first := by
      rw [peek, current, hskipped]
      rfl
    have hhead := List.head?_dropWhile_not isTrivia p.rest
    have hdrop : p.rest.dropWhile isTrivia = first :: rest := hskipped
    rw [hdrop] at hhead
    rw [hpeek] at hplain ⊢
    exact ⟨mem_of_rest hskipped, by simpa using hhead, hplain⟩

section

variable {p q : Parser} {s : Statement} {condition : Prop}

theorem Spanned.whole (h : Placed p) (hadvances : Behind p.take q)
    (hstart : s.span.start = p.horizon) (hpast : Past p q s.span.stop)
    (hlast : s.span.stop ≤ q.horizon) (hcondition : condition) : Spanned p q s condition := by
  refine ⟨hadvances, Nat.le_of_eq hstart.symm, hlast, fun _ => hcondition, fun _ => ?_⟩
  intro token hmem hsignificant hbefore
  rw [hstart]
  exact ⟨h.horizon_le hmem hsignificant.1, hpast token hmem hsignificant hbefore⟩

theorem Spanned.late (h : Placed p) (hplain : p.peek.kind ≠ .endOfFile)
    (hadvances : Behind p.take q) (hstart : p.take.horizon ≤ s.span.start)
    (hlast : s.span.stop ≤ q.horizon) (hcondition : ¬ condition) : Spanned p q s condition := by
  obtain ⟨hmem, hsignificant⟩ := h.peek_significant hplain
  have hsolid : p.horizon < p.peek.span.stop := h.solid p.peek hmem hplain
  have hnext := h.take_horizon
  have hmono := h.take.horizon_mono hadvances
  refine ⟨hadvances, by omega, hlast, fun hencloses => ?_, fun hholds => absurd hholds hcondition⟩
  have hbefore : p.peek.span.start < q.horizon := by
    change p.horizon < q.horizon
    omega
  have hfirst := (hencloses p.peek hmem hsignificant hbefore).1
  have hhere : p.peek.span.start = p.horizon := rfl
  omega

theorem Spanned.short (h : Placed p) (hplain : p.peek.kind ≠ .endOfFile)
    (hadvances : Behind p.take q) (hstart : s.span.start = p.horizon)
    (hstop : s.span.stop = p.horizon) (hcondition : ¬ condition) : Spanned p q s condition := by
  obtain ⟨hmem, hsignificant⟩ := h.peek_significant hplain
  have hsolid : p.horizon < p.peek.span.stop := h.solid p.peek hmem hplain
  have hnext := h.take_horizon
  have hmono := h.take.horizon_mono hadvances
  refine ⟨hadvances, by omega, by omega, fun hencloses => ?_,
    fun hholds => absurd hholds hcondition⟩
  have hbefore : p.peek.span.start < q.horizon := by
    change p.horizon < q.horizon
    omega
  have hlast := (hencloses p.peek hmem hsignificant hbefore).2
  omega

theorem Spanned.ended {r : Parser} {e : Expression} (h : Placed p) (hadvances : Behind p.take r)
    (hbound : e.span.stop ≤ r.horizon) (hstart : s.span.start = p.horizon)
    (hstop : s.span.stop = (statementEnd e.span.stop r).1)
    (hq : Behind (statementEnd e.span.stop r).2 q)
    (hhorizon : q.horizon = (statementEnd e.span.stop r).2.horizon) :
    Spanned p q s (ReachesEnd p r e) := by
  have hbehind := (behind_take p).trans hadvances
  by_cases hsemicolon : r.atKind .semicolon = true
  · obtain ⟨hnext, hpast, hle⟩ := statementEnd_taken e.span.stop h hbehind hsemicolon
    obtain ⟨hnext', _, _⟩ :=
      statementEnd_taken e.span.stop h.take hadvances hsemicolon
    apply Spanned.whole h (hnext'.trans hq) hstart _ _ (Or.inl hsemicolon)
    · rw [hstop]
      intro token hmem hsignificant hbefore
      exact hpast token hmem hsignificant (hhorizon ▸ hbefore)
    · rw [hstop, hhorizon]
      exact hle
  · obtain ⟨hfallback, hnext, hsame⟩ := statementEnd_missing e.span.stop hsemicolon
    rw [hfallback] at hstop
    rw [hsame] at hhorizon
    refine ⟨hadvances.trans (hnext.trans hq), Nat.le_of_eq hstart.symm, ?_, ?_, ?_⟩
    · rw [hstop, hhorizon]
      exact hbound
    · intro hencloses
      refine Or.inr fun token hmem hsignificant hbefore => ?_
      rw [← hstop]
      exact (hencloses token hmem hsignificant (hhorizon ▸ hbefore)).2
    · intro hreaches token hmem hsignificant hbefore
      have hpast := hreaches.resolve_left hsemicolon
      rw [hstart, hstop]
      exact ⟨h.horizon_le hmem hsignificant.1,
        hpast token hmem hsignificant (hhorizon ▸ hbefore)⟩

end

theorem ifStatement_spanned {s : Statement} (h : Placed p)
    (hstatement : ifStatement db fuel p = some (s, q)) : Spanned p q s True := by
  cases fuel with
  | zero => cases hstatement
  | succ fuel =>
    have hclose : ∀ (r : Parser) (branches : List (IfBranch Statement))
        (statements : List Statement), Behind p.take r →
        some (Statement.ifThen ⟨p.peek.span.start, (closeKeyword db "END_IF" "missing_end_if"
            "IF statement is missing END_IF" p.peek.span.start r).1⟩ branches statements,
          (closeKeyword db "END_IF" "missing_end_if" "IF statement is missing END_IF"
            p.peek.span.start r).2) = some (s, q) → Spanned p q s True := by
      intro r branches statements hbehind hresult
      cases hresult
      obtain ⟨hnext, hpast, hle⟩ := @closeKeyword_ranges db p r "END_IF" "missing_end_if"
        "IF statement is missing END_IF" p.peek.span.start h ((behind_take p).trans hbehind)
      obtain ⟨hnext', _, _⟩ := @closeKeyword_ranges db p.take r "END_IF" "missing_end_if"
        "IF statement is missing END_IF" p.peek.span.start h.take hbehind
      exact Spanned.whole h hnext' rfl hpast hle trivial
    simp only [ifStatement] at hstatement
    obtain ⟨⟨first, p₁⟩, hfirst, hrest⟩ := Option.bind_eq_some_iff.mp hstatement
    obtain ⟨⟨branches, p₂⟩, hbranches, hrest'⟩ := Option.bind_eq_some_iff.mp hrest
    have hbehind₁ := ((statementsTrack db fuel).ifBranch p.peek.span.start p.peek.span.start
      p.take p.take (Alike.refl _) first p₁ hfirst).1
    have hbehind₂ := ((statementsTrack db fuel).elsifLoop _ _ p₁ p₁ rfl (Alike.refl _)
      branches p₂ hbranches).1
    have hbehind := hbehind₁.trans hbehind₂
    simp only at hrest'
    split at hrest'
    · obtain ⟨⟨statements, p₃⟩, hstatements, hlast⟩ := Option.bind_eq_some_iff.mp hrest'
      have hbehind₃ := statementList_behind (statementsTrack db fuel) hstatements
      exact hclose p₃ branches statements
        (hbehind.trans ((behind_take p₂).trans hbehind₃)) hlast
    · exact hclose p₂ branches [] hbehind hrest'

theorem whileStatement_spanned {s : Statement} (h : Placed p)
    (hstatement : whileStatement db fuel p = some (s, q)) : Spanned p q s True := by
  cases fuel with
  | zero => cases hstatement
  | succ fuel =>
    simp only [whileStatement] at hstatement
    obtain ⟨⟨condition, p₁⟩, hcondition, hrest⟩ := Option.bind_eq_some_iff.mp hstatement
    obtain ⟨⟨statements, p₂⟩, hstatements, hlast⟩ := Option.bind_eq_some_iff.mp hrest
    have hbehind₁ := ((expressionsTrack db fuel).expression 1 p.take p.take (Alike.refl _)
      condition p₁ hcondition).1
    obtain ⟨hmissing, halike, _⟩ := orMissing_alike "missing_while_condition"
      "WHILE statement is missing a condition" p.peek.span.start p.peek.span.start
      (rfl : eraseExpression condition = eraseExpression condition) (Alike.refl p₁)
    obtain ⟨hopened, _⟩ := @expectKeyword_alike db "DO" "missing_do"
      "WHILE statement is missing DO" (orMissing condition "missing_while_condition"
        "WHILE statement is missing a condition" p.peek.span.start p₁).1.span
      (orMissing condition "missing_while_condition"
        "WHILE statement is missing a condition" p.peek.span.start p₁).1.span _ _ halike
    have hbehind₂ := statementList_behind (statementsTrack db fuel) hstatements
    have hbehind := hbehind₁.trans (hmissing.trans (hopened.trans hbehind₂))
    cases hlast
    obtain ⟨hnext, hpast, hle⟩ := @closeKeyword_ranges db p p₂ "END_WHILE" "missing_end_while"
      "WHILE statement is missing END_WHILE" p.peek.span.start h
      ((behind_take p).trans hbehind)
    obtain ⟨hnext', _, _⟩ := @closeKeyword_ranges db p.take p₂ "END_WHILE" "missing_end_while"
      "WHILE statement is missing END_WHILE" p.peek.span.start h.take hbehind
    exact Spanned.whole h hnext' rfl hpast hle trivial

theorem recoverStatement_advances {code : Text} {s : Statement} (hskip : p.skipTrivia = p)
    (hplain : p.current.kind ≠ .endOfFile) (hname : p.peek.kind ≠ .identifier)
    (hrecover : recoverStatement db fuel code p = some (s, q)) : Behind p.take q := by
  unfold recoverStatement at hrecover
  obtain ⟨⟨stop, r⟩, hloop, hread⟩ := Option.bind_eq_some_iff.mp hrecover
  cases hread
  apply Behind.trans _ (behind_diagnostic r _ _ _)
  have hno : keywordIn db ["ELSIF", "ELSE", "END_IF"] p.skipTrivia = false := by
    have hpeek : p.skipTrivia.peek = p.peek := by rw [hskip]
    simp [keywordIn, hpeek, hname]
  rw [hskip] at hloop
  cases fuel with
  | zero => cases hloop
  | succ fuel =>
    have htake : p.advance = p.take := by rw [take, hskip]
    rw [recoverLoop, if_neg hplain] at hloop
    split at hloop
    · cases hloop
      rw [htake]
      exact Behind.refl _
    · simp only [hno, Bool.false_eq_true, if_false] at hloop
      exact recoverLoop_behind hloop

theorem statement_spanned {parsed : Option Statement} (h : Placed p) (hskip : p.skipTrivia = p)
    (hplain : p.current.kind ≠ .endOfFile) (hstatement : statement db fuel p = some (parsed, q)) :
    ∃ s, parsed = some s ∧ Spanned p q s (Covered db p) := by
  have hcurrent : p.current = p.peek := by rw [peek, hskip]
  have hplain' : p.peek.kind ≠ .endOfFile := hcurrent ▸ hplain
  have hstart : p.current.span.start = p.horizon := by rw [hcurrent, horizon]
  cases fuel with
  | zero => cases hstatement
  | succ fuel =>
    simp only [statement, hskip, if_neg hplain] at hstatement
    unfold Covered
    split at hstatement
    · next hif =>
      obtain ⟨⟨s, r⟩, hs, hresult⟩ := Option.bind_eq_some_iff.mp hstatement
      cases hresult
      rw [if_pos (by simp [hif])]
      exact ⟨s, rfl, ifStatement_spanned h hs⟩
    split at hstatement
    · next hwhile =>
      obtain ⟨⟨s, r⟩, hs, hresult⟩ := Option.bind_eq_some_iff.mp hstatement
      cases hresult
      rw [if_pos (by simp [hwhile])]
      exact ⟨s, rfl, whileStatement_spanned h hs⟩
    next hif hwhile =>
    rw [if_neg (by simp [hif, hwhile])]
    split at hstatement
    · next hexit =>
      rw [if_pos hexit]
      cases hstatement
      refine ⟨_, rfl, ?_⟩
      by_cases hsemicolon : p.take.atKind .semicolon = true
      · obtain ⟨_, hpast, hle⟩ := statementEnd_taken p.current.span.start h
          (behind_take p) hsemicolon
        obtain ⟨hnext, _, _⟩ := statementEnd_taken p.current.span.start h.take
          (Behind.refl _) hsemicolon
        exact Spanned.whole h hnext hstart hpast hle hsemicolon
      · obtain ⟨hfallback, hnext, _⟩ :=
          statementEnd_missing p.current.span.start hsemicolon
        exact Spanned.short h hplain' hnext hstart (hfallback.trans hstart) hsemicolon
    split at hstatement
    · next hexit hjump =>
      rw [if_neg hexit, if_pos hjump]
      split at hstatement
      · next hlabel =>
        cases hstatement
        obtain ⟨hnext, hpast, hle⟩ := statementEnd_ranges h
          ((behind_take p).trans (behind_take p.take)) (Past.take h (behind_take p))
          h.take.take_horizon
        obtain ⟨hnext', _, _⟩ := statementEnd_ranges h.take (behind_take p.take)
          (Past.take h.take (Behind.refl _)) h.take.take_horizon
        exact ⟨_, rfl, Spanned.whole h hnext' hstart hpast hle hlabel⟩
      · next hlabel =>
        obtain ⟨⟨s, r⟩, hs, hresult⟩ := Option.bind_eq_some_iff.mp hstatement
        cases hresult
        obtain ⟨hnext, hfirst, _, hle⟩ := recoverStatement_ranges h (behind_take p) hs
        exact ⟨s, rfl, Spanned.late h hplain' hnext (Nat.le_of_eq hfirst.symm) hle hlabel⟩
    next hexit hjump =>
    rw [if_neg hexit, if_neg hjump]
    split at hstatement
    · next hlabel =>
      rw [if_pos hlabel]
      cases hstatement
      refine ⟨_, rfl, Spanned.whole h (behind_take p.take) hstart ?_ ?_ trivial⟩
      · exact Past.take h (behind_take p)
      · exact h.take.take_horizon
    next hlabel =>
    rw [if_neg hlabel]
    obtain ⟨⟨target, r⟩, htarget, hrest⟩ := Option.bind_eq_some_iff.mp hstatement
    obtain ⟨hnone, hsome⟩ := expression_begins fuel 1 p target r htarget
    obtain ⟨hr, hbound⟩ := expression_bound h htarget
    have hreads := reads_of htarget
    cases target with
    | none =>
      obtain ⟨rfl, hname⟩ := hnone rfl
      obtain ⟨⟨s, t⟩, hs, hresult⟩ := Option.bind_eq_some_iff.mp hrest
      cases hresult
      obtain ⟨_, hfirst, hpast, hle⟩ := recoverStatement_ranges h (Behind.refl _) hs
      have hadvances := recoverStatement_advances hskip hplain hname hs
      refine ⟨s, rfl, Spanned.whole h hadvances hfirst hpast hle ?_⟩
      intro target r hread
      have hunique := hreads.unique hread
      cases hunique
    | some target =>
      have hbehind := hsome target rfl
      -- the expression read at the cursor is this one
      have honly : ∀ condition : Expression → Parser → Prop,
          (∀ e q, ReadsAt db p (some e) q → condition e q) ↔ condition target r := by
        intro condition
        constructor
        · exact fun hall => hall target r hreads
        · intro hone e q hread
          have hunique := hreads.unique hread
          cases hunique
          exact hone
      rw [honly]
      simp only at hrest
      split at hrest
      · next hassign =>
        rw [if_pos hassign]
        obtain ⟨⟨value, t⟩, hvalue, hlast⟩ := Option.bind_eq_some_iff.mp hrest
        have hbehind' := hbehind.trans (behind_take r)
        obtain ⟨hnone', hsome'⟩ := expression_begins fuel 1 r.take value t hvalue
        obtain ⟨ht, hbound'⟩ := expression_bound hr.take hvalue
        have hreads' := reads_of hvalue
        cases value with
        | none =>
          obtain ⟨rfl, _⟩ := hnone' rfl
          obtain ⟨⟨s, u⟩, hs, hresult⟩ := Option.bind_eq_some_iff.mp hlast
          cases hresult
          obtain ⟨hnext, hfirst, _, hle⟩ :=
            recoverStatement_ranges h ((behind_take p).trans hbehind') hs
          have hlate := h.take.horizon_mono hbehind'
          refine ⟨s, rfl, Spanned.late h hplain' (hbehind'.trans hnext)
            (hlate.trans (Nat.le_of_eq hfirst.symm)) hle ?_⟩
          intro hvalue
          obtain ⟨e, q, hread, _⟩ := hvalue
          have hunique := hreads'.unique hread
          cases hunique
        | some value =>
          cases hlast
          have hadvances := hbehind'.trans ((behind_take r.take).trans (hsome' value rfl))
          refine ⟨_, rfl, ?_⟩
          have hended := @Spanned.ended p _
            (.assignment ⟨p.current.span.start, (statementEnd value.span.stop t).1⟩ target
              r.peek.text value) t value h hadvances (hbound' value rfl) hstart rfl
            (Behind.refl _) rfl
          refine ⟨hended.advances, hended.first, hended.last, hended.encloses.trans ?_⟩
          constructor
          · exact fun hreaches => ⟨value, t, hreads', hreaches⟩
          · intro hvalue
            obtain ⟨e, q, hread, hreaches⟩ := hvalue
            have hunique := hreads'.unique hread
            cases hunique
            exact hreaches
      · next hassign =>
        rw [if_neg hassign]
        have hended : ∀ (s : Statement) (q : Parser),
            s.span = ⟨p.current.span.start, (statementEnd target.span.stop r).1⟩ →
            Behind (statementEnd target.span.stop r).2 q →
            q.horizon = (statementEnd target.span.stop r).2.horizon →
            Spanned p q s (ReachesEnd p r target) := by
          intro s q hspan hq hhorizon
          apply Spanned.ended h hbehind (hbound target rfl) _ _ hq hhorizon
          · rw [hspan]
            exact hstart
          · rw [hspan]
        cases target with
        | call =>
          cases hrest
          exact ⟨_, rfl, hended _ _ rfl (Behind.refl _) rfl⟩
        | _ =>
          cases hrest
          exact ⟨_, rfl, hended _ _ rfl (behind_diagnostic _ _ _ _) rfl⟩

end Parser

end TwinForge.StructuredText
