import TwinForge.StructuredText.StatementRanges

/-! # The expressions of statements

The expressions of a statement list stand one behind the other in the source, and the ranges in each
of them nest.
-/

namespace TwinForge.StructuredText

open List

mutual

def statementExpressions : Statement → List Expression
  | .assignment _ target _ value => [target, value]
  | .expression _ e => [e]
  | .ifThen _ branches elseStatements =>
    branchesExpressions branches ++ statementsExpressions elseStatements
  | .whileDo _ condition statements => condition :: statementsExpressions statements
  | _ => []

def statementsExpressions : List Statement → List Expression
  | [] => []
  | s :: rest => statementExpressions s ++ statementsExpressions rest

def branchesExpressions : List (IfBranch Statement) → List Expression
  | [] => []
  | branch :: rest => branchExpressions branch ++ branchesExpressions rest

def branchExpressions : IfBranch Statement → List Expression
  | ⟨_, condition, statements⟩ => condition :: statementsExpressions statements

end

theorem statementsExpressions_append (first second : List Statement) :
    statementsExpressions (first ++ second) =
      statementsExpressions first ++ statementsExpressions second := by
  induction first with
  | nil => simp [statementsExpressions]
  | cons s rest ih => simp [statementsExpressions, ih]

theorem statementsExpressions_one (s : Statement) :
    statementsExpressions [s] = statementExpressions s := by simp [statementsExpressions]

theorem branchesExpressions_append (first second : List (IfBranch Statement)) :
    branchesExpressions (first ++ second) =
      branchesExpressions first ++ branchesExpressions second := by
  induction first with
  | nil => simp [branchesExpressions]
  | cons branch rest ih => simp [branchesExpressions, ih]

theorem branchesExpressions_one (branch : IfBranch Statement) :
    branchesExpressions [branch] = branchExpressions branch := by simp [branchesExpressions]

namespace Parser

variable {db : CharacterDatabase} {lax : Prop} {low fuel : Nat} {p q : Parser}

abbrev KnownStatement (lax : Prop) (low : Nat) (s : Statement) : Parser → Prop :=
  Known lax low (statementExpressions s)

abbrev KnownStatements (lax : Prop) (low : Nat) (statements : List Statement) : Parser → Prop :=
  Known lax low (statementsExpressions statements)

abbrev KnownBranch (lax : Prop) (low : Nat) (branch : IfBranch Statement) : Parser → Prop :=
  Known lax low (branchExpressions branch)

abbrev KnownBranches (lax : Prop) (low : Nat) (branches : List (IfBranch Statement)) :
    Parser → Prop :=
  Known lax low (branchesExpressions branches)

/-- Every function of the statement parser, with a given fuel. -/
structure StatementsEnd (db : CharacterDatabase) (lax : Prop) (fuel : Nat) : Prop where
  statementList : ∀ terminators low statements p, Placed p → KnownStatements lax low statements p →
    Ends (KnownStatements lax low) p (statementList db fuel terminators statements p)
  statement : ∀ p, Placed p →
    Ends (fun s => KnownStatements lax p.horizon s.toList) p (statement db fuel p)
  ifStatement : ∀ p, Placed p → Ends (KnownStatement lax p.horizon) p (ifStatement db fuel p)
  elsifLoop : ∀ low branches p, Placed p → KnownBranches lax low branches p →
    Ends (KnownBranches lax low) p (elsifLoop db fuel branches p)
  ifBranch : ∀ start p, Placed p → start ≤ p.horizon →
    Ends (KnownBranch lax start) p (ifBranch db fuel start p)
  whileStatement : ∀ p, Placed p →
    Ends (KnownStatement lax p.horizon) p (whileStatement db fuel p)

theorem behind_statementEnd (fallback : Nat) (p : Parser) :
    Behind p (statementEnd fallback p).2 :=
  (statementEnd_alike fallback fallback (Alike.refl p)).1

theorem behind_closeKeyword (value code message : Text) (start : Nat) (p : Parser) :
    Behind p (closeKeyword db value code message start p).2 :=
  (closeKeyword_alike value code message start start (Alike.refl p)).1

theorem recoverStatement_ends (code : Text) (h : Placed p) (hlow : low ≤ p.horizon) :
    Ends (KnownStatement lax low) p (recoverStatement db fuel code p) := by
  intro s q hrecover
  have hbehind := (recoverStatement_reported hrecover).1
  refine ⟨hbehind, ?_⟩
  unfold recoverStatement at hrecover
  have ⟨⟨stop, r⟩, _, hread⟩ := Option.bind_eq_some_iff.mp hrecover
  cases hread
  exact Known.nil (hlow.trans (h.horizon_mono hbehind))

theorem conditioned_ends (ih : StatementsEnd db lax fuel) (terminators : List Text)
    {condition : Expression} {value code message : Text} {span : SourceSpan} (h : Placed p)
    (hcondition : Known lax low [condition] p) :
    Ends (fun statements => Known lax low (condition :: statementsExpressions statements)) p
      (statementList db fuel terminators [] (expectKeyword db value code message span p)) := by
  have hopened := (@expectKeyword_alike db value code message span span _ _ (Alike.refl p)).1
  have hplaced := h.behind hopened
  intro statements r hread
  have ⟨hbehind, hknown⟩ := ih.statementList terminators _ [] _ hplaced
    (Known.nil (Nat.le_refl _)) statements r hread
  exact ⟨hopened.trans hbehind, (hcondition.behind h hopened).append hknown hbehind⟩

theorem orMissing_ends (code message : Text) {start : Nat} (hstart : start ≤ p.horizon)
    {e : Option Expression} (hknown : KnownOption lax start e p) :
    Behind p (orMissing e code message start p).2 ∧
      Known lax start [(orMissing e code message start p).1]
        (orMissing e code message start p).2 := by
  cases e with
  | none => exact ⟨behind_diagnostic p _ _ _, fun _ => Laid.missing (Nat.le_refl _) hstart⟩
  | some e => exact ⟨Behind.refl p, hknown⟩

theorem ifBranch_ends (ih : StatementsEnd db lax fuel) {start : Nat} (h : Placed p)
    (hstart : start ≤ p.horizon) :
    Ends (KnownBranch lax start) p (ifBranch db (fuel + 1) start p) := by
  simp only [ifBranch]
  refine Ends.bind ((expressionsEnd db lax fuel).expression 1 start p h hstart)
    fun condition q hbehind hknown => ?_
  have hq := h.behind hbehind
  obtain ⟨hmissing, hcondition⟩ := orMissing_ends "missing_if_condition"
    "IF branch is missing a condition" (hstart.trans (h.horizon_mono hbehind)) hknown
  apply Ends.after hmissing
  refine Ends.bind (conditioned_ends ih _ (hq.behind hmissing) hcondition)
    fun statements r _ hstatements => ?_
  exact Ends.some (Behind.refl r) hstatements

theorem elsifLoop_ends (ih : StatementsEnd db lax fuel) {branches : List (IfBranch Statement)}
    (h : Placed p) (hbranches : KnownBranches lax low branches p) :
    Ends (KnownBranches lax low) p (elsifLoop db (fuel + 1) branches p) := by
  simp only [elsifLoop]
  split
  · apply Ends.after (behind_take p)
    refine Ends.bind (ih.ifBranch p.peek.span.start p.take h.take h.horizon_take)
      fun branch q hbehind hknown => ?_
    apply ih.elsifLoop low _ q (h.take.behind hbehind)
    rw [KnownBranches, branchesExpressions_append, branchesExpressions_one]
    exact hbranches.append hknown ((behind_take p).trans hbehind)
  · exact Ends.some (Behind.refl p) hbranches

theorem ifStatement_ends (ih : StatementsEnd db lax fuel) (h : Placed p) :
    Ends (KnownStatement lax p.horizon) p (ifStatement db (fuel + 1) p) := by
  simp only [ifStatement]
  apply Ends.after (behind_take p)
  refine Ends.bind (ih.ifBranch p.peek.span.start p.take h.take h.horizon_take)
    fun first q hbehind hfirst => ?_
  have hq := h.take.behind hbehind
  have hone : KnownBranches lax p.horizon [first] q := by
    rwa [KnownBranches, branchesExpressions_one]
  refine Ends.bind (ih.elsifLoop p.horizon [first] q hq hone) fun branches r hbehind' hbranches => ?_
  have hr := hq.behind hbehind'
  have hclose : ∀ (statements : List Statement) (t : Parser), Placed t →
      Known lax p.horizon (branchesExpressions branches ++ statementsExpressions statements) t →
      Ends (KnownStatement lax p.horizon) t (some (Statement.ifThen ⟨p.peek.span.start,
        (closeKeyword db "END_IF" "missing_end_if" "IF statement is missing END_IF"
          p.peek.span.start t).1⟩ branches statements,
        (closeKeyword db "END_IF" "missing_end_if" "IF statement is missing END_IF"
          p.peek.span.start t).2)) := by
    intro statements t ht hall
    have hclosed := @behind_closeKeyword db "END_IF" "missing_end_if"
      "IF statement is missing END_IF" p.peek.span.start t
    exact Ends.some hclosed (hall.behind ht hclosed)
  simp only
  split
  · apply Ends.after (behind_take r)
    refine Ends.bind (ih.statementList _ _ [] _ hr.take (Known.nil (Nat.le_refl _)))
      fun statements t hlater hstatements => ?_
    exact hclose statements t (hr.take.behind hlater)
      ((hbranches.behind hr (behind_take r)).append hstatements hlater)
  · apply hclose [] r hr
    rwa [statementsExpressions, append_nil]

theorem whileStatement_ends (ih : StatementsEnd db lax fuel) (h : Placed p) :
    Ends (KnownStatement lax p.horizon) p (whileStatement db (fuel + 1) p) := by
  simp only [whileStatement]
  apply Ends.after (behind_take p)
  refine Ends.bind ((expressionsEnd db lax fuel).expression 1 p.horizon p.take h.take h.horizon_take)
    fun condition q hbehind hknown => ?_
  have hq := h.take.behind hbehind
  obtain ⟨hmissing, hcondition⟩ := orMissing_ends "missing_while_condition"
    "WHILE statement is missing a condition"
    (h.horizon_take.trans (h.take.horizon_mono hbehind)) hknown
  have hplaced := hq.behind hmissing
  apply Ends.after hmissing
  refine Ends.bind (conditioned_ends ih _ hplaced hcondition) fun statements r hbehind' hall => ?_
  have hclosed := @behind_closeKeyword db "END_WHILE" "missing_end_while"
    "WHILE statement is missing END_WHILE" p.peek.span.start r
  exact Ends.some hclosed (hall.behind (hplaced.behind hbehind') hclosed)

theorem parsed_ends {x : Option (Statement × Parser)} (h : Ends (KnownStatement lax low) p x) :
    Ends (fun s => KnownStatements lax low s.toList) p
      (x >>= fun read => some (some read.1, read.2)) := by
  refine Ends.bind h fun s q _ hknown => ?_
  apply Ends.some (Behind.refl q)
  rwa [Option.toList_some, KnownStatements, statementsExpressions_one]

theorem statement_ends (ih : StatementsEnd db lax fuel) (h : Placed p) :
    Ends (fun s => KnownStatements lax p.horizon s.toList) p (statement db (fuel + 1) p) := by
  have hskipped := h.skipTrivia
  simp only [statement]
  rw [← horizon_skipTrivia p]
  apply Ends.after (behind_skipTrivia p)
  generalize p.skipTrivia = q at hskipped
  have hplain : ∀ (s : Statement) (r : Parser), Behind q r → statementExpressions s = [] →
      Ends (fun s => KnownStatements lax q.horizon s.toList) q (some (some s, r)) := by
    intro s r hbehind hnone
    apply Ends.some hbehind
    rw [Option.toList_some, KnownStatements, statementsExpressions_one, hnone]
    exact Known.nil (hskipped.horizon_mono hbehind)
  split
  · exact Ends.some (Behind.refl q) (Known.nil (Nat.le_refl _))
  split
  · exact parsed_ends (ih.ifStatement q hskipped)
  split
  · exact parsed_ends (ih.whileStatement q hskipped)
  split
  · exact hplain _ _ ((behind_take q).trans (behind_statementEnd _ q.take)) rfl
  split
  · split
    · exact hplain _ _ ((behind_take q).trans
        ((behind_take q.take).trans (behind_statementEnd _ q.take.take))) rfl
    · exact parsed_ends (Ends.after (behind_take q)
        (recoverStatement_ends "missing_jump_label" hskipped.take hskipped.horizon_take))
  split
  · exact hplain _ _ ((behind_take q).trans (behind_take q.take)) rfl
  refine Ends.bind ((expressionsEnd db lax fuel).expression 1 q.horizon q hskipped (Nat.le_refl _))
    fun target r hbehind htarget => ?_
  have hr := hskipped.behind hbehind
  cases target with
  | none =>
    exact parsed_ends (recoverStatement_ends "expected_statement" hr
      (hskipped.horizon_mono hbehind))
  | some target =>
    simp only
    split
    · apply Ends.after (behind_take r)
      refine Ends.bind ((expressionsEnd db lax fuel).expression 1 r.take.horizon r.take hr.take
        (Nat.le_refl _)) fun value t hbehind' hvalue => ?_
      have ht := hr.take.behind hbehind'
      have hall := (hbehind.trans (behind_take r)).trans hbehind'
      cases value with
      | none =>
        exact parsed_ends (recoverStatement_ends "expected_assignment_value" ht
          (hskipped.horizon_mono hall))
      | some value =>
        have hended := behind_statementEnd value.span.stop t
        apply Ends.some hended
        rw [Option.toList_some, KnownStatements, statementsExpressions_one]
        exact ((htarget.behind hr (behind_take r)).append hvalue hbehind').behind ht hended
    · have hended := behind_statementEnd target.span.stop r
      cases target with
      | call range callee arguments =>
        apply Ends.some hended
        rw [Option.toList_some, KnownStatements, statementsExpressions_one]
        exact htarget.behind hr hended
      | _ =>
        apply Ends.some (hended.trans (behind_diagnostic _ _ _ _))
        apply Known.diagnostic
        exact Known.nil (hskipped.horizon_mono (hbehind.trans hended))

theorem statementList_ends (ih : StatementsEnd db lax fuel) (terminators : List Text)
    {statements : List Statement} (h : Placed p) (hknown : KnownStatements lax low statements p) :
    Ends (KnownStatements lax low) p (statementList db (fuel + 1) terminators statements p) := by
  have hskipped := h.skipTrivia
  have hknown' := hknown.behind h (behind_skipTrivia p)
  simp only [statementList]
  split
  · exact Ends.some (Behind.refl p) hknown
  apply Ends.after (behind_skipTrivia p)
  generalize p.skipTrivia = q at hskipped hknown'
  split
  · exact Ends.some (Behind.refl q) hknown'
  split
  · exact Ends.some (Behind.refl q) hknown'
  refine Ends.bind (ih.statement q hskipped) fun parsed r hbehind hparsed => ?_
  have hr := hskipped.behind hbehind
  have hmore : KnownStatements lax low (statements ++ parsed.toList) r := by
    rw [KnownStatements, statementsExpressions_append]
    exact hknown'.append hparsed hbehind
  simp only
  split
  · refine Ends.bind (@recoverStatement_ends db lax _ fuel r "unsupported_statement" hr
      (Nat.le_refl _)) fun recovered t hbehind' hrecovered => ?_
    apply ih.statementList terminators low _ t (hr.behind hbehind')
    rw [KnownStatements, statementsExpressions_append, statementsExpressions_one]
    exact hmore.append hrecovered hbehind'
  · exact ih.statementList terminators low _ r hr hmore

theorem statementsEnd (db : CharacterDatabase) (lax : Prop) (fuel : Nat) :
    StatementsEnd db lax fuel := by
  induction fuel with
  | zero => constructor <;> intros <;> exact Ends.none
  | succ fuel ih =>
    constructor
    · exact fun terminators _ statements p h hknown => statementList_ends ih terminators h hknown
    · exact fun p h => statement_ends ih h
    · exact fun p h => ifStatement_ends ih h
    · exact fun _ branches p h hknown => elsifLoop_ends ih h hknown
    · exact fun _ p h hstart => ifBranch_ends ih h hstart
    · exact fun p h => whileStatement_ends ih h

end Parser

end TwinForge.StructuredText
