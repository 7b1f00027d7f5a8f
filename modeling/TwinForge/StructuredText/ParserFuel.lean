import TwinForge.Foundation.Fuel
import TwinForge.StructuredText.Parser

/-! # The fuel of the parser

What the parser returns with some fuel it returns with more.
-/

namespace TwinForge.StructuredText

open Fuel

namespace Parser

variable {db : CharacterDatabase}

/-- More fuel changes no result of the expression parser. -/
structure ExpressionsGrow (db : CharacterDatabase) (fuel : Nat) : Prop where
  expression : ∀ minimum p,
    Below (expression db fuel minimum p) (expression db (fuel + 1) minimum p)
  binaryLoop : ∀ minimum left p,
    Below (binaryLoop db fuel minimum left p) (binaryLoop db (fuel + 1) minimum left p)
  unary : ∀ p, Below (unary db fuel p) (unary db (fuel + 1) p)
  postfixExpression : ∀ p,
    Below (postfixExpression db fuel p) (postfixExpression db (fuel + 1) p)
  postfixLoop : ∀ target p,
    Below (postfixLoop db fuel target p) (postfixLoop db (fuel + 1) target p)
  primary : ∀ p, Below (primary db fuel p) (primary db (fuel + 1) p)
  indexExpression : ∀ target operator p,
    Below (indexExpression db fuel target operator p)
      (indexExpression db (fuel + 1) target operator p)
  indexLoop : ∀ indices p, Below (indexLoop db fuel indices p) (indexLoop db (fuel + 1) indices p)
  callExpression : ∀ callee p,
    Below (callExpression db fuel callee p) (callExpression db (fuel + 1) callee p)
  callLoop : ∀ arguments p,
    Below (callLoop db fuel arguments p) (callLoop db (fuel + 1) arguments p)

theorem expressionsGrow (db : CharacterDatabase) (fuel : Nat) : ExpressionsGrow db fuel := by
  induction fuel with
  | zero => constructor <;> intros <;> exact Below.none
  | succ fuel ih =>
    constructor
    case expression =>
      intro minimum p
      rw [expression, expression]
      refine Below.bind (ih.unary p) fun r => ?_
      split
      · exact Below.refl _
      · exact ih.binaryLoop _ _ _
    case binaryLoop =>
      intro minimum left p
      rw [binaryLoop, binaryLoop]
      split
      · exact Below.refl _
      · split
        · exact Below.refl _
        · refine Below.bind (ih.expression _ _) fun r => ?_
          split
          · exact Below.refl _
          · exact ih.binaryLoop _ _ _
    case unary =>
      intro p
      rw [unary, unary]
      split
      · refine Below.bind (ih.unary _) fun r => ?_
        split <;> exact Below.refl _
      · exact ih.postfixExpression p
    case postfixExpression =>
      intro p
      rw [postfixExpression, postfixExpression]
      refine Below.bind (ih.primary p) fun r => ?_
      split
      · exact Below.refl _
      · exact ih.postfixLoop _ _
    case postfixLoop =>
      intro target p
      rw [postfixLoop, postfixLoop]
      simp only
      split
      · split
        · exact Below.bind (ih.indexExpression _ _ _) fun r => ih.postfixLoop _ _
        · split
          · exact Below.refl _
          · exact ih.postfixLoop _ _
      · split
        · exact Below.bind (ih.indexExpression _ _ _) fun r => ih.postfixLoop _ _
        · split
          · exact Below.bind (ih.callExpression _ _) fun r => ih.postfixLoop _ _
          · exact Below.refl _
    case primary =>
      intro p
      simp only [primary]
      cases p.peek.kind <;> simp only
      case leftParen => exact Below.bind (ih.expression _ _) fun r => Below.refl _
      all_goals exact Below.refl _
    case indexExpression =>
      intro target operator p
      simp only [indexExpression]
      exact Below.bind (ih.indexLoop _ _) fun r => Below.refl _
    case indexLoop =>
      intro indices p
      rw [indexLoop, indexLoop]
      split
      · exact Below.refl _
      · refine Below.bind (ih.expression _ _) fun r => ?_
        simp only
        split
        · exact ih.indexLoop _ _
        · exact Below.refl _
    case callExpression =>
      intro callee p
      simp only [callExpression]
      exact Below.bind (ih.callLoop _ _) fun r => Below.refl _
    case callLoop =>
      intro arguments p
      simp only [callLoop]
      split
      · exact Below.refl _
      · split
        · exact ih.callLoop _ _
        · refine Below.bind (ih.expression _ _) fun r => ?_
          -- the value may be missing, and a comma may follow
          split <;> split
          · exact ih.callLoop _ _
          · exact Below.refl _
          · exact ih.callLoop _ _
          · exact Below.refl _

theorem recoverLoop_grows (fuel : Nat) (p : Parser) :
    Below (recoverLoop db fuel p) (recoverLoop db (fuel + 1) p) := by
  induction fuel generalizing p with
  | zero => exact Below.none
  | succ fuel ih =>
    rw [recoverLoop, recoverLoop]
    split
    · exact Below.refl _
    · split
      · exact Below.refl _
      · simp only
        split
        · exact Below.refl _
        · exact ih _

theorem recoverStatement_grows (fuel : Nat) (code : Text) (p : Parser) :
    Below (recoverStatement db fuel code p) (recoverStatement db (fuel + 1) code p) :=
  Below.bind (recoverLoop_grows fuel _) fun _ => Below.refl _

/-- More fuel changes no result of the statement parser. -/
structure StatementsGrow (db : CharacterDatabase) (fuel : Nat) : Prop where
  statementList : ∀ terminators statements p,
    Below (statementList db fuel terminators statements p)
      (statementList db (fuel + 1) terminators statements p)
  statement : ∀ p, Below (statement db fuel p) (statement db (fuel + 1) p)
  ifStatement : ∀ p, Below (ifStatement db fuel p) (ifStatement db (fuel + 1) p)
  elsifLoop : ∀ branches p,
    Below (elsifLoop db fuel branches p) (elsifLoop db (fuel + 1) branches p)
  ifBranch : ∀ start p, Below (ifBranch db fuel start p) (ifBranch db (fuel + 1) start p)
  whileStatement : ∀ p, Below (whileStatement db fuel p) (whileStatement db (fuel + 1) p)

theorem statementsGrow (db : CharacterDatabase) (fuel : Nat) : StatementsGrow db fuel := by
  induction fuel with
  | zero => constructor <;> intros <;> exact Below.none
  | succ fuel ih =>
    have hexpression := (expressionsGrow db fuel).expression
    constructor
    case statementList =>
      intro terminators statements p
      simp only [statementList]
      split
      · exact Below.refl _
      · split
        · exact Below.refl _
        · split
          · exact Below.refl _
          · refine Below.bind (ih.statement _) fun r => ?_
            split
            · exact Below.bind (recoverStatement_grows fuel _ _) fun r => ih.statementList _ _ _
            · exact ih.statementList _ _ _
    case statement =>
      intro p
      simp only [statement]
      split
      · exact Below.refl _
      split
      · exact Below.bind (ih.ifStatement _) fun r => Below.refl _
      split
      · exact Below.bind (ih.whileStatement _) fun r => Below.refl _
      split
      · exact Below.refl _
      split
      · split
        · exact Below.refl _
        · exact Below.bind (recoverStatement_grows fuel _ _) fun r => Below.refl _
      split
      · exact Below.refl _
      refine Below.bind (hexpression _ _) fun r => ?_
      split
      · exact Below.bind (recoverStatement_grows fuel _ _) fun r => Below.refl _
      · split
        · refine Below.bind (hexpression _ _) fun r => ?_
          split
          · exact Below.bind (recoverStatement_grows fuel _ _) fun r => Below.refl _
          · exact Below.refl _
        · exact Below.refl _
    case ifStatement =>
      intro p
      simp only [ifStatement]
      refine Below.bind (ih.ifBranch _ _) fun r => ?_
      refine Below.bind (ih.elsifLoop _ _) fun r => ?_
      split
      · exact Below.bind (ih.statementList _ _ _) fun r => Below.refl _
      · exact Below.refl _
    case elsifLoop =>
      intro branches p
      rw [elsifLoop, elsifLoop]
      split
      · exact Below.bind (ih.ifBranch _ _) fun r => ih.elsifLoop _ _
      · exact Below.refl _
    case ifBranch =>
      intro start p
      simp only [ifBranch]
      refine Below.bind (hexpression _ _) fun r => ?_
      exact Below.bind (ih.statementList _ _ _) fun r => Below.refl _
    case whileStatement =>
      intro p
      simp only [whileStatement]
      refine Below.bind (hexpression _ _) fun r => ?_
      exact Below.bind (ih.statementList _ _ _) fun r => Below.refl _

end Parser

theorem parseStructuredText_converges {db : CharacterDatabase} {fuel : Nat} {source : Text}
    {document : StructuredTextDocument} (h : parseStructuredText db fuel source = some document) :
    Converges (fun fuel => parseStructuredText db fuel source) document := by
  apply converges_of_below _ h
  intro fuel
  unfold parseStructuredText
  refine Below.bind (Below.refl _) fun read => ?_
  refine Below.bind (Below.refl _) fun marker => ?_
  exact Below.bind ((Parser.statementsGrow db fuel).statementList _ _ _) fun r => Below.refl _

end TwinForge.StructuredText
