import TwinForge.Foundation.Fuel
import TwinForge.StructuredText.Printing

/-! # The expression parser reads back what a tree prints

One lemma for each way a parser function can go, then one lemma for each node:
a postfix tree brings the parser into its selector loop, any tree into its
operator loop, with the tree as the operand read so far and its words consumed.
-/

namespace TwinForge.StructuredText

open Fuel Expression List

namespace Parser

variable {db : CharacterDatabase}

/-! ## Words the parser distinguishes -/

def wordOperator (db : CharacterDatabase) (w : Word) : Text :=
  operatorText db ⟨w.1, w.2, noSpan, 0, 0⟩

theorem operatorText_word (token : StructuredTextToken) :
    operatorText db token = wordOperator db token.word := rfl

def isSelector (kind : TokenKind) : Bool :=
  kind == .dot || kind == .leftBracket || kind == .leftParen

def isStart (kind : TokenKind) : Bool :=
  kind == .identifier || kind == .literal || kind == .string || kind == .directAddress ||
    kind == .operator || kind == .leftParen

/-- The words ahead do not continue an operand. -/
def EndsOperand : List Word → Prop
  | [] => False
  | w :: _ => isSelector w.1 = false

/-- The words ahead continue neither an operand nor an operation that binds
tighter than `k`. -/
def Follows (db : CharacterDatabase) (k : Nat) : List Word → Prop
  | [] => False
  | w :: _ => isSelector w.1 = false ∧ ∀ j, precedence (wordOperator db w) = some j → j ≤ k

def NoAssignment : List Word → Prop
  | [] => True
  | w :: _ => w.1 ≠ .assign ∧ w.1 ≠ .outputAssign

variable {k : Nat} {ws : List Word}

theorem Follows.endsOperand (h : Follows db k ws) : EndsOperand ws := by
  cases ws with
  | nil => exact h
  | cons w ws => exact h.1

theorem Follows.mono {j : Nat} (h : Follows db j ws) (hjk : j ≤ k) :
    Follows db k ws := by
  cases ws with
  | nil => exact h
  | cons w ws => exact ⟨h.1, fun i hi => Nat.le_trans (h.2 i hi) hjk⟩

theorem precedence_bounds {t : Text} (h : precedence t = some k) : 1 ≤ k ∧ k ≤ 6 := by
  obtain ⟨before, after, hsplit, -⟩ := lookup_eq_some_iff.mp h
  have hall : ∀ entry ∈ precedences, 1 ≤ entry.2 ∧ entry.2 ≤ 6 := by decide
  exact hall (t, k) (hsplit ▸ by simp)

theorem precedence_nil : precedence [] = none := rfl

theorem nil_not_unary : ([] : Text) ∉ unaryOperators := by decide

variable {w : Word}

theorem wordOperator_nil (h : w.1 ≠ .operator) (hi : w.1 ≠ .identifier) :
    wordOperator db w = [] := by
  obtain ⟨kind, text⟩ := w
  cases kind <;> first | rfl | exact absurd rfl h | exact absurd rfl hi

variable {o : Text}

theorem wordOperator_operator {kind : TokenKind} (hk : kind = .operator ∨ kind = .identifier)
    (ho : isOperatorWord (db.upperText o) = true) : wordOperator db (kind, o) = db.upperText o := by
  rcases hk with rfl | rfl
  · rfl
  · simp [wordOperator, operatorText, ho]

theorem wordOperator_identifier {n : Text} (h : db.upperText n ∉ unaryOperators) :
    wordOperator db (.identifier, n) ∉ unaryOperators := by
  unfold wordOperator operatorText
  by_cases ho : isOperatorWord (db.upperText n) = true
  · simpa [ho] using h
  · simpa [ho] using nil_not_unary

theorem boolean_not_unary {v : Text} (h : v ∈ booleanWords) : v ∉ unaryOperators := by
  have hall : ∀ v ∈ booleanWords, v ∉ unaryOperators := by decide
  exact hall v h

theorem follows_of_closing
    (h : w.1 = .comma ∨ w.1 = .rightParen ∨ w.1 = .rightBracket ∨ w.1 = .semicolon) :
    Follows db 0 (w :: ws) := by
  refine ⟨?_, fun j hj => ?_⟩
  · rcases h with h | h | h | h <;> rw [h] <;> rfl
  · rw [wordOperator_nil (by rcases h with h | h | h | h <;> simp [h])
      (by rcases h with h | h | h | h <;> simp [h]), precedence_nil] at hj
    cases hj

/-! ## What the first two words of a tree can be -/

variable (spelling : Spelling db) {e : Expression}

theorem words_head (h : Printable db e) :
    ∃ w ws, words spelling e = w :: ws ∧ isStart w.1 = true ∧
      (e.isSelectable = true → wordOperator db w ∉ unaryOperators) := by
  induction h with
  | @name s n hu hb => exact ⟨(.identifier, n), [], rfl, rfl, fun _ => wordOperator_identifier hu⟩
  | directAddress => exact ⟨_, [], rfl, rfl, fun _ => nil_not_unary⟩
  | @literal s v =>
    refine ⟨_, [], rfl, ?_, fun _ => ?_⟩
    · rcases spelling.literal_kind v with h | h | ⟨h, -⟩ <;> simp only [h] <;> rfl
    · rcases spelling.literal_kind v with h | h | ⟨h, hv⟩
      · rw [h]; exact nil_not_unary
      · rw [h]; exact nil_not_unary
      · rw [h]; exact wordOperator_identifier (boolean_not_unary hv)
  | @unary s o e ho he h ih =>
    refine ⟨_, words spelling e, rfl, ?_, fun hs => by cases hs⟩
    rcases spelling.operator_kind o with h | h <;> simp only [h] <;> rfl
  | @binary s l o r k ho hl hr _ _ ihl ihr =>
    obtain ⟨w, ws, hw, hstart, -⟩ := ihl
    exact ⟨w, ws ++ _, by rw [words, hw]; rfl, hstart, fun hs => by cases hs⟩
  | @member s t m ht _ ih =>
    obtain ⟨w, ws, hw, hstart, hop⟩ := ih
    exact ⟨w, ws ++ _, by rw [words, hw]; rfl, hstart, fun _ => hop ht⟩
  | @index s t is o ht ho _ _ ih _ =>
    obtain ⟨w, ws, hw, hstart, hop⟩ := ih
    exact ⟨w, ws ++ _ ++ _, by rw [words, hw]; rfl, hstart, fun _ => hop ht⟩
  | @call s c as hc _ _ _ ih _ =>
    obtain ⟨w, ws, hw, hstart, hop⟩ := ih
    exact ⟨w, ws ++ _, by rw [words, hw]; rfl, hstart, fun _ => hop hc⟩
  | parenthesized _ _ => exact ⟨_, _, rfl, rfl, fun _ => nil_not_unary⟩

theorem noAssignment_of_start (h : isStart w.1 = true) :
    NoAssignment (w :: ws) := by
  constructor <;> (intro hk; rw [hk] at h; cases h)

/-- The second word of a printed tree, or what follows a one-word tree, is no
assignment sign: a positional argument does not look like a named one. -/
theorem words_second (h : Printable db e)
    (hws : NoAssignment ws) : NoAssignment ((words spelling e ++ ws).tail) := by
  induction h generalizing ws with
  | @unary s o e ho he h ih =>
    obtain ⟨w, tail, hw, hstart, -⟩ := words_head spelling h
    simp only [words, cons_append, List.tail_cons, hw]
    exact noAssignment_of_start hstart
  | @binary s l o r k ho hl hr _ _ ihl ihr =>
    simp only [words, append_assoc, cons_append]
    apply ihl
    rcases spelling.operator_kind o with h | h <;> simp [NoAssignment, h]
  | member _ _ ih =>
    simp only [words, append_assoc]
    exact ih ⟨by simp [dotWord], by simp [dotWord]⟩
  | @index s t is o _ ho _ _ ih _ =>
    simp only [words, append_assoc, cons_append]
    apply ih
    split
    · exact ⟨by simp [dotWord], by simp [dotWord]⟩
    · exact ⟨by simp [leftBracketWord], by simp [leftBracketWord]⟩
  | call _ _ _ _ ih _ =>
    simp only [words, append_assoc, cons_append]
    exact ih ⟨by simp [leftParenWord], by simp [leftParenWord]⟩
  | @parenthesized s e h ih =>
    obtain ⟨w, tail, hw, hstart, -⟩ := words_head spelling h
    simp only [words, cons_append, List.tail_cons, hw]
    exact noAssignment_of_start hstart
  | _ => exact hws

/-! ## One step of each parser function -/

variable {p : Parser}

theorem binaryOperator_of (h : p.upcoming = w :: ws) :
    binaryOperator db p = precedence (wordOperator db w) := by
  rw [binaryOperator, operatorText_word, (upcoming_cons h).1]

variable {q : Parser} {minimum : Nat} {r : Option Expression × Parser}

theorem expression_step {left : Expression}
    (hleft : Converges (fun n => unary db n p) (some left, q))
    (hloop : Converges (fun n => binaryLoop db n minimum left q) r) :
    Converges (fun n => expression db n minimum p) r :=
  hleft.step₂ hloop fun n h₁ h₂ => by simp [expression, h₁, h₂]

theorem binaryLoop_stop (left : Expression)
    (h : p.upcoming = ws) (hf : Follows db k ws) (hk : k < minimum) :
    Converges (fun n => binaryLoop db n minimum left p) (some left, p) := by
  refine converges_of_step fun n => ?_
  cases ws with
  | nil => exact absurd hf id
  | cons w ws =>
    simp only [binaryLoop, binaryOperator_of h]
    cases hp : precedence (wordOperator db w) with
    | none => rfl
    | some j =>
      have := hf.2 j hp
      simp only [if_pos (show j < minimum by omega)]

theorem binaryLoop_step {left right : Expression}
    (hop : binaryOperator db p = some k) (hk : minimum ≤ k)
    (hright : Converges (fun n => expression db n (k + 1) p.take) (some right, q))
    (hloop : Converges (fun n => binaryLoop db n minimum
      (.binary ⟨left.span.start, right.span.stop⟩ left p.peek.text right) q) r) :
    Converges (fun n => binaryLoop db n minimum left p) r :=
  hright.step₂ hloop fun n h₁ h₂ => by
    simp [binaryLoop, hop, Nat.not_lt.mpr hk, h₁, h₂]

theorem unary_operator {operand : Expression} (hop : operatorText db p.peek ∈ unaryOperators)
    (h : Converges (fun n => unary db n p.take) (some operand, q)) :
    Converges (fun n => unary db n p)
      (some (.unary ⟨p.peek.span.start, operand.span.stop⟩ p.peek.text operand), q) :=
  h.step fun n h => by simp [unary, hop, h]

theorem unary_postfix (hop : operatorText db p.peek ∉ unaryOperators)
    (h : Converges (fun n => postfixExpression db n p) r) :
    Converges (fun n => unary db n p) r :=
  h.step fun n h => by simp [unary, hop, h]

theorem postfix_step (h : Converges (fun n => primary db n p) (some e, q))
    (hloop : Converges (fun n => postfixLoop db n e q) r) :
    Converges (fun n => postfixExpression db n p) r :=
  h.step₂ hloop fun n h₁ h₂ => by simp [postfixExpression, h₁, h₂]

theorem postfixLoop_stop (e : Expression) (h : p.upcoming = ws)
    (hends : EndsOperand ws) : Converges (fun n => postfixLoop db n e p) (some e, p) := by
  refine converges_of_step fun n => ?_
  cases ws with
  | nil => exact absurd hends id
  | cons w ws =>
    simp only [EndsOperand, isSelector, Bool.or_eq_false_iff] at hends
    simp [postfixLoop, atKind_of h, hends.1.1, hends.1.2, hends.2]

theorem postfixLoop_member {kind : TokenKind} {m : Text}
    (h : p.upcoming = dotWord :: (kind, m) :: ws) (hk : kind = .identifier ∨ kind = .literal)
    (hloop : Converges (fun n => postfixLoop db n
      (.member ⟨e.span.start, p.take.peek.span.stop⟩ e m) p.take.take) r) :
    Converges (fun n => postfixLoop db n e p) r := by
  have hm : p.take.peek.word = (kind, m) := (upcoming_cons (upcoming_cons h).2).1
  have hkind : p.take.peek.kind = kind := congrArg Prod.fst hm
  have htext : p.take.peek.text = m := congrArg Prod.snd hm
  refine hloop.step fun n hn => ?_
  have hbracket : (kind == TokenKind.leftBracket) = false := by rcases hk with rfl | rfl <;> rfl
  have hok : ¬(kind ≠ .identifier ∧ kind ≠ .literal) := by
    rintro ⟨h₁, h₂⟩
    exact hk.elim h₁ h₂
  simp only [postfixLoop, atKind_of h, atKind_of (upcoming_cons h).2, hbracket, hkind, htext,
    if_neg hok, hn, dotWord, beq_self_eq_true, if_true, Bool.false_eq_true, if_false]

theorem postfixLoop_dotIndex {indexed : Expression}
    (h : p.upcoming = dotWord :: leftBracketWord :: ws)
    (hindex : Converges (fun n => indexExpression db n e ".[]" p.take) (indexed, q))
    (hloop : Converges (fun n => postfixLoop db n indexed q) r) :
    Converges (fun n => postfixLoop db n e p) r :=
  hindex.step₂ hloop fun n h₁ h₂ => by
    simp [postfixLoop, atKind_of h, atKind_of (upcoming_cons h).2, dotWord, leftBracketWord,
      h₁, h₂]

theorem postfixLoop_index {indexed : Expression} (h : p.upcoming = leftBracketWord :: ws)
    (hindex : Converges (fun n => indexExpression db n e "[]" p) (indexed, q))
    (hloop : Converges (fun n => postfixLoop db n indexed q) r) :
    Converges (fun n => postfixLoop db n e p) r :=
  hindex.step₂ hloop fun n h₁ h₂ => by
    simp [postfixLoop, atKind_of h, leftBracketWord, h₁, h₂]

theorem postfixLoop_call {called : Expression} (h : p.upcoming = leftParenWord :: ws)
    (hcall : Converges (fun n => callExpression db n e p) (called, q))
    (hloop : Converges (fun n => postfixLoop db n called q) r) :
    Converges (fun n => postfixLoop db n e p) r :=
  hcall.step₂ hloop fun n h₁ h₂ => by
    simp [postfixLoop, atKind_of h, leftParenWord, h₁, h₂]

variable {more : List Word}

theorem primary_parenthesized
    (h : p.upcoming = leftParenWord :: ws) (hclose : q.upcoming = rightParenWord :: more)
    (he : Converges (fun n => expression db n 1 p.take) (some e, q)) :
    Converges (fun n => primary db n p)
      (some (.parenthesized ⟨p.peek.span.start, q.peek.span.stop⟩ e), q.take) := by
  have hkind : p.peek.kind = .leftParen := congrArg Prod.fst (upcoming_cons h).1
  exact he.step fun n hn => by
    simp [primary, hkind, hn, atKind_of hclose, rightParenWord]

theorem indexExpression_step {indices : List Expression} (e : Expression) (operator : Text)
    (hclose : q.upcoming = rightBracketWord :: more)
    (h : Converges (fun n => indexLoop db n [] p.take) (indices, q)) :
    Converges (fun n => indexExpression db n e operator p)
      (.index ⟨e.span.start, q.peek.span.stop⟩ e indices operator, q.take) :=
  h.step fun n hn => by
    simp [indexExpression, hn, atKind_of hclose, rightBracketWord]

theorem callExpression_step {arguments : List (CallArgument Expression)} (e : Expression)
    (hclose : q.upcoming = rightParenWord :: more)
    (h : Converges (fun n => callLoop db n [] p.take) (arguments, q)) :
    Converges (fun n => callExpression db n e p)
      (.call ⟨e.span.start, q.peek.span.stop⟩ e arguments, q.take) :=
  h.step fun n hn => by
    simp [callExpression, hn, atKind_of hclose, rightParenWord]

theorem indexLoop_done (indices : List Expression) (h : p.upcoming = rightBracketWord :: ws) :
    Converges (fun n => indexLoop db n indices p) (indices, p) :=
  converges_of_step fun n => by simp [indexLoop, atKind_of h, rightBracketWord]

theorem indexLoop_last (indices : List Expression)
    (h : p.upcoming = w :: ws) (hstart : isStart w.1 = true)
    (hq : q.upcoming = rightBracketWord :: more)
    (he : Converges (fun n => expression db n 1 p) (some e, q)) :
    Converges (fun n => indexLoop db n indices p) (indices ++ [e], q) := by
  have hopen : (w.1 == TokenKind.rightBracket) = false := by
    rw [beq_eq_false_iff_ne]; rintro hw; rw [hw] at hstart; cases hstart
  exact he.step fun n hn => by
    simp [indexLoop, atKind_of h, atKind_of hq, hopen, hn, rightBracketWord]

theorem indexLoop_comma (indices : List Expression) {r : List Expression × Parser}
    (h : p.upcoming = w :: ws) (hstart : isStart w.1 = true) (hq : q.upcoming = commaWord :: more)
    (he : Converges (fun n => expression db n 1 p) (some e, q))
    (hloop : Converges (fun n => indexLoop db n (indices ++ [e]) q.take) r) :
    Converges (fun n => indexLoop db n indices p) r := by
  have hopen : (w.1 == TokenKind.rightBracket) = false := by
    rw [beq_eq_false_iff_ne]; rintro hw; rw [hw] at hstart; cases hstart
  exact he.step₂ hloop fun n h₁ h₂ => by
    simp [indexLoop, atKind_of h, atKind_of hq, hopen, h₁, h₂, commaWord]

theorem callLoop_done
    (arguments : List (CallArgument Expression)) (h : p.upcoming = rightParenWord :: ws) :
    Converges (fun n => callLoop db n arguments p) (arguments, p) :=
  converges_of_step fun n => by simp [callLoop, atKind_of h, rightParenWord]

/-- The argument read at `p` for an omitted position. -/
def omittedAt (p : Parser) : CallArgument Expression :=
  ⟨⟨p.peek.span.start, p.peek.span.start⟩, .missing ⟨p.peek.span.start, p.peek.span.start⟩,
    none, none⟩

theorem callLoop_omitted (arguments : List (CallArgument Expression))
    {r : List (CallArgument Expression) × Parser} (h : p.upcoming = commaWord :: ws)
    (hloop : Converges (fun n => callLoop db n (arguments ++ [p.omittedAt]) p.take) r) :
    Converges (fun n => callLoop db n arguments p) r :=
  hloop.step fun n hn => by
    rw [omittedAt] at hn
    simp [callLoop, atKind_of h, commaWord, Expression.span, hn]

/-- The argument read at `p` with the value `e`. -/
def argumentAt (p : Parser) (e : Expression) : CallArgument Expression :=
  ⟨⟨p.peek.span.start, e.span.stop⟩, e, if p.atNamedArgument then some p.peek.text else none,
    if p.atNamedArgument then some p.peekSecond.text else none⟩

theorem callLoop_last (arguments : List (CallArgument Expression))
    (h : p.upcoming = w :: ws) (hstart : isStart w.1 = true)
    (hq : q.upcoming = rightParenWord :: more)
    (he : Converges (fun n => expression db n 1 (if p.atNamedArgument then p.take.take else p))
      (some e, q)) :
    Converges (fun n => callLoop db n arguments p) (arguments ++ [p.argumentAt e], q) := by
  have hopen : (w.1 == TokenKind.rightParen) = false := by
    rw [beq_eq_false_iff_ne]; rintro hw; rw [hw] at hstart; cases hstart
  have hcomma : (w.1 == TokenKind.comma) = false := by
    rw [beq_eq_false_iff_ne]; rintro hw; rw [hw] at hstart; cases hstart
  exact he.step fun n hn => by
    simp [callLoop, atKind_of h, atKind_of hq, hopen, hcomma, hn, rightParenWord, argumentAt]

theorem callLoop_comma (arguments : List (CallArgument Expression))
    {r : List (CallArgument Expression) × Parser}
    (h : p.upcoming = w :: ws) (hstart : isStart w.1 = true) (hq : q.upcoming = commaWord :: more)
    (he : Converges (fun n => expression db n 1 (if p.atNamedArgument then p.take.take else p))
      (some e, q))
    (hloop : Converges (fun n => callLoop db n (arguments ++ [p.argumentAt e]) q.take) r) :
    Converges (fun n => callLoop db n arguments p) r := by
  have hopen : (w.1 == TokenKind.rightParen) = false := by
    rw [beq_eq_false_iff_ne]; rintro hw; rw [hw] at hstart; cases hstart
  have hcomma : (w.1 == TokenKind.comma) = false := by
    rw [beq_eq_false_iff_ne]; rintro hw; rw [hw] at hstart; cases hstart
  refine he.step₂ hloop fun n h₁ h₂ => ?_
  rw [argumentAt] at h₂
  simp [callLoop, atKind_of h, atKind_of hq, hopen, hcomma, h₁, h₂, commaWord]

/-! ## What the parser does on a printed tree -/

section

variable (spelling : Spelling db)

/-- A postfix tree brings the parser into its selector loop. -/
def PostfixReads (e : Expression) : Prop :=
  ∀ p ws, p.upcoming = words spelling e ++ ws →
    ∃ e', e'.withoutSpans = e.withoutSpans ∧ ∀ r,
      Converges (fun n => postfixLoop db n e' (p.skip (words spelling e).length)) r →
      Converges (fun n => postfixExpression db n p) r

/-- A unary or postfix tree is read whole when no selector follows. -/
def UnaryReads (e : Expression) : Prop :=
  ∀ p ws, p.upcoming = words spelling e ++ ws → EndsOperand ws →
    ∃ e', e'.withoutSpans = e.withoutSpans ∧
      Converges (fun n => unary db n p) (some e', p.skip (words spelling e).length)

/-- A tree brings the parser into its operator loop when nothing that binds
tighter follows. -/
def ExpressionReads (e : Expression) : Prop :=
  ∀ p ws minimum, p.upcoming = words spelling e ++ ws → minimum ≤ e.precedenceOf db →
    Follows db (e.precedenceOf db) ws →
    ∃ e', e'.withoutSpans = e.withoutSpans ∧ ∀ r,
      Converges (fun n => binaryLoop db n minimum e' (p.skip (words spelling e).length)) r →
      Converges (fun n => expression db n minimum p) r

structure Reads (e : Expression) : Prop where
  selectable : e.isSelectable = true → PostfixReads spelling e
  unary : e.isBinary = false → UnaryReads spelling e
  expression : ExpressionReads spelling e

theorem Reads.ofUnary
    (hs : e.isSelectable = true → PostfixReads spelling e) (hu : UnaryReads spelling e) :
    Reads spelling e where
  selectable := hs
  unary _ := hu
  expression := by
    intro p ws minimum h _ hf
    obtain ⟨e', he', hread⟩ := hu p ws h hf.endsOperand
    exact ⟨e', he', fun r hr => expression_step hread hr⟩

theorem Reads.ofPostfix (h : Printable db e) (hs : e.isSelectable = true)
    (hp : PostfixReads spelling e) : Reads spelling e := by
  refine .ofUnary spelling (fun _ => hp) ?_
  intro p ws hup hends
  obtain ⟨w, tail, hw, -, hop⟩ := words_head spelling h
  obtain ⟨e', he', hloop⟩ := hp p ws hup
  refine ⟨e', he', unary_postfix ?_ (hloop _ (postfixLoop_stop e' (upcoming_skip hup) hends))⟩
  rw [hw, cons_append] at hup
  rw [operatorText_word, (upcoming_cons hup).1]
  exact hop hs

theorem precedenceOf_pos (h : Printable db e) : 1 ≤ e.precedenceOf db := by
  cases h with
  | binary ho _ _ _ _ =>
    simp only [precedenceOf, ho, Option.getD_some]
    exact (precedence_bounds ho).1
  | _ => exact Nat.succ_pos 6

theorem Reads.whole (hr : Reads spelling e) (h : Printable db e)
    (hup : p.upcoming = words spelling e ++ ws) (hf : Follows db 0 ws) :
    ∃ e', e'.withoutSpans = e.withoutSpans ∧
      Converges (fun n => Parser.expression db n 1 p)
        (some e', p.skip (words spelling e).length) := by
  obtain ⟨e', he', hloop⟩ :=
    hr.expression p ws 1 hup (precedenceOf_pos h) (hf.mono (Nat.zero_le _))
  exact ⟨e', he', hloop _ (binaryLoop_stop e' (upcoming_skip hup) hf Nat.one_pos)⟩

variable {s : SourceSpan}

theorem unary_reads
    (ho : db.upperText o ∈ unaryOperators) (hb : e.isBinary = false) (hr : Reads spelling e) :
    Reads spelling (.unary s o e) := by
  refine .ofUnary spelling (fun hs => by cases hs) ?_
  intro p ws h hends
  rw [words, cons_append] at h
  obtain ⟨hw, htake⟩ := upcoming_cons h
  have hword : isOperatorWord (db.upperText o) = true := by
    simp [isOperatorWord, ho]
  have hop : operatorText db p.peek = db.upperText o := by
    rw [operatorText_word, hw, wordOperator_operator (spelling.operator_kind o) hword]
  obtain ⟨e', he', hread⟩ := hr.unary hb p.take ws htake hends
  refine ⟨_, ?_, unary_operator (hop ▸ ho) hread⟩
  have htext : p.peek.text = o := congrArg Prod.snd hw
  simp only [withoutSpans, he', htext]

theorem binary_reads {l r : Expression}
    (ho : precedence (db.upperText o) = some k) (hl : k ≤ l.precedenceOf db)
    (hr : k < r.precedenceOf db) (ihl : Reads spelling l) (ihr : Reads spelling r) :
    Reads spelling (.binary s l o r) where
  selectable hs := by cases hs
  unary hb := by cases hb
  expression := by
    intro p ws minimum h hmin hf
    have hprec : (Expression.binary s l o r).precedenceOf db = k := by
      simp only [precedenceOf, ho, Option.getD_some]
    rw [hprec] at hmin hf
    rw [words, append_assoc, cons_append] at h
    have hword : isOperatorWord (db.upperText o) = true := by simp [isOperatorWord, ho]
    have hoperator : wordOperator db (spelling.operator o, o) = db.upperText o :=
      wordOperator_operator (spelling.operator_kind o) hword
    have hfollows : Follows db (l.precedenceOf db)
        ((spelling.operator o, o) :: (words spelling r ++ ws)) := by
      refine ⟨?_, fun j hj => ?_⟩
      · rcases spelling.operator_kind o with hk | hk <;> rw [hk] <;> rfl
      · rw [hoperator, ho] at hj
        cases hj
        exact hl
    obtain ⟨l', hl', hleft⟩ := ihl.expression p _ minimum h (Nat.le_trans hmin hl) hfollows
    have hq := upcoming_skip h
    have hqr := (upcoming_cons hq).2
    obtain ⟨r', hr', hright⟩ := ihr.expression _ ws (k + 1) hqr hr (hf.mono (Nat.le_of_lt hr))
    have hstop : Converges (fun n => binaryLoop db n (k + 1) r' _) _ :=
      binaryLoop_stop r' (upcoming_skip hqr) hf (Nat.lt_succ_self k)
    have htext : (p.skip (words spelling l).length).peek.text = o :=
      congrArg Prod.snd (upcoming_cons hq).1
    refine ⟨.binary ⟨l'.span.start, r'.span.stop⟩ l' o r', ?_, fun result hresult => ?_⟩
    · simp only [withoutSpans, hl', hr']
    · refine hleft result (binaryLoop_step (k := k) ?_ hmin (hright _ hstop) ?_)
      · rw [binaryOperator_of hq, hoperator, ho]
      · rw [htext, take_skip, skip_skip]
        rw [words, length_append, length_cons, ← Nat.add_assoc,
          Nat.add_right_comm] at hresult
        exact hresult

theorem member_reads {t : Expression} {m : Text} (ht : t.isSelectable = true)
    (hr : Reads spelling t) : PostfixReads spelling (.member s t m) := by
  intro p ws h
  rw [words, append_assoc] at h
  obtain ⟨t', ht', hloop⟩ := hr.selectable ht p _ h
  have hq := upcoming_skip h
  refine ⟨.member ⟨t'.span.start, (p.skip (words spelling t).length).take.peek.span.stop⟩ t' m,
    ?_, fun result hresult => hloop result (postfixLoop_member hq (spelling.member_kind m) ?_)⟩
  · simp only [withoutSpans, ht']
  · have hmove : (p.skip (words spelling t).length).take.take =
        p.skip ((words spelling t).length + 2) := by rw [take_skip, take_skip]
    rw [words, length_append] at hresult
    rw [hmove]
    exact hresult

theorem indexLoop_reads (indices : List Expression) (hp : ∀ i ∈ indices, Printable db i)
    (hr : ∀ i ∈ indices, Reads spelling i) (before : List Expression) (p : Parser)
    (ws : List Word) (h : p.upcoming = indexWords spelling indices ++ rightBracketWord :: ws) :
    ∃ indices', listWithoutSpans indices' = listWithoutSpans indices ∧
      Converges (fun n => indexLoop db n before p)
        (before ++ indices', p.skip (indexWords spelling indices).length) := by
  induction indices generalizing before p with
  | nil =>
    refine ⟨[], rfl, ?_⟩
    rw [append_nil]
    exact indexLoop_done before h
  | cons i indices ih =>
    have hpi := hp i (by simp)
    obtain ⟨w, tail, hw, hstart, -⟩ := words_head spelling hpi
    rw [indexWords, append_assoc] at h
    obtain ⟨rest, hhead⟩ : ∃ rest, p.upcoming = w :: rest := ⟨_, by rw [h, hw]; rfl⟩
    cases indices with
    | nil =>
      have hclose : Follows db 0 (rightBracketWord :: ws) := follows_of_closing (by decide)
      obtain ⟨i', hi', hread⟩ := (hr i (by simp)).whole spelling hpi h hclose
      refine ⟨[i'], by simp only [listWithoutSpans, hi'], ?_⟩
      have hlast := indexLoop_last before hhead hstart (upcoming_skip h) hread
      simpa [indexWords] using hlast
    | cons j indices =>
      have hclose : Follows db 0
          (commaWord :: (indexWords spelling (j :: indices) ++ rightBracketWord :: ws)) :=
        follows_of_closing (by decide)
      obtain ⟨i', hi', hread⟩ := (hr i (by simp)).whole spelling hpi h hclose
      have hcomma := upcoming_skip h
      obtain ⟨indices', hsame, hloop⟩ := ih (fun k hk => hp k (by simp [hk]))
        (fun k hk => hr k (by simp [hk])) (before ++ [i']) _ (upcoming_cons hcomma).2
      refine ⟨i' :: indices', by rw [listWithoutSpans, listWithoutSpans, hi', hsame], ?_⟩
      have hall := indexLoop_comma before hhead hstart hcomma hread hloop
      rw [take_skip, skip_skip, append_assoc] at hall
      rw [indexWords, length_append]
      simpa [Nat.add_assoc, Nat.add_comm, Nat.add_left_comm] using hall

theorem index_reads {t : Expression} {indices : List Expression}
    (ht : t.isSelectable = true) (ho : o = ("[]" : Text) ∨ o = (".[]" : Text))
    (hp : ∀ i ∈ indices, Printable db i) (hr : Reads spelling t)
    (hri : ∀ i ∈ indices, Reads spelling i) :
    PostfixReads spelling (.index s t indices o) := by
  intro p ws h
  rw [words, append_assoc, append_assoc] at h
  obtain ⟨t', ht', hloop⟩ := hr.selectable ht p _ h
  have hq := upcoming_skip h
  -- from the opening bracket on; the period of `.[]` comes before it
  have hopen : ∀ b, b.upcoming = leftBracketWord :: (indexWords spelling indices ++
      rightBracketWord :: ws) → ∃ index', index'.withoutSpans =
        (Expression.index s t indices o).withoutSpans ∧
      Converges (fun n => indexExpression db n t' o b)
        (index', b.skip ((indexWords spelling indices).length + 2)) := by
    intro b hb
    obtain ⟨indices', hsame, hread⟩ :=
      indexLoop_reads spelling indices hp hri [] b.take ws (upcoming_cons hb).2
    have hclose := upcoming_skip (upcoming_cons hb).2
    have hindex := indexExpression_step t' o hclose hread
    rw [take_skip] at hindex
    refine ⟨_, ?_, hindex⟩
    simp only [withoutSpans, ht', nil_append, hsame]
  rcases ho with rfl | rfl
  · have hplain : ¬("[]" : Text) = (".[]" : Text) := by decide
    rw [if_neg hplain, nil_append, cons_append, append_assoc] at hq
    obtain ⟨index', hsame, hread⟩ := hopen _ hq
    refine ⟨index', hsame, fun result hresult => hloop result (postfixLoop_index hq hread ?_)⟩
    have hlen : (words spelling (.index s t indices "[]")).length =
        (words spelling t).length + ((indexWords spelling indices).length + 2) := by
      simp [words, hplain]
    rw [hlen] at hresult
    rw [skip_skip]
    exact hresult
  · rw [if_pos rfl, cons_append, nil_append, cons_append, append_assoc] at hq
    obtain ⟨index', hsame, hread⟩ := hopen _ (upcoming_cons hq).2
    refine ⟨index', hsame, fun result hresult => hloop result (postfixLoop_dotIndex hq hread ?_)⟩
    have hlen : (words spelling (.index s t indices ".[]")).length =
        (words spelling t).length + ((indexWords spelling indices).length + 2 + 1) := by
      simp [words]
    rw [hlen] at hresult
    rw [skip_take, skip_skip]
    exact hresult

theorem argument_reads {a : CallArgument Expression} (ha : a.name.isSome = a.direction.isSome)
    (hp : Printable db a.value) (hr : Reads spelling a.value)
    (h : p.upcoming = argumentWord spelling a ++ w :: ws)
    (hf : Follows db 0 (w :: ws)) (hw : NoAssignment (w :: ws)) :
    (∃ first rest, p.upcoming = first :: rest ∧ isStart first.1 = true) ∧
    ∃ value, argumentWithoutSpans (p.argumentAt value) = argumentWithoutSpans a ∧
      Converges (fun n => Parser.expression db n 1 (if p.atNamedArgument then p.take.take else p))
        (some value, p.skip (argumentWord spelling a).length) := by
  obtain ⟨span, value, formal, direction⟩ := a
  obtain ⟨first, tail, hfirst, hstart, -⟩ := words_head spelling hp
  cases formal with
  | none =>
    cases direction with
    | some d => cases ha
    | none =>
      simp only [argumentWord, nil_append] at h ⊢
      have hsecond := words_second spelling hp hw
      obtain ⟨v, hv, hread⟩ := hr.whole spelling hp h hf
      have hpositional : p.atNamedArgument = false := by
        obtain ⟨second, rest, hrest⟩ : ∃ second rest, tail ++ w :: ws = second :: rest :=
          exists_cons_of_ne_nil (by simp)
        simp only at hfirst hsecond
        rw [hfirst, cons_append] at h hsecond
        rw [List.tail_cons, hrest] at hsecond
        rw [hrest] at h
        have hkind : p.peekSecond.kind = second.1 := congrArg Prod.fst (peekSecond_word h)
        simp [atNamedArgument, hkind, hsecond.1, hsecond.2]
      refine ⟨⟨first, _, by rw [h, hfirst]; rfl, hstart⟩, v, ?_, ?_⟩
      · simp [argumentAt, argumentWithoutSpans, hpositional, hv]
      · rw [hpositional]
        exact hread
  | some name =>
    cases direction with
    | none => cases ha
    | some d =>
      simp only [argumentWord, cons_append, nil_append] at h ⊢
      have hpeek := (upcoming_cons h).1
      have hsecond := peekSecond_word h
      have hvalue := (upcoming_cons (upcoming_cons h).2).2
      obtain ⟨v, hv, hread⟩ := hr.whole spelling hp hvalue hf
      have hkind : p.peek.kind = .identifier := congrArg Prod.fst hpeek
      have htext : p.peek.text = name := congrArg Prod.snd hpeek
      have hkind₂ : p.peekSecond.kind = spelling.direction d := congrArg Prod.fst hsecond
      have htext₂ : p.peekSecond.text = d := congrArg Prod.snd hsecond
      have hnamed : p.atNamedArgument = true := by
        rcases spelling.direction_kind d with hd | hd <;>
          simp [atNamedArgument, hkind, hkind₂, hd]
      refine ⟨⟨_, _, h, rfl⟩, v, ?_, ?_⟩
      · simp [argumentAt, argumentWithoutSpans, hnamed, htext, htext₂, hv]
      · rw [hnamed]
        exact hread

theorem omitted_cases {a : CallArgument Expression} (h : a.isOmitted = true) :
    ∃ s t, a = ⟨s, .missing t, none, none⟩ := by
  obtain ⟨span, value, formal, direction⟩ := a
  simp only [CallArgument.isOmitted, Bool.and_eq_true, Option.isNone_iff_eq_none] at h
  obtain ⟨⟨hv, rfl⟩, rfl⟩ := h
  cases value with
  | missing t => exact ⟨span, t, rfl⟩
  | _ => cases hv

theorem callLoop_reads (arguments : List (CallArgument Expression))
    (ha : ∀ a ∈ arguments, a.name.isSome = a.direction.isSome)
    (hp : ∀ a ∈ arguments, a.isOmitted = false → Printable db a.value)
    (hr : ∀ a ∈ arguments, a.isOmitted = false → Reads spelling a.value)
    (before : List (CallArgument Expression)) (p : Parser) (ws : List Word)
    (h : p.upcoming = argumentWords spelling arguments ++ rightParenWord :: ws) :
    ∃ arguments', argumentsWithoutSpans arguments' = argumentsWithoutSpans arguments ∧
      Converges (fun n => callLoop db n before p)
        (before ++ arguments', p.skip (argumentWords spelling arguments).length) := by
  induction arguments generalizing before p with
  | nil =>
    refine ⟨[], rfl, ?_⟩
    rw [append_nil]
    exact callLoop_done before h
  | cons a arguments ih =>
    have hrest := ih (fun b hb => ha b (by simp [hb])) (fun b hb => hp b (by simp [hb]))
      (fun b hb => hr b (by simp [hb]))
    cases ho : a.isOmitted with
    | true =>
      obtain ⟨s, t, rfl⟩ := omitted_cases ho
      have hwords : argumentWords spelling (⟨s, .missing t, none, none⟩ :: arguments) =
          commaWord :: argumentWords spelling arguments := by
        simp [argumentWords, argumentWord, words, ho]
      rw [hwords] at h ⊢
      obtain ⟨arguments', hsame, hloop⟩ :=
        hrest (before ++ [p.omittedAt]) _ (upcoming_cons h).2
      have hall := callLoop_omitted before h hloop
      rw [append_assoc] at hall
      refine ⟨p.omittedAt :: arguments', ?_, hall⟩
      simp only [omittedAt, argumentsWithoutSpans, argumentWithoutSpans, withoutSpans, hsame]
    | false =>
      have hpa := hp a (by simp) ho
      rw [argumentWords, ho, Bool.not_false, Bool.and_true, append_assoc] at h
      have hread := fun (w : Word) (more : List Word)
          (hup : p.upcoming = argumentWord spelling a ++ w :: more) =>
        argument_reads spelling (ha a (by simp)) hpa (hr a (by simp) ho) hup
      cases arguments with
      | nil =>
        obtain ⟨⟨first, rest, hfirst, hstart⟩, v, hv, hvalue⟩ :=
          hread rightParenWord ws h (follows_of_closing (by decide)) ⟨by decide, by decide⟩
        have hlast := callLoop_last before hfirst hstart (upcoming_skip h) hvalue
        refine ⟨[p.argumentAt v], by rw [argumentsWithoutSpans, hv]; rfl, ?_⟩
        simpa [argumentWords, ho] using hlast
      | cons b arguments =>
        obtain ⟨⟨first, rest, hfirst, hstart⟩, v, hv, hvalue⟩ :=
          hread commaWord _ h (follows_of_closing (by decide)) ⟨by decide, by decide⟩
        have hcomma := upcoming_skip h
        obtain ⟨arguments', hsame, hloop⟩ :=
          hrest (before ++ [p.argumentAt v]) _ (upcoming_cons hcomma).2
        have hall := callLoop_comma before hfirst hstart hcomma hvalue hloop
        refine ⟨p.argumentAt v :: arguments', by
          rw [argumentsWithoutSpans, argumentsWithoutSpans, hv, hsame], ?_⟩
        rw [take_skip, skip_skip, append_assoc] at hall
        rw [argumentWords, length_append]
        simpa [Nat.add_assoc, Nat.add_comm, Nat.add_left_comm] using hall

theorem call_reads {c : Expression} {arguments : List (CallArgument Expression)}
    (hc : c.isSelectable = true) (hrc : Reads spelling c)
    (ha : ∀ a ∈ arguments, a.name.isSome = a.direction.isSome)
    (hp : ∀ a ∈ arguments, a.isOmitted = false → Printable db a.value)
    (hr : ∀ a ∈ arguments, a.isOmitted = false → Reads spelling a.value) :
    PostfixReads spelling (.call s c arguments) := by
  intro p ws h
  rw [words, append_assoc, cons_append, append_assoc] at h
  obtain ⟨c', hc', hloop⟩ := hrc.selectable hc p _ h
  have hq := upcoming_skip h
  obtain ⟨arguments', hsame, hread⟩ :=
    callLoop_reads spelling arguments ha hp hr [] _ ws (upcoming_cons hq).2
  have hclose := upcoming_skip (upcoming_cons hq).2
  obtain ⟨called, hcalled, hcall⟩ : ∃ called, called.withoutSpans =
      (Expression.call s c arguments).withoutSpans ∧
      Converges (fun n => callExpression db n c' (p.skip (words spelling c).length))
        (called, p.skip (words spelling (.call s c arguments)).length) := by
    have hcall := callExpression_step c' hclose hread
    rw [skip_take, take_skip, skip_skip, skip_skip] at hcall
    refine ⟨_, ?_, by simpa [words] using hcall⟩
    simp only [withoutSpans, hc', hsame]
  exact ⟨called, hcalled, fun result hresult => hloop result (postfixLoop_call hq hcall hresult)⟩

theorem parenthesized_reads (hp : Printable db e)
    (hr : Reads spelling e) : PostfixReads spelling (.parenthesized s e) := by
  intro p ws h
  rw [words, cons_append, append_assoc] at h
  have hopen := (upcoming_cons h).2
  obtain ⟨e', he', hread⟩ := hr.whole spelling hp hopen (follows_of_closing (by decide))
  have hprimary := primary_parenthesized h (upcoming_skip hopen) hread
  obtain ⟨inner, hinner, hread⟩ : ∃ inner, inner.withoutSpans =
      (Expression.parenthesized s e).withoutSpans ∧
      Converges (fun n => primary db n p)
        (some inner, p.skip (words spelling (.parenthesized s e)).length) := by
    rw [skip_take, take_skip] at hprimary
    refine ⟨_, ?_, by simpa [words] using hprimary⟩
    simp only [withoutSpans, he']
  exact ⟨inner, hinner, fun result hresult => postfix_step hread hresult⟩

theorem leaf_reads (hw : words spelling e = [w])
    (hprimary : ∀ p ws, p.upcoming = w :: ws → ∃ e', e'.withoutSpans = e.withoutSpans ∧
      Converges (fun n => primary db n p) (some e', p.take)) : PostfixReads spelling e := by
  intro p ws h
  rw [hw] at h ⊢
  obtain ⟨e', he', hread⟩ := hprimary p ws h
  exact ⟨e', he', fun result hresult => postfix_step hread hresult⟩

theorem name_reads {n : Text} (hn : db.upperText n ∉ booleanWords) :
    PostfixReads spelling (.name s n) := by
  refine leaf_reads spelling rfl fun p ws h => ⟨.name p.peek.span n, rfl, ?_⟩
  have hkind : p.peek.kind = .identifier := congrArg Prod.fst (upcoming_cons h).1
  have htext : p.peek.text = n := congrArg Prod.snd (upcoming_cons h).1
  exact converges_of_step fun k => by simp [primary, hkind, htext, hn]

theorem directAddress_reads {a : Text} :
    PostfixReads spelling (.directAddress s a) := by
  refine leaf_reads spelling rfl fun p ws h => ⟨.directAddress p.peek.span a, rfl, ?_⟩
  have hkind : p.peek.kind = .directAddress := congrArg Prod.fst (upcoming_cons h).1
  have htext : p.peek.text = a := congrArg Prod.snd (upcoming_cons h).1
  exact converges_of_step fun k => by simp [primary, hkind, htext]

theorem literal_reads {v : Text} : PostfixReads spelling (.literal s v) := by
  refine leaf_reads spelling rfl fun p ws h => ⟨.literal p.peek.span v, rfl, ?_⟩
  have hkind : p.peek.kind = spelling.literal v := congrArg Prod.fst (upcoming_cons h).1
  have htext : p.peek.text = v := congrArg Prod.snd (upcoming_cons h).1
  refine converges_of_step fun k => ?_
  rcases spelling.literal_kind v with hk | hk | ⟨hk, hv⟩
  · simp [primary, hkind, htext, hk]
  · simp [primary, hkind, htext, hk]
  · simp [primary, hkind, htext, hk, hv]

/-- Every printable tree is read back at all three levels of the descent. -/
theorem reads (h : Printable db e) : Reads spelling e := by
  induction h with
  | name hu hb => exact .ofPostfix spelling (.name hu hb) rfl (name_reads spelling hb)
  | directAddress => exact .ofPostfix spelling .directAddress rfl (directAddress_reads spelling)
  | literal => exact .ofPostfix spelling .literal rfl (literal_reads spelling)
  | unary ho hb _ ih => exact unary_reads spelling ho hb ih
  | binary ho hl hr _ _ ihl ihr => exact binary_reads spelling ho hl hr ihl ihr
  | member ht h ih => exact .ofPostfix spelling (.member ht h) rfl (member_reads spelling ht ih)
  | index ht ho h hp ih ihi =>
    exact .ofPostfix spelling (.index ht ho h hp) rfl
      (index_reads spelling ht ho hp ih ihi)
  | call hc h ha hp ih iha =>
    exact .ofPostfix spelling (.call hc h ha hp) rfl (call_reads spelling hc ih ha hp iha)
  | parenthesized h ih =>
    exact .ofPostfix spelling (.parenthesized h) rfl (parenthesized_reads spelling h ih)

end

end Parser

/-- Expression parsing undoes printing: whatever trivia stands between the words of
a tree, the parser reads the tree up to source ranges, stops at the semicolon and
reports nothing. -/
theorem expression_printed (db : CharacterDatabase) (spelling : Spelling db) (e : Expression)
    (he : Printable db e) (p : Parser) (tokens more : List StructuredTextToken)
    (semicolon : StructuredTextToken) (hsemicolon : semicolon.kind = .semicolon)
    (hrest : p.rest = tokens ++ semicolon :: more)
    (htokens : (tokens.filter (fun token => !Parser.isTrivia token)).map (·.word) =
      words spelling e) :
    ∃ e' q gap, Converges (fun fuel => Parser.expression db fuel 1 p) (some e', q) ∧
      e'.withoutSpans = e.withoutSpans ∧ q.diagnostics = p.diagnostics ∧
      q.rest = gap ++ semicolon :: more ∧ ∀ token ∈ gap, Parser.isTrivia token = true := by
  have hup : p.upcoming = words spelling e ++ semicolon.word ::
      ((more.filter (fun token => !Parser.isTrivia token)).map (·.word)) := by
    rw [Parser.upcoming, hrest, filter_append, map_append, htokens,
      filter_cons_of_pos (by simp [Parser.isTrivia, hsemicolon]), map_cons]
  have hf : Parser.Follows db 0 (semicolon.word ::
      ((more.filter (fun token => !Parser.isTrivia token)).map (·.word))) :=
    Parser.follows_of_closing (.inr (.inr (.inr hsemicolon)))
  obtain ⟨e', hsame, hread⟩ := (Parser.reads spelling he).whole spelling he hup hf
  obtain ⟨gap, hgap, hstop⟩ := Parser.skip_rest hrest
  have hlen : (words spelling e).length =
      (tokens.filter (fun token => !Parser.isTrivia token)).length := by
    rw [← htokens, length_map]
  refine ⟨e', _, gap, hread, hsame, Parser.skip_diagnostics _ _, ?_, hgap⟩
  rw [hlen]
  exact hstop

/-- The tokens of `NOT a(* *).b`, trivia included. -/
def negatedMemberTokens : List StructuredTextToken :=
  [⟨.identifier, "NOT", ⟨0, 3⟩, 1, 1⟩, ⟨.whitespace, " ", ⟨3, 4⟩, 1, 4⟩,
    ⟨.identifier, "a", ⟨4, 5⟩, 1, 5⟩, ⟨.comment, "(* *)", ⟨5, 10⟩, 1, 6⟩,
    ⟨.dot, ".", ⟨10, 11⟩, 1, 11⟩, ⟨.identifier, "b", ⟨11, 12⟩, 1, 12⟩]

theorem expression_printed_member :
    ∃ e' q gap, Converges (fun fuel => Parser.expression Ascii.database fuel 1
        ⟨[], ⟨.endOfFile, [], noSpan, 1, 1⟩,
          negatedMemberTokens ++ [⟨.semicolon, ";", noSpan, 1, 13⟩], []⟩) (some e', q) ∧
      e'.withoutSpans = (Expression.unary noSpan "NOT"
        (.member noSpan (.name noSpan "a") "b")).withoutSpans ∧
      q.diagnostics = [] ∧ q.rest = gap ++ [⟨.semicolon, ";", noSpan, 1, 13⟩] ∧
      ∀ token ∈ gap, Parser.isTrivia token = true := by
  have hname : Printable Ascii.database (.name noSpan "a") := .name (by decide) (by decide)
  have htree : Printable Ascii.database
      (.unary noSpan "NOT" (.member noSpan (.name noSpan "a") "b")) :=
    .unary (by decide) rfl (.member rfl hname)
  exact expression_printed Ascii.database (lexicalSpelling Ascii.database) _ htree _
    negatedMemberTokens [] _ rfl rfl (by decide)

/-- `TRUE` is no operator word and prints as an identifier, but the parser reads the
identifier as a Boolean literal. -/
theorem expression_boolean_name :
    Parser.isOperatorWord (Ascii.database.upperText "TRUE") = false ∧
    words (lexicalSpelling Ascii.database) (.name noSpan "TRUE") =
      [(TokenKind.identifier, ("TRUE" : Text))] ∧
    ¬∃ e' q, Converges (fun fuel => Parser.expression Ascii.database fuel 1
        ⟨"TRUE;", ⟨.endOfFile, [], noSpan, 1, 6⟩,
          [⟨.identifier, "TRUE", ⟨0, 4⟩, 1, 1⟩, ⟨.semicolon, ";", ⟨4, 5⟩, 1, 5⟩], []⟩)
        (some e', q) ∧
      e'.withoutSpans = (Expression.name noSpan "TRUE").withoutSpans := by
  refine ⟨by decide, rfl, ?_⟩
  rintro ⟨e', q, hread, hsame⟩
  have hliteral : Printable Ascii.database (.literal noSpan "TRUE") := .literal
  have hup : (Parser.mk "TRUE;" ⟨.endOfFile, [], noSpan, 1, 6⟩
      [⟨.identifier, "TRUE", ⟨0, 4⟩, 1, 1⟩, ⟨.semicolon, ";", ⟨4, 5⟩, 1, 5⟩] []).upcoming =
      words (lexicalSpelling Ascii.database) (.literal noSpan "TRUE") ++
        [(TokenKind.semicolon, (";" : Text))] := by decide
  obtain ⟨l, hl, hreal⟩ := (Parser.reads (lexicalSpelling Ascii.database) hliteral).whole _
    hliteral hup (Parser.follows_of_closing (by decide))
  have := hread.unique hreal
  simp only [Prod.mk.injEq, Option.some.injEq] at this
  rw [this.1, hl] at hsame
  cases hsame

end TwinForge.StructuredText
