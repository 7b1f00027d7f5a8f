import TwinForge.Foundation.Infix
import TwinForge.StructuredText.ExpressionParsing

/-! # Rows of operands with operators between them

The climbing parser groups a row by its table. The language orders the comparisons by two levels of
which the table has one, so that the groupings differ where an equality is followed by a relation
of the same comparison row.
-/

namespace TwinForge.StructuredText

open Fuel Expression List

/-! ## The two orders -/

/-- How tightly the parser's table binds an operator. -/
def parserStrength (db : CharacterDatabase) (operator : Text) : Nat :=
  (Parser.precedence (db.upperText operator)).getD 0

/-- The levels of the language: equality binds less tightly than the relations. -/
def languagePrecedences : List (Text × Nat) :=
  [("OR", 1), ("|", 1), ("XOR", 2), ("^", 2), ("AND", 3), ("&", 3), ("=", 4), ("<>", 4),
   ("<", 5), ("<=", 5), (">", 5), (">=", 5), ("+", 6), ("-", 6), ("*", 7), ("/", 7), ("MOD", 7)]

def languageStrength (db : CharacterDatabase) (operator : Text) : Nat :=
  (languagePrecedences.lookup (db.upperText operator)).getD 0

def booleanOperators : List Text := ["OR", "|", "XOR", "^", "AND", "&"]

def equalityOperators : List Text := ["=", "<>"]

def relationOperators : List Text := ["<", "<=", ">", ">="]

/-- An equality and a relation behind it, with no Boolean operator between them. -/
def EqualityBeforeRelation (db : CharacterDatabase) (operators : List Text) : Prop :=
  ∃ before equality between relation after,
    operators = before ++ equality :: (between ++ relation :: after) ∧
      db.upperText equality ∈ equalityOperators ∧ db.upperText relation ∈ relationOperators ∧
        ∀ operator ∈ between, db.upperText operator ∉ booleanOperators

variable {db : CharacterDatabase}

theorem level_cases (word : Text) :
    let coarse := (Parser.precedence word).getD 0
    let fine := (languagePrecedences.lookup word).getD 0
    (word ∈ booleanOperators ∧ 1 ≤ coarse ∧ coarse ≤ 3 ∧ fine = coarse) ∨
      (word ∈ equalityOperators ∧ coarse = 4 ∧ fine = 4) ∨
      (word ∈ relationOperators ∧ coarse = 4 ∧ fine = 5) ∨
      (5 ≤ coarse ∧ fine = coarse + 1) ∨
      (Parser.precedence word = none ∧ coarse = 0 ∧ fine = 0) := by
  by_cases hknown : word ∈ Parser.precedences.map Prod.fst
  · revert hknown
    revert word
    decide
  · have hunlisted : ∀ entry ∈ Parser.precedences, word ≠ entry.1 := by
      intro entry hentry heq
      exact hknown (heq ▸ mem_map_of_mem hentry)
    have hcoarse : Parser.precedence word = none := by
      apply lookup_eq_none_iff.mpr
      intro entry hentry
      exact bne_iff_ne.mpr (hunlisted entry hentry)
    have hfine : languagePrecedences.lookup word = none := by
      apply lookup_eq_none_iff.mpr
      intro entry hentry
      have hlisted : ∀ entry ∈ languagePrecedences,
          ∃ known ∈ Parser.precedences, known.1 = entry.1 := by decide
      obtain ⟨known, hmem, hsame⟩ := hlisted entry hentry
      exact bne_iff_ne.mpr (hsame ▸ hunlisted known hmem)
    rw [hcoarse, hfine]
    simp

variable {word : Text}

theorem boolean_level (h : word ∈ booleanOperators) :
    (Parser.precedence word).getD 0 ≤ 3 := by
  have hall : ∀ word ∈ booleanOperators, (Parser.precedence word).getD 0 ≤ 3 := by decide
  exact hall word h

theorem equality_levels (h : word ∈ equalityOperators) :
    (Parser.precedence word).getD 0 = 4 ∧ (languagePrecedences.lookup word).getD 0 = 4 := by
  have hall : ∀ word ∈ equalityOperators, (Parser.precedence word).getD 0 = 4 ∧
      (languagePrecedences.lookup word).getD 0 = 4 := by decide
  exact hall word h

theorem relation_levels (h : word ∈ relationOperators) :
    (Parser.precedence word).getD 0 = 4 ∧ (languagePrecedences.lookup word).getD 0 = 5 := by
  have hall : ∀ word ∈ relationOperators, (Parser.precedence word).getD 0 = 4 ∧
      (languagePrecedences.lookup word).getD 0 = 5 := by decide
  exact hall word h

theorem language_refines (first second : Text)
    (h : parserStrength db first < parserStrength db second) :
    languageStrength db first < languageStrength db second := by
  have hfirst := level_cases (db.upperText first)
  have hsecond := level_cases (db.upperText second)
  unfold parserStrength at h
  unfold languageStrength
  omega

theorem conflict_iff {operators : List Text}
    (hoperators : ∀ operator ∈ operators, (Parser.precedence (db.upperText operator)).isSome) :
    Infix.Conflict (parserStrength db) (languageStrength db) operators ↔
      EqualityBeforeRelation db operators := by
  constructor
  · intro hconflict
    obtain ⟨before, earlier, between, later, after, hrow, hsame, hless, hbetween⟩ := hconflict
    have hearlier := level_cases (db.upperText earlier)
    have hlater := level_cases (db.upperText later)
    unfold parserStrength at hsame hbetween
    unfold languageStrength at hless
    have hequality : db.upperText earlier ∈ equalityOperators := by
      by_contra hother
      simp only [hother, false_and, false_or] at hearlier
      omega
    have hrelation : db.upperText later ∈ relationOperators := by
      by_contra hother
      simp only [hother, false_and, false_or] at hlater
      omega
    have hfour := (equality_levels hequality).1
    have houtside : ∀ operator ∈ between, db.upperText operator ∉ booleanOperators := by
      intro operator hoperator hboolean
      have hhigh := hbetween operator hoperator
      have hlow := boolean_level hboolean
      omega
    exact ⟨before, earlier, between, later, after, hrow, hequality, hrelation, houtside⟩
  · intro hbefore
    obtain ⟨before, equality, between, relation, after, rfl, hequality, hrelation, hbetween⟩ :=
      hbefore
    have hfirst := equality_levels hequality
    have hlast := relation_levels hrelation
    refine ⟨before, equality, between, relation, after, rfl, ?_, ?_, ?_⟩
    · exact hfirst.1.trans hlast.1.symm
    · unfold languageStrength
      omega
    · intro operator hoperator
      have hknown := hoperators operator (by simp [hoperator])
      have hlevels := level_cases (db.upperText operator)
      have hother := hbetween operator hoperator
      rw [Option.isSome_iff_ne_none] at hknown
      simp only [hknown, hother, false_and, false_or, or_false] at hlevels
      unfold parserStrength
      omega

/-! ## Rows and their trees -/

/-- The syntax tree of a grouped row. -/
def infixExpression : Infix Expression Text → Expression
  | .operand value => value
  | .node left operator right =>
    .binary noSpan (infixExpression left) operator (infixExpression right)

def infixWords (spelling : Spelling db) (first : Expression) (rest : List (Text × Expression)) :
    List Word :=
  words spelling first ++
    rest.flatMap fun step => (spelling.operator step.1, step.1) :: words spelling step.2

theorem words_infixExpression (spelling : Spelling db) (tree : Infix Expression Text) :
    words spelling (infixExpression tree) = infixWords spelling tree.first tree.rest := by
  induction tree with
  | operand value => simp [infixExpression, infixWords, Infix.first, Infix.rest]
  | node left operator right ihleft ihright =>
    rw [infixExpression, words, ihleft, ihright]
    simp [infixWords, Infix.first, Infix.rest]

theorem isBinary_withoutSpans (e : Expression) : e.withoutSpans.isBinary = e.isBinary := by
  cases e <;> rfl

theorem infixExpression_withoutSpans (tree : Infix Expression Text) :
    (infixExpression tree).withoutSpans = infixExpression (tree.map withoutSpans) := by
  induction tree with
  | operand => rfl
  | node left operator right ihleft ihright =>
    rw [infixExpression, withoutSpans, ihleft, ihright]
    rfl

theorem infixExpression_injective {one other : Infix Expression Text}
    (hone : ∀ value ∈ one.operands, value.isBinary = false)
    (hother : ∀ value ∈ other.operands, value.isBinary = false)
    (h : infixExpression one = infixExpression other) : one = other := by
  induction one generalizing other with
  | operand value =>
    cases other with
    | operand => exact congrArg Infix.operand h
    | node left operator right =>
      have hplain := hone value (by simp [Infix.operands])
      rw [infixExpression] at h
      rw [h] at hplain
      cases hplain
  | node left operator right ihleft ihright =>
    cases other with
    | operand value =>
      have hplain := hother value (by simp [Infix.operands])
      rw [infixExpression.eq_1 value] at h
      rw [← h] at hplain
      cases hplain
    | node front sign back =>
      rw [infixExpression, infixExpression, Expression.binary.injEq] at h
      obtain ⟨_, hleft, rfl, hright⟩ := h
      have hfront : left = front := by
        apply ihleft _ _ hleft
        · exact fun value hvalue => hone value (mem_append_left _ hvalue)
        · exact fun value hvalue => hother value (mem_append_left _ hvalue)
      have hback : right = back := by
        apply ihright _ _ hright
        · exact fun value hvalue => hone value (mem_append_right _ hvalue)
        · exact fun value hvalue => hother value (mem_append_right _ hvalue)
      rw [hfront, hback]

variable {value : Expression}

theorem precedenceOf_plain (h : value.isBinary = false) :
    value.precedenceOf db = 7 := by
  cases value <;> first | rfl | cases h

theorem le_precedenceOf {tree : Infix Expression Text} {level : Nat}
    (hoperands : ∀ value ∈ tree.operands, value.isBinary = false) (hlevel : level ≤ 7)
    (hroot : ∀ inner ∈ tree.root, level ≤ parserStrength db inner) :
    level ≤ (infixExpression tree).precedenceOf db := by
  cases tree with
  | operand value =>
    rw [infixExpression, precedenceOf_plain (hoperands value (by simp [Infix.operands]))]
    exact hlevel
  | node left operator right => exact hroot operator rfl

theorem printable_infixExpression {tree : Infix Expression Text}
    (h : Infix.Grouped (parserStrength db) tree)
    (hoperands : ∀ value ∈ tree.operands, Printable db value ∧ value.isBinary = false)
    (hoperators : ∀ operator ∈ tree.operators,
      (Parser.precedence (db.upperText operator)).isSome) :
    Printable db (infixExpression tree) := by
  induction h with
  | operand value => exact (hoperands value (by simp [Infix.operands])).1
  | @node left operator right _ _ hfirst hlast ihleft ihright =>
    obtain ⟨level, hlevel⟩ :=
      Option.isSome_iff_exists.mp (hoperators operator (by simp [Infix.operators]))
    have hstrength : parserStrength db operator = level := by
      rw [parserStrength, hlevel, Option.getD_some]
    have hbound := (Parser.precedence_bounds hlevel).2
    have hleft : ∀ value ∈ left.operands, Printable db value ∧ value.isBinary = false :=
      fun value hvalue => hoperands value (mem_append_left _ hvalue)
    have hright : ∀ value ∈ right.operands, Printable db value ∧ value.isBinary = false :=
      fun value hvalue => hoperands value (mem_append_right _ hvalue)
    rw [infixExpression]
    apply Printable.binary hlevel
    · apply le_precedenceOf (fun value hvalue => (hleft value hvalue).2) (by omega)
      exact fun inner hinner => hstrength ▸ hfirst inner hinner
    · apply le_precedenceOf (fun value hvalue => (hright value hvalue).2) (by omega)
      intro inner hinner
      have hless := hlast inner hinner
      omega
    · exact ihleft hleft fun inner hinner => hoperators inner (mem_append_left _ hinner)
    · exact ihright hright fun inner hinner =>
        hoperators inner (mem_append_right _ (mem_cons_of_mem _ hinner))

/-- The two orders build one tree for a row unless an equality stands before a relation. -/
theorem infix_orders_iff {first : Expression} {rest : List (Text × Expression)}
    (hplain : ∀ value ∈ first :: rest.map Prod.snd, value.isBinary = false)
    (hoperators : ∀ operator ∈ rest.map Prod.fst,
      (Parser.precedence (db.upperText operator)).isSome) :
    (infixExpression (.group (parserStrength db) first rest)).withoutSpans =
        (infixExpression (.group (languageStrength db) first rest)).withoutSpans ↔
      ¬ EqualityBeforeRelation db (rest.map Prod.fst) := by
  have hbare : ∀ strength : Text → Nat,
      ∀ value ∈ ((Infix.group strength first rest).map withoutSpans).operands,
        value.isBinary = false := by
    intro strength value hvalue
    obtain ⟨_, hfirst, hrest⟩ := @Infix.group_spec _ _ strength first rest
    rw [Infix.operands_map, Infix.operands_eq, hfirst, hrest, mem_map] at hvalue
    obtain ⟨operand, hoperand, rfl⟩ := hvalue
    rw [isBinary_withoutSpans]
    exact hplain operand hoperand
  have hnames : (rest.map (Prod.map id withoutSpans)).map Prod.fst = rest.map Prod.fst := by
    simp
  rw [infixExpression_withoutSpans, infixExpression_withoutSpans, ← conflict_iff hoperators,
    ← hnames, ← Infix.group_eq_iff language_refines (withoutSpans first), ← Infix.map_group,
    ← Infix.map_group]
  constructor
  · exact infixExpression_injective (hbare _) (hbare _)
  · exact fun hsame => congrArg infixExpression hsame

/-! ## Assignments of rows -/

variable {ws : List Word} {target sign : Text}

namespace Parser

variable (spelling : Spelling db)

def statementWords : List Text := ["IF", "WHILE", "EXIT", "JMP"]

/-- A name that an assignment statement can begin with. -/
def IsTarget (db : CharacterDatabase) (target : Text) : Prop :=
  db.upperText target ∉ statementWords ∧ db.upperText target ∉ unaryOperators ∧
    db.upperText target ∉ booleanWords

instance (target : Text) : Decidable (IsTarget db target) := by
  unfold IsTarget
  infer_instance

def assignmentWords (target sign : Text) (value : List Word) : List Word :=
  (.identifier, target) :: (.assign, sign) :: (value ++ [semicolonWord])

theorem skip_suffix (p : Parser) (count : Nat) : (p.skip count).rest <:+ p.rest := by
  induction count generalizing p with
  | zero => exact suffix_refl _
  | succ count ih =>
    have htake : p.take.rest <:+ p.rest :=
      (List.tail_suffix _).trans (dropWhile_suffix _)
    exact (ih p.take).trans htake

variable {p : Parser}

theorem samePosition_skip {count : Nat}
    (h : (p.skip count).upcoming ≠ p.upcoming) : (p.skip count).samePosition p = false := by
  rw [samePosition, beq_eq_false_iff_ne]
  intro hlength
  have hsame := (skip_suffix p count).eq_of_length hlength
  apply h
  rw [upcoming, upcoming, hsame]

theorem follows_of_assign {text : Text} : Follows db 0 ((.assign, text) :: ws) := by
  constructor
  · rfl
  · intro level hlevel
    rw [wordOperator_nil (by simp) (by simp), precedence_nil] at hlevel
    cases hlevel

theorem statementEnd_semicolon (fallback : Nat) (h : p.upcoming = semicolonWord :: ws) :
    statementEnd fallback p = (p.peek.span.stop, p.take) := by
  rw [statementEnd, if_pos (by rw [atKind_of h]; rfl)]

theorem assignment_statement (htarget : IsTarget db target) (hvalue : Printable db value)
    (h : p.upcoming = assignmentWords target sign (words spelling value) ++ ws) :
    ∃ span range read, read.withoutSpans = value.withoutSpans ∧
      Converges (fun n => statement db n p)
        (some (.assignment span (.name range target) sign read),
          p.skipTrivia.skip ((words spelling value).length + 3)) := by
  rw [← skipTrivia_upcoming] at h
  have hwords : p.skipTrivia.upcoming = (.identifier, target) :: (.assign, sign) ::
      (words spelling value ++ semicolonWord :: ws) := by
    rw [h, assignmentWords]
    simp
  have htail := upcoming_cons hwords
  have hrest := upcoming_cons htail.2
  have hname : Printable db (.name noSpan target) := .name htarget.2.1 htarget.2.2
  obtain ⟨name, hsame, hread⟩ :=
    (reads spelling hname).whole spelling hname hwords follows_of_assign
  obtain ⟨read, hvalueSame, hvalueRead⟩ :=
    (reads spelling hvalue).whole spelling hvalue hrest.2 (follows_of_closing (by decide))
  have hend := upcoming_skip hrest.2
  cases name with
  | name range target' =>
    have htext : target' = target := by simpa [withoutSpans] using hsame
    subst htext
    have hfree : ∀ word ∈ statementWords, keyword db word p.skipTrivia = false := by
      intro word hword
      rw [keyword_of hwords]
      have hother : db.upperText target' ≠ word := fun heq => htarget.1 (heq ▸ hword)
      simp [hother]
    have hnotEnd : p.skipTrivia.current.kind ≠ .endOfFile := by
      have hkind := congrArg Prod.fst (current_skipTrivia hwords)
      rw [skipTrivia_skipTrivia] at hkind
      simp only [StructuredTextToken.word] at hkind
      simp [hkind]
    have hnoColon : p.skipTrivia.peekSecond.kind ≠ .colon := by
      have hkind := congrArg Prod.fst (peekSecond_word hwords)
      simp only [StructuredTextToken.word] at hkind
      simp [hkind]
    have hassign : p.skipTrivia.take.peek.text = sign := congrArg Prod.snd hrest.1
    have hone : words spelling (.name noSpan target') = [(.identifier, target')] := rfl
    rw [hone, length_singleton, skip_one] at hread
    have hskip : p.skipTrivia.take.take.skip (words spelling value).length =
        p.skipTrivia.skip ((words spelling value).length + 2) := rfl
    rw [hskip] at hvalueRead hend
    let stop := (p.skipTrivia.skip ((words spelling value).length + 2)).peek.span.stop
    refine ⟨⟨p.skipTrivia.current.span.start, stop⟩, range, read, hvalueSame,
      hread.step₂ hvalueRead fun n htargetRead hread => ?_⟩
    have hidentifier : p.skipTrivia.atKind .identifier = true := by
      rw [atKind_of hwords]
      rfl
    have hsign : p.skipTrivia.take.atKind .assign = true := by
      rw [atKind_of htail.2]
      rfl
    simp only [statement, if_neg hnotEnd, hfree "IF" (by decide), hfree "WHILE" (by decide),
      hfree "EXIT" (by decide), hfree "JMP" (by decide), Bool.false_eq_true, if_false,
      hidentifier, hnoColon, and_false, htargetRead, Option.bind_eq_bind, Option.bind_some,
      hsign, if_true, hread, hassign]
    rw [statementEnd_semicolon _ hend, take_skip]
    rfl
  | _ => cases hsame

theorem statementList_end {p : Parser} (statements : List Statement) (h : p.upcoming = [endWord]) :
    ∃ q, q.diagnostics = p.diagnostics ∧
      Converges (fun n => statementList db n [] statements p) (statements, q) := by
  by_cases hend : p.current.kind = .endOfFile
  · refine ⟨p, rfl, converges_of_step fun n => ?_⟩
    rw [statementList, if_pos hend]
  · have hkind : p.skipTrivia.current.kind = .endOfFile :=
      congrArg Prod.fst (current_skipTrivia h)
    refine ⟨p.skipTrivia, rfl, converges_of_step fun n => ?_⟩
    simp [statementList, hend, keywordIn, hkind]

theorem statementList_assignment (htarget : IsTarget db target) (hvalue : Printable db value)
    (h : p.upcoming = assignmentWords target sign (words spelling value) ++ [endWord]) :
    ∃ span range read q, read.withoutSpans = value.withoutSpans ∧ q.diagnostics = p.diagnostics ∧
      Converges (fun n => statementList db n [] [] p)
        ([.assignment span (.name range target) sign read], q) := by
  rw [← skipTrivia_upcoming] at h
  obtain ⟨span, range, read, hsame, hread⟩ := assignment_statement spelling htarget hvalue h
  rw [skipTrivia_skipTrivia] at hread
  have hafter : (p.skipTrivia.skip ((words spelling value).length + 3)).upcoming = [endWord] := by
    have hlength : (assignmentWords target sign (words spelling value)).length =
        (words spelling value).length + 3 := by simp [assignmentWords]
    rw [← hlength]
    exact upcoming_skip h
  obtain ⟨q, hdiagnostics, hrest⟩ :=
    @statementList_end db _ [.assignment span (.name range target) sign read] hafter
  rw [skip_diagnostics] at hdiagnostics
  refine ⟨span, range, read, q, hsame, hdiagnostics, hread.step₂ hrest fun n hfirst hlast => ?_⟩
  have hmoved : (p.skipTrivia.skip ((words spelling value).length + 3)).samePosition p.skipTrivia =
      false := by
    apply samePosition_skip
    rw [hafter, h, assignmentWords]
    simp
  have hkind : p.skipTrivia.current.kind = .identifier := by
    have hfirst := congrArg Prod.fst (current_skipTrivia h)
    rw [skipTrivia_skipTrivia] at hfirst
    exact hfirst
  rw [skipTrivia_upcoming] at h
  have hstart : p.current.kind ≠ .endOfFile := current_not_end h (by simp)
  simp [statementList, hstart, keywordIn, hkind, hfirst, hmoved, hlast]

end Parser

variable {source : Text}

theorem parse_assignment (spelling : Spelling db)
    {tokens : List StructuredTextToken} {lexical : List StructuredTextDiagnostic}
    (hlex : lexStructuredText db source = some (tokens, lexical))
    (htarget : Parser.IsTarget db target) (hvalue : Printable db value)
    (hwords : significantWords tokens =
      Parser.assignmentWords target sign (words spelling value) ++ [endWord]) :
    ∃ document span range read,
      Converges (fun fuel => parseStructuredText db fuel source) document ∧
        document.statements = [.assignment span (.name range target) sign read] ∧
        document.diagnostics = lexical ∧ read.withoutSpans = value.withoutSpans := by
  have hsome : tokens ≠ [] := by
    rintro rfl
    simp [significantWords, Parser.assignmentWords] at hwords
  have hmarker : tokens.getLast? = some (tokens.getLast hsome) := List.getLast?_eq_some_getLast hsome
  have hup : (Parser.start source tokens.dropLast (tokens.getLast hsome) lexical).upcoming =
      Parser.assignmentWords target sign (words spelling value) ++ [endWord] := by
    rw [← hwords, Parser.upcoming, Parser.start, dropLast_append_getLast]
    rfl
  obtain ⟨span, range, read, q, hsame, hdiagnostics, hread⟩ :=
    Parser.statementList_assignment spelling htarget hvalue hup
  obtain ⟨enough, henough⟩ := hread
  refine ⟨⟨source, tokens, _, q.diagnostics⟩, span, range, read, ⟨enough, ?_⟩, rfl, hdiagnostics,
    hsame⟩
  intro fuel hfuel
  simp [parseStructuredText, hlex, hmarker, henough fuel hfuel]

theorem parse_row (spelling : Spelling db) {first : Expression}
    {rest : List (Text × Expression)} {tokens : List StructuredTextToken}
    {lexical : List StructuredTextDiagnostic}
    (hlex : lexStructuredText db source = some (tokens, lexical))
    (hwords : significantWords tokens =
      Parser.assignmentWords target sign (infixWords spelling first rest) ++ [endWord])
    (htarget : Parser.IsTarget db target) (hoperands : ∀ value ∈ first :: rest.map Prod.snd,
      Printable db value ∧ value.isBinary = false) (hoperators : ∀ operator ∈ rest.map Prod.fst,
      (Parser.precedence (db.upperText operator)).isSome) :
    ∃ document span range read,
      Converges (fun fuel => parseStructuredText db fuel source) document ∧
        document.statements = [.assignment span (.name range target) sign read] ∧
        document.diagnostics = lexical ∧
        read.withoutSpans =
          (infixExpression (.group (parserStrength db) first rest)).withoutSpans := by
  obtain ⟨hgrouped, hfirst, hrest⟩ := @Infix.group_spec _ _ (parserStrength db) first rest
  have hprintable := printable_infixExpression hgrouped
    (by rwa [Infix.operands_eq, hfirst, hrest]) (by rwa [Infix.operators_eq, hrest])
  have hrow := words_infixExpression spelling (.group (parserStrength db) first rest)
  rw [hfirst, hrest] at hrow
  rw [← hrow] at hwords
  exact parse_assignment spelling hlex htarget hprintable hwords

/-- The climbing parser builds the tree of the language for a row of operands unless an equality
stands before a relation of the same comparison row. -/
theorem parsed_infix_iff (db : CharacterDatabase) (spelling : Spelling db)
    (source target sign : Text) (first : Expression) (rest : List (Text × Expression))
    (tokens : List StructuredTextToken) (lexical : List StructuredTextDiagnostic)
    (hlex : lexStructuredText db source = some (tokens, lexical))
    (hwords : significantWords tokens =
      Parser.assignmentWords target sign (infixWords spelling first rest) ++ [endWord])
    (htarget : Parser.IsTarget db target) (hoperands : ∀ value ∈ first :: rest.map Prod.snd,
      Printable db value ∧ value.isBinary = false) (hoperators : ∀ operator ∈ rest.map Prod.fst,
      (Parser.precedence (db.upperText operator)).isSome) :
    ∃ document span range read,
      Converges (fun fuel => parseStructuredText db fuel source) document ∧
        document.statements = [.assignment span (.name range target) sign read] ∧
        document.diagnostics = lexical ∧
        (read.withoutSpans =
            (infixExpression (.group (languageStrength db) first rest)).withoutSpans ↔
          ¬ EqualityBeforeRelation db (rest.map Prod.fst)) := by
  obtain ⟨document, span, range, read, hparse, hstatements, hdiagnostics, hsame⟩ :=
    parse_row spelling hlex hwords htarget hoperands hoperators
  refine ⟨document, span, range, read, hparse, hstatements, hdiagnostics, ?_⟩
  rw [hsame]
  exact infix_orders_iff (fun value hvalue => (hoperands value hvalue).2) hoperators

theorem lexed_words
    (h : (lexStructuredText db source).map (fun read => (significantWords read.1, read.2)) =
      some (ws, [])) :
    ∃ tokens, lexStructuredText db source = some (tokens, []) ∧ significantWords tokens = ws := by
  obtain ⟨⟨tokens, lexical⟩, hlex, hread⟩ := Option.map_eq_some_iff.mp h
  rw [Prod.mk.injEq] at hread
  obtain ⟨hwords, hnone⟩ := hread
  rw [show lexical = [] from hnone] at hlex
  exact ⟨tokens, hlex, hwords⟩

def letter (name : Text) : Expression := .name noSpan name

theorem letters_plain : ∀ value ∈ [letter "a", letter "b", letter "c"],
    Printable Ascii.database value ∧ value.isBinary = false := by
  have hall : ∀ name ∈ (["a", "b", "c"] : List Text),
      Ascii.database.upperText name ∉ Parser.unaryOperators ∧
        Ascii.database.upperText name ∉ Parser.booleanWords := by decide
  intro value hvalue
  obtain ⟨name, hname, rfl⟩ : ∃ name ∈ (["a", "b", "c"] : List Text), letter name = value := by
    simpa [eq_comm] using hvalue
  exact ⟨.name (hall name hname).1 (hall name hname).2, rfl⟩

theorem parsed_infix_sum :
    ∃ tokens document span range read,
      lexStructuredText Ascii.database "x := a < b + c;" = some (tokens, []) ∧
        Converges (fun fuel => parseStructuredText Ascii.database fuel "x := a < b + c;")
          document ∧
        document.statements = [.assignment span (.name range "x") ":=" read] ∧
        document.diagnostics = [] ∧
        (read.withoutSpans =
            (infixExpression (.group (languageStrength Ascii.database) (letter "a")
              [("<", letter "b"), ("+", letter "c")])).withoutSpans ↔
          ¬ EqualityBeforeRelation Ascii.database ["<", "+"]) := by
  have hread : (lexStructuredText Ascii.database "x := a < b + c;").map
      (fun read => (significantWords read.1, read.2)) =
        some (Parser.assignmentWords "x" ":=" (infixWords (lexicalSpelling Ascii.database)
          (letter "a") [("<", letter "b"), ("+", letter "c")]) ++ [endWord], []) := by
    decide +kernel
  obtain ⟨tokens, hlex, hwords⟩ := lexed_words hread
  obtain ⟨document, span, range, read, hparsed⟩ :=
    parsed_infix_iff Ascii.database (lexicalSpelling Ascii.database) _ "x" ":=" (letter "a")
      [("<", letter "b"), ("+", letter "c")] tokens [] hlex hwords (by decide)
      letters_plain (by decide)
  exact ⟨tokens, document, span, range, read, hlex, hparsed⟩

/-- `a = b < c` is read as `(a = b) < c`. -/
theorem comparison_row_misgrouped :
    ∃ document span range read,
      Converges (fun fuel => parseStructuredText Ascii.database fuel "x := a = b < c;") document ∧
        document.statements = [.assignment span (.name range "x") ":=" read] ∧
        read.withoutSpans =
          .binary noSpan (.binary noSpan (letter "a") "=" (letter "b")) "<" (letter "c") ∧
        read.withoutSpans ≠
          (infixExpression (.group (languageStrength Ascii.database) (letter "a")
            [("=", letter "b"), ("<", letter "c")])).withoutSpans := by
  have hread : (lexStructuredText Ascii.database "x := a = b < c;").map
      (fun read => (significantWords read.1, read.2)) =
        some (Parser.assignmentWords "x" ":=" (infixWords (lexicalSpelling Ascii.database)
          (letter "a") [("=", letter "b"), ("<", letter "c")]) ++ [endWord], []) := by
    decide +kernel
  obtain ⟨tokens, hlex, hwords⟩ := lexed_words hread
  obtain ⟨document, span, range, read, hparse, hstatements, _, hsame⟩ :=
    parse_row (lexicalSpelling Ascii.database) hlex hwords (by decide)
      letters_plain (by decide)
  have htable : (infixExpression (.group (parserStrength Ascii.database) (letter "a")
      [("=", letter "b"), ("<", letter "c")])).withoutSpans =
        .binary noSpan (.binary noSpan (letter "a") "=" (letter "b")) "<" (letter "c") := by
    rfl
  have hlanguage : (infixExpression (.group (languageStrength Ascii.database) (letter "a")
      [("=", letter "b"), ("<", letter "c")])).withoutSpans =
        .binary noSpan (letter "a") "=" (.binary noSpan (letter "b") "<" (letter "c")) := by
    rfl
  refine ⟨document, span, range, read, hparse, hstatements, hsame.trans htable, ?_⟩
  rw [hsame, htable, hlanguage]
  simp [letter]

end TwinForge.StructuredText
