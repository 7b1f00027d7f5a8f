import TwinForge.StructuredText.Lexer

/-! # Recovering parser

The cursor holds the tokens from its position on; past the last token it keeps
reading the end marker. The loops and the recursive descent share one fuel; a
result of `none` means that the fuel ran out.
-/

namespace TwinForge.StructuredText

structure Parser where
  source : Text
  marker : StructuredTextToken
  rest : List StructuredTextToken
  diagnostics : List StructuredTextDiagnostic

namespace Parser

/-! ## Tokens -/

def isTrivia (token : StructuredTextToken) : Bool :=
  token.kind == .whitespace || token.kind == .comment

def current (p : Parser) : StructuredTextToken := p.rest.headD p.marker

def skipTrivia (p : Parser) : Parser := { p with rest := p.rest.dropWhile isTrivia }

def advance (p : Parser) : Parser := { p with rest := p.rest.tail }

/-- The next token that is not trivia. -/
def peek (p : Parser) : StructuredTextToken := p.skipTrivia.current

/-- The token after it that is not trivia. -/
def peekSecond (p : Parser) : StructuredTextToken := p.skipTrivia.advance.peek

/-- Move past the next token that is not trivia; the token is `p.peek`. -/
def take (p : Parser) : Parser := p.skipTrivia.advance

def atKind (kind : TokenKind) (p : Parser) : Bool := p.peek.kind == kind

/-- Does an argument at the cursor begin with a formal name and its direction? -/
def atNamedArgument (p : Parser) : Bool :=
  p.peek.kind == .identifier && (p.peekSecond.kind == .assign || p.peekSecond.kind == .outputAssign)

def diagnostic (p : Parser) (code message : Text) (span : SourceSpan) : Parser :=
  { p with diagnostics := p.diagnostics ++ [⟨code, message, span⟩] }

/-- Equal positions, for two cursors over one token list. -/
def samePosition (p q : Parser) : Bool := p.rest.length == q.rest.length

/-! ## Operators -/

def unaryOperators : List Text := ["NOT", "+", "-"]

def precedences : List (Text × Nat) :=
  [("OR", 1), ("|", 1), ("XOR", 2), ("^", 2), ("AND", 3), ("&", 3),
   ("=", 4), ("<>", 4), ("<", 4), ("<=", 4), (">", 4), (">=", 4),
   ("+", 5), ("-", 5), ("*", 6), ("/", 6), ("MOD", 6)]

def precedence (operator : Text) : Option Nat := precedences.lookup operator

def isOperatorWord (value : Text) : Bool :=
  (precedence value).isSome || unaryOperators.contains value

def booleanWords : List Text := ["TRUE", "FALSE"]

section

variable (db : CharacterDatabase)

def operatorText (token : StructuredTextToken) : Text :=
  match token.kind with
  | .operator => db.upperText token.text
  | .identifier =>
    if isOperatorWord (db.upperText token.text) then db.upperText token.text else []
  | _ => []

/-- The precedence of the binary operator at the cursor, if one stands there. -/
def binaryOperator (p : Parser) : Option Nat := precedence (operatorText db p.peek)

def keyword (value : Text) (p : Parser) : Bool :=
  p.peek.kind == .identifier && db.upperText p.peek.text == value

def keywordIn (values : List Text) (p : Parser) : Bool :=
  p.peek.kind == .identifier && values.contains (db.upperText p.peek.text)

/-! ## Expressions -/

mutual

def expression : Nat → Nat → Parser → Option (Option Expression × Parser)
  | 0, _, _ => none
  | fuel + 1, minimum, p => do
    match ← unary fuel p with
    | (none, p) => return (none, p)
    | (some left, p) => binaryLoop fuel minimum left p

def binaryLoop : Nat → Nat → Expression → Parser → Option (Option Expression × Parser)
  | 0, _, _, _ => none
  | fuel + 1, minimum, left, p =>
    match binaryOperator db p with
    | none => some (some left, p)
    | some precedence =>
      if precedence < minimum then some (some left, p)
      else do
        let operator := p.peek
        match ← expression fuel (precedence + 1) p.take with
        | (none, p) =>
          return (some left, p.diagnostic "missing_binary_operand"
            (("operator " : Text) ++ db.reprText operator.text ++
              (" has no right operand" : Text)) operator.span)
        | (some right, p) =>
          binaryLoop fuel minimum
            (.binary ⟨left.span.start, right.span.stop⟩ left operator.text right) p

def unary : Nat → Parser → Option (Option Expression × Parser)
  | 0, _ => none
  | fuel + 1, p =>
    if unaryOperators.contains (operatorText db p.peek) then do
      let operator := p.peek
      match ← unary fuel p.take with
      | (none, p) =>
        return (some (.missing ⟨operator.span.stop, operator.span.stop⟩),
          p.diagnostic "missing_unary_operand"
            (("operator " : Text) ++ db.reprText operator.text ++
              (" has no operand" : Text)) operator.span)
      | (some operand, p) =>
        return (some (.unary ⟨operator.span.start, operand.span.stop⟩ operator.text operand), p)
    else postfixExpression fuel p

def postfixExpression : Nat → Parser → Option (Option Expression × Parser)
  | 0, _ => none
  | fuel + 1, p => do
    match ← primary fuel p with
    | (none, p) => return (none, p)
    | (some expression, p) => postfixLoop fuel expression p

def postfixLoop : Nat → Expression → Parser → Option (Option Expression × Parser)
  | 0, _, _ => none
  | fuel + 1, target, p =>
    if p.atKind .dot then
      let dot := p.peek
      let p := p.take
      if p.atKind .leftBracket then do
        let (indexed, p) ← indexExpression fuel target ".[]" p
        postfixLoop fuel indexed p
      else
        let member := p.peek
        if member.kind ≠ .identifier ∧ member.kind ≠ .literal then
          some (some target, p.diagnostic "missing_member"
            "member selector is missing its member name" ⟨dot.span.start, member.span.stop⟩)
        else
          postfixLoop fuel (.member ⟨target.span.start, member.span.stop⟩ target member.text)
            p.take
    else if p.atKind .leftBracket then do
      let (indexed, p) ← indexExpression fuel target "[]" p
      postfixLoop fuel indexed p
    else if p.atKind .leftParen then do
      let (called, p) ← callExpression fuel target p
      postfixLoop fuel called p
    else some (some target, p)

def primary : Nat → Parser → Option (Option Expression × Parser)
  | 0, _ => none
  | fuel + 1, p =>
    let token := p.peek
    match token.kind with
    | .identifier =>
      if booleanWords.contains (db.upperText token.text) then
        some (some (.literal token.span token.text), p.take)
      else some (some (.name token.span token.text), p.take)
    | .literal => some (some (.literal token.span token.text), p.take)
    | .string => some (some (.literal token.span token.text), p.take)
    | .directAddress => some (some (.directAddress token.span token.text), p.take)
    | .leftParen => do
      let (inner, p) ← expression fuel 1 p.take
      let inner := inner.getD (.missing ⟨token.span.stop, token.span.stop⟩)
      if p.atKind .rightParen then
        return (some (.parenthesized ⟨token.span.start, p.peek.span.stop⟩ inner), p.take)
      else
        let span : SourceSpan := ⟨token.span.start, inner.span.stop⟩
        return (some (.parenthesized span inner), p.diagnostic "missing_right_parenthesis"
          "parenthesized expression is missing ')'" span)
    | _ => some (none, p)

def indexExpression : Nat → Expression → Text → Parser → Option (Expression × Parser)
  | 0, _, _, _ => none
  | fuel + 1, target, operator, p => do
    let (indices, p) ← indexLoop fuel [] p.take
    if p.atKind .rightBracket then
      return (.index ⟨target.span.start, p.peek.span.stop⟩ target indices operator, p.take)
    else
      let span : SourceSpan := ⟨target.span.start, (indices.getLastD target).span.stop⟩
      return (.index span target indices operator,
        p.diagnostic "missing_right_bracket" "index expression is missing ']'" span)

def indexLoop : Nat → List Expression → Parser → Option (List Expression × Parser)
  | 0, _, _ => none
  | fuel + 1, indices, p =>
    if p.atKind .rightBracket then some (indices, p)
    else do
      let (index, p) ← expression fuel 1 p
      let indices := indices ++ [index.getD (.missing ⟨p.peek.span.start, p.peek.span.start⟩)]
      if p.atKind .comma then indexLoop fuel indices p.take
      else return (indices, p)

def callExpression : Nat → Expression → Parser → Option (Expression × Parser)
  | 0, _, _ => none
  | fuel + 1, callee, p => do
    let (arguments, p) ← callLoop fuel [] p.take
    if p.atKind .rightParen then
      return (.call ⟨callee.span.start, p.peek.span.stop⟩ callee arguments, p.take)
    else
      let stop := (arguments.getLast?.map (·.span.stop)).getD callee.span.stop
      let span : SourceSpan := ⟨callee.span.start, stop⟩
      return (.call span callee arguments,
        p.diagnostic "missing_call_parenthesis" "call expression is missing ')'" span)

def callLoop : Nat → List (CallArgument Expression) → Parser →
    Option (List (CallArgument Expression) × Parser)
  | 0, _, _ => none
  | fuel + 1, arguments, p =>
    if p.atKind .rightParen then some (arguments, p)
    else
      let start := p.peek.span.start
      if p.atKind .comma then
        let missing := Expression.missing ⟨start, start⟩
        callLoop fuel (arguments ++ [{ span := missing.span, value := missing }]) p.take
      else do
        let named := p.atNamedArgument
        let name := if named then some p.peek.text else none
        let direction := if named then some p.peekSecond.text else none
        let p := if named then p.take.take else p
        let (value, p) ← expression fuel 1 p
        let missing := Expression.missing ⟨start, start⟩
        let p := if value.isNone then
            p.diagnostic "missing_call_argument" "call argument is missing" missing.span
          else p
        let value := value.getD missing
        let arguments := arguments ++ [⟨⟨start, value.span.stop⟩, value, name, direction⟩]
        if p.atKind .comma then callLoop fuel arguments p.take
        else return (arguments, p)

end

/-! ## Statements -/

def statementEnd (fallback : Nat) (p : Parser) : Nat × Parser :=
  if p.atKind .semicolon then (p.peek.span.stop, p.take)
  else (fallback, p.diagnostic "missing_semicolon" "statement is missing ';'" ⟨fallback, fallback⟩)

/-- The end offset of the skipped tokens. Looking for a keyword skips trivia
before the step over one token. -/
def recoverLoop : Nat → Parser → Option (Nat × Parser)
  | 0, _ => none
  | fuel + 1, p =>
    if p.current.kind = .endOfFile then some (p.current.span.stop, p)
    else if p.current.kind = .semicolon then some (p.current.span.stop, p.advance)
    else
      let p := p.skipTrivia
      if keywordIn db ["ELSIF", "ELSE", "END_IF"] p then some (p.current.span.start, p)
      else recoverLoop fuel p.advance

def slice (p : Parser) (span : SourceSpan) : Text :=
  (p.source.drop span.start).take (span.stop - span.start)

def recoverStatement (fuel : Nat) (code : Text) (p : Parser) : Option (Statement × Parser) := do
  let p := p.skipTrivia
  let start := p.current.span.start
  let (stop, p) ← recoverLoop db fuel p
  let span : SourceSpan := ⟨start, stop⟩
  return (.unsupported span (p.slice span),
    p.diagnostic code "statement was retained without a structured interpretation" span)

def orMissing (expression : Option Expression) (code message : Text) (start : Nat) (p : Parser) :
    Expression × Parser :=
  match expression with
  | some expression => (expression, p)
  | none => (.missing ⟨start, start⟩, p.diagnostic code message ⟨start, start⟩)

/-- Take a keyword, or report that it is missing. -/
def expectKeyword (value code message : Text) (span : SourceSpan) (p : Parser) : Parser :=
  if keyword db value p then p.take else p.diagnostic code message span

/-- The end of a construct closed by `value`, or the cursor when it is missing. -/
def closeKeyword (value code message : Text) (start : Nat) (p : Parser) : Nat × Parser :=
  if keyword db value p then statementEnd p.peek.span.stop p.take
  else
    let stop := p.current.span.start
    (stop, p.diagnostic code message ⟨start, stop⟩)

mutual

def statementList : Nat → List Text → List Statement → Parser →
    Option (List Statement × Parser)
  | 0, _, _, _ => none
  | fuel + 1, terminators, statements, p =>
    if p.current.kind = .endOfFile then some (statements, p)
    else
      let p := p.skipTrivia
      if keywordIn db terminators p then some (statements, p)
      else if p.current.kind = .endOfFile then some (statements, p)
      else do
        let (parsed, q) ← statement fuel p
        let statements := statements ++ parsed.toList
        if q.samePosition p then
          let (recovered, q) ← recoverStatement db fuel "unsupported_statement" q
          statementList fuel terminators (statements ++ [recovered]) q
        else statementList fuel terminators statements q

def statement : Nat → Parser → Option (Option Statement × Parser)
  | 0, _ => none
  | fuel + 1, p => do
    let p := p.skipTrivia
    let start := p.current.span.start
    if p.current.kind = .endOfFile then return (none, p)
    else if keyword db "IF" p then
      let (parsed, p) ← ifStatement fuel p
      return (some parsed, p)
    else if keyword db "WHILE" p then
      let (parsed, p) ← whileStatement fuel p
      return (some parsed, p)
    else if keyword db "EXIT" p then
      let (stop, p) := statementEnd start p.take
      return (some (.exit ⟨start, stop⟩), p)
    else if keyword db "JMP" p then
      let p := p.take
      if p.atKind .identifier then
        let label := p.peek
        let (stop, p) := statementEnd label.span.stop p.take
        return (some (.jump ⟨start, stop⟩ label.text), p)
      else
        let (recovered, p) ← recoverStatement db fuel "missing_jump_label" p
        return (some recovered, p)
    -- a label, before the expression path meets an unexpected colon
    else if p.atKind .identifier ∧ p.peekSecond.kind = .colon then
      return (some (.label ⟨start, p.peekSecond.span.stop⟩ p.peek.text), p.take.take)
    else
      match ← expression db fuel 1 p with
      | (none, p) =>
        let (recovered, p) ← recoverStatement db fuel "expected_statement" p
        return (some recovered, p)
      | (some target, p) =>
        if p.atKind .assign then
          let operator := p.peek
          match ← expression db fuel 1 p.take with
          | (none, p) =>
            let (recovered, p) ← recoverStatement db fuel "expected_assignment_value" p
            return (some recovered, p)
          | (some value, p) =>
            let (stop, p) := statementEnd value.span.stop p
            return (some (.assignment ⟨start, stop⟩ target operator.text value), p)
        else
          let (stop, p) := statementEnd target.span.stop p
          let span : SourceSpan := ⟨start, stop⟩
          match target with
          | .call .. => return (some (.expression span target), p)
          | _ =>
            let p := p.diagnostic "unsupported_expression_statement"
              "only call expressions are supported as expression statements" span
            return (some (.unsupported span (p.slice span)), p)

def ifStatement : Nat → Parser → Option (Statement × Parser)
  | 0, _ => none
  | fuel + 1, p => do
    let start := p.peek.span.start
    let (first, p) ← ifBranch fuel start p.take
    let (branches, p) ← elsifLoop fuel [first] p
    let (elseStatements, p) ←
      if keyword db "ELSE" p then statementList fuel ["END_IF"] [] p.take
      else some ([], p)
    let (stop, p) :=
      closeKeyword db "END_IF" "missing_end_if" "IF statement is missing END_IF" start p
    return (.ifThen ⟨start, stop⟩ branches elseStatements, p)

def elsifLoop : Nat → List (IfBranch Statement) → Parser →
    Option (List (IfBranch Statement) × Parser)
  | 0, _, _ => none
  | fuel + 1, branches, p =>
    if keyword db "ELSIF" p then do
      let (branch, p) ← ifBranch fuel p.peek.span.start p.take
      elsifLoop fuel (branches ++ [branch]) p
    else some (branches, p)

def ifBranch : Nat → Nat → Parser → Option (IfBranch Statement × Parser)
  | 0, _, _ => none
  | fuel + 1, start, p => do
    let (condition, p) ← expression db fuel 1 p
    let (condition, p) :=
      orMissing condition "missing_if_condition" "IF branch is missing a condition" start p
    let p := expectKeyword db "THEN" "missing_then" "IF branch is missing THEN" condition.span p
    let (statements, p) ← statementList fuel ["ELSIF", "ELSE", "END_IF"] [] p
    let stop := (statements.getLast?.map (·.span.stop)).getD condition.span.stop
    return (⟨⟨start, stop⟩, condition, statements⟩, p)

def whileStatement : Nat → Parser → Option (Statement × Parser)
  | 0, _ => none
  | fuel + 1, p => do
    let start := p.peek.span.start
    let (condition, p) ← expression db fuel 1 p.take
    let (condition, p) := orMissing condition "missing_while_condition"
      "WHILE statement is missing a condition" start p
    let p := expectKeyword db "DO" "missing_do" "WHILE statement is missing DO" condition.span p
    let (statements, p) ← statementList fuel ["END_WHILE"] [] p
    let (stop, p) := closeKeyword db "END_WHILE" "missing_end_while"
      "WHILE statement is missing END_WHILE" start p
    return (.whileDo ⟨start, stop⟩ condition statements, p)

end

end

end Parser

def Parser.start (source : Text) (tokens : List StructuredTextToken)
    (marker : StructuredTextToken) (diagnostics : List StructuredTextDiagnostic) : Parser :=
  ⟨source, marker, tokens ++ [marker], diagnostics⟩

def parseStructuredText (db : CharacterDatabase) (fuel : Nat) (source : Text) :
    Option StructuredTextDocument := do
  let (tokens, lexicalDiagnostics) ← lexStructuredText db source
  let marker ← tokens.getLast?
  let (statements, p) ← Parser.statementList db fuel [] []
    (Parser.start source tokens.dropLast marker lexicalDiagnostics)
  return { source, tokens, statements, diagnostics := p.diagnostics }

end TwinForge.StructuredText
