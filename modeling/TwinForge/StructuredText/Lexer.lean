import TwinForge.StructuredText.Syntax

/-! # Lossless lexer

The cursor holds the source from its position on. A recogniser looks at that
text, advances over the characters of one token and appends the token. An
advance past the end of the source is the source's `IndexError` and gives `none`.
-/

namespace TwinForge.StructuredText

structure Lexer where
  rest : Text
  position : Nat
  line : Nat
  column : Nat
  tokens : List StructuredTextToken
  diagnostics : List StructuredTextDiagnostic

namespace Lexer

def start (source : Text) : Lexer := ⟨source, 0, 1, 1, [], []⟩

/-- Line and column after one character. -/
def advanceLocation (location : Nat × Nat) (character : Char) : Nat × Nat :=
  if character = '\n' then (location.1 + 1, 1) else (location.1, location.2 + 1)

def advance (lx : Lexer) : Option Lexer :=
  match lx.rest with
  | [] => none
  | character :: rest =>
    let location := advanceLocation (lx.line, lx.column) character
    some { lx with
      rest := rest, position := lx.position + 1, line := location.1, column := location.2 }

def advanceBy : Nat → Lexer → Option Lexer
  | 0, lx => some lx
  | count + 1, lx => lx.advance.bind (advanceBy count)

/-- Append the token that started where `start` stands and ends at the cursor. -/
def append (lx : Lexer) (kind : TokenKind) (start : Lexer) : Lexer :=
  { lx with tokens := lx.tokens ++
      [{ kind := kind
         text := start.rest.take (lx.position - start.position)
         span := ⟨start.position, lx.position⟩
         line := start.line
         column := start.column }] }

def report (lx : Lexer) (code message : Text) (start : Lexer) : Lexer :=
  { lx with diagnostics :=
      lx.diagnostics ++ [⟨code, message, ⟨start.position, lx.position⟩⟩] }

def startsWith (lx : Lexer) (value : Text) : Bool := value.isPrefixOf lx.rest

def fixed (lx : Lexer) (length : Nat) (kind : TokenKind) : Option Lexer :=
  (lx.advanceBy length).map (·.append kind lx)

def consumeWhile (lx : Lexer) (predicate : Char → Bool) (kind : TokenKind) : Option Lexer :=
  lx.fixed (lx.rest.takeWhile predicate).length kind

/-- Characters of the line, its newline included. -/
def lineLength : Text → Nat
  | [] => 0
  | character :: rest => if character = '\n' then 1 else lineLength rest + 1

def lineComment (lx : Lexer) : Option Lexer := lx.fixed (lineLength lx.rest) .comment

/-- Characters before the first occurrence of `mark`, or all of them. -/
def distanceTo (mark : Text) : Text → Nat
  | [] => 0
  | character :: rest =>
    if mark.isPrefixOf (character :: rest) then 0 else distanceTo mark rest + 1

def blockComment (lx : Lexer) (opening closing : Text) : Option Lexer := do
  let opened ← lx.advanceBy opening.length
  let body ← opened.advanceBy (distanceTo closing opened.rest)
  if body.startsWith closing then
    let closed ← body.advanceBy closing.length
    return closed.append .comment lx
  else
    return (body.report "unterminated_comment" "unterminated block comment" lx).append .comment lx

/-- Characters the string loop consumes after the opening quote, and whether it
met the closing quote; a doubled quote belongs to the string. -/
def stringBody : Text → Nat × Bool
  | [] => (0, false)
  | '\'' :: '\'' :: rest => ((stringBody rest).1 + 2, (stringBody rest).2)
  | '\'' :: _ => (1, true)
  | _ :: rest => ((stringBody rest).1 + 1, (stringBody rest).2)

def string (lx : Lexer) : Option Lexer := do
  let opened ← lx.advance
  let (length, terminated) := stringBody opened.rest
  let closed ← opened.advanceBy length
  if terminated then
    return closed.append .string lx
  else
    return (closed.report "unterminated_string" "unterminated string literal" lx).append .string lx

section

variable (db : CharacterDatabase)

def isWordCharacter (character : Char) : Bool := db.isAlnum character || character == '_'

def wordLength (rest : Text) : Nat := (rest.takeWhile (isWordCharacter db)).length

/-- Characters the literal tail loop consumes. A sign or a period belongs to the
literal only when a digit follows it. -/
def literalTail : Text → Nat
  | [] => 0
  | character :: rest =>
    if db.isAlnum character || character == '_' || character == '#' || character == ':' then
      literalTail rest + 1
    else if (character == '+' || character == '-' || character == '.') &&
        rest.head?.any db.isDigit then
      literalTail rest + 1
    else 0

/-- The `#` of a based or typed literal and everything that belongs to it. -/
def typedLiteral (word start : Lexer) : Option Lexer := do
  let hash ← word.advance
  let literal ← hash.advanceBy (literalTail db hash.rest)
  return literal.append .literal start

def wordOrTypedLiteral (lx : Lexer) : Option Lexer := do
  let word ← lx.advanceBy (wordLength db lx.rest)
  if word.rest.head? = some '#' then
    typedLiteral db word lx
  else
    return word.append .identifier lx

def directAddress (lx : Lexer) : Option Lexer := do
  let letters ← lx.advance
  let digits ← letters.advanceBy (letters.rest.takeWhile db.isAlpha).length
  let address ← digits.advanceBy (digits.rest.takeWhile db.isDigit).length
  if digits.position = letters.position ∨ address.position = digits.position then
    return (address.report "malformed_direct_address"
      "'%' is not followed by the evidenced <letters><digits> address shape" lx).append .unknown lx
  else
    return address.append .directAddress lx

def numericLiteral (lx : Lexer) : Option Lexer := do
  let word ← lx.advanceBy (wordLength db lx.rest)
  let hasLetter := (lx.rest.takeWhile (isWordCharacter db)).any db.isAlpha
  if word.rest.head? = some '#' then
    typedLiteral db word lx
  else if hasLetter then
    return word.append .identifier lx
  else
    let literal ← word.advanceBy (literalTail db word.rest)
    return literal.append .literal lx

end

def operator (lx : Lexer) : Option Lexer := do
  let first := lx.rest.head?
  let next ← lx.advance
  if next.rest.head? = some '=' ∧ (first = some '<' ∨ first = some '>' ∨ first = some '=') then
    let both ← next.advance
    return both.append .operator lx
  else if first = some '<' ∧ next.rest.head? = some '>' then
    let both ← next.advance
    return both.append .operator lx
  else
    return next.append .operator lx

def singleToken : Char → Option TokenKind
  | '(' => some .leftParen
  | ')' => some .rightParen
  | '[' => some .leftBracket
  | ']' => some .rightBracket
  | ',' => some .comma
  | '.' => some .dot
  | ':' => some .colon
  | ';' => some .semicolon
  | _ => none

def isOperatorCharacter (character : Char) : Bool := ("+-*/=<>&|^" : Text).contains character

/-- `REF=` in any case, not followed by another `=`. -/
def startsWithReferenceAssignment (db : CharacterDatabase) (lx : Lexer) : Bool :=
  let here := lx.rest.take 5
  db.upperText (here.take 4) == ("REF=" : Text) && here.drop 4 != ("=" : Text)

def nextToken (db : CharacterDatabase) (lx : Lexer) : Option Lexer :=
  match lx.rest with
  | [] => none
  | character :: _ =>
    if db.isSpace character then lx.consumeWhile db.isSpace .whitespace
    else if lx.startsWith "//" then lx.lineComment
    else if lx.startsWith "/*" then lx.blockComment "/*" "*/"
    else if lx.startsWith "(*" then lx.blockComment "(*" "*)"
    else if character == '\'' then lx.string
    else if lx.startsWithReferenceAssignment db then lx.fixed 4 .assign
    else if db.isAlpha character || character == '_' then lx.wordOrTypedLiteral db
    else if db.isDigit character then lx.numericLiteral db
    else if character == '%' then lx.directAddress db
    else if lx.startsWith ":=" then lx.fixed 2 .assign
    else if lx.startsWith "=>" then lx.fixed 2 .outputAssign
    else match singleToken character with
      | some kind => lx.fixed 1 kind
      | none =>
        if isOperatorCharacter character then lx.operator
        else (lx.fixed 1 .unknown).map
          (·.report "unknown_character" ("unknown character " ++ db.repr character) lx)

/-- The main loop; the fuel bounds its iterations. -/
def lexLoop (db : CharacterDatabase) : Nat → Lexer → Option Lexer
  | fuel, lx =>
    if lx.rest = [] then some lx
    else match fuel with
      | 0 => none
      | fuel + 1 => (lx.nextToken db).bind (lexLoop db fuel)

def endOfFile (lx : Lexer) : StructuredTextToken :=
  { kind := .endOfFile, text := [], span := ⟨lx.position, lx.position⟩,
    line := lx.line, column := lx.column }

end Lexer

/-- Tokenize every character, retaining trivia and unknown input. -/
def lexStructuredText (db : CharacterDatabase) (source : Text) :
    Option (List StructuredTextToken × List StructuredTextDiagnostic) :=
  (Lexer.lexLoop db source.length (Lexer.start source)).map
    (fun lx => (lx.tokens ++ [lx.endOfFile], lx.diagnostics))

end TwinForge.StructuredText
