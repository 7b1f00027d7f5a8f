import Mathlib.Data.List.DropRight
import Mathlib.Data.List.TakeWhile
import TwinForge.StructuredText.Parser

/-! # Expression trees as token sequences

What the parser reads of a token is its kind and its text. A tree prints as the
sequence of these words; trivia may stand anywhere between them. A spelling
chooses the kind of each word where the parser accepts more than one.
-/

namespace TwinForge.StructuredText

open List

/-! ## Trees without source ranges -/

/-- The range carried by every node of a tree whose ranges were erased. -/
def noSpan : SourceSpan := ⟨0, 0⟩

namespace Expression

mutual

/-- The tree with all source ranges erased. -/
def withoutSpans : Expression → Expression
  | .missing _ => .missing noSpan
  | .name _ n => .name noSpan n
  | .directAddress _ a => .directAddress noSpan a
  | .literal _ v => .literal noSpan v
  | .unary _ o e => .unary noSpan o (withoutSpans e)
  | .binary _ l o r => .binary noSpan (withoutSpans l) o (withoutSpans r)
  | .member _ t m => .member noSpan (withoutSpans t) m
  | .index _ t is o => .index noSpan (withoutSpans t) (listWithoutSpans is) o
  | .call _ c as => .call noSpan (withoutSpans c) (argumentsWithoutSpans as)
  | .parenthesized _ e => .parenthesized noSpan (withoutSpans e)

def listWithoutSpans : List Expression → List Expression
  | [] => []
  | e :: es => withoutSpans e :: listWithoutSpans es

def argumentsWithoutSpans : List (CallArgument Expression) → List (CallArgument Expression)
  | [] => []
  | a :: as => argumentWithoutSpans a :: argumentsWithoutSpans as

def argumentWithoutSpans : CallArgument Expression → CallArgument Expression
  | ⟨_, value, formal, direction⟩ => ⟨noSpan, withoutSpans value, formal, direction⟩

end

/-! ## Shapes -/

def isBinary : Expression → Bool
  | .binary .. => true
  | _ => false

/-- Primaries and postfix expressions: what a selector may follow. -/
def isSelectable : Expression → Bool
  | .unary .. => false
  | .binary .. => false
  | _ => true

def isMissing : Expression → Bool
  | .missing _ => true
  | _ => false

/-- The precedence of the root operator; unary and postfix expressions bind
tighter than every binary operator. -/
def precedenceOf (db : CharacterDatabase) : Expression → Nat
  | .binary _ _ o _ => (Parser.precedence (db.upperText o)).getD 0
  | _ => 7

end Expression

/-- A position left empty between commas. -/
def CallArgument.isOmitted (a : CallArgument Expression) : Bool :=
  a.value.isMissing && a.name.isNone && a.direction.isNone

/-! ## Words -/

abbrev Word := TokenKind × Text

def StructuredTextToken.word (token : StructuredTextToken) : Word := (token.kind, token.text)

def significantWords (tokens : List StructuredTextToken) : List Word :=
  (tokens.filter fun token => !Parser.isTrivia token).map (·.word)

/-- The kinds a token stream gives to the texts of a tree. -/
structure Spelling (db : CharacterDatabase) where
  literal : Text → TokenKind
  member : Text → TokenKind
  operator : Text → TokenKind
  direction : Text → TokenKind
  literal_kind : ∀ v, literal v = .literal ∨ literal v = .string ∨
    (literal v = .identifier ∧ db.upperText v ∈ Parser.booleanWords)
  member_kind : ∀ m, member m = .identifier ∨ member m = .literal
  operator_kind : ∀ o, operator o = .operator ∨ operator o = .identifier
  direction_kind : ∀ d, direction d = .assign ∨ direction d = .outputAssign

/-- The kinds the lexer gives: literals and members by their first character,
Boolean literals and word operators as identifiers. -/
def lexicalSpelling (db : CharacterDatabase) : Spelling db where
  literal v :=
    if db.upperText v ∈ Parser.booleanWords then .identifier
    else if v.head? = some '\'' then .string else .literal
  member m := if m.head?.any db.isDigit then .literal else .identifier
  operator o := if o.head?.any db.isAlpha then .identifier else .operator
  direction d := if d = ("=>" : Text) then .outputAssign else .assign
  literal_kind v := by
    split
    · rename_i h
      exact .inr (.inr ⟨rfl, h⟩)
    · split
      · exact .inr (.inl rfl)
      · exact .inl rfl
  member_kind m := by split <;> simp
  operator_kind o := by split <;> simp
  direction_kind d := by split <;> simp

def commaWord : Word := (.comma, ",")
def dotWord : Word := (.dot, ".")
def leftParenWord : Word := (.leftParen, "(")
def rightParenWord : Word := (.rightParen, ")")
def leftBracketWord : Word := (.leftBracket, "[")
def rightBracketWord : Word := (.rightBracket, "]")
def semicolonWord : Word := (.semicolon, ";")
def endWord : Word := (.endOfFile, [])

namespace Expression

variable {db : CharacterDatabase} (spelling : Spelling db)

mutual

def words : Expression → List Word
  | .missing _ => []
  | .name _ n => [(.identifier, n)]
  | .directAddress _ a => [(.directAddress, a)]
  | .literal _ v => [(spelling.literal v, v)]
  | .unary _ o e => (spelling.operator o, o) :: words e
  | .binary _ l o r => words l ++ (spelling.operator o, o) :: words r
  | .member _ t m => words t ++ [dotWord, (spelling.member m, m)]
  | .index _ t is o =>
    words t ++ (if o = (".[]" : Text) then [dotWord] else []) ++
      leftBracketWord :: (indexWords is ++ [rightBracketWord])
  | .call _ c as => words c ++ leftParenWord :: (argumentWords as ++ [rightParenWord])
  | .parenthesized _ e => leftParenWord :: (words e ++ [rightParenWord])

def indexWords : List Expression → List Word
  | [] => []
  | i :: is => words i ++ (if is.isEmpty then [] else commaWord :: indexWords is)

/-- An omitted position is the comma that follows it. -/
def argumentWords : List (CallArgument Expression) → List Word
  | [] => []
  | a :: as =>
    argumentWord a ++
      (if as.isEmpty && !a.isOmitted then [] else commaWord :: argumentWords as)

def argumentWord : CallArgument Expression → List Word
  | ⟨_, value, formal, direction⟩ =>
    (match formal with | some n => [(.identifier, n)] | none => []) ++
    (match direction with | some d => [(spelling.direction d, d)] | none => []) ++
    words value

end

/-- Trees whose brackets are all explicit: a binary operand binds at least as
tight as its operator (strictly tighter on the right), a unary operand is unary
or postfix, a selector target is a primary or postfix. -/
inductive Printable (db : CharacterDatabase) : Expression → Prop
  | name {s n} : db.upperText n ∉ Parser.unaryOperators → db.upperText n ∉ Parser.booleanWords →
      Printable db (.name s n)
  | directAddress {s a} : Printable db (.directAddress s a)
  | literal {s v} : Printable db (.literal s v)
  | unary {s o e} : db.upperText o ∈ Parser.unaryOperators → e.isBinary = false →
      Printable db e → Printable db (.unary s o e)
  | binary {s l o r k} : Parser.precedence (db.upperText o) = some k →
      k ≤ l.precedenceOf db → k < r.precedenceOf db →
      Printable db l → Printable db r → Printable db (.binary s l o r)
  | member {s t m} : t.isSelectable = true → Printable db t → Printable db (.member s t m)
  | index {s t is o} : t.isSelectable = true → o = ("[]" : Text) ∨ o = (".[]" : Text) →
      Printable db t → (∀ i ∈ is, Printable db i) → Printable db (.index s t is o)
  | call {s c as} : c.isSelectable = true → Printable db c →
      (∀ a ∈ as, a.name.isSome = a.direction.isSome) →
      (∀ a ∈ as, a.isOmitted = false → Printable db a.value) → Printable db (.call s c as)
  | parenthesized {s e} : Printable db e → Printable db (.parenthesized s e)

end Expression

/-! ## The words ahead of a cursor -/

namespace Parser

/-- The words from the cursor on, trivia left out. -/
def upcoming (p : Parser) : List Word :=
  (p.rest.filter (fun token => !isTrivia token)).map (·.word)

/-- The cursor after `count` words. -/
def skip : Nat → Parser → Parser
  | 0, p => p
  | count + 1, p => skip count p.take

@[simp] theorem skip_zero (p : Parser) : p.skip 0 = p := rfl

@[simp] theorem skip_one (p : Parser) : p.skip 1 = p.take := rfl

theorem skip_take (p : Parser) (n : Nat) : p.take.skip n = p.skip (n + 1) := rfl

theorem skip_skip (p : Parser) (m n : Nat) : (p.skip m).skip n = p.skip (m + n) := by
  induction m generalizing p with
  | zero => rw [Nat.zero_add, skip_zero]
  | succ m ih => rw [← skip_take, ih, skip_take, Nat.add_right_comm]

theorem take_skip (p : Parser) (n : Nat) : (p.skip n).take = p.skip (n + 1) :=
  skip_skip p n 1

@[simp] theorem skip_diagnostics (p : Parser) (n : Nat) :
    (p.skip n).diagnostics = p.diagnostics := by
  induction n generalizing p with
  | zero => rfl
  | succ n ih => rw [← skip_take, ih]; rfl

theorem dropWhile_of_filter {rest : List StructuredTextToken} {token : StructuredTextToken}
    {tokens : List StructuredTextToken}
    (h : rest.filter (fun token => !isTrivia token) = token :: tokens) :
    ∃ tail, rest.dropWhile isTrivia = token :: tail ∧
      tail.filter (fun token => !isTrivia token) = tokens := by
  induction rest with
  | nil => cases h
  | cons first rest ih =>
    by_cases hf : isTrivia first = true
    · rw [filter_cons_of_neg (by simp [hf])] at h
      rw [dropWhile_cons_of_pos hf]
      exact ih h
    · rw [filter_cons_of_pos (by simp [hf])] at h
      obtain ⟨rfl, htail⟩ := List.cons.inj h
      exact ⟨rest, dropWhile_cons_of_neg hf, htail⟩

variable {p : Parser} {w : Word} {ws : List Word}

theorem upcoming_cons (h : p.upcoming = w :: ws) :
    p.peek.word = w ∧ p.take.upcoming = ws := by
  obtain ⟨token, tokens, hfilter, hw, hws⟩ := map_eq_cons_iff.mp h
  obtain ⟨tail, hdrop, htail⟩ := dropWhile_of_filter hfilter
  refine ⟨?_, ?_⟩
  · rw [← hw, peek, current, skipTrivia, hdrop]
    rfl
  · rw [← hws, upcoming, take, advance, skipTrivia, hdrop, List.tail_cons, htail]

theorem peekSecond_word {v : Word} (h : p.upcoming = w :: v :: ws) : p.peekSecond.word = v :=
  (upcoming_cons (upcoming_cons h).2).1

theorem upcoming_skip {more : List Word} (h : p.upcoming = ws ++ more) :
    (p.skip ws.length).upcoming = more := by
  induction ws generalizing p with
  | nil => exact h
  | cons w ws ih => exact ih (upcoming_cons h).2

theorem atKind_of (h : p.upcoming = w :: ws)
    (kind : TokenKind) : p.atKind kind = (w.1 == kind) := by
  rw [atKind, ← (upcoming_cons h).1]
  rfl

theorem skipTrivia_skipTrivia (p : Parser) : p.skipTrivia.skipTrivia = p.skipTrivia := by
  unfold skipTrivia
  rw [dropWhile_idempotent]

theorem skipTrivia_upcoming (p : Parser) : p.skipTrivia.upcoming = p.upcoming := by
  unfold upcoming skipTrivia
  induction p.rest with
  | nil => rfl
  | cons token rest ih =>
    cases htrivia : isTrivia token with
    | true =>
      rw [dropWhile_cons_of_pos htrivia, ih, filter_cons_of_neg (by simp [htrivia])]
    | false => rw [dropWhile_cons_of_neg (by simp [htrivia])]

theorem current_skipTrivia (h : p.upcoming = w :: ws) :
    p.skipTrivia.current.word = w := (upcoming_cons h).1

theorem current_not_end (h : p.upcoming = w :: ws)
    (hw : w.1 ≠ .endOfFile) : p.current.kind ≠ .endOfFile := by
  intro hend
  unfold upcoming at h
  unfold current at hend
  cases hrest : p.rest with
  | nil =>
    rw [hrest] at h
    cases h
  | cons token rest =>
    rw [hrest] at h hend
    have hkind : token.kind = .endOfFile := hend
    rw [filter_cons_of_pos (by simp [isTrivia, hkind]), map_cons, List.cons.injEq] at h
    apply hw
    rw [← h.1]
    exact hkind

theorem current_of_peek (h : p.peek.kind ≠ .endOfFile) :
    p.current.kind ≠ .endOfFile := by
  intro hend
  apply h
  cases hrest : p.rest with
  | nil => simpa [peek, skipTrivia, current, hrest] using hend
  | cons token rest =>
    have hkind : token.kind = .endOfFile := by simpa [current, hrest] using hend
    have hplain : isTrivia token = false := by simp [isTrivia, hkind]
    simp [peek, skipTrivia, current, hrest, hplain, hkind]

theorem keyword_of {db : CharacterDatabase} (h : p.upcoming = w :: ws)
    (value : Text) : keyword db value p = (w.1 == .identifier && db.upperText w.2 == value) := by
  rw [keyword, ← (upcoming_cons h).1]
  rfl

theorem skip_rest {tokens more : List StructuredTextToken} (h : p.rest = tokens ++ more) :
    ∃ gap, (∀ token ∈ gap, isTrivia token = true) ∧
      (p.skip (tokens.filter (fun token => !isTrivia token)).length).rest = gap ++ more := by
  induction hn : tokens.filter (fun token => !isTrivia token) generalizing p tokens with
  | nil =>
    refine ⟨tokens, fun token htoken => ?_, h⟩
    have := filter_eq_nil_iff.mp hn token htoken
    simpa using this
  | cons token rest ih =>
    obtain ⟨tail, hdrop, htail⟩ := dropWhile_of_filter hn
    obtain ⟨lead, hlead, hlast⟩ : ∃ lead, tokens = lead ++ token :: tail ∧
        ∀ t ∈ lead, isTrivia t = true := by
      refine ⟨tokens.takeWhile isTrivia, ?_, fun t ht => mem_takeWhile_imp ht⟩
      rw [← hdrop, takeWhile_append_dropWhile]
    have hsignificant : isTrivia token = false := by
      have := mem_filter.mp (hn ▸ mem_cons_self : token ∈ tokens.filter _)
      simpa using this.2
    have hrest : p.take.rest = tail ++ more := by
      rw [take, advance, skipTrivia, h, hlead, append_assoc,
        dropWhile_append_of_pos hlast, cons_append,
        dropWhile_cons_of_neg (by simp [hsignificant]), List.tail_cons]
    obtain ⟨gap, hgap, hskip⟩ := ih hrest htail
    exact ⟨gap, hgap, hskip⟩

end Parser

end TwinForge.StructuredText
