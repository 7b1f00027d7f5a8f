import TwinForge.StructuredText.Lexemes
import TwinForge.StructuredText.ParserFuel
import TwinForge.StructuredText.StatementWords

/-! # Writing a token sequence

A sequence of tokens is written with blanks between them, or with blanks only where no symbol
stands. Either writing is read back where no token runs on into the characters behind it.
-/

namespace TwinForge.StructuredText

open Lexer List

/-! ## Tokens -/

/-- A word that the lexer reads as this one token, with nothing to report. -/
def IsToken (db : CharacterDatabase) (w : Word) : Prop :=
  w.1 ≠ .whitespace ∧ w.1 ≠ .comment ∧
    ∃ token stop, lexStructuredText db w.2 = some ([token, stop], []) ∧ token.kind = w.1

variable {db : CharacterDatabase} (found : Recognised)

theorem emit_tokens (lx : Lexer) :
    (found.emit lx).tokens = lx.tokens ++ [lx.tokenHere found.kind found.length] := by
  unfold Recognised.emit
  split
  · exact emitted_tokens lx found.kind found.length
  · exact emitted_tokens lx found.kind found.length

theorem emit_rest (lx : Lexer) : (found.emit lx).rest = lx.rest.drop found.length := by
  unfold Recognised.emit
  split <;> rfl

theorem emit_diagnostics (lx : Lexer) : lx.diagnostics <+: (found.emit lx).diagnostics := by
  unfold Recognised.emit
  split
  · exact prefix_refl _
  · exact prefix_append ..

theorem emit_position (lx : Lexer) : (found.emit lx).position = lx.position + found.length := by
  unfold Recognised.emit
  split <;> rfl

theorem recognise_bounds {text : Text} (h : text ≠ []) :
    0 < (recognise db text).length ∧ (recognise db text).length ≤ text.length := by
  obtain ⟨next, hnext, kind, count, diagnostics, _, hpos, hle, hstep⟩ :=
    nextToken_emits db (start text) h
  rw [nextToken_eq h, Option.some.injEq] at hnext
  have hposition := emit_position (recognise db text) (start text)
  rw [show (recognise db text).emit (start text) = next from hnext, hstep] at hposition
  have hcount : count = (recognise db text).length := Nat.add_left_cancel hposition
  have hroom : count ≤ text.length := hle
  omega

variable {fuel : Nat} {lx : Lexer}

theorem lexLoop_succ (h : lx.rest ≠ []) :
    lexLoop db (fuel + 1) lx = lexLoop db fuel ((recognise db lx.rest).emit lx) := by
  rw [lexLoop, if_neg h]
  simp only [nextToken_eq h, Option.bind_some]

theorem lexLoop_extends {last : Lexer} (h : lexLoop db fuel lx = some last) :
    lx.tokens <+: last.tokens ∧ lx.diagnostics <+: last.diagnostics ∧
      (lx.rest ≠ [] → lx.tokens.length < last.tokens.length) := by
  induction fuel generalizing lx with
  | zero =>
    unfold lexLoop at h
    split at h
    · next hnil =>
      cases h
      exact ⟨prefix_refl _, prefix_refl _, fun hrest => absurd hnil hrest⟩
    · cases h
  | succ fuel ih =>
    by_cases hnil : lx.rest = []
    · rw [lexLoop, if_pos hnil] at h
      cases h
      exact ⟨prefix_refl _, prefix_refl _, fun hrest => absurd hnil hrest⟩
    · rw [lexLoop_succ hnil] at h
      obtain ⟨htokens, hdiagnostics, _⟩ := ih h
      rw [emit_tokens] at htokens
      have hlength := htokens.length_le
      rw [length_append, length_singleton] at hlength
      refine ⟨(prefix_append ..).trans htokens,
        (emit_diagnostics _ lx).trans hdiagnostics, fun _ => by omega⟩

variable {w : Word}

theorem IsToken.recognised (h : IsToken db w) :
    w.2 ≠ [] ∧ recognise db w.2 = ⟨w.1, w.2.length, none⟩ := by
  obtain ⟨hspace, hcomment, token, stop, hlex, hkind⟩ := h
  have hne : w.2 ≠ [] := by
    intro hnil
    rw [hnil] at hlex
    simp [lexStructuredText, lexLoop, start] at hlex
  refine ⟨hne, ?_⟩
  obtain ⟨fuel, hfuel⟩ : ∃ fuel, w.2.length = fuel + 1 :=
    ⟨w.2.length - 1, by have hpos := length_pos_iff.mpr hne; omega⟩
  unfold lexStructuredText at hlex
  obtain ⟨last, hloop, hread⟩ := Option.map_eq_some_iff.mp hlex
  have hrest : (start w.2).rest ≠ [] := hne
  rw [hfuel, lexLoop_succ hrest] at hloop
  obtain ⟨htokens, hdiagnostics, hmore⟩ := lexLoop_extends hloop
  rw [Prod.mk.injEq] at hread
  have hlast : last.tokens = [token] := by
    have hsplit : last.tokens ++ [last.endOfFile] = [token] ++ [stop] := hread.1
    exact (append_inj' hsplit rfl).1
  rw [hread.2] at hdiagnostics
  rw [hlast, emit_tokens] at htokens hmore
  have hrecognised : recognise db (start w.2).rest = recognise db w.2 := rfl
  rw [hrecognised] at htokens hdiagnostics hmore
  generalize hfound : recognise db w.2 = found at htokens hdiagnostics hmore ⊢
  have hbounds := @recognise_bounds db w.2 hne
  rw [hfound] at hbounds
  have hlength : found.length = w.2.length := by
    by_contra hshort
    have hleft : (found.emit (start w.2)).rest ≠ [] := by
      rw [emit_rest, ne_eq, drop_eq_nil_iff]
      change ¬ w.2.length ≤ found.length
      omega
    exact absurd (hmore hleft) (Nat.lt_irrefl 1)
  have hsame : (start w.2).tokenHere found.kind found.length = token := by
    have hone := htokens.eq_of_length rfl
    exact singleton_inj.mp hone
  have hreport : found.report = none := by
    have hnone := prefix_nil.mp hdiagnostics
    unfold Recognised.emit at hnone
    split at hnone
    · assumption
    · simp [append, report] at hnone
  obtain ⟨kind, length, report⟩ := found
  have hword : kind = w.1 := by
    rw [← hkind, ← hsame]
    rfl
  simp only at hlength hreport
  rw [hword, hlength, hreport]

/-! ## Writings -/

/-- The texts of the words with the gaps between them. -/
def written (gap : Word → Word → Text) : List Word → Text
  | [] => []
  | [w] => w.2
  | w :: v :: ws => w.2 ++ (gap w v ++ written gap (v :: ws))

def isSymbol (kind : TokenKind) : Bool :=
  kind ∈ [TokenKind.operator, .leftParen, .rightParen, .leftBracket, .rightBracket, .comma,
    .semicolon, .assign, .outputAssign]

/-- No blank beside a symbol. -/
def symbolGap (w v : Word) : Text := if isSymbol w.1 || isSymbol v.1 then [] else " "

/-- The words with a blank between any two. -/
def spaced (ws : List Word) : Text := written (fun _ _ => " ") ws

/-- The words with blanks only where no symbol stands. -/
def compact (ws : List Word) : Text := written symbolGap ws

def Apart (db : CharacterDatabase) (gap : Word → Word → Text) : List Word → Prop
  | w :: v :: ws =>
    runsOn db w.1 w.2 (gap w v ++ written gap (v :: ws)) = false ∧ Apart db gap (v :: ws)
  | _ => True

theorem apart_spaced (ws : List Word) : Apart db (fun _ _ => " ") ws := by
  induction ws with
  | nil => trivial
  | cons w ws ih =>
    cases ws with
    | nil => trivial
    | cons v ws => exact ⟨runsOn_blank w.1 w.2 _, ih⟩

variable {next : Text}

theorem blank_recognised (h : ∀ first, next.head? = some first → db.isSpace first = false) :
    recognise db (' ' :: next) = ⟨.whitespace, 1, none⟩ := by
  have hblank : db.isSpace ' ' = true := by
    rw [db.space_ascii ' ' (by decide)]
    decide
  have hnone : next.takeWhile db.isSpace = [] := by
    cases next with
    | nil => rfl
    | cons first next => simp [h first rfl]
  simp [recognise, hblank, hnone]

variable {gap : Word → Word → Text}

theorem written_head (ws : List Word) (h : w.2 ≠ []) :
    (written gap (w :: ws)).head? = w.2.head? := by
  cases ws with
  | nil => rfl
  | cons v ws => exact List.head?_append_of_ne_nil _ h

theorem IsToken.head_not_space (h : IsToken db w) :
    ∀ first, w.2.head? = some first → db.isSpace first = false := by
  obtain ⟨_, hrecognised⟩ := h.recognised
  intro first hfirst
  cases htext : w.2 with
  | nil => simp [htext] at hfirst
  | cons character rest =>
    rw [htext] at hfirst hrecognised
    cases hfirst
    by_contra hspace
    rw [Bool.not_eq_false] at hspace
    unfold recognise at hrecognised
    simp only at hrecognised
    rw [if_pos hspace, Recognised.mk.injEq] at hrecognised
    exact h.1 hrecognised.1.symm

theorem significantWords_append (tokens more : List StructuredTextToken) :
    significantWords (tokens ++ more) = significantWords tokens ++ significantWords more := by
  simp [significantWords]

theorem lexLoop_token (h : IsToken db w)
    (hruns : runsOn db w.1 w.2 next = false) (hrest : lx.rest = w.2 ++ next)
    (hfuel : lx.rest.length ≤ fuel) :
    ∃ fuel' lx', lexLoop db fuel lx = lexLoop db fuel' lx' ∧ lx'.rest = next ∧
      next.length ≤ fuel' ∧ lx'.diagnostics = lx.diagnostics ∧
      significantWords lx'.tokens = significantWords lx.tokens ++ [w] := by
  obtain ⟨hne, hrecognised⟩ := h.recognised
  have hhere : recognise db lx.rest = ⟨w.1, w.2.length, none⟩ := by
    rw [hrest]
    exact recognise_append hne hrecognised ⟨h.1, h.2.1⟩ hruns
  have hpos := length_pos_iff.mpr hne
  rw [hrest, length_append] at hfuel
  obtain ⟨less, rfl⟩ : ∃ less, fuel = less + 1 := ⟨fuel - 1, by omega⟩
  have hnonempty : lx.rest ≠ [] := by
    rw [hrest]
    simp [hne]
  refine ⟨less, lx.emitted w.1 w.2.length, ?_, ?_, by omega, rfl, ?_⟩
  · rw [lexLoop_succ hnonempty, hhere]
    rfl
  · rw [emitted_rest, hrest, drop_left]
  · have htrivia : Parser.isTrivia (lx.tokenHere w.1 w.2.length) = false := by
      simp [Parser.isTrivia, tokenHere, h.1, h.2.1]
    have hword : (lx.tokenHere w.1 w.2.length).word = w := by
      rw [StructuredTextToken.word, tokenHere, hrest, take_left]
    rw [emitted_tokens, significantWords_append]
    simp [significantWords, htrivia, hword]

theorem lexLoop_blank (hrest : lx.rest = ' ' :: next)
    (hnext : ∀ first, next.head? = some first → db.isSpace first = false)
    (hfuel : lx.rest.length ≤ fuel) :
    ∃ fuel' lx', lexLoop db fuel lx = lexLoop db fuel' lx' ∧ lx'.rest = next ∧
      next.length ≤ fuel' ∧ lx'.diagnostics = lx.diagnostics ∧
      significantWords lx'.tokens = significantWords lx.tokens := by
  rw [hrest, length_cons] at hfuel
  obtain ⟨less, rfl⟩ : ∃ less, fuel = less + 1 := ⟨fuel - 1, by omega⟩
  refine ⟨less, lx.emitted .whitespace 1, ?_, ?_, by omega, rfl, ?_⟩
  · rw [lexLoop_succ (by simp [hrest]), hrest, blank_recognised hnext]
    rfl
  · rw [emitted_rest, hrest]
    rfl
  · rw [emitted_tokens, significantWords_append]
    simp [significantWords, Parser.isTrivia, tokenHere]

theorem lexLoop_written (hgap : ∀ w v, gap w v = [] ∨ gap w v = (" " : Text)) {ws : List Word}
    (htokens : ∀ w ∈ ws, IsToken db w) (hapart : Apart db gap ws) {fuel : Nat} {lx : Lexer}
    (hrest : lx.rest = written gap ws) (hfuel : lx.rest.length ≤ fuel) :
    ∃ last, lexLoop db fuel lx = some last ∧ last.diagnostics = lx.diagnostics ∧
      significantWords last.tokens = significantWords lx.tokens ++ ws := by
  have hend : ∀ fuel (lx : Lexer), lx.rest = [] → lexLoop db fuel lx = some lx := by
    intro fuel lx hnil
    unfold lexLoop
    rw [if_pos hnil]
  induction ws generalizing fuel lx with
  | nil => exact ⟨lx, hend fuel lx hrest, rfl, (append_nil _).symm⟩
  | cons w ws ih =>
    have hw := htokens w mem_cons_self
    cases ws with
    | nil =>
      have hrest' : lx.rest = w.2 ++ [] := by rw [hrest, written, append_nil]
      obtain ⟨less, next, hstep, hnext, _, hdiagnostics, hwords⟩ :=
        lexLoop_token hw (runsOn_nil w.1 w.2) hrest' hfuel
      exact ⟨next, hstep.trans (hend less next hnext), hdiagnostics, hwords⟩
    | cons v ws =>
      have hv := htokens v (by simp)
      obtain ⟨less, next, hstep, hnext, hroom, hdiagnostics, hwords⟩ :=
        lexLoop_token hw hapart.1 hrest hfuel
      have hlater := fun {fuel} {lx} => @ih (fun u hu => htokens u (mem_cons_of_mem _ hu))
        hapart.2 fuel lx
      obtain hnone | hblank := hgap w v
      · rw [hnone, nil_append] at hnext hroom
        obtain ⟨last, hlast, hsame, hall⟩ := hlater hnext
          ((Nat.le_of_eq (congrArg List.length hnext)).trans hroom)
        refine ⟨last, hstep.trans hlast, hsame.trans hdiagnostics, ?_⟩
        rw [hall, hwords]
        simp
      · rw [hblank] at hnext hroom
        have hhead : ∀ first, (written gap (v :: ws)).head? = some first →
            db.isSpace first = false := by
          rw [written_head ws hv.recognised.1]
          exact hv.head_not_space
        obtain ⟨fewer, behind, hstep', hbehind, hroom', hdiagnostics', hwords'⟩ :=
          lexLoop_blank hnext hhead ((Nat.le_of_eq (congrArg List.length hnext)).trans hroom)
        obtain ⟨last, hlast, hsame, hall⟩ := hlater hbehind
          ((Nat.le_of_eq (congrArg List.length hbehind)).trans hroom')
        refine ⟨last, hstep.trans (hstep'.trans hlast),
          hsame.trans (hdiagnostics'.trans hdiagnostics), ?_⟩
        rw [hall, hwords', hwords]
        simp

theorem lex_written (hgap : ∀ w v, gap w v = [] ∨ gap w v = (" " : Text)) {ws : List Word}
    (htokens : ∀ w ∈ ws, IsToken db w) (hapart : Apart db gap ws) :
    ∃ tokens, lexStructuredText db (written gap ws) = some (tokens, []) ∧
      significantWords tokens = ws ++ [endWord] := by
  obtain ⟨last, hloop, hdiagnostics, hwords⟩ :=
    @lexLoop_written db gap hgap ws htokens hapart (written gap ws).length
      (start (written gap ws)) rfl (Nat.le_refl _)
  refine ⟨last.tokens ++ [last.endOfFile], ?_, ?_⟩
  · have hnone : last.diagnostics = [] := hdiagnostics
    rw [lexStructuredText, hloop, Option.map_some, hnone]
  · rw [significantWords_append, hwords]
    rfl

/-! ## Blanks around symbols

A program that is parsed with nothing to report is parsed alike without the blanks around its
symbols, unless a token then runs on into the characters behind it.
-/

open Fuel

/-- A token sequence that is a program: with blanks between its tokens it is parsed with nothing to
report. -/
structure IsProgram (db : CharacterDatabase) (ws : List Word) : Prop where
  tokens : ∀ w ∈ ws, IsToken db w
  parsed : ∃ document, Converges (fun fuel => parseStructuredText db fuel (spaced ws)) document ∧
    document.diagnostics = []

theorem start_upcoming {source : Text} {tokens : List StructuredTextToken}
    {lexical : List StructuredTextDiagnostic}
    (h : lexStructuredText db source = some (tokens, lexical)) :
    ∃ marker, tokens.getLast? = some marker ∧ marker.word = endWord ∧
      (Parser.start source tokens.dropLast marker lexical).upcoming = significantWords tokens := by
  unfold lexStructuredText at h
  obtain ⟨last, _, hread⟩ := Option.map_eq_some_iff.mp h
  rw [Prod.mk.injEq] at hread
  obtain ⟨htokens, _⟩ := hread
  refine ⟨last.endOfFile, ?_, rfl, ?_⟩
  · rw [← htokens, List.getLast?_concat]
  · rw [← htokens, dropLast_concat]
    rfl

/-- Sources with the same words have the same statements, if the first one is parsed with nothing to
report. -/
theorem parse_alike {source source' : Text} {tokens tokens' : List StructuredTextToken}
    {document : StructuredTextDocument} (hlex : lexStructuredText db source = some (tokens, []))
    (hlex' : lexStructuredText db source' = some (tokens', []))
    (hwords : significantWords tokens = significantWords tokens')
    (hparse : parseStructuredText db fuel source = some document)
    (hquiet : document.diagnostics = []) :
    ∃ document', parseStructuredText db fuel source' = some document' ∧
      Statement.listWithoutSpans document.statements =
        Statement.listWithoutSpans document'.statements := by
  obtain ⟨marker, hmarker, hend, hahead⟩ := start_upcoming hlex
  obtain ⟨marker', hmarker', hend', hahead'⟩ := start_upcoming hlex'
  unfold parseStructuredText at hparse
  simp only [hlex, hmarker, Option.bind_eq_bind, Option.bind_some] at hparse
  obtain ⟨⟨statements, p⟩, hstatements, hdocument⟩ := Option.bind_eq_some_iff.mp hparse
  cases hdocument
  have halike : Parser.Alike (Parser.start source tokens.dropLast marker [])
      (Parser.start source' tokens'.dropLast marker' []) :=
    ⟨by rw [hahead, hahead', hwords], hend.trans hend'.symm⟩
  obtain ⟨_, hsame⟩ := (Parser.statementsTrack db fuel).statementList [] [] [] _ _ rfl halike
    statements p hstatements
  obtain ⟨statements', p', hstatements', herase, _⟩ := hsame hquiet
  refine ⟨⟨source', tokens', statements', p'.diagnostics⟩, ?_, herase⟩
  simp [parseStructuredText, hlex', hmarker', hstatements']

/-- A program that stays apart without the blanks around its symbols is parsed alike without
them. -/
theorem compact_parsed_alike (db : CharacterDatabase) (ws : List Word) (hprogram : IsProgram db ws)
    (hapart : Apart db symbolGap ws) :
    ∃ document document',
      Converges (fun fuel => parseStructuredText db fuel (spaced ws)) document ∧
      Converges (fun fuel => parseStructuredText db fuel (compact ws)) document' ∧
      Statement.listWithoutSpans document.statements =
        Statement.listWithoutSpans document'.statements := by
  obtain ⟨document, hparse, hquiet⟩ := hprogram.parsed
  obtain ⟨fuel, hfuel⟩ := hparse
  have hblank : ∀ w v : Word, (fun _ _ => (" " : Text)) w v = [] ∨
      (fun _ _ => (" " : Text)) w v = (" " : Text) := fun _ _ => Or.inr rfl
  have hgap : ∀ w v, symbolGap w v = [] ∨ symbolGap w v = (" " : Text) := by
    intro w v
    unfold symbolGap
    split
    · exact Or.inl rfl
    · exact Or.inr rfl
  obtain ⟨tokens, hlex, hwords⟩ := lex_written hblank hprogram.tokens (@apart_spaced db ws)
  obtain ⟨tokens', hlex', hwords'⟩ := lex_written hgap hprogram.tokens hapart
  have hhere := hfuel fuel (Nat.le_refl fuel)
  obtain ⟨document', hparse', hsame⟩ :=
    parse_alike hlex hlex' (hwords.trans hwords'.symm) hhere hquiet
  exact ⟨document, document', parseStructuredText_converges hhere,
    parseStructuredText_converges hparse', hsame⟩

theorem isToken_of_lexed (hspace : w.1 ≠ .whitespace) (hcomment : w.1 ≠ .comment)
    (h : (lexStructuredText db w.2).map (fun read => (read.1.map (·.kind), read.2)) =
      some ([w.1, .endOfFile], [])) : IsToken db w := by
  obtain ⟨⟨tokens, lexical⟩, hlex, hread⟩ := Option.map_eq_some_iff.mp h
  rw [Prod.mk.injEq] at hread
  obtain ⟨hkinds, hnone⟩ := hread
  have hlexical : lexical = [] := hnone
  have htwo : tokens.length = 2 := by simpa using congrArg List.length hkinds
  obtain ⟨token, stop, rfl⟩ := length_eq_two.mp htwo
  have hkind : token.kind = w.1 := (List.cons.inj hkinds).1
  exact ⟨hspace, hcomment, token, stop, hlexical ▸ hlex, hkind⟩

theorem isProgram_of_parsed {ws : List Word} {fuel : Nat}
    (hkinds : ∀ w ∈ ws, w.1 ≠ .whitespace ∧ w.1 ≠ .comment)
    (hlex : ∀ w ∈ ws, (lexStructuredText db w.2).map
      (fun read => (read.1.map (·.kind), read.2)) = some ([w.1, .endOfFile], []))
    (hparse : (parseStructuredText db fuel (spaced ws)).map (·.diagnostics) = some []) :
    IsProgram db ws := by
  obtain ⟨document, hdocument, hquiet⟩ := Option.map_eq_some_iff.mp hparse
  constructor
  · exact fun w hw => isToken_of_lexed (hkinds w hw).1 (hkinds w hw).2 (hlex w hw)
  · exact ⟨document, parseStructuredText_converges hdocument, hquiet⟩

/-- `x := ` and a sum. -/
def sumWords (summand other : Word) : List Word :=
  [(.identifier, "x"), (.assign, ":="), summand, (.operator, "+"), other, (.semicolon, ";")]

theorem compact_parsed_alike_sum :
    ∃ document document',
      Converges (fun fuel => parseStructuredText Ascii.database fuel
        (spaced (sumWords (.identifier, "a") (.literal, "1")))) document ∧
      Converges (fun fuel => parseStructuredText Ascii.database fuel
        (compact (sumWords (.identifier, "a") (.literal, "1")))) document' ∧
      Statement.listWithoutSpans document.statements =
        Statement.listWithoutSpans document'.statements := by
  have hprogram : IsProgram Ascii.database (sumWords (.identifier, "a") (.literal, "1")) :=
    @isProgram_of_parsed _ _ 12 (by decide) (by decide +kernel) (by decide +kernel)
  have hapart : Apart Ascii.database symbolGap (sumWords (.identifier, "a") (.literal, "1")) := by
    simp only [Apart, sumWords]
    decide +kernel
  exact compact_parsed_alike _ _ hprogram hapart

def firstValueIsLiteral (statements : List Statement) : Bool :=
  match statements with
  | .assignment _ _ _ (.literal _ _) :: _ => true
  | _ => false

theorem firstValueIsLiteral_withoutSpans (statements : List Statement) :
    firstValueIsLiteral (Statement.listWithoutSpans statements) =
      firstValueIsLiteral statements := by
  cases statements with
  | nil => rfl
  | cons s statements =>
    cases s with
    | assignment span target sign value => cases value <;> rfl
    | _ => rfl

/-- `x := 1 + 2 ;` is a sum and `x:=1+2;` is a literal. -/
theorem compact_sum_is_literal :
    IsProgram Ascii.database (sumWords (.literal, "1") (.literal, "2")) ∧ ∃ document document',
      Converges (fun fuel => parseStructuredText Ascii.database fuel
        (spaced (sumWords (.literal, "1") (.literal, "2")))) document ∧
      Converges (fun fuel => parseStructuredText Ascii.database fuel
        (compact (sumWords (.literal, "1") (.literal, "2")))) document' ∧
      Statement.listWithoutSpans document.statements ≠
        Statement.listWithoutSpans document'.statements := by
  have hprogram : IsProgram Ascii.database (sumWords (.literal, "1") (.literal, "2")) :=
    @isProgram_of_parsed _ _ 12 (by decide) (by decide +kernel) (by decide +kernel)
  have hspaced : (parseStructuredText Ascii.database 12
      (spaced (sumWords (.literal, "1") (.literal, "2")))).map
        (fun document => firstValueIsLiteral document.statements) = some false := by
    decide +kernel
  have hcompact : (parseStructuredText Ascii.database 12
      (compact (sumWords (.literal, "1") (.literal, "2")))).map
        (fun document => firstValueIsLiteral document.statements) = some true := by
    decide +kernel
  obtain ⟨document, hdocument, hsum⟩ := Option.map_eq_some_iff.mp hspaced
  obtain ⟨document', hdocument', hliteral⟩ := Option.map_eq_some_iff.mp hcompact
  refine ⟨hprogram, document, document', parseStructuredText_converges hdocument,
    parseStructuredText_converges hdocument', ?_⟩
  intro hsame
  have hvalue := congrArg firstValueIsLiteral hsame
  rw [firstValueIsLiteral_withoutSpans, firstValueIsLiteral_withoutSpans, hsum, hliteral] at hvalue
  cases hvalue

end TwinForge.StructuredText
