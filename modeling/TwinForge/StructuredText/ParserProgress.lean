import TwinForge.StructuredText.ParserTotal

/-! # Progress on any tokens

Whatever tokens stand before an end marker, every function of the parser ends and every iteration
of its loops stops or takes a token. The recovery looks over trivia before it steps on, so it can
step over the last end marker, where the parser reads that marker again. No step goes further.
-/

namespace TwinForge.StructuredText

open List

namespace Parser

/-- The iterations of the statement, argument, index and recovery loops at one cursor. -/
structure IterationsProgress (db : CharacterDatabase) (fuel : Nat) (p : Parser) : Prop where
  statements : ∀ terminators statements, ∃ iteration,
    statementIteration db fuel terminators statements p = some iteration ∧ iteration.Progresses p
  arguments : ∀ arguments, ∃ iteration,
    callIteration db fuel arguments p = some iteration ∧ iteration.Progresses p
  indices : ∀ indices, ∃ iteration,
    indexIteration db fuel indices p = some iteration ∧ iteration.Progresses p
  recovery : (recoverIteration db p).Progresses p

theorem iterationsProgress (db : CharacterDatabase) {fuel : Nat} {p : Parser} (h : Closed p)
    (hfuel : 6 * p.size + 5 ≤ fuel) : IterationsProgress db fuel p := by
  have hskipped := moves_skipTrivia p
  have hsize := hskipped.size
  have hvalue : ∀ q, Moves p q → Lands q (expression db fuel 1 q) := by
    intro q hmoves
    have hlater := hmoves.size
    exact (expressionsLand db fuel).expression 1 q (h.moves hmoves) (by omega)
  constructor
  case statements =>
    intro terminators statements
    exact statementIteration_progresses terminators statements
      ((statementsLand db fuel).statement _ (h.moves hskipped) (by omega))
  case arguments => exact fun arguments => callIteration_progresses arguments h hvalue
  case indices => exact fun indices => indexIteration_progresses indices h (hvalue p (Moves.refl p))
  case recovery => exact recoverIteration_progresses h

/-- A parser over tokens and an end marker, with the marker `slack` times more: a position behind
the last token reads that marker, so each of the copies stands for one such position. -/
def overrun (source : Text) (tokens : List StructuredTextToken) (marker : StructuredTextToken)
    (slack : Nat) (diagnostics : List StructuredTextDiagnostic) : Parser :=
  ⟨source, marker, tokens ++ marker :: List.replicate slack marker, diagnostics⟩

/-- The last token before the end marker, if there is one, is not trivia. -/
def SolidEnd (tokens : List StructuredTextToken) : Prop :=
  ∀ last, tokens.getLast? = some last → isTrivia last = false

section

variable {source : Text} {tokens : List StructuredTextToken} {marker : StructuredTextToken}
  {slack : Nat} {diagnostics : List StructuredTextDiagnostic} {q : Parser}

theorem overrun_bound (hmarker : marker.kind = .endOfFile)
    (h : Moves (overrun source tokens marker slack diagnostics) q) : slack ≤ q.size := by
  have ⟨fence, hlead, hclosing⟩ : ∃ fence : Fence, fence.lead = marker ∧
      fence.closing = List.replicate slack marker := by
    refine ⟨⟨marker, List.replicate slack marker, solid_of_end hmarker, ?_⟩, rfl, rfl⟩
    intro token hmem
    rw [eq_of_mem_replicate hmem]
    exact hmarker
  have hstart : fence.Holds (overrun source tokens marker slack diagnostics) := by
    refine .inr ?_
    rw [hlead, hclosing]
    exact suffix_append tokens _
  have hlength : fence.closing.length = slack := by rw [hclosing, length_replicate]
  cases h.fenced fence hstart with
  | inl hrest =>
    rw [Parser.size, hrest]
    omega
  | inr hrest =>
    have hle := hrest.length_le
    rw [length_cons] at hle
    rw [Parser.size]
    omega

theorem overrun_solid (hmarker : marker.kind = .endOfFile) (hsolid : SolidEnd tokens)
    (h : Moves (overrun source tokens marker slack diagnostics) q) : slack < q.size := by
  have hends : ∀ token ∈ marker :: List.replicate slack marker, token.kind = .endOfFile := by
    intro token hmem
    have hsame : token = marker := by
      cases hmem with
      | head => rfl
      | tail _ hlater => exact eq_of_mem_replicate hlater
    rw [hsame]
    exact hmarker
  have ⟨fence, hclosing, hstart⟩ : ∃ fence : Fence,
      fence.closing = marker :: List.replicate slack marker ∧
        fence.Holds (overrun source tokens marker slack diagnostics) := by
    cases hlast : tokens.getLast? with
    | none =>
      have hnil : tokens = [] := List.getLast?_eq_none_iff.mp hlast
      refine ⟨⟨marker, _, solid_of_end hmarker, hends⟩, rfl, .inl ?_⟩
      rw [overrun, hnil]
      rfl
    | some last =>
      have ⟨front, hfront⟩ := List.getLast?_eq_some_iff.mp hlast
      refine ⟨⟨last, _, hsolid last hlast, hends⟩, rfl, .inr ?_⟩
      rw [overrun, hfront, append_assoc]
      exact suffix_append front _
  have hlength : fence.closing.length = slack + 1 := by
    rw [hclosing, length_cons, length_replicate]
  cases h.fenced fence hstart with
  | inl hrest =>
    rw [Parser.size, hrest]
    omega
  | inr hrest =>
    have hle := hrest.length_le
    rw [length_cons] at hle
    rw [Parser.size]
    omega

end

/-- The parser ends on the tokens, and its cursor ends at most directly behind the marker. -/
structure Bounded (db : CharacterDatabase) (source : Text) (tokens : List StructuredTextToken)
    (marker : StructuredTextToken) (diagnostics : List StructuredTextDiagnostic) (slack fuel : Nat) :
    Prop where
  ends : ∃ statements q, statementList db fuel [] []
    (overrun source tokens marker slack diagnostics) = some (statements, q)
  behind : ∀ statements q, statementList db fuel [] []
    (overrun source tokens marker slack diagnostics) = some (statements, q) → slack ≤ q.size
  solid : SolidEnd tokens → ∀ statements q, statementList db fuel [] []
    (overrun source tokens marker slack diagnostics) = some (statements, q) → slack < q.size

/-- The parser makes progress on every token list that an end marker closes. -/
theorem parser_progresses (db : CharacterDatabase) :
    (∀ fuel, ExpressionsLand db fuel ∧ StatementsLand db fuel) ∧
    (∀ p, Closed p → ∀ fuel, 6 * p.size + 5 ≤ fuel → IterationsProgress db fuel p) ∧
    ∀ source tokens marker diagnostics slack, marker.kind = .endOfFile →
      ∀ fuel, 6 * (tokens.length + slack) + 12 ≤ fuel →
        Bounded db source tokens marker diagnostics slack fuel := by
  refine ⟨fun fuel => ⟨expressionsLand db fuel, statementsLand db fuel⟩,
    fun p h fuel hfuel => iterationsProgress db h hfuel, ?_⟩
  intro source tokens marker diagnostics slack hmarker fuel hfuel
  have hsize : (overrun source tokens marker slack diagnostics).size = tokens.length + slack + 1 := by
    show (tokens ++ marker :: List.replicate slack marker).length = _
    rw [length_append, length_cons, length_replicate]
    omega
  have ⟨statements, q, hlist, hmoves⟩ := (statementsLand db fuel).statementList [] []
    (overrun source tokens marker slack diagnostics) hmarker (by omega)
  have hsame : ∀ other r, statementList db fuel [] []
      (overrun source tokens marker slack diagnostics) = some (other, r) → r = q := by
    intro other r hother
    rw [hlist] at hother
    exact (Prod.mk.inj (Option.some.inj hother)).2.symm
  constructor
  case ends => exact ⟨statements, q, hlist⟩
  case behind =>
    intro other r hother
    rw [hsame other r hother]
    exact overrun_bound hmarker hmoves
  case solid =>
    intro hsolid other r hother
    rw [hsame other r hother]
    exact overrun_solid hmarker hsolid hmoves

/-! ## A step over the end marker -/

/-- The tokens of `) `. -/
def strayTokens : List StructuredTextToken :=
  [⟨.rightParen, ")", ⟨0, 1⟩, 1, 1⟩, ⟨.whitespace, " ", ⟨1, 2⟩, 1, 2⟩]

def strayMarker : StructuredTextToken := ⟨.endOfFile, [], ⟨2, 2⟩, 1, 3⟩

theorem parser_progresses_stray :
    Closed (start ") " strayTokens strayMarker []) ∧ strayMarker.kind = .endOfFile ∧
      IterationsProgress Ascii.database 24 (start ") " strayTokens strayMarker []) ∧
      Bounded Ascii.database ") " strayTokens strayMarker [] 1 30 :=
  ⟨rfl, rfl,
    (parser_progresses Ascii.database).2.1 (start ") " strayTokens strayMarker []) rfl 24 (by decide),
    (parser_progresses Ascii.database).2.2 ") " strayTokens strayMarker [] 1 rfl 30 (by decide)⟩

/-- The recovery from the parenthesis looks over the blank and steps over the end marker. -/
theorem stray_passes_marker : ¬ ∀ (db : CharacterDatabase) (source : Text)
    (tokens : List StructuredTextToken) (marker : StructuredTextToken)
    (diagnostics : List StructuredTextDiagnostic) (fuel : Nat) (statements : List Statement)
    (q : Parser), marker.kind = .endOfFile →
    statementList db fuel [] [] (start source tokens marker diagnostics) = some (statements, q) →
      [marker] <:+ q.rest := by
  intro hall
  have hread : (statementList Ascii.database 24 [] [] (start ") " strayTokens strayMarker [])).map
      (fun read => read.2.rest.length) = some 0 := by decide +kernel
  have ⟨⟨statements, q⟩, hlist, hpassed⟩ := Option.map_eq_some_iff.mp hread
  have hle := (hall _ _ _ _ _ _ statements q rfl hlist).length_le
  rw [length_singleton] at hle
  have hnone : q.rest.length = 0 := hpassed
  omega

end Parser

end TwinForge.StructuredText
