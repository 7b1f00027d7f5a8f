import TwinForge.StructuredText.StatementRanges

/-! # The tokens of a source in its statements

The statements of a document stand in source order, and every token lies in one of them exactly if
every statement is read with all its tokens.
-/

namespace TwinForge.StructuredText

open List

namespace Parser

variable {db : CharacterDatabase}

def statementStarts (db : CharacterDatabase) : Nat → Parser → List Parser
  | 0, _ => []
  | fuel + 1, p =>
    if p.current.kind = .endOfFile then []
    else
      let p := p.skipTrivia
      if p.current.kind = .endOfFile then []
      else match statement db fuel p with
        | none => []
        | some (_, q) => p :: statementStarts db fuel q

def LiesIn (token : StructuredTextToken) (s : Statement) : Prop :=
  s.span.start ≤ token.span.start ∧ token.span.stop ≤ s.span.stop

/-- The statements read from a cursor on. -/
structure Rowed (p : Parser) (statements : List Statement) (condition : Prop) : Prop where
  ordered : statements.Pairwise fun s t => s.span.stop ≤ t.span.start
  first : ∀ s ∈ statements, p.horizon ≤ s.span.start
  covers : (∀ token ∈ p.rest, Significant token → ∃ s ∈ statements, LiesIn token s) ↔ condition

variable {p : Parser}

theorem Placed.no_token (h : Placed p) (hend : p.current.kind = .endOfFile) :
    ∀ token ∈ p.rest, ¬ Significant token := by
  cases hrest : p.rest with
  | nil => simp
  | cons first rest =>
    have hkind : first.kind = .endOfFile := by simpa [current, hrest] using hend
    have hnil : rest = [] := h.final [] first rest hrest hkind
    intro token hmem hsignificant
    rw [hnil, mem_singleton] at hmem
    exact hsignificant.2 (hmem ▸ hkind)

theorem Rowed.nil {condition : Prop} (hnone : ∀ token ∈ p.rest, ¬ Significant token)
    (hcondition : condition) : Rowed p [] condition := by
  refine ⟨List.Pairwise.nil, by simp, fun _ => hcondition, fun _ => ?_⟩
  exact fun token hmem hsignificant => absurd hsignificant (hnone token hmem)

theorem Rowed.cons {p q : Parser} {s : Statement} {statements : List Statement}
    {here behind : Prop} (h : Placed p) (hspanned : Spanned p q s here)
    (hrow : Rowed q statements behind) : Rowed p (s :: statements) (here ∧ behind) := by
  have hbehind := (behind_take p).trans hspanned.advances
  have hq := h.behind hbehind
  have hlast := hspanned.last
  have hfirst := hspanned.first
  refine ⟨pairwise_cons.mpr ⟨fun t ht => hlast.trans (hrow.first t ht), hrow.ordered⟩,
    fun t ht => ?_, ?_⟩
  · obtain rfl | ht := mem_cons.mp ht
    · exact hfirst
    · exact (h.horizon_mono hbehind).trans (hrow.first t ht)
  · rw [← hspanned.encloses, ← hrow.covers]
    constructor
    · intro hall
      constructor
      · intro token hmem hsignificant hbefore
        have hsolid := h.solid token hmem hsignificant.2
        obtain ⟨t, ht, hlies⟩ := hall token hmem hsignificant
        obtain rfl | ht := mem_cons.mp ht
        · exact hlies
        · have hlate := hrow.first t ht
          have hstarts := hlies.1
          omega
      · intro token hmem hsignificant
        have hsolid := hq.solid token hmem hsignificant.2
        have hahead := hq.horizon_le hmem hsignificant.1
        obtain ⟨t, ht, hlies⟩ := hall token (hbehind.ahead.sublist.mem hmem) hsignificant
        obtain rfl | ht := mem_cons.mp ht
        · have hends := hlies.2
          omega
        · exact ⟨t, ht, hlies⟩
    · intro hboth token hmem hsignificant
      obtain ⟨hhere, hthere⟩ := hboth
      obtain hahead | hdone := h.ahead_or_before hbehind hmem
      · obtain ⟨t, ht, hlies⟩ := hthere token hahead hsignificant
        exact ⟨t, mem_cons_of_mem _ ht, hlies⟩
      · have hsolid := h.solid token hmem hsignificant.2
        have hcurrent := hq.current_le
        exact ⟨s, mem_cons_self, hhere token hmem hsignificant (by omega)⟩

theorem statementList_rowed {fuel : Nat} {p' : Parser} {statements result : List Statement}
    (h : Placed p) (hlist : statementList db fuel [] statements p = some (result, p')) :
    ∃ more, result = statements ++ more ∧
      Rowed p more (∀ q ∈ statementStarts db fuel p, Covered db q) := by
  induction fuel generalizing p statements with
  | zero => cases hlist
  | succ fuel ih =>
    unfold statementStarts
    rw [statementList] at hlist
    split at hlist
    · next hend =>
      cases hlist
      rw [if_pos hend]
      exact ⟨[], (append_nil _).symm, Rowed.nil (h.no_token hend) (by simp)⟩
    next hplain =>
    rw [if_neg hplain]
    simp only at hlist ⊢
    have hno : keywordIn db [] p.skipTrivia = false := by simp [keywordIn]
    rw [hno, if_neg (by simp)] at hlist
    have hskipped := h.skipTrivia
    -- the trivia in front belong to no statement
    have hrow : ∀ more condition, Rowed p.skipTrivia more condition →
        Rowed p more condition := by
      intro more condition hrow
      refine ⟨hrow.ordered, ?_, ?_⟩
      · intro s hs
        rw [← horizon_skipTrivia]
        exact hrow.first s hs
      · rw [← hrow.covers]
        constructor
        · exact fun hall token hmem =>
            hall token ((behind_skipTrivia p).ahead.sublist.mem hmem)
        · exact fun hall token hmem hsignificant =>
            hall token (mem_skipTrivia hmem hsignificant.1) hsignificant
    split at hlist
    · next hend =>
      cases hlist
      rw [if_pos hend]
      exact ⟨[], (append_nil _).symm,
        hrow _ _ (Rowed.nil (hskipped.no_token hend) (by simp))⟩
    next hplain' =>
    rw [if_neg hplain']
    obtain ⟨⟨parsed, q⟩, hstatement, hrest⟩ := Option.bind_eq_some_iff.mp hlist
    obtain ⟨s, rfl, hspanned⟩ :=
      statement_spanned hskipped (skipTrivia_skipTrivia p) hplain' hstatement
    have hq := hskipped.behind ((behind_take p.skipTrivia).trans hspanned.advances)
    have hmoved : q.samePosition p.skipTrivia = false := by
      have hshorter := hspanned.advances.ahead.length_le
      have hnonempty : p.skipTrivia.rest ≠ [] := by
        intro hnil
        have hcurrent : p.skipTrivia.current = p.marker := by
          rw [current, hnil]
          rfl
        rw [hcurrent] at hplain'
        exact hplain' h.marker
      have hpos := length_pos_iff.mpr hnonempty
      rw [take, skipTrivia_skipTrivia, advance, length_tail] at hshorter
      simp only [samePosition, beq_eq_false_iff_ne]
      omega
    simp only [hmoved, Bool.false_eq_true, if_false] at hrest
    obtain ⟨more, hresult, hmore⟩ := ih hq hrest
    rw [hstatement]
    refine ⟨s :: more, ?_, hrow _ _ ?_⟩
    · rw [hresult]
      simp
    · have hcons := Rowed.cons hskipped hspanned hmore
      rw [← forall_mem_cons] at hcons
      exact hcons

end Parser

/-! ## Documents -/

/-- Every token lies in the range of a statement, and these stand one behind the other. -/
structure Preserved (document : StructuredTextDocument) : Prop where
  covered : ∀ token ∈ document.tokens, Parser.Significant token →
    ∃ s ∈ document.statements, Parser.LiesIn token s
  ordered : document.statements.Pairwise fun s t => s.span.stop ≤ t.span.start

def topLevelStarts (db : CharacterDatabase) (fuel : Nat) (source : Text) : List Parser :=
  match lexStructuredText db source with
  | none => []
  | some (tokens, lexical) =>
    match tokens.getLast? with
    | none => []
    | some marker =>
      Parser.statementStarts db fuel (.start source tokens.dropLast marker lexical)

theorem tiles_ordered (source : Text) {start stop : Nat} {tokens : List StructuredTextToken}
    (h : Tiles source start tokens stop) :
    (∀ token ∈ tokens, start ≤ token.span.start ∧ token.span.start < token.span.stop ∧
      token.span.stop ≤ stop) ∧ tokens.Pairwise fun a b => a.span.stop ≤ b.span.start := by
  induction tokens generalizing start with
  | nil => simp
  | cons token tokens ih =>
    obtain ⟨_, hstart, hlt, _, _, _, _, htail⟩ := h
    obtain ⟨hall, hordered⟩ := ih htail
    have hstop := tiles_le source htail
    refine ⟨fun other hother => ?_, pairwise_cons.mpr ⟨fun other hother => ?_, hordered⟩⟩
    · obtain rfl | hother := mem_cons.mp hother
      · omega
      · have hlater := hall other hother
        omega
    · exact (hall other hother).1

theorem placed_start {db : CharacterDatabase} {source : Text}
    {tokens : List StructuredTextToken} {lexical : List StructuredTextDiagnostic}
    (h : lexStructuredText db source = some (tokens, lexical)) :
    ∃ marker, tokens.getLast? = some marker ∧
      (Parser.start source tokens.dropLast marker lexical).rest = tokens ∧
      Parser.Placed (Parser.start source tokens.dropLast marker lexical) := by
  obtain ⟨front, marker, _, hlex, htiles, hkind, _, hspan, _⟩ :=
    lexStructuredText_lossless db source
  rw [hlex, Option.some.injEq, Prod.mk.injEq] at h
  obtain ⟨rfl, _⟩ := h
  obtain ⟨hall, hordered⟩ := tiles_ordered source htiles
  have hkinds := tiles_kind source htiles
  refine ⟨marker, List.getLast?_concat, ?_, ?_⟩
  · rw [dropLast_concat]
    rfl
  · rw [dropLast_concat]
    have hmarker : marker.span.stop ≤ marker.span.start := by rw [hspan]
    constructor
    · have hrow : (front ++ [marker]).Pairwise fun a b => a.span.stop ≤ b.span.start := by
        refine pairwise_append.mpr ⟨hordered, by simp, fun token htoken last hlast => ?_⟩
        rw [mem_singleton.mp hlast, hspan]
        exact (hall token htoken).2.2
      refine pairwise_append.mpr ⟨hrow, by simp, fun token htoken last hlast => ?_⟩
      rw [mem_singleton.mp hlast]
      obtain hfront | hlast := mem_append.mp htoken
      · change token.span.stop ≤ marker.span.start
        rw [hspan]
        exact (hall token hfront).2.2
      · rw [mem_singleton.mp hlast]
        exact hmarker
    · intro token htoken hplain
      obtain hfront | hlast := mem_append.mp htoken
      · exact (hall token hfront).2.1
      · rw [mem_singleton.mp hlast] at hplain
        exact absurd hkind hplain
    · intro token htoken hend
      have hlast : token = marker := by
        obtain hrest | hlast := mem_append.mp htoken
        · obtain hfront | hlast := mem_append.mp hrest
          · exact absurd hend (hkinds token hfront)
          · exact mem_singleton.mp hlast
        · exact mem_singleton.mp hlast
      rw [hlast, hspan]
    · intro before token behind hsplit hend
      cases hbehind : behind.reverse with
      | nil => exact reverse_eq_nil_iff.mp hbehind
      | cons last more =>
        have hrest : behind = more.reverse ++ [last] := by
          rw [← reverse_reverse behind, hbehind, reverse_cons]
        have hwhole : front ++ [marker] = (before ++ token :: more.reverse) ++ [last] := by
          rw [append_assoc, cons_append, ← hrest]
          exact hsplit
        have hfront := (append_inj' hwhole rfl).1
        have hmem : token ∈ front := by
          rw [hfront]
          simp
        exact absurd hend (hkinds token hmem)
    · exact hkind

/-- The statements of a document hold every token exactly if each is read with all its tokens. -/
theorem preserved_iff (db : CharacterDatabase) (fuel : Nat) (source : Text)
    (document : StructuredTextDocument)
    (hparse : parseStructuredText db fuel source = some document) :
    Preserved document ↔ ∀ p ∈ topLevelStarts db fuel source, Parser.Covered db p := by
  unfold parseStructuredText at hparse
  obtain ⟨⟨tokens, lexical⟩, hlex, hrest⟩ := Option.bind_eq_some_iff.mp hparse
  obtain ⟨marker, hmarker, htokens, hplaced⟩ := placed_start hlex
  simp only [hmarker, Option.bind_eq_bind, Option.bind_some] at hrest
  obtain ⟨⟨statements, p⟩, hlist, hdocument⟩ := Option.bind_eq_some_iff.mp hrest
  cases hdocument
  obtain ⟨more, hmore, hrow⟩ := Parser.statementList_rowed hplaced hlist
  rw [nil_append] at hmore
  rw [topLevelStarts, hlex]
  simp only [hmarker]
  rw [← hrow.covers, htokens]
  constructor
  · intro hpreserved token hmem hsignificant
    rw [← hmore]
    exact hpreserved.covered token hmem hsignificant
  · intro hcovered
    rw [← hmore] at hcovered hrow
    exact ⟨hcovered, hrow.ordered⟩

instance (token : StructuredTextToken) : Decidable (Parser.Significant token) :=
  inferInstanceAs (Decidable (Parser.isTrivia token = false ∧ token.kind ≠ .endOfFile))

instance (token : StructuredTextToken) (s : Statement) : Decidable (Parser.LiesIn token s) :=
  inferInstanceAs (Decidable (s.span.start ≤ token.span.start ∧ token.span.stop ≤ s.span.stop))

instance (document : StructuredTextDocument) : Decidable (Preserved document) :=
  decidable_of_iff
    ((∀ token ∈ document.tokens, Parser.Significant token →
        ∃ s ∈ document.statements, Parser.LiesIn token s) ∧
      document.statements.Pairwise fun s t => s.span.stop ≤ t.span.start)
    ⟨fun h => ⟨h.1, h.2⟩, fun h => ⟨h.covered, h.ordered⟩⟩

theorem preserved_iff_program :
    ∃ document, parseStructuredText Ascii.database 20 "x := 1; f(y); EXIT;" = some document ∧
      (Preserved document ↔
        ∀ p ∈ topLevelStarts Ascii.database 20 "x := 1; f(y); EXIT;",
          Parser.Covered Ascii.database p) := by
  have hparsed : (parseStructuredText Ascii.database 20 "x := 1; f(y); EXIT;").isSome = true := by
    decide +kernel
  obtain ⟨document, hparse⟩ := Option.isSome_iff_exists.mp hparsed
  exact ⟨document, hparse, preserved_iff Ascii.database 20 _ document hparse⟩

/-- The target and the sign of an assignment without a value lie in no statement. -/
theorem assignment_without_value_dropped :
    ∃ document, parseStructuredText Ascii.database 20 "x := ;" = some document ∧
      ¬ Preserved document := by
  have hchecked : (parseStructuredText Ascii.database 20 "x := ;").map
      (fun document => decide (Preserved document)) = some false := by
    decide +kernel
  obtain ⟨document, hparse, hlost⟩ := Option.map_eq_some_iff.mp hchecked
  exact ⟨document, hparse, of_decide_eq_false hlost⟩

end TwinForge.StructuredText
