import TwinForge.StructuredText.Printing

/-! # The parser reads words

What the parser builds depends on the words ahead and not on the trivia between them, as long as it
has nothing to report: recovery alone looks at single tokens.
-/

namespace TwinForge.StructuredText

open Expression

namespace Expression

theorem listWithoutSpans_eq (es : List Expression) : listWithoutSpans es = es.map withoutSpans := by
  induction es with
  | nil => rfl
  | cons e es ih => rw [listWithoutSpans, ih, List.map_cons]

theorem argumentsWithoutSpans_eq (arguments : List (CallArgument Expression)) :
    argumentsWithoutSpans arguments = arguments.map argumentWithoutSpans := by
  induction arguments with
  | nil => rfl
  | cons a arguments ih => rw [argumentsWithoutSpans, ih, List.map_cons]

end Expression

namespace Parser

variable {db : CharacterDatabase}

/-! ## Cursors with the same words ahead -/

structure Alike (p q : Parser) : Prop where
  upcoming : p.upcoming = q.upcoming
  marker : p.marker.word = q.marker.word

theorem Alike.refl (p : Parser) : Alike p p := ⟨rfl, rfl⟩

variable {p q : Parser}

theorem Alike.symm (h : Alike p q) : Alike q p :=
  ⟨h.upcoming.symm, h.marker.symm⟩

theorem Alike.trans {r : Parser} (h : Alike p q) (h' : Alike q r) : Alike p r :=
  ⟨h.upcoming.trans h'.upcoming, h.marker.trans h'.marker⟩

theorem upcoming_nil (h : p.upcoming = []) :
    p.skipTrivia.rest = [] ∧ p.take.upcoming = [] := by
  have hall : ∀ token ∈ p.rest, isTrivia token = true := by
    intro token htoken
    have hnone := List.filter_eq_nil_iff.mp (List.map_eq_nil_iff.mp h) token htoken
    simpa using hnone
  have hnil : p.skipTrivia.rest = [] := List.dropWhile_eq_nil_iff.mpr hall
  refine ⟨hnil, ?_⟩
  rw [upcoming, take, advance, hnil]
  rfl

theorem Alike.peek (h : Alike p q) : p.peek.word = q.peek.word := by
  cases hwords : p.upcoming with
  | nil =>
    have hp := (upcoming_nil hwords).1
    have hq := (upcoming_nil (h.upcoming ▸ hwords)).1
    simp only [Parser.peek, current, hp, hq, List.headD_nil]
    exact h.marker
  | cons w ws =>
    rw [(upcoming_cons hwords).1, (upcoming_cons (h.upcoming ▸ hwords)).1]

theorem Alike.take (h : Alike p q) : Alike p.take q.take := by
  refine ⟨?_, h.marker⟩
  cases hwords : p.upcoming with
  | nil => rw [(upcoming_nil hwords).2, (upcoming_nil (h.upcoming ▸ hwords)).2]
  | cons w ws => rw [(upcoming_cons hwords).2, (upcoming_cons (h.upcoming ▸ hwords)).2]

theorem Alike.kind (h : Alike p q) : p.peek.kind = q.peek.kind :=
  congrArg Prod.fst h.peek

theorem Alike.text (h : Alike p q) : p.peek.text = q.peek.text :=
  congrArg Prod.snd h.peek

theorem Alike.second (h : Alike p q) : p.peekSecond.word = q.peekSecond.word :=
  h.take.peek

theorem Alike.secondKind (h : Alike p q) : p.peekSecond.kind = q.peekSecond.kind :=
  congrArg Prod.fst h.second

theorem Alike.secondText (h : Alike p q) : p.peekSecond.text = q.peekSecond.text :=
  congrArg Prod.snd h.second

theorem Alike.atKind (h : Alike p q) (kind : TokenKind) :
    p.atKind kind = q.atKind kind := by
  rw [Parser.atKind, Parser.atKind, h.kind]

theorem Alike.atNamedArgument (h : Alike p q) :
    p.atNamedArgument = q.atNamedArgument := by
  rw [Parser.atNamedArgument, Parser.atNamedArgument, h.kind, h.secondKind]

theorem Alike.operatorText {p q : Parser} (h : Alike p q) :
    operatorText db p.peek = operatorText db q.peek := by
  rw [Parser.operatorText, Parser.operatorText, h.kind, h.text]

theorem Alike.binaryOperator {p q : Parser} (h : Alike p q) :
    binaryOperator db p = binaryOperator db q := by
  rw [Parser.binaryOperator, Parser.binaryOperator, h.operatorText]

theorem Alike.keyword {p q : Parser} (h : Alike p q) (value : Text) :
    keyword db value p = keyword db value q := by
  rw [Parser.keyword, Parser.keyword, h.kind, h.text]

theorem Alike.keywordIn {p q : Parser} (h : Alike p q) (values : List Text) :
    keywordIn db values p = keywordIn db values q := by
  rw [Parser.keywordIn, Parser.keywordIn, h.kind, h.text]

/-! ## Outcomes -/

/-- A later cursor: it may have reported more and has no new tokens ahead. -/
structure Behind (p p' : Parser) : Prop where
  reported : p.diagnostics <+: p'.diagnostics
  ahead : p'.rest <:+ p.rest
  marker : p'.marker = p.marker

theorem Behind.refl (p : Parser) : Behind p p := ⟨List.prefix_refl _, List.suffix_refl _, rfl⟩

theorem Behind.trans {p' p'' : Parser} (h : Behind p p') (h' : Behind p' p'') : Behind p p'' :=
  ⟨h.reported.trans h'.reported, h'.ahead.trans h.ahead, h'.marker.trans h.marker⟩

theorem behind_skipTrivia (p : Parser) : Behind p p.skipTrivia :=
  ⟨List.prefix_refl _, List.dropWhile_suffix _, rfl⟩

theorem behind_take (p : Parser) : Behind p p.take :=
  ⟨List.prefix_refl _, (List.tail_suffix _).trans (List.dropWhile_suffix _), rfl⟩

theorem behind_diagnostic (p : Parser) (code message : Text) (span : SourceSpan) :
    Behind p (p.diagnostic code message span) :=
  ⟨List.prefix_append .., List.suffix_refl _, rfl⟩

/-- The outcome `x` is behind the cursor, and with nothing reported `y` is the same outcome up to
what is erased. -/
def Tracks {α β : Type} (erase : α → β) (p : Parser) (x y : Option (α × Parser)) : Prop :=
  ∀ a p', x = some (a, p') → Behind p p' ∧
    (p'.diagnostics = [] → ∃ b q', y = some (b, q') ∧ erase a = erase b ∧ Alike p' q')

theorem Tracks.none {α β : Type} {erase : α → β} {y : Option (α × Parser)} :
    Tracks erase p .none y := by
  intro a p' h
  cases h

theorem Tracks.some {α β : Type} {erase : α → β} {p p' q' : Parser} {a b : α}
    (hbehind : Behind p p') (hsame : erase a = erase b) (h : Alike p' q') :
    Tracks erase p (.some (a, p')) (.some (b, q')) := by
  intro a' p'' hx
  cases hx
  exact ⟨hbehind, fun _ => ⟨b, q', rfl, hsame, h⟩⟩

theorem Tracks.diagnosed {α β : Type} {erase : α → β} {a : α}
    {y : Option (α × Parser)} (code message : Text) (span : SourceSpan) :
    Tracks erase p (.some (a, p.diagnostic code message span)) y := by
  intro a' p'' hx
  cases hx
  exact ⟨behind_diagnostic p code message span, fun hnone => absurd hnone (by simp [diagnostic])⟩

theorem Tracks.after {α β : Type} {erase : α → β} {p' : Parser} {x y : Option (α × Parser)}
    (hbehind : Behind p p') (h : Tracks erase p' x y) : Tracks erase p x y := by
  intro a p'' hx
  obtain ⟨hmore, hsame⟩ := h a p'' hx
  exact ⟨hbehind.trans hmore, hsame⟩

theorem Tracks.bind_of {α β γ δ : Type} {erase : α → β} {erase' : γ → δ}
    {x y : Option (α × Parser)} {f g : α × Parser → Option (γ × Parser)} (hxy : Tracks erase p x y)
    (hbehind : ∀ a p' c p'', f (a, p') = .some (c, p'') → Behind p' p'')
    (hfg : ∀ a b p' q', x = .some (a, p') → y = .some (b, q') → erase a = erase b → Alike p' q' →
      Tracks erase' p' (f (a, p')) (g (b, q'))) :
    Tracks erase' p (x >>= f) (y >>= g) := by
  intro c p'' h
  obtain ⟨⟨a, p'⟩, hx, hf⟩ := Option.bind_eq_some_iff.mp h
  obtain ⟨hfirst, hsame⟩ := hxy a p' hx
  have hmore := hbehind a p' c p'' hf
  refine ⟨hfirst.trans hmore, fun hnone => ?_⟩
  have hquiet : p'.diagnostics = [] := List.prefix_nil.mp (hnone ▸ hmore.reported)
  obtain ⟨b, q', hy, heq, halike⟩ := hsame hquiet
  obtain ⟨d, q'', hg, herase, hlast⟩ := (hfg a b p' q' hx hy heq halike c p'' hf).2 hnone
  refine ⟨d, q'', ?_, herase, hlast⟩
  rw [hy]
  exact hg

theorem Tracks.bind {α β γ δ : Type} {erase : α → β} {erase' : γ → δ}
    {x y : Option (α × Parser)} {f g : α × Parser → Option (γ × Parser)} (hxy : Tracks erase p x y)
    (hfg : ∀ a b p' q', erase a = erase b → Alike p' q' →
      Tracks erase' p' (f (a, p')) (g (b, q'))) :
    Tracks erase' p (x >>= f) (y >>= g) := by
  apply Tracks.bind_of hxy
  · exact fun a p' c p'' hf => (hfg a a p' p' rfl (Alike.refl p') c p'' hf).1
  · exact fun a b p' q' _ _ hsame h => hfg a b p' q' hsame h

theorem Alike.diagnostic (h : Alike p q) (code code' message message' : Text)
    (span span' : SourceSpan) :
    Alike (p.diagnostic code message span) (q.diagnostic code' message' span') :=
  ⟨h.upcoming, h.marker⟩

/-! ## Expressions -/

abbrev eraseExpression (e : Option Expression) : Option Expression := e.map withoutSpans

theorem getD_withoutSpans {e e' : Option Expression} (h : eraseExpression e = eraseExpression e')
    (span span' : SourceSpan) :
    (e.getD (.missing span)).withoutSpans = (e'.getD (.missing span')).withoutSpans := by
  cases e with
  | none =>
    cases e' with
    | none => rfl
    | some right => cases h
  | some left =>
    cases e' with
    | none => cases h
    | some right => exact Option.some.inj h

/-- Every function of the expression parser, with a given fuel. -/
structure ExpressionsTrack (db : CharacterDatabase) (fuel : Nat) : Prop where
  expression : ∀ minimum p q, Alike p q → Tracks eraseExpression p
    (expression db fuel minimum p) (expression db fuel minimum q)
  binaryLoop : ∀ minimum left left' p q, left.withoutSpans = left'.withoutSpans → Alike p q →
    Tracks eraseExpression p
      (binaryLoop db fuel minimum left p) (binaryLoop db fuel minimum left' q)
  unary : ∀ p q, Alike p q → Tracks eraseExpression p (unary db fuel p) (unary db fuel q)
  postfixExpression : ∀ p q, Alike p q → Tracks eraseExpression p
    (postfixExpression db fuel p) (postfixExpression db fuel q)
  postfixLoop : ∀ target target' p q, target.withoutSpans = target'.withoutSpans → Alike p q →
    Tracks eraseExpression p (postfixLoop db fuel target p) (postfixLoop db fuel target' q)
  primary : ∀ p q, Alike p q → Tracks eraseExpression p (primary db fuel p) (primary db fuel q)
  indexExpression : ∀ target target' operator p q, target.withoutSpans = target'.withoutSpans →
    Alike p q → Tracks withoutSpans p
      (indexExpression db fuel target operator p) (indexExpression db fuel target' operator q)
  indexLoop : ∀ indices indices' p q, listWithoutSpans indices = listWithoutSpans indices' →
    Alike p q → Tracks listWithoutSpans p
      (indexLoop db fuel indices p) (indexLoop db fuel indices' q)
  callExpression : ∀ callee callee' p q, callee.withoutSpans = callee'.withoutSpans →
    Alike p q → Tracks withoutSpans p
      (callExpression db fuel callee p) (callExpression db fuel callee' q)
  callLoop : ∀ arguments arguments' p q,
    argumentsWithoutSpans arguments = argumentsWithoutSpans arguments' → Alike p q →
    Tracks argumentsWithoutSpans p
      (callLoop db fuel arguments p) (callLoop db fuel arguments' q)

theorem Tracks.bindExpression {γ δ : Type} {erase : γ → δ}
    {x y : Option (Option Expression × Parser)}
    {f g : Option Expression × Parser → Option (γ × Parser)} (hxy : Tracks eraseExpression p x y)
    (hnone : ∀ p' q', Alike p' q' → Tracks erase p' (f (.none, p')) (g (.none, q')))
    (hsome : ∀ a b p' q', a.withoutSpans = b.withoutSpans → Alike p' q' →
      Tracks erase p' (f (.some a, p')) (g (.some b, q'))) :
    Tracks erase p (x >>= f) (y >>= g) := by
  refine Tracks.bind hxy fun a b p' q' hsame h => ?_
  cases a with
  | none =>
    cases b with
    | none => exact hnone p' q' h
    | some right => cases hsame
  | some left =>
    cases b with
    | none => cases hsame
    | some right => exact hsome left right p' q' (Option.some.inj hsame) h

section

variable {fuel : Nat}

theorem expression_tracks (ih : ExpressionsTrack db fuel) (minimum : Nat)
    (h : Alike p q) : Tracks eraseExpression p
      (expression db (fuel + 1) minimum p) (expression db (fuel + 1) minimum q) := by
  simp only [expression]
  apply Tracks.bindExpression (ih.unary p q h)
  · exact fun p' q' hnext => Tracks.some (Behind.refl _) rfl hnext
  · exact fun left right p' q' hsame hnext => ih.binaryLoop minimum left right p' q' hsame hnext

theorem binaryLoop_tracks (ih : ExpressionsTrack db fuel) (minimum : Nat)
    {left left' : Expression} (hleft : left.withoutSpans = left'.withoutSpans)
    (h : Alike p q) : Tracks eraseExpression p
      (binaryLoop db (fuel + 1) minimum left p) (binaryLoop db (fuel + 1) minimum left' q) := by
  simp only [binaryLoop, ← @Alike.binaryOperator db _ _ h]
  cases binaryOperator db p with
  | none => exact Tracks.some (Behind.refl _) (congrArg Option.some hleft) h
  | some precedence =>
    simp only
    split
    · exact Tracks.some (Behind.refl _) (congrArg Option.some hleft) h
    · apply Tracks.after (behind_take p)
      apply Tracks.bindExpression (ih.expression (precedence + 1) p.take q.take h.take)
      · exact fun p' q' _ => Tracks.diagnosed _ _ _
      · intro right right' p' q' hright hnext
        apply ih.binaryLoop _ _ _ _ _ _ hnext
        simp only [withoutSpans, hleft, hright, h.text]

theorem unary_tracks (ih : ExpressionsTrack db fuel) (h : Alike p q) :
    Tracks eraseExpression p (unary db (fuel + 1) p) (unary db (fuel + 1) q) := by
  simp only [unary, ← @Alike.operatorText db _ _ h]
  split
  · apply Tracks.after (behind_take p)
    apply Tracks.bindExpression (ih.unary p.take q.take h.take)
    · exact fun p' q' _ => Tracks.diagnosed _ _ _
    · intro operand operand' p' q' hsame hnext
      apply Tracks.some (Behind.refl _) _ hnext
      simp only [eraseExpression, Option.map_some, withoutSpans, hsame, h.text]
  · exact ih.postfixExpression p q h

theorem postfixExpression_tracks (ih : ExpressionsTrack db fuel) (h : Alike p q) :
    Tracks eraseExpression p
      (postfixExpression db (fuel + 1) p) (postfixExpression db (fuel + 1) q) := by
  simp only [postfixExpression]
  apply Tracks.bindExpression (ih.primary p q h)
  · exact fun p' q' hnext => Tracks.some (Behind.refl _) rfl hnext
  · exact fun target target' p' q' hsame hnext => ih.postfixLoop target target' p' q' hsame hnext

theorem postfixLoop_tracks (ih : ExpressionsTrack db fuel) {target target' : Expression}
    (hsame : target.withoutSpans = target'.withoutSpans) (h : Alike p q) :
    Tracks eraseExpression p
      (postfixLoop db (fuel + 1) target p) (postfixLoop db (fuel + 1) target' q) := by
  simp only [postfixLoop, ← h.atKind, ← h.take.atKind, ← h.take.kind, ← h.take.text]
  split
  · split
    · apply Tracks.after (behind_take p)
      apply Tracks.bind (ih.indexExpression target target' _ p.take q.take hsame h.take)
      intro indexed indexed' p' q' hindexed hnext
      exact ih.postfixLoop indexed indexed' p' q' hindexed hnext
    · split
      · exact Tracks.after (behind_take p) (Tracks.diagnosed _ _ _)
      · apply Tracks.after ((behind_take p).trans (behind_take p.take))
        apply ih.postfixLoop _ _ p.take.take q.take.take _ h.take.take
        simp only [withoutSpans, hsame]
  · split
    · apply Tracks.bind (ih.indexExpression target target' _ p q hsame h)
      intro indexed indexed' p' q' hindexed hnext
      exact ih.postfixLoop indexed indexed' p' q' hindexed hnext
    · split
      · apply Tracks.bind (ih.callExpression target target' p q hsame h)
        intro called called' p' q' hcalled hnext
        exact ih.postfixLoop called called' p' q' hcalled hnext
      · exact Tracks.some (Behind.refl _) (congrArg Option.some hsame) h

theorem primary_tracks (ih : ExpressionsTrack db fuel) (h : Alike p q) :
    Tracks eraseExpression p (primary db (fuel + 1) p) (primary db (fuel + 1) q) := by
  have hleaf : ∀ e e' : Expression, e.withoutSpans = e'.withoutSpans →
      Tracks eraseExpression p (some (some e, p.take)) (some (some e', q.take)) :=
    fun e e' hsame => Tracks.some (behind_take p) (congrArg Option.some hsame) h.take
  simp only [primary, ← h.kind, ← h.text]
  cases hkind : p.peek.kind <;> simp only
  case identifier =>
    split
    · exact hleaf _ _ rfl
    · exact hleaf _ _ rfl
  case literal => exact hleaf _ _ rfl
  case string => exact hleaf _ _ rfl
  case directAddress => exact hleaf _ _ rfl
  case leftParen =>
    apply Tracks.after (behind_take p)
    apply Tracks.bind (ih.expression 1 p.take q.take h.take)
    intro inner inner' p' q' hsame hnext
    have hinner := getD_withoutSpans hsame ⟨p.peek.span.stop, p.peek.span.stop⟩
      ⟨q.peek.span.stop, q.peek.span.stop⟩
    simp only [← hnext.atKind]
    split
    · apply Tracks.some (behind_take p') _ hnext.take
      simp only [eraseExpression, Option.map_some, withoutSpans, hinner]
    · exact Tracks.diagnosed _ _ _
  all_goals exact Tracks.some (Behind.refl _) rfl h

theorem indexExpression_tracks (ih : ExpressionsTrack db fuel) {target target' : Expression}
    (operator : Text) (hsame : target.withoutSpans = target'.withoutSpans)
    (h : Alike p q) : Tracks withoutSpans p
      (indexExpression db (fuel + 1) target operator p)
      (indexExpression db (fuel + 1) target' operator q) := by
  simp only [indexExpression]
  apply Tracks.after (behind_take p)
  apply Tracks.bind (ih.indexLoop [] [] p.take q.take rfl h.take)
  intro indices indices' p' q' hindices hnext
  simp only [← hnext.atKind]
  split
  · apply Tracks.some (behind_take p') _ hnext.take
    simp only [withoutSpans, hsame, hindices]
  · exact Tracks.diagnosed _ _ _

theorem indexLoop_tracks (ih : ExpressionsTrack db fuel) {indices indices' : List Expression}
    (hsame : listWithoutSpans indices = listWithoutSpans indices')
    (h : Alike p q) : Tracks listWithoutSpans p
      (indexLoop db (fuel + 1) indices p) (indexLoop db (fuel + 1) indices' q) := by
  simp only [indexLoop, ← h.atKind]
  split
  · exact Tracks.some (Behind.refl _) hsame h
  · apply Tracks.bind (ih.expression 1 p q h)
    intro index index' p' q' hindex hnext
    have hindices : listWithoutSpans
          (indices ++ [index.getD (.missing ⟨p'.peek.span.start, p'.peek.span.start⟩)]) =
        listWithoutSpans
          (indices' ++ [index'.getD (.missing ⟨q'.peek.span.start, q'.peek.span.start⟩)]) := by
      rw [listWithoutSpans_eq, listWithoutSpans_eq] at hsame
      rw [listWithoutSpans_eq, listWithoutSpans_eq, List.map_append, List.map_append, hsame,
        List.map_singleton, List.map_singleton, getD_withoutSpans hindex]
    simp only [← hnext.atKind]
    split
    · exact Tracks.after (behind_take p') (ih.indexLoop _ _ p'.take q'.take hindices hnext.take)
    · exact Tracks.some (Behind.refl _) hindices hnext

theorem callExpression_tracks (ih : ExpressionsTrack db fuel) {callee callee' : Expression}
    (hsame : callee.withoutSpans = callee'.withoutSpans) (h : Alike p q) :
    Tracks withoutSpans p
      (callExpression db (fuel + 1) callee p) (callExpression db (fuel + 1) callee' q) := by
  simp only [callExpression]
  apply Tracks.after (behind_take p)
  apply Tracks.bind (ih.callLoop [] [] p.take q.take rfl h.take)
  intro arguments arguments' p' q' harguments hnext
  simp only [← hnext.atKind]
  split
  · apply Tracks.some (behind_take p') _ hnext.take
    simp only [withoutSpans, hsame, harguments]
  · exact Tracks.diagnosed _ _ _

theorem callLoop_tracks (ih : ExpressionsTrack db fuel)
    {arguments arguments' : List (CallArgument Expression)}
    (hsame : argumentsWithoutSpans arguments = argumentsWithoutSpans arguments')
    (h : Alike p q) : Tracks argumentsWithoutSpans p
      (callLoop db (fuel + 1) arguments p) (callLoop db (fuel + 1) arguments' q) := by
  simp only [callLoop, ← h.atKind, ← h.atNamedArgument, ← h.text, ← h.secondText]
  split
  · exact Tracks.some (Behind.refl _) hsame h
  · split
    · apply Tracks.after (behind_take p)
      apply ih.callLoop _ _ p.take q.take _ h.take
      rw [argumentsWithoutSpans_eq, argumentsWithoutSpans_eq] at hsame ⊢
      rw [List.map_append, List.map_append, hsame]
      rfl
    · have hstart : Alike (if p.atNamedArgument = true then p.take.take else p)
          (if p.atNamedArgument = true then q.take.take else q) := by
        split
        · exact h.take.take
        · exact h
      have hsilent : Behind p (if p.atNamedArgument = true then p.take.take else p) := by
        split
        · exact (behind_take p).trans (behind_take p.take)
        · exact Behind.refl p
      apply Tracks.after hsilent
      apply Tracks.bind (ih.expression 1 _ _ hstart)
      intro value value' p' q' hvalue hnext
      have hadd : ∀ (span span' : SourceSpan) (v v' : Expression) (name direction : Option Text),
          v.withoutSpans = v'.withoutSpans →
          argumentsWithoutSpans (arguments ++ [⟨span, v, name, direction⟩]) =
            argumentsWithoutSpans (arguments' ++ [⟨span', v', name, direction⟩]) := by
        intro span span' v v' name direction hv
        rw [argumentsWithoutSpans_eq, argumentsWithoutSpans_eq] at hsame
        rw [argumentsWithoutSpans_eq, argumentsWithoutSpans_eq, List.map_append, List.map_append,
          hsame, List.map_singleton, List.map_singleton, argumentWithoutSpans,
          argumentWithoutSpans, hv]
      cases value with
      | none =>
        cases value' with
        | some right => cases hvalue
        | none =>
          simp only [Option.isNone_none, if_true, Option.getD_none]
          have hreported := hnext.diagnostic "missing_call_argument" "missing_call_argument"
            "call argument is missing" "call argument is missing"
            ⟨p.peek.span.start, p.peek.span.start⟩ ⟨q.peek.span.start, q.peek.span.start⟩
          apply Tracks.after (behind_diagnostic p' "missing_call_argument"
            "call argument is missing" ⟨p.peek.span.start, p.peek.span.start⟩)
          rw [span, span, ← hreported.atKind]
          split
          · exact Tracks.after (behind_take _)
              (ih.callLoop _ _ _ _ (hadd _ _ _ _ _ _ rfl) hreported.take)
          · exact Tracks.some (Behind.refl _) (hadd _ _ _ _ _ _ rfl) hreported
      | some left =>
        cases value' with
        | none => cases hvalue
        | some right =>
          have hleft : left.withoutSpans = right.withoutSpans := Option.some.inj hvalue
          simp only [Option.isNone_some, Bool.false_eq_true, if_false, Option.getD_some]
          rw [← hnext.atKind]
          split
          · exact Tracks.after (behind_take p')
              (ih.callLoop _ _ _ _ (hadd _ _ _ _ _ _ hleft) hnext.take)
          · exact Tracks.some (Behind.refl _) (hadd _ _ _ _ _ _ hleft) hnext

theorem expressionsTrack (db : CharacterDatabase) (fuel : Nat) : ExpressionsTrack db fuel := by
  induction fuel with
  | zero =>
    constructor <;> intros <;> exact Tracks.none
  | succ fuel ih =>
    constructor
    · exact fun minimum p q h => expression_tracks ih minimum h
    · exact fun minimum left left' p q hleft h => binaryLoop_tracks ih minimum hleft h
    · exact fun p q h => unary_tracks ih h
    · exact fun p q h => postfixExpression_tracks ih h
    · exact fun target target' p q hsame h => postfixLoop_tracks ih hsame h
    · exact fun p q h => primary_tracks ih h
    · exact fun target target' operator p q hsame h => indexExpression_tracks ih operator hsame h
    · exact fun indices indices' p q hsame h => indexLoop_tracks ih hsame h
    · exact fun callee callee' p q hsame h => callExpression_tracks ih hsame h
    · exact fun arguments arguments' p q hsame h => callLoop_tracks ih hsame h

end

end Parser

end TwinForge.StructuredText
