import TwinForge.StructuredText.WordParsing

/-! # The source ranges of expressions

The parser builds expressions whose ranges nest: the parts of an expression stand one behind the
other in its range, and the range ends before the next token starts.
-/

namespace TwinForge.StructuredText

open List

namespace Parser

variable {db : CharacterDatabase}

/-! ## Cursors over tokens in source order -/

/-- The tokens ahead stand in source order; only the end marker is empty, and it is the last. -/
structure Placed (p : Parser) : Prop where
  ordered : (p.rest ++ [p.marker]).Pairwise fun a b => a.span.stop ≤ b.span.start
  solid : ∀ token ∈ p.rest, token.kind ≠ .endOfFile → token.span.start < token.span.stop
  hollow : ∀ token ∈ p.rest ++ [p.marker], token.kind = .endOfFile →
    token.span.start = token.span.stop
  final : ∀ front token behind, p.rest = front ++ token :: behind → token.kind = .endOfFile →
    behind = []
  marker : p.marker.kind = .endOfFile

/-- Where the next token that is not trivia starts. -/
def horizon (p : Parser) : Nat := p.peek.span.start

variable {p q : Parser}

theorem Placed.suffix (h : Placed p) (hrest : q.rest <:+ p.rest)
    (hmarker : q.marker = p.marker) : Placed q := by
  have hall : q.rest ++ [q.marker] <:+ p.rest ++ [p.marker] := by
    obtain ⟨front, hfront⟩ := hrest
    exact ⟨front, by rw [← hfront, hmarker, append_assoc]⟩
  constructor
  · exact h.ordered.sublist hall.sublist
  · exact fun token htoken => h.solid token (hrest.sublist.mem htoken)
  · exact fun token htoken => h.hollow token (hall.sublist.mem htoken)
  · intro front token behind hsplit
    obtain ⟨lead, hlead⟩ := hrest
    apply h.final (lead ++ front) token behind
    rw [← hlead, hsplit, append_assoc]
  · rw [hmarker]
    exact h.marker

theorem Placed.behind (h : Placed p) (hbehind : Behind p q) : Placed q :=
  h.suffix hbehind.ahead hbehind.marker

theorem Placed.take (h : Placed p) : Placed p.take :=
  h.suffix (behind_take p).ahead rfl

theorem Placed.skipTrivia (h : Placed p) : Placed p.skipTrivia :=
  h.suffix (behind_skipTrivia p).ahead rfl

variable {token : StructuredTextToken}

theorem Placed.forward (h : Placed p) (htoken : token ∈ p.rest ++ [p.marker]) :
    token.span.start ≤ token.span.stop := by
  by_cases hend : token.kind = .endOfFile
  · exact Nat.le_of_eq (h.hollow token htoken hend)
  · obtain hrest | hmarker := mem_append.mp htoken
    · exact Nat.le_of_lt (h.solid token hrest hend)
    · rw [mem_singleton.mp hmarker] at hend
      exact absurd h.marker hend

theorem mem_of_rest {rest : List StructuredTextToken} (h : p.skipTrivia.rest = token :: rest) :
    token ∈ p.rest := by
  have hmem : token ∈ p.skipTrivia.rest := by
    rw [h]
    exact mem_cons_self
  exact (behind_skipTrivia p).ahead.sublist.mem hmem

theorem peek_mem (p : Parser) : p.peek ∈ p.rest ++ [p.marker] := by
  unfold peek current
  cases hrest : p.skipTrivia.rest with
  | nil => simp [Parser.skipTrivia]
  | cons token rest => simp [mem_of_rest hrest]

theorem Placed.peek_forward (h : Placed p) : p.horizon ≤ p.peek.span.stop :=
  h.forward (peek_mem p)

theorem Placed.take_horizon (h : Placed p) :
    p.peek.span.stop ≤ p.take.horizon := by
  have hskipped := h.skipTrivia.ordered
  unfold horizon peek
  cases hrest : p.skipTrivia.rest with
  | nil =>
    have hhere : p.skipTrivia.current = p.marker := by
      rw [current, hrest]
      rfl
    have hthere : p.take.skipTrivia.current = p.marker := by
      rw [Parser.take, advance, hrest]
      rfl
    rw [hhere, hthere]
    exact Nat.le_of_eq (h.hollow p.marker (by simp) h.marker).symm
  | cons token rest =>
    have hhere : p.skipTrivia.current = token := by
      rw [current, hrest]
      rfl
    have hthere := peek_mem p.take
    have htake : p.take.rest = rest := by
      rw [Parser.take, advance, hrest]
      rfl
    rw [htake] at hthere
    rw [hrest, cons_append] at hskipped
    rw [hhere]
    exact rel_of_pairwise_cons hskipped hthere

theorem Placed.horizon_take (h : Placed p) : p.horizon ≤ p.take.horizon :=
  h.peek_forward.trans h.take_horizon

theorem mem_skipTrivia (h : token ∈ p.rest) (hplain : isTrivia token = false) :
    token ∈ p.skipTrivia.rest := by
  have hsplit := takeWhile_append_dropWhile (p := isTrivia) (l := p.rest)
  rw [← hsplit] at h
  obtain hfront | hrest := mem_append.mp h
  · rw [mem_takeWhile_imp hfront] at hplain
    cases hplain
  · exact hrest

theorem Placed.horizon_le (h : Placed p) (hmem : token ∈ p.rest) (hplain : isTrivia token = false) :
    p.horizon ≤ token.span.start := by
  have hrest := mem_skipTrivia hmem hplain
  have hordered := h.skipTrivia.ordered
  cases hskipped : p.skipTrivia.rest with
  | nil => simp [hskipped] at hrest
  | cons first rest =>
    have hpeek : p.peek = first := by
      rw [peek, current, hskipped]
      rfl
    rw [hskipped] at hrest hordered
    rw [horizon, hpeek]
    obtain rfl | hlater := mem_cons.mp hrest
    · exact Nat.le_refl _
    · rw [cons_append] at hordered
      have hnext := rel_of_pairwise_cons hordered (mem_append_left _ hlater)
      have hforward := h.skipTrivia.forward
        (show first ∈ p.skipTrivia.rest ++ [p.skipTrivia.marker] by simp [hskipped])
      exact hforward.trans hnext

theorem Placed.horizon_marker (h : Placed p) : p.horizon ≤ p.marker.span.start := by
  cases mem_append.mp (peek_mem p) with
  | inl hrest =>
    have hordered := (pairwise_append.mp h.ordered).2.2 _ hrest p.marker (by simp)
    exact h.peek_forward.trans hordered
  | inr hsame => exact Nat.le_of_eq (congrArg (·.span.start) (mem_singleton.mp hsame))

theorem Placed.horizon_mono (h : Placed p) (hbehind : Behind p q) : p.horizon ≤ q.horizon := by
  have hmem := peek_mem q
  rw [hbehind.marker] at hmem
  obtain hrest | hmarker := mem_append.mp hmem
  · apply h.horizon_le (hbehind.ahead.sublist.mem hrest)
    cases hskipped : q.skipTrivia.rest with
    | nil =>
      have hpeek : q.peek = q.marker := by
        rw [peek, current, hskipped]
        rfl
      rw [hpeek, hbehind.marker]
      simp [isTrivia, h.marker]
    | cons first rest =>
      have hpeek : q.peek = first := by
        rw [peek, current, hskipped]
        rfl
      have hhead := List.head?_dropWhile_not isTrivia q.rest
      have hdrop : q.rest.dropWhile isTrivia = first :: rest := hskipped
      rw [hdrop] at hhead
      rw [hpeek]
      simpa using hhead
  · rw [horizon, horizon, mem_singleton.mp hmarker]
    exact h.horizon_marker

theorem Placed.peek_solid (h : Placed p) (hkind : p.peek.kind ≠ .endOfFile) :
    p.horizon < p.peek.span.stop := by
  cases mem_append.mp (peek_mem p) with
  | inl hrest => exact h.solid p.peek hrest hkind
  | inr hmarker =>
    rw [mem_singleton.mp hmarker] at hkind
    exact absurd h.marker hkind

theorem Placed.at_solid (h : Placed p) {kind : TokenKind} (hat : p.atKind kind = true)
    (hkind : kind ≠ .endOfFile) : p.horizon < p.peek.span.stop := by
  apply h.peek_solid
  rwa [eq_of_beq hat]

end Parser

/-! ## Nested ranges -/

namespace Expression

def children : Expression → List Expression
  | .unary _ _ operand => [operand]
  | .binary _ left _ right => [left, right]
  | .member _ target _ => [target]
  | .index _ target indices _ => target :: indices
  | .call _ callee arguments => callee :: arguments.map (·.value)
  | .parenthesized _ inner => [inner]
  | _ => []

/-- Not empty, and with another range than each of its parts. -/
def Proper (e : Expression) : Prop :=
  e.span.start < e.span.stop ∧ ∀ child ∈ e.children, child.span ≠ e.span

end Expression

/-- Ranges one behind the other between two offsets. -/
def Chained (low : Nat) : List SourceSpan → Nat → Prop
  | [], high => low ≤ high
  | span :: rest, high => low ≤ span.start ∧ span.start ≤ span.stop ∧ Chained span.stop rest high

/-- The parts of an expression stand one behind the other in its range. Unless it is `lax`, every
expression that is not missing has a range of its own. -/
inductive Nested (lax : Prop) : Expression → Prop
  | node {e : Expression} (hbelow : ∀ child ∈ e.children, Nested lax child)
      (hchained : Chained e.span.start (e.children.map (·.span)) e.span.stop)
      (hproper : lax ∨ e.isMissing = true ∨ e.Proper) : Nested lax e

/-- Expressions one behind the other between two offsets. -/
structure Laid (lax : Prop) (low : Nat) (es : List Expression) (high : Nat) : Prop where
  nested : ∀ e ∈ es, Nested lax e
  chained : Chained low (es.map (·.span)) high

section

variable {lax : Prop} {low middle high : Nat} {spans : List SourceSpan} {e : Expression}
  {es : List Expression}

theorem Chained.le (h : Chained low spans high) : low ≤ high := by
  induction spans generalizing low with
  | nil => exact h
  | cons span rest ih => exact h.1.trans (h.2.1.trans (ih h.2.2))

theorem Chained.mono {low' high' : Nat} (h : Chained low spans high) (hlow : low' ≤ low)
    (hhigh : high ≤ high') : Chained low' spans high' := by
  induction spans generalizing low low' with
  | nil => exact hlow.trans (Nat.le_trans h hhigh)
  | cons span rest ih => exact ⟨hlow.trans h.1, h.2.1, ih h.2.2 (Nat.le_refl _)⟩

theorem Chained.append {more : List SourceSpan} (h : Chained low spans middle)
    (hmore : Chained middle more high) : Chained low (spans ++ more) high := by
  induction spans generalizing low with
  | nil => exact hmore.mono h (Nat.le_refl _)
  | cons span rest ih => exact ⟨h.1, h.2.1, ih h.2.2⟩

theorem Laid.nil (h : low ≤ high) : Laid lax low [] high := ⟨by simp, h⟩

theorem Laid.mono {low' high' : Nat} (h : Laid lax low es high) (hlow : low' ≤ low)
    (hhigh : high ≤ high') : Laid lax low' es high' :=
  ⟨h.nested, h.chained.mono hlow hhigh⟩

theorem Laid.append {more : List Expression} (h : Laid lax low es middle)
    (hmore : Laid lax middle more high) : Laid lax low (es ++ more) high := by
  constructor
  · exact forall_mem_append.mpr ⟨h.nested, hmore.nested⟩
  · rw [map_append]
    exact h.chained.append hmore.chained

theorem Laid.tight (h : Laid lax low (e :: es) high) :
    Laid lax e.span.start (e :: es) (es.getLastD e).span.stop ∧
      (es.getLastD e).span.stop ≤ high := by
  obtain ⟨hnested, hbefore, hforward, hrest⟩ := h
  have hlast : Chained e.span.stop (es.map (·.span)) (es.getLastD e).span.stop ∧
      (es.getLastD e).span.stop ≤ high := by
    clear hforward hnested hbefore
    induction es generalizing e with
    | nil => exact ⟨Nat.le_refl _, hrest⟩
    | cons next es ih =>
      obtain ⟨hfirst, hforward, hbehind⟩ := hrest
      rw [getLastD_cons]
      exact ⟨⟨hfirst, hforward, (ih hbehind).1⟩, (ih hbehind).2⟩
  exact ⟨⟨hnested, Nat.le_refl _, hforward, hlast.1⟩, hlast.2⟩

theorem Chained.inside (h : Chained low spans high) {span : SourceSpan} (hspan : span ∈ spans) :
    low ≤ span.start ∧ span.stop ≤ high := by
  induction spans generalizing low with
  | nil => cases hspan
  | cons first rest ih =>
    have ⟨hfirst, hforward, hrest⟩ := h
    cases mem_cons.mp hspan with
    | inl hsame =>
      rw [hsame]
      exact ⟨hfirst, hrest.le⟩
    | inr hlater =>
      have ⟨hstart, hstop⟩ := ih hrest hlater
      exact ⟨hfirst.trans (hforward.trans hstart), hstop⟩

theorem Laid.one (hbelow : ∀ child ∈ e.children, Nested lax child)
    (hchained : Chained e.span.start (e.children.map (·.span)) e.span.stop)
    (hlow : low ≤ e.span.start) (hhigh : e.span.stop ≤ high)
    (hproper : lax ∨ e.isMissing = true ∨ e.Proper) : Laid lax low [e] high := by
  constructor
  · intro found hfound
    rw [mem_singleton.mp hfound]
    exact .node hbelow hchained hproper
  · exact ⟨hlow, hchained.le, hhigh⟩

theorem Laid.node (first inner : Nat) (h : Laid lax first e.children inner)
    (hlow : low ≤ e.span.start) (hfirst : e.span.start ≤ first) (hinner : inner ≤ e.span.stop)
    (hhigh : e.span.stop ≤ high)
    (hgap : lax ∨ e.isMissing = true ∨ e.span.start < first ∨ inner < e.span.stop) :
    Laid lax low [e] high := by
  apply Laid.one h.nested (h.chained.mono hfirst hinner) hlow hhigh
  apply hgap.imp_right
  apply Or.imp_right
  intro hgap
  have hle := h.chained.le
  refine ⟨by omega, fun child hchild hsame => ?_⟩
  have ⟨hstart, hstop⟩ := h.chained.inside (mem_map_of_mem hchild)
  rw [hsame] at hstart hstop
  omega

theorem Laid.around {target : Expression} {inner : Nat} (htarget : Laid lax low [target] middle)
    (hmore : Laid lax middle es inner) (hchildren : e.children = target :: es)
    (hstart : e.span.start = target.span.start) (hinner : inner < e.span.stop)
    (hhigh : e.span.stop ≤ high) : Laid lax low [e] high := by
  have hown : Laid lax target.span.start [target] middle :=
    htarget.tight.1.mono (Nat.le_refl _) htarget.tight.2
  apply Laid.node e.span.start inner _ (hstart ▸ htarget.chained.1) (Nat.le_refl _)
    (Nat.le_of_lt hinner) hhigh (Or.inr (Or.inr (Or.inr hinner)))
  rw [hchildren, hstart]
  exact hown.append hmore

theorem Laid.binary {left right : Expression} {behind : Nat} (operator : Text)
    (hleft : Laid lax low [left] middle) (hgap : middle < behind)
    (hright : Laid lax behind [right] high) :
    Laid lax low [.binary ⟨left.span.start, right.span.stop⟩ left operator right] high := by
  have ⟨hfirst, hforward, hmiddle⟩ := hleft.chained
  have ⟨hbehind, hforward', hlast⟩ := hright.chained
  simp only at hfirst hforward hmiddle hbehind hforward' hlast
  have hbetween : left.span.stop < right.span.start := by
    change left.span.stop ≤ middle at hmiddle
    omega
  apply Laid.one
  · exact forall_mem_append.mpr ⟨hleft.nested, hright.nested⟩
  · exact ⟨Nat.le_refl _, hforward, Nat.le_of_lt hbetween, hforward', Nat.le_refl _⟩
  · exact hfirst
  · exact hlast
  · refine Or.inr (Or.inr ⟨Nat.lt_of_le_of_lt hforward (Nat.lt_of_lt_of_le hbetween hforward'), ?_⟩)
    intro child hchild hsame
    have hstart := congrArg SourceSpan.start hsame
    have hstop := congrArg SourceSpan.stop hsame
    simp only [Expression.children, mem_cons, not_mem_nil, or_false] at hchild
    rcases hchild with rfl | rfl
    · change child.span.stop = right.span.stop at hstop
      omega
    · change child.span.start = left.span.start at hstart
      omega

theorem Laid.missing {place : Nat} (hlow : low ≤ place) (hhigh : place ≤ high) :
    Laid lax low [.missing ⟨place, place⟩] high :=
  Laid.node place place (Laid.nil (Nat.le_refl _)) hlow (Nat.le_refl _) (Nat.le_refl _) hhigh
    (Or.inr (Or.inl rfl))

end

namespace Parser

variable {db : CharacterDatabase} {p q : Parser}

/-! ## Results and their ranges -/

/-- A later cursor with a result that is right for it. -/
def Ends {α : Type} (bound : α → Parser → Prop) (p : Parser) (x : Option (α × Parser)) : Prop :=
  ∀ a q, x = some (a, q) → Behind p q ∧ bound a q

theorem Ends.none {α : Type} {bound : α → Parser → Prop} :
    Ends bound p (.none : Option (α × Parser)) := by
  intro a q h
  cases h

theorem Ends.some {α : Type} {bound : α → Parser → Prop} {a : α} (hbehind : Behind p q)
    (h : bound a q) : Ends bound p (.some (a, q)) := by
  intro b r hx
  cases hx
  exact ⟨hbehind, h⟩

theorem Ends.bind {α β : Type} {bound : α → Parser → Prop} {bound' : β → Parser → Prop}
    {x : Option (α × Parser)} {f : α × Parser → Option (β × Parser)} (hx : Ends bound p x)
    (hf : ∀ a q, Behind p q → bound a q → Ends bound' q (f (a, q))) :
    Ends bound' p (x >>= f) := by
  intro b r h
  obtain ⟨⟨a, q⟩, hread, hrest⟩ := Option.bind_eq_some_iff.mp h
  obtain ⟨hbehind, hbound⟩ := hx a q hread
  obtain ⟨hbehind', hbound'⟩ := hf a q hbehind hbound b r hrest
  exact ⟨hbehind.trans hbehind', hbound'⟩

theorem Ends.after {α : Type} {bound : α → Parser → Prop} {x : Option (α × Parser)}
    (hbehind : Behind p q) (h : Ends bound q x) : Ends bound p x := by
  intro a r hx
  obtain ⟨hbehind', hbound⟩ := h a r hx
  exact ⟨hbehind.trans hbehind', hbound⟩

/-- The expressions read so far stand before the cursor, at least if nothing is reported. -/
def Known (lax : Prop) (low : Nat) (es : List Expression) (p : Parser) : Prop :=
  lax ∨ p.diagnostics = [] → Laid lax low es p.horizon

def KnownOption (lax : Prop) (low : Nat) (e : Option Expression) (p : Parser) : Prop :=
  Known lax low e.toList p

def KnownArguments (lax : Prop) (low : Nat) (arguments : List (CallArgument Expression))
    (p : Parser) : Prop :=
  (∀ a ∈ arguments, a.span.stop = a.value.span.stop) ∧ Known lax low (arguments.map (·.value)) p

section

variable {lax : Prop} {low : Nat} {es : List Expression} {e : Expression}

theorem clean_before (hbehind : Behind p q) (hclean : lax ∨ q.diagnostics = []) :
    lax ∨ p.diagnostics = [] :=
  hclean.imp_right fun (hnil : q.diagnostics = []) => prefix_nil.mp (hnil ▸ hbehind.reported)

theorem Known.nil (h : low ≤ p.horizon) : Known lax low [] p := fun _ => .nil h

theorem Known.behind (hknown : Known lax low es p) (h : Placed p) (hbehind : Behind p q) :
    Known lax low es q := by
  intro hclean
  exact (hknown (clean_before hbehind hclean)).mono (Nat.le_refl _) (h.horizon_mono hbehind)

theorem Known.diagnostic (hknown : Known lax low es p) (code message : Text) (span : SourceSpan) :
    Known lax low es (p.diagnostic code message span) :=
  fun hclean => hknown (hclean.imp_right fun hnil => by simp [Parser.diagnostic] at hnil)

theorem Known.reported {code message : Text} {span : SourceSpan}
    (h : lax → Laid lax low es p.horizon) : Known lax low es (p.diagnostic code message span) := by
  intro hclean
  apply h
  exact hclean.resolve_right (by simp [Parser.diagnostic])

theorem Known.append {more : List Expression} (hknown : Known lax low es p)
    (hmore : Known lax p.horizon more q) (hbehind : Behind p q) : Known lax low (es ++ more) q := by
  intro hclean
  exact (hknown (clean_before hbehind hclean)).append (hmore hclean)

theorem Known.leaf (h : Placed p) (hlow : low ≤ p.horizon) (hkind : p.peek.kind ≠ .endOfFile)
    (hspan : e.span = p.peek.span) (hchildren : e.children = []) : Known lax low [e] p.take := by
  intro _
  have hsolid := h.peek_solid hkind
  have hlast := h.take_horizon
  rw [← hspan] at hsolid hlast
  have hstart : p.horizon = e.span.start := by rw [hspan, horizon]
  apply Laid.node p.horizon p.horizon
  · rw [hchildren]
    exact .nil (Nat.le_refl _)
  · exact hstart ▸ hlow
  · exact Nat.le_of_eq hstart.symm
  · exact Nat.le_of_lt hsolid
  · exact hlast
  · exact Or.inr (Or.inr (Or.inr hsolid))

theorem plain_of_operator {value : Nat} (h : binaryOperator db p = some value) :
    p.peek.kind ≠ .endOfFile := by
  intro hend
  have hnone : precedence [] = none := by decide
  rw [binaryOperator, operatorText, hend] at h
  exact absurd (hnone.symm.trans h) (by simp)

theorem plain_of_unary (h : unaryOperators.contains (operatorText db p.peek) = true) :
    p.peek.kind ≠ .endOfFile := by
  intro hend
  have hnone : unaryOperators.contains [] = false := by decide
  rw [operatorText, hend] at h
  exact absurd (hnone.symm.trans h) (by simp)

/-- Every function of the expression parser, with a given fuel. -/
structure ExpressionsEnd (db : CharacterDatabase) (lax : Prop) (fuel : Nat) : Prop where
  expression : ∀ minimum low p, Placed p → low ≤ p.horizon →
    Ends (KnownOption lax low) p (expression db fuel minimum p)
  binaryLoop : ∀ minimum low left p, Placed p → Known lax low [left] p →
    Ends (KnownOption lax low) p (binaryLoop db fuel minimum left p)
  unary : ∀ low p, Placed p → low ≤ p.horizon →
    Ends (KnownOption lax low) p (unary db fuel p)
  postfixExpression : ∀ low p, Placed p → low ≤ p.horizon →
    Ends (KnownOption lax low) p (postfixExpression db fuel p)
  postfixLoop : ∀ low target p, Placed p → Known lax low [target] p →
    Ends (KnownOption lax low) p (postfixLoop db fuel target p)
  primary : ∀ low p, Placed p → low ≤ p.horizon →
    Ends (KnownOption lax low) p (primary db fuel p)
  indexExpression : ∀ low target operator p, Placed p → Known lax low [target] p →
    Ends (fun e => Known lax low [e]) p (indexExpression db fuel target operator p)
  indexLoop : ∀ low indices p, Placed p → Known lax low indices p →
    Ends (Known lax low) p (indexLoop db fuel indices p)
  callExpression : ∀ low callee p, Placed p → Known lax low [callee] p →
    Ends (fun e => Known lax low [e]) p (callExpression db fuel callee p)
  callLoop : ∀ low arguments p, Placed p → KnownArguments lax low arguments p →
    Ends (KnownArguments lax low) p (callLoop db fuel arguments p)

variable {fuel : Nat}

theorem expression_ends (ih : ExpressionsEnd db lax fuel) (minimum : Nat) (h : Placed p)
    (hlow : low ≤ p.horizon) :
    Ends (KnownOption lax low) p (expression db (fuel + 1) minimum p) := by
  simp only [expression]
  refine Ends.bind (ih.unary low p h hlow) fun left q hbehind hknown => ?_
  cases left with
  | none => exact Ends.some (Behind.refl q) hknown
  | some left => exact ih.binaryLoop minimum low left q (h.behind hbehind) hknown

theorem binaryLoop_ends (ih : ExpressionsEnd db lax fuel) (minimum : Nat) {left : Expression}
    (h : Placed p) (hleft : Known lax low [left] p) :
    Ends (KnownOption lax low) p (binaryLoop db (fuel + 1) minimum left p) := by
  simp only [binaryLoop]
  cases hoperator : binaryOperator db p with
  | none => exact Ends.some (Behind.refl p) hleft
  | some precedence =>
    simp only
    split
    · exact Ends.some (Behind.refl p) hleft
    · apply Ends.after (behind_take p)
      refine Ends.bind (ih.expression (precedence + 1) p.take.horizon p.take h.take (Nat.le_refl _))
        fun right q hbehind hknown => ?_
      have hwhole := (behind_take p).trans hbehind
      cases right with
      | none =>
        exact Ends.some (behind_diagnostic q _ _ _) ((hleft.behind h hwhole).diagnostic _ _ _)
      | some right =>
        apply ih.binaryLoop _ low _ q (h.take.behind hbehind)
        intro hclean
        have hgap := Nat.lt_of_lt_of_le (h.peek_solid (plain_of_operator hoperator)) h.take_horizon
        exact (hleft (clean_before hwhole hclean)).binary _ hgap (hknown hclean)

theorem unary_ends (ih : ExpressionsEnd db lax fuel) (h : Placed p) (hlow : low ≤ p.horizon) :
    Ends (KnownOption lax low) p (unary db (fuel + 1) p) := by
  simp only [unary]
  split
  · next hoperator =>
    apply Ends.after (behind_take p)
    refine Ends.bind (ih.unary p.take.horizon p.take h.take (Nat.le_refl _))
      fun operand q hbehind hknown => ?_
    cases operand with
    | none =>
      apply Ends.some (behind_diagnostic q _ _ _)
      apply Known.diagnostic
      exact fun _ => Laid.missing (hlow.trans h.peek_forward)
        (h.take_horizon.trans (h.take.horizon_mono hbehind))
    | some operand =>
      apply Ends.some (Behind.refl q)
      intro hclean
      have hoperand := (hknown hclean).tight
      have hgap : p.horizon < operand.span.start :=
        Nat.lt_of_lt_of_le (h.peek_solid (plain_of_unary hoperator))
          (h.take_horizon.trans (hknown hclean).chained.1)
      exact Laid.node _ _ hoperand.1 hlow (Nat.le_of_lt hgap) (Nat.le_refl _) hoperand.2
        (Or.inr (Or.inr (Or.inl hgap)))
  · exact ih.postfixExpression low p h hlow

theorem postfixExpression_ends (ih : ExpressionsEnd db lax fuel) (h : Placed p)
    (hlow : low ≤ p.horizon) :
    Ends (KnownOption lax low) p (postfixExpression db (fuel + 1) p) := by
  simp only [postfixExpression]
  refine Ends.bind (ih.primary low p h hlow) fun target q hbehind hknown => ?_
  cases target with
  | none => exact Ends.some (Behind.refl q) hknown
  | some target => exact ih.postfixLoop low target q (h.behind hbehind) hknown

theorem postfixLoop_ends (ih : ExpressionsEnd db lax fuel) {target : Expression} (h : Placed p)
    (htarget : Known lax low [target] p) :
    Ends (KnownOption lax low) p (postfixLoop db (fuel + 1) target p) := by
  simp only [postfixLoop]
  split
  · apply Ends.after (behind_take p)
    have hbefore := htarget.behind h (behind_take p)
    split
    · refine Ends.bind (ih.indexExpression low target ".[]" p.take h.take hbefore)
        fun indexed q hbehind hknown => ?_
      exact ih.postfixLoop low indexed q (h.take.behind hbehind) hknown
    · split
      · exact Ends.some (behind_diagnostic p.take _ _ _) (hbefore.diagnostic _ _ _)
      · next hmember =>
        apply Ends.after (behind_take p.take)
        apply ih.postfixLoop low _ p.take.take h.take.take
        intro hclean
        have hsolid : p.take.horizon < p.take.peek.span.stop := by
          apply h.take.peek_solid
          intro hend
          simp [hend] at hmember
        exact (hbefore (clean_before (behind_take p.take) hclean)).around (Laid.nil (Nat.le_refl _))
          rfl rfl hsolid h.take.take_horizon
  · split
    · refine Ends.bind (ih.indexExpression low target "[]" p h htarget)
        fun indexed q hbehind hknown => ?_
      exact ih.postfixLoop low indexed q (h.behind hbehind) hknown
    · split
      · refine Ends.bind (ih.callExpression low target p h htarget)
          fun called q hbehind hknown => ?_
        exact ih.postfixLoop low called q (h.behind hbehind) hknown
      · exact Ends.some (Behind.refl p) htarget

theorem primary_ends (ih : ExpressionsEnd db lax fuel) (h : Placed p) (hlow : low ≤ p.horizon) :
    Ends (KnownOption lax low) p (primary db (fuel + 1) p) := by
  have hleaf : ∀ e : Expression, p.peek.kind ≠ .endOfFile → e.span = p.peek.span →
      e.children = [] → Ends (KnownOption lax low) p (some (some e, p.take)) :=
    fun e hkind hspan hnone => Ends.some (behind_take p) (Known.leaf h hlow hkind hspan hnone)
  simp only [primary]
  cases hkind : p.peek.kind <;> simp only
  case identifier =>
    split
    · exact hleaf _ (by simp [hkind]) rfl rfl
    · exact hleaf _ (by simp [hkind]) rfl rfl
  case literal => exact hleaf _ (by simp [hkind]) rfl rfl
  case string => exact hleaf _ (by simp [hkind]) rfl rfl
  case directAddress => exact hleaf _ (by simp [hkind]) rfl rfl
  case leftParen =>
    apply Ends.after (behind_take p)
    refine Ends.bind (ih.expression 1 p.take.horizon p.take h.take (Nat.le_refl _))
      fun inner q hbehind hknown => ?_
    have hq := h.take.behind hbehind
    have hgap : p.horizon < p.peek.span.stop := h.peek_solid (by simp [hkind])
    have hinner : lax ∨ q.diagnostics = [] → Laid lax p.peek.span.stop
        [inner.getD (.missing ⟨p.peek.span.stop, p.peek.span.stop⟩)] q.horizon := by
      intro hclean
      cases inner with
      | none =>
        exact Laid.missing (Nat.le_refl _) (h.take_horizon.trans (h.take.horizon_mono hbehind))
      | some inner => exact (hknown hclean).mono h.take_horizon (Nat.le_refl _)
    simp only
    split
    · apply Ends.some (behind_take q)
      intro hclean
      exact Laid.node _ _ (hinner (clean_before (behind_take q) hclean)) hlow (Nat.le_of_lt hgap)
        hq.peek_forward hq.take_horizon (Or.inr (Or.inr (Or.inl hgap)))
    · apply Ends.some (behind_diagnostic q _ _ _)
      apply Known.reported
      intro hlax
      have hlaid := hinner (Or.inl hlax)
      exact Laid.node _ _ hlaid.tight.1 hlow ((Nat.le_of_lt hgap).trans hlaid.chained.1)
        (Nat.le_refl _) hlaid.tight.2 (Or.inl hlax)
  all_goals exact Ends.some (Behind.refl p) (Known.nil hlow)

theorem indexExpression_ends (ih : ExpressionsEnd db lax fuel) {target : Expression}
    (operator : Text) (h : Placed p) (htarget : Known lax low [target] p) :
    Ends (fun e => Known lax low [e]) p (indexExpression db (fuel + 1) target operator p) := by
  simp only [indexExpression]
  apply Ends.after (behind_take p)
  have hbefore := htarget.behind h (behind_take p)
  refine Ends.bind (ih.indexLoop p.take.horizon [] p.take h.take (Known.nil (Nat.le_refl _)))
    fun indices q hbehind hknown => ?_
  have hq := h.take.behind hbehind
  simp only
  split
  · next hclosed =>
    apply Ends.some (behind_take q)
    intro hclean
    have hclean' := clean_before (behind_take q) hclean
    have hsolid := hq.at_solid hclosed (by decide)
    exact (hbefore (clean_before hbehind hclean')).around (hknown hclean') rfl rfl hsolid
      hq.take_horizon
  · apply Ends.some (behind_diagnostic q _ _ _)
    apply Known.reported
    intro hlax
    have htarget' := hbefore (Or.inl hlax)
    have hall := htarget'.append (hknown (Or.inl hlax))
    exact Laid.node _ _ hall.tight.1 htarget'.chained.1 (Nat.le_refl _) (Nat.le_refl _)
      hall.tight.2 (Or.inl hlax)

theorem indexLoop_ends (ih : ExpressionsEnd db lax fuel) {indices : List Expression}
    (h : Placed p) (hindices : Known lax low indices p) :
    Ends (Known lax low) p (indexLoop db (fuel + 1) indices p) := by
  simp only [indexLoop]
  split
  · exact Ends.some (Behind.refl p) hindices
  · refine Ends.bind (ih.expression 1 p.horizon p h (Nat.le_refl _))
      fun index q hbehind hknown => ?_
    have hq := h.behind hbehind
    have hmore : Known lax low
        (indices ++ [index.getD (.missing ⟨q.peek.span.start, q.peek.span.start⟩)]) q := by
      apply hindices.append _ hbehind
      intro hclean
      cases index with
      | none =>
        exact Laid.missing (h.horizon_mono hbehind) (Nat.le_refl _)
      | some index => exact hknown hclean
    simp only
    split
    · apply Ends.after (behind_take q)
      exact ih.indexLoop low _ q.take hq.take (hmore.behind hq (behind_take q))
    · exact Ends.some (Behind.refl q) hmore

theorem callExpression_ends (ih : ExpressionsEnd db lax fuel) {callee : Expression}
    (h : Placed p) (hcallee : Known lax low [callee] p) :
    Ends (fun e => Known lax low [e]) p (callExpression db (fuel + 1) callee p) := by
  simp only [callExpression]
  apply Ends.after (behind_take p)
  have hbefore := hcallee.behind h (behind_take p)
  refine Ends.bind (ih.callLoop p.take.horizon [] p.take h.take
    ⟨by simp, Known.nil (Nat.le_refl _)⟩) fun arguments q hbehind hkept => ?_
  rcases hkept with ⟨hstops, hknown⟩
  have hq := h.take.behind hbehind
  simp only
  split
  · next hclosed =>
    apply Ends.some (behind_take q)
    intro hclean
    have hclean' := clean_before (behind_take q) hclean
    have hsolid := hq.at_solid hclosed (by decide)
    exact (hbefore (clean_before hbehind hclean')).around (hknown hclean') rfl rfl hsolid
      hq.take_horizon
  · apply Ends.some (behind_diagnostic q _ _ _)
    apply Known.reported
    intro hlax
    have hcallee' := hbefore (Or.inl hlax)
    have hall := hcallee'.append (hknown (Or.inl hlax))
    have hstop : ((arguments.map (·.value)).getLastD callee).span.stop =
        (arguments.getLast?.map (·.span.stop)).getD callee.span.stop := by
      rw [getLastD_eq_getLast?, getLast?_map]
      cases hlast : arguments.getLast? with
      | none => rfl
      | some last => exact (hstops last (mem_of_getLast? hlast)).symm
    rw [← hstop]
    exact Laid.node _ _ hall.tight.1 hcallee'.chained.1 (Nat.le_refl _) (Nat.le_refl _)
      hall.tight.2 (Or.inl hlax)

theorem callLoop_ends (ih : ExpressionsEnd db lax fuel)
    {arguments : List (CallArgument Expression)} (h : Placed p)
    (harguments : KnownArguments lax low arguments p) :
    Ends (KnownArguments lax low) p (callLoop db (fuel + 1) arguments p) := by
  have hgrow : ∀ (a : CallArgument Expression) (q : Parser), Behind p q →
      a.span.stop = a.value.span.stop → Known lax p.horizon [a.value] q →
      KnownArguments lax low (arguments ++ [a]) q := by
    intro a q hbehind hstop hknown
    constructor
    · exact forall_mem_append.mpr ⟨harguments.1, by simpa using hstop⟩
    · rw [map_append]
      exact harguments.2.append hknown hbehind
  have hmissing : ∀ q : Parser, Behind p q →
      Known lax p.horizon [.missing ⟨p.peek.span.start, p.peek.span.start⟩] q :=
    fun q hbehind _ => Laid.missing (Nat.le_refl _) (h.horizon_mono hbehind)
  simp only [callLoop]
  split
  · exact Ends.some (Behind.refl p) harguments
  · split
    · apply Ends.after (behind_take p)
      exact ih.callLoop low _ p.take h.take
        (hgrow _ _ (behind_take p) rfl (hmissing _ (behind_take p)))
    · have hnamed : Behind p (if p.atNamedArgument = true then p.take.take else p) := by
        split
        · exact (behind_take p).trans (behind_take p.take)
        · exact Behind.refl p
      have hvalue : Ends (KnownOption lax p.horizon) p
          (expression db fuel 1 (if p.atNamedArgument = true then p.take.take else p)) :=
        Ends.after hnamed
          (ih.expression 1 p.horizon _ (h.behind hnamed) (h.horizon_mono hnamed))
      refine Ends.bind hvalue fun value q hbehind hknown => ?_
      have hnext : ∀ (r : Parser) (a : CallArgument Expression), Behind q r →
          a.span.stop = a.value.span.stop → Known lax p.horizon [a.value] r →
          Ends (KnownArguments lax low) q (if r.atKind .comma = true then
            callLoop db fuel (arguments ++ [a]) r.take else pure (arguments ++ [a], r)) := by
        intro r a hlater hstop ha
        have hr := h.behind (hbehind.trans hlater)
        have htaken := hlater.trans (behind_take r)
        split
        · apply Ends.after htaken
          exact ih.callLoop low _ r.take hr.take
            (hgrow a _ (hbehind.trans htaken) hstop (ha.behind hr (behind_take r)))
        · exact Ends.some hlater (hgrow a _ (hbehind.trans hlater) hstop ha)
      cases value with
      | none =>
        have hreported := behind_diagnostic q
        exact hnext _ _ (hreported _ _ _) rfl (hmissing _ (hbehind.trans (hreported _ _ _)))
      | some value => exact hnext _ _ (Behind.refl q) rfl hknown

theorem expressionsEnd (db : CharacterDatabase) (lax : Prop) (fuel : Nat) :
    ExpressionsEnd db lax fuel := by
  induction fuel with
  | zero => constructor <;> intros <;> exact Ends.none
  | succ fuel ih =>
    constructor
    · exact fun minimum _ p h hlow => expression_ends ih minimum h hlow
    · exact fun minimum _ left p h hleft => binaryLoop_ends ih minimum h hleft
    · exact fun _ p h hlow => unary_ends ih h hlow
    · exact fun _ p h hlow => postfixExpression_ends ih h hlow
    · exact fun _ target p h htarget => postfixLoop_ends ih h htarget
    · exact fun _ p h hlow => primary_ends ih h hlow
    · exact fun _ target operator p h htarget => indexExpression_ends ih operator h htarget
    · exact fun _ indices p h hindices => indexLoop_ends ih h hindices
    · exact fun _ callee p h hcallee => callExpression_ends ih h hcallee
    · exact fun _ arguments p h harguments => callLoop_ends ih h harguments

theorem expression_bound {minimum : Nat} {e : Option Expression} (h : Placed p)
    (hread : expression db fuel minimum p = some (e, q)) :
    Placed q ∧ ∀ found, e = some found → found.span.stop ≤ q.horizon := by
  have ⟨hbehind, hknown⟩ :=
    (expressionsEnd db True fuel).expression minimum p.horizon p h (Nat.le_refl _) e q hread
  refine ⟨h.behind hbehind, fun found hfound => ?_⟩
  cases hfound
  exact (hknown (Or.inl trivial)).tight.2

end

end Parser

end TwinForge.StructuredText
