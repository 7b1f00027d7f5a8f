import Mathlib.Data.List.Induction
import TwinForge.StructuredText.Lexer

/-! # Every recogniser moves the cursor over exactly one token

A recogniser started at a cursor with characters left ends at the cursor moved
by a positive number of characters that are there, with one token spanning them.
From this the token stream of a whole source tiles the source.
-/

namespace TwinForge.StructuredText

open List

variable (db : CharacterDatabase)

namespace Lexer

/-! ## The moved cursor -/

/-- The cursor after `count` characters; tokens and diagnostics stay. -/
def moved (lx : Lexer) (count : Nat) : Lexer :=
  let location := (lx.rest.take count).foldl advanceLocation (lx.line, lx.column)
  { lx with
    rest := lx.rest.drop count, position := lx.position + count
    line := location.1, column := location.2 }

@[simp] theorem moved_rest (lx : Lexer) (n : Nat) : (lx.moved n).rest = lx.rest.drop n := rfl

@[simp] theorem moved_position (lx : Lexer) (n : Nat) :
    (lx.moved n).position = lx.position + n := rfl

@[simp] theorem moved_tokens (lx : Lexer) (n : Nat) : (lx.moved n).tokens = lx.tokens := rfl

@[simp] theorem moved_diagnostics (lx : Lexer) (n : Nat) :
    (lx.moved n).diagnostics = lx.diagnostics := rfl

@[simp] theorem moved_zero (lx : Lexer) : lx.moved 0 = lx := rfl

theorem moved_moved (lx : Lexer) (m n : Nat) : (lx.moved m).moved n = lx.moved (m + n) := by
  simp [moved, take_add, foldl_append, Nat.add_assoc]

theorem advance_eq (lx : Lexer) (h : 0 < lx.rest.length) : lx.advance = some (lx.moved 1) := by
  unfold advance
  cases hr : lx.rest with
  | nil => simp [hr] at h
  | cons character rest => simp [moved, hr]

theorem advanceBy_eq (n : Nat) (lx : Lexer) (h : n ≤ lx.rest.length) :
    lx.advanceBy n = some (lx.moved n) := by
  induction n generalizing lx with
  | zero => rfl
  | succ n ih =>
    have hnext : n ≤ (lx.moved 1).rest.length := by
      simp only [moved_rest, length_drop]
      omega
    rw [advanceBy, advance_eq lx (by omega), Option.bind_some, ih _ hnext, moved_moved,
      Nat.add_comm]

/-! ## Emitting one token -/

/-- The cursor after one token over the next `count` characters. -/
def emitted (lx : Lexer) (kind : TokenKind) (count : Nat) : Lexer :=
  (lx.moved count).append kind lx

/-- The token a recogniser appends for the next `count` characters. -/
def tokenHere (lx : Lexer) (kind : TokenKind) (count : Nat) : StructuredTextToken :=
  ⟨kind, lx.rest.take count, ⟨lx.position, lx.position + count⟩, lx.line, lx.column⟩

@[simp] theorem emitted_rest (lx : Lexer) (kind : TokenKind) (n : Nat) :
    (lx.emitted kind n).rest = lx.rest.drop n := rfl

@[simp] theorem emitted_diagnostics (lx : Lexer) (kind : TokenKind) (n : Nat) :
    (lx.emitted kind n).diagnostics = lx.diagnostics := rfl

@[simp] theorem emitted_tokens (lx : Lexer) (kind : TokenKind) (n : Nat) :
    (lx.emitted kind n).tokens = lx.tokens ++ [lx.tokenHere kind n] := by
  simp [emitted, append, tokenHere]

theorem fixed_eq (lx : Lexer) (n : Nat) (kind : TokenKind) (h : n ≤ lx.rest.length) :
    lx.fixed n kind = some (lx.emitted kind n) := by
  rw [fixed, advanceBy_eq n lx h]
  rfl

/-- One token over a positive number of the characters left, and perhaps a
diagnostic. -/
def Emits (lx next : Lexer) : Prop :=
  ∃ kind count diagnostics, kind ≠ TokenKind.endOfFile ∧ 0 < count ∧ count ≤ lx.rest.length ∧
    next = { lx.emitted kind count with diagnostics := diagnostics }

/-- A recogniser started at `lx` succeeds and emits one token. -/
def Steps (lx : Lexer) (result : Option Lexer) : Prop :=
  ∃ next, result = some next ∧ Emits lx next

variable {kind : TokenKind}

theorem emits_emitted (lx : Lexer) {n : Nat} (hk : kind ≠ .endOfFile) (hpos : 0 < n)
    (hn : n ≤ lx.rest.length) : Emits lx (lx.emitted kind n) :=
  ⟨kind, n, lx.diagnostics, hk, hpos, hn, rfl⟩

theorem emits_reported (lx : Lexer) {n : Nat} (code message : Text) (hk : kind ≠ .endOfFile)
    (hpos : 0 < n) (hn : n ≤ lx.rest.length) :
    Emits lx (((lx.moved n).report code message lx).append kind lx) :=
  ⟨kind, n, ((lx.moved n).report code message lx).diagnostics, hk, hpos, hn, rfl⟩

theorem fixed_emits (lx : Lexer) {n : Nat} (hk : kind ≠ .endOfFile) (hpos : 0 < n)
    (hn : n ≤ lx.rest.length) : Steps lx (lx.fixed n kind) :=
  ⟨_, fixed_eq lx n kind hn, emits_emitted lx hk hpos hn⟩

/-! ## How many characters a recogniser takes -/

theorem length_takeWhile_le (p : Char → Bool) (s : Text) : (s.takeWhile p).length ≤ s.length :=
  (takeWhile_sublist p).length_le

theorem lineLength_le (s : Text) : lineLength s ≤ s.length := by
  induction s with
  | nil => exact Nat.le_refl 0
  | cons character rest ih =>
    simp only [lineLength, length_cons]
    split <;> omega

theorem lineLength_pos (s : Text) (h : s ≠ []) : 0 < lineLength s := by
  cases s with
  | nil => exact absurd rfl h
  | cons character rest =>
    simp only [lineLength]
    split <;> omega

theorem distanceTo_le (mark s : Text) : distanceTo mark s ≤ s.length := by
  induction s with
  | nil => exact Nat.le_refl 0
  | cons character rest ih =>
    simp only [distanceTo, length_cons]
    split <;> omega

theorem stringBody_le (s : Text) : (stringBody s).1 ≤ s.length := by
  fun_induction stringBody s <;> simp only [length_cons, length_nil] <;> omega

theorem literalTail_le (s : Text) : literalTail db s ≤ s.length := by
  induction s with
  | nil => exact Nat.le_refl 0
  | cons character rest ih =>
    simp only [literalTail, length_cons]
    split
    · omega
    · split <;> omega

theorem length_le_of_isPrefixOf {value s : Text} (h : value.isPrefixOf s = true) :
    value.length ≤ s.length :=
  ( isPrefixOf_iff_prefix.mp h).length_le

theorem startsWith_le (lx : Lexer) {value : Text} (h : lx.startsWith value = true) :
    value.length ≤ lx.rest.length :=
  length_le_of_isPrefixOf h

theorem startsWithReferenceAssignment_spelling (lx : Lexer)
    (h : lx.startsWithReferenceAssignment db = true) :
    ∃ r e f rest, lx.rest = r :: e :: f :: '=' :: rest := by
  simp only [startsWithReferenceAssignment, Bool.and_eq_true, beq_iff_eq] at h
  obtain ⟨r, e, f, hs⟩ := db.upper_reference _ h.1
  rw [take_take, Nat.min_eq_left (by omega)] at hs
  refine ⟨r, e, f, lx.rest.drop 4, ?_⟩
  calc lx.rest = lx.rest.take 4 ++ lx.rest.drop 4 := (take_append_drop 4 lx.rest).symm
    _ = r :: e :: f :: '=' :: lx.rest.drop 4 := by rw [hs]; rfl

/-! ## Recognisers -/

theorem consumeWhile_emits (lx : Lexer) {character : Char} {rest : Text}
    (hr : lx.rest = character :: rest) {p : Char → Bool} (hp : p character = true)
    (hk : kind ≠ .endOfFile) : Steps lx (lx.consumeWhile p kind) := by
  refine fixed_emits lx hk ?_ (length_takeWhile_le p lx.rest)
  simp [hr, hp]

theorem blockComment_emits (lx : Lexer) (opening closing : Text) (hopen : 0 < opening.length)
    (h : lx.startsWith opening = true) :
    Steps lx (lx.blockComment opening closing) := by
  have hlen := startsWith_le lx h
  have hbody := distanceTo_le closing (lx.rest.drop opening.length)
  simp only [blockComment, Option.bind_eq_bind]
  rw [advanceBy_eq _ lx hlen, Option.bind_some, moved_rest, advanceBy_eq _ _ hbody,
    moved_moved, Option.bind_some]
  rw [length_drop] at hbody
  split
  · rename_i hclose
    have hclosing := startsWith_le _ hclose
    rw [advanceBy_eq _ _ hclosing, moved_moved]
    rw [moved_rest, length_drop] at hclosing
    exact ⟨_, rfl, emits_emitted lx (by simp) (by omega) (by omega)⟩
  · exact ⟨_, rfl, emits_reported lx _ _ (by simp) (by omega) (by omega)⟩

theorem string_emits (lx : Lexer) (h : 0 < lx.rest.length) :
    Steps lx lx.string := by
  have hbody := stringBody_le (lx.moved 1).rest
  have hroom : (lx.moved 1).rest.length = lx.rest.length - 1 := length_drop ..
  simp only [string, Option.bind_eq_bind]
  rw [advance_eq lx h, Option.bind_some, advanceBy_eq _ _ hbody, moved_moved, Option.bind_some]
  split
  · exact ⟨_, rfl, emits_emitted lx (by simp) (by omega) (by omega)⟩
  · exact ⟨_, rfl, emits_reported lx _ _ (by simp) (by omega) (by omega)⟩

section

variable (db : CharacterDatabase)

theorem wordLength_le (s : Text) : wordLength db s ≤ s.length := length_takeWhile_le _ s

theorem wordLength_pos {character : Char} {rest : Text}
    (h : isWordCharacter db character = true) : 0 < wordLength db (character :: rest) := by
  simp [wordLength, h]

/-- The cursor stands on the `#` after a word of `n` characters. -/
theorem typedLiteral_eq (lx : Lexer) (n : Nat) (h : n < lx.rest.length) :
    typedLiteral db (lx.moved n) lx =
      some (lx.emitted .literal (n + 1 + literalTail db (lx.rest.drop (n + 1)))) := by
  have htail := literalTail_le db (lx.rest.drop (n + 1))
  simp only [typedLiteral, Option.bind_eq_bind]
  rw [advance_eq _ (by rw [moved_rest, length_drop]; omega), moved_moved,
    Option.bind_some, moved_rest, advanceBy_eq _ _ htail, moved_moved]
  rfl

theorem typedLiteral_emits (lx : Lexer) (n : Nat) (h : (lx.moved n).rest.head? = some '#') :
    Steps lx (typedLiteral db (lx.moved n) lx) := by
  have hlt : n < lx.rest.length := by
    by_contra hge
    rw [moved_rest, drop_eq_nil_of_le (by omega)] at h
    cases h
  have htail := literalTail_le db (lx.rest.drop (n + 1))
  rw [length_drop] at htail
  exact ⟨_, typedLiteral_eq db lx n hlt, emits_emitted lx (by simp) (by omega) (by omega)⟩

theorem wordOrTypedLiteral_emits (lx : Lexer) (h : 0 < wordLength db lx.rest) :
    Steps lx (lx.wordOrTypedLiteral db) := by
  have hword := wordLength_le db lx.rest
  simp only [wordOrTypedLiteral, Option.bind_eq_bind]
  rw [advanceBy_eq _ lx hword, Option.bind_some]
  split
  · rename_i hhash
    exact typedLiteral_emits db lx _ hhash
  · exact ⟨_, rfl, emits_emitted lx (by simp) h hword⟩

theorem directAddress_emits (lx : Lexer) (h : 0 < lx.rest.length) :
    Steps lx (lx.directAddress db) := by
  have hletters := length_takeWhile_le db.isAlpha (lx.rest.drop 1)
  simp only [directAddress, Option.bind_eq_bind]
  rw [advance_eq lx h, Option.bind_some, moved_rest, advanceBy_eq _ _ hletters, moved_moved,
    Option.bind_some, moved_rest]
  rw [length_drop] at hletters
  generalize hn : 1 + (takeWhile db.isAlpha (lx.rest.drop 1)).length = n
  have hdigits := length_takeWhile_le db.isDigit (lx.rest.drop n)
  rw [advanceBy_eq _ _ hdigits, moved_moved, Option.bind_some]
  rw [length_drop] at hdigits
  split
  · exact ⟨_, rfl, emits_reported lx _ _ (by simp) (by omega) (by omega)⟩
  · exact ⟨_, rfl, emits_emitted lx (by simp) (by omega) (by omega)⟩

theorem numericLiteral_emits (lx : Lexer) (h : 0 < wordLength db lx.rest) :
    Steps lx (lx.numericLiteral db) := by
  have hword := wordLength_le db lx.rest
  simp only [numericLiteral, Option.bind_eq_bind]
  rw [advanceBy_eq _ lx hword, Option.bind_some]
  generalize wordLength db lx.rest = n at h hword ⊢
  have htail := literalTail_le db (lx.rest.drop n)
  split
  · rename_i hhash
    exact typedLiteral_emits db lx _ hhash
  · split
    · exact ⟨_, rfl, emits_emitted lx (by simp) h hword⟩
    · rw [moved_rest, advanceBy_eq _ _ htail, moved_moved]
      rw [length_drop] at htail
      exact ⟨_, rfl, emits_emitted lx (by simp) (by omega) (by omega)⟩

end

theorem operator_emits (lx : Lexer) (h : 0 < lx.rest.length) :
    Steps lx lx.operator := by
  simp only [operator, Option.bind_eq_bind]
  rw [advance_eq lx h, Option.bind_some]
  have hsecond : ∀ c, (lx.moved 1).rest.head? = some c → 0 < (lx.moved 1).rest.length := by
    intro c hc
    cases hr : (lx.moved 1).rest with
    | nil => rw [hr] at hc; cases hc
    | cons _ _ => simp
  have htwo : 0 < (lx.moved 1).rest.length →
      Steps lx ((lx.moved 1).advance.bind fun both => some (both.append .operator lx)) := by
    intro hlen
    rw [advance_eq _ hlen, moved_moved]
    rw [moved_rest, length_drop] at hlen
    exact ⟨_, rfl, emits_emitted lx (by simp) (by omega) (by omega)⟩
  split
  · rename_i hboth
    exact htwo (hsecond _ hboth.1)
  · split
    · rename_i hboth
      exact htwo (hsecond _ hboth.2)
    · exact ⟨_, rfl, emits_emitted lx (by simp) (by omega) h⟩

theorem singleToken_ne {character : Char} (h : singleToken character = some kind) :
    kind ≠ .endOfFile := by
  unfold singleToken at h
  split at h <;> simp_all <;> (subst h; simp)

theorem nextToken_emits (lx : Lexer) (h : lx.rest ≠ []) : Steps lx (lx.nextToken db) := by
  have hlen : 0 < lx.rest.length := length_pos_iff.mpr h
  unfold nextToken
  split
  · contradiction
  rename_i character rest hr
  have hword : isWordCharacter db character = true → 0 < wordLength db lx.rest := by
    intro hw
    rw [hr]
    exact wordLength_pos db hw
  refine iteInduction (fun hspace => consumeWhile_emits lx hr hspace (by simp)) fun _ => ?_
  refine iteInduction (fun _ => fixed_emits lx (by simp) (lineLength_pos _ h)
    (lineLength_le _)) fun _ => ?_
  refine iteInduction (fun hopen => blockComment_emits lx _ _ (by decide) hopen) fun _ => ?_
  refine iteInduction (fun hopen => blockComment_emits lx _ _ (by decide) hopen) fun _ => ?_
  refine iteInduction (fun _ => string_emits lx hlen) fun _ => ?_
  refine iteInduction (fun href => ?reference) fun _ => ?_
  case reference =>
    obtain ⟨r, e, f, tail, htail⟩ := startsWithReferenceAssignment_spelling db lx href
    exact fixed_emits lx (by simp) (by omega) (by simp [htail])
  refine iteInduction (fun halpha => ?word) fun _ => ?_
  case word =>
    refine wordOrTypedLiteral_emits db lx (hword ?_)
    rcases Bool.or_eq_true _ _ ▸ halpha with halpha | hunder
    · simp [isWordCharacter, db.alnum_of_alpha _ halpha]
    · simp [isWordCharacter, hunder]
  refine iteInduction (fun hdigit => ?number) fun _ => ?_
  case number =>
    refine numericLiteral_emits db lx (hword ?_)
    simp [isWordCharacter, db.alnum_of_digit _ hdigit]
  refine iteInduction (fun _ => directAddress_emits db lx hlen) fun _ => ?_
  refine iteInduction (fun hassign => fixed_emits lx (by simp) (by omega)
    (startsWith_le lx hassign)) fun _ => ?_
  refine iteInduction (fun harrow => fixed_emits lx (by simp) (by omega)
    (startsWith_le lx harrow)) fun _ => ?_
  cases hkind : singleToken character with
  | some kind => exact fixed_emits lx (singleToken_ne hkind) (by omega) hlen
  | none =>
    refine iteInduction (fun _ => operator_emits lx hlen) fun _ => ?_
    rw [fixed_eq lx 1 .unknown hlen]
    exact ⟨_, rfl, .unknown, 1, _, by simp, by omega, hlen, rfl⟩

end Lexer

/-! ## The token stream of a source -/

/-- One-based line of an offset: one more than the newlines before it. -/
def lineAt (source : Text) (offset : Nat) : Nat := (source.take offset).count '\n' + 1

/-- One-based column of an offset: one more than the characters since the last
newline before it. -/
def columnAt (source : Text) (offset : Nat) : Nat :=
  ((source.take offset).reverse.takeWhile (· != '\n')).length + 1

/-- `tokens` cover the source from `start` to `stop`, in order and without gaps:
each is a non-empty slice of the source, located by the newlines before it. -/
def Tiles (source : Text) : Nat → List StructuredTextToken → Nat → Prop
  | start, [], stop => start = stop
  | start, token :: tokens, stop =>
    token.kind ≠ .endOfFile ∧
    token.span.start = start ∧ start < token.span.stop ∧ token.span.stop ≤ source.length ∧
    token.text = (source.drop start).take (token.span.stop - start) ∧
    token.line = lineAt source start ∧ token.column = columnAt source start ∧
    Tiles source token.span.stop tokens stop

variable (source : Text)

theorem tiles_append {start middle stop : Nat} {tokens more : List StructuredTextToken}
    (h : Tiles source start tokens middle) (hmore : Tiles source middle more stop) :
    Tiles source start (tokens ++ more) stop := by
  induction tokens generalizing start with
  | nil => exact h ▸ hmore
  | cons token tokens ih =>
    obtain ⟨hk, hstart, hlt, hle, htext, hline, hcol, htail⟩ := h
    exact ⟨hk, hstart, hlt, hle, htext, hline, hcol, ih htail⟩

variable {tokens : List StructuredTextToken}

theorem tiles_le {start stop : Nat} (h : Tiles source start tokens stop) : start ≤ stop := by
  induction tokens generalizing start with
  | nil => exact Nat.le_of_eq h
  | cons token tokens ih =>
    obtain ⟨-, -, hlt, -, -, -, -, htail⟩ := h
    have := ih htail
    omega

theorem tiles_kind {start stop : Nat} (h : Tiles source start tokens stop) :
    ∀ token ∈ tokens, token.kind ≠ .endOfFile := by
  induction tokens generalizing start with
  | nil => simp
  | cons token tokens ih =>
    obtain ⟨hk, -, -, -, -, -, -, htail⟩ := h
    intro other hother
    rcases mem_cons.mp hother with rfl | hother
    · exact hk
    · exact ih htail other hother

theorem tiles_text {start stop : Nat} (h : Tiles source start tokens stop) :
    (tokens.map (·.text)).flatten = (source.drop start).take (stop - start) := by
  induction tokens generalizing start with
  | nil =>
    cases h
    simp
  | cons token tokens ih =>
    obtain ⟨-, -, hlt, hle, htext, -, -, htail⟩ := h
    have hstop := tiles_le source htail
    have hsplit : stop - start = (token.span.stop - start) + (stop - token.span.stop) := by
      omega
    have hdrop : start + (token.span.stop - start) = token.span.stop := by omega
    rw [map_cons, flatten_cons, ih htail, htext, hsplit, take_add,
      drop_drop, hdrop]

theorem foldl_advanceLocation (s : Text) :
    s.foldl Lexer.advanceLocation (1, 1) =
      (s.count '\n' + 1, (s.reverse.takeWhile (· != '\n')).length + 1) := by
  induction s using reverseRecOn with
  | nil => rfl
  | append_singleton s character ih =>
    rw [foldl_append, ih]
    by_cases hc : character = '\n'
    · simp [Lexer.advanceLocation, hc]
    · simp [Lexer.advanceLocation, hc]

/-- What the cursor knows after a prefix of the source has been tokenized. -/
structure Lexer.Scanned (source : Text) (lx : Lexer) : Prop where
  inSource : lx.position ≤ source.length
  rest : lx.rest = source.drop lx.position
  location : (lx.line, lx.column) =
    (source.take lx.position).foldl Lexer.advanceLocation (1, 1)
  tiles : Tiles source 0 lx.tokens lx.position

namespace Lexer

theorem scanned_start : Scanned source (start source) :=
  ⟨Nat.zero_le _, rfl, rfl, rfl⟩

theorem Scanned.line_eq {source : Text} {lx : Lexer} (h : Scanned source lx) :
    lx.line = lineAt source lx.position ∧ lx.column = columnAt source lx.position := by
  have hl := h.location
  rw [foldl_advanceLocation] at hl
  exact Prod.mk.inj hl

theorem Scanned.emits {source : Text} {lx next : Lexer} (h : Scanned source lx)
    (he : Emits lx next) : Scanned source next ∧ next.rest.length < lx.rest.length := by
  obtain ⟨kind, n, ds, hk, hpos, hn, rfl⟩ := he
  have hlen : n ≤ source.length - lx.position := by
    rw [h.rest, length_drop] at hn
    exact hn
  obtain ⟨hline, hcolumn⟩ := h.line_eq
  have hp := h.inSource
  refine ⟨⟨?_, ?_, ?_, ?_⟩, ?_⟩
  · change lx.position + n ≤ source.length
    omega
  · change lx.rest.drop n = source.drop (lx.position + n)
    rw [h.rest, drop_drop]
  · change (lx.rest.take n).foldl advanceLocation (lx.line, lx.column) = _
    rw [h.location, h.rest, ← foldl_append, ← take_add]
    rfl
  · change Tiles source 0 (lx.emitted kind n).tokens (lx.position + n)
    rw [emitted_tokens]
    refine tiles_append source h.tiles ⟨hk, rfl, ?_, ?_, ?_, hline, hcolumn, rfl⟩
    · change lx.position < lx.position + n
      omega
    · change lx.position + n ≤ source.length
      omega
    · change lx.rest.take n = _
      rw [h.rest]
      change _ = (source.drop lx.position).take (lx.position + n - lx.position)
      rw [Nat.add_sub_cancel_left]
  · change (lx.rest.drop n).length < lx.rest.length
    rw [length_drop]
    omega

/-- The loop ends at the end of the source whenever its fuel covers what is left. -/
theorem lexLoop_scanned {source : Text} (fuel : Nat) (lx : Lexer) (h : Scanned source lx)
    (hfuel : lx.rest.length ≤ fuel) :
    ∃ last, lexLoop db fuel lx = some last ∧ Scanned source last ∧ last.rest = [] := by
  induction fuel generalizing lx with
  | zero =>
    have hnil : lx.rest = [] := length_eq_zero_iff.mp (Nat.le_zero.mp hfuel)
    exact ⟨lx, by simp [lexLoop, hnil], h, hnil⟩
  | succ fuel ih =>
    by_cases hnil : lx.rest = []
    · exact ⟨lx, by simp [lexLoop, hnil], h, hnil⟩
    · obtain ⟨next, hnext, he⟩ := nextToken_emits db lx hnil
      obtain ⟨hscanned, hless⟩ := h.emits he
      obtain ⟨last, hlast, hrest⟩ := ih next hscanned (by omega)
      refine ⟨last, ?_, hrest⟩
      rw [lexLoop, if_neg hnil]
      simp [hnext, hlast]

end Lexer

/-- Lossless lexing. Every source is tokenized: the tokens tile it, the end marker
stands at its end, every token knows its line and column, and the document
rebuilt from the tokens is the source. -/
theorem lexStructuredText_lossless (db : CharacterDatabase) (source : Text) :
    ∃ tokens marker diagnostics,
      lexStructuredText db source = some (tokens ++ [marker], diagnostics) ∧
      Tiles source 0 tokens source.length ∧
      marker.kind = .endOfFile ∧ marker.text = [] ∧
      marker.span = ⟨source.length, source.length⟩ ∧
      marker.line = lineAt source source.length ∧
      marker.column = columnAt source source.length ∧
      ∀ statements reported,
        (StructuredTextDocument.mk source (tokens ++ [marker]) statements
          reported).reconstructedSource = source := by
  obtain ⟨last, hloop, hscanned, hnil⟩ :=
    Lexer.lexLoop_scanned db source.length (Lexer.start source) (Lexer.scanned_start source)
      (Nat.le_refl _)
  have hend : last.position = source.length := by
    have hrest := hscanned.rest
    rw [hnil] at hrest
    have := drop_eq_nil_iff.mp hrest.symm
    have := hscanned.inSource
    omega
  have htiles : Tiles source 0 last.tokens source.length := hend ▸ hscanned.tiles
  obtain ⟨hline, hcolumn⟩ := hscanned.line_eq
  refine ⟨last.tokens, last.endOfFile, last.diagnostics, ?_, htiles, rfl, rfl, ?_, ?_, ?_, ?_⟩
  · rw [lexStructuredText, hloop]
    rfl
  · rw [Lexer.endOfFile, hend]
  · rw [← hend]
    exact hline
  · rw [← hend]
    exact hcolumn
  · intro statements reported
    have hkinds : last.tokens.filter (fun token => token.kind != .endOfFile) = last.tokens :=
      filter_eq_self.mpr fun token htoken => by
        simpa using tiles_kind source htiles token htoken
    have hmarker : ([last.endOfFile].filter fun token => token.kind != .endOfFile) = [] := rfl
    rw [StructuredTextDocument.reconstructedSource, filter_append, hkinds, hmarker,
      append_nil, tiles_text source htiles]
    simp

end TwinForge.StructuredText
