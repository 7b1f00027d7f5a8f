import TwinForge.Eds.Sections
import TwinForge.Foundation.Integers

/-! # Layouts of EDS statements

A layout distributes the tokens of statements over lines, with blanks around the tokens and
comments at the ends of the lines.
-/

namespace TwinForge.Eds

open Lines List

/-! ## Statements -/

/-- The characters with a meaning of their own. -/
def isDelimiter (c : Char) : Bool := c ∈ ['=', ',', ';', '$', '"']

/-- A text without delimiters, line ends and surrounding blanks. -/
structure Word (db : CharacterDatabase) where
  text : Text
  nonempty : text ≠ []
  trimmed : db.strip text = text
  free : ∀ c ∈ text, isDelimiter c = false ∧ isLineEnd c = false

/-- A field of a statement: nothing, a plain text or a quoted string. -/
inductive Field (db : CharacterDatabase) where
  | empty
  | plain (word : Word db)
  | quoted (content : Text) (free : ∀ c ∈ content, isLineEnd c = false)

structure EdsStatement (db : CharacterDatabase) where
  name : Word db
  first : Field db
  others : List (Field db)

inductive Token (db : CharacterDatabase) where
  | name (word : Word db)
  | plain (word : Word db)
  | quoted (content : Text) (free : ∀ c ∈ content, isLineEnd c = false)
  | equals
  | comma
  | semicolon

section

variable {db : CharacterDatabase}

/-- A quote within quotes is doubled. -/
def doubled (content : Text) : Text :=
  content.flatMap fun c => if c = '"' then ['"', '"'] else [c]

def Field.text : Field db → Text
  | .empty => []
  | .plain word => word.text
  | .quoted content _ => '"' :: doubled content ++ ['"']

def Field.tokens : Field db → List (Token db)
  | .empty => []
  | .plain word => [.plain word]
  | .quoted content free => [.quoted content free]

def Token.text : Token db → Text
  | .name word => word.text
  | .plain word => word.text
  | .quoted content _ => '"' :: doubled content ++ ['"']
  | .equals => ['=']
  | .comma => [',']
  | .semicolon => [';']

def fieldTokens (first : Field db) : List (Field db) → List (Token db)
  | [] => first.tokens
  | next :: others => first.tokens ++ .comma :: fieldTokens next others

def EdsStatement.fields (statement : EdsStatement db) : List (Field db) :=
  statement.first :: statement.others

def EdsStatement.tokens (statement : EdsStatement db) : List (Token db) :=
  .name statement.name :: .equals ::
    (fieldTokens statement.first statement.others ++ [.semicolon])

end

/-! ## Lines of tokens -/

/-- Tokens with white space between and around them. -/
inductive Spaced (db : CharacterDatabase) : List (Token db) → Text → Prop where
  | nil {gap : Text} (blank : ∀ c ∈ gap, db.isSpace c = true) : Spaced db [] gap
  | cons {gap rest : Text} {token : Token db} {tokens : List (Token db)}
      (blank : ∀ c ∈ gap, db.isSpace c = true) (more : Spaced db tokens rest) :
      Spaced db (token :: tokens) (gap ++ (token.text ++ rest))

structure LaidLine (db : CharacterDatabase) where
  tokens : List (Token db)
  body : Text
  comment : Text
  spaced : Spaced db tokens body
  starts : ∀ c ∈ comment.head?, c = '$'
  one_line : ∀ c ∈ body ++ comment, isLineEnd c = false

structure Layout (db : CharacterDatabase) (statements : List (EdsStatement db)) where
  lines : List (LaidLine db)
  tokens_eq : lines.flatMap (·.tokens) = statements.flatMap (·.tokens)

section

variable {db : CharacterDatabase}

def LaidLine.text (line : LaidLine db) : Text := line.body ++ line.comment

/-! ## Characters -/

theorem delimiter_solid {c : Char} (h : isDelimiter c = true) : db.isSpace c = false := by
  have hall : ∀ c ∈ ['=', ',', ';', '$', '"'], c.toNat < 128 ∧ Ascii.isSpace c = false := by decide
  have ⟨hascii, hspace⟩ := hall c (by simpa [isDelimiter] using h)
  rw [db.space_ascii c hascii, hspace]

theorem space_plain {c d : Char} (h : db.isSpace c = true) (hd : isDelimiter d = true) : c ≠ d := by
  intro hsame
  rw [hsame, delimiter_solid hd] at h
  cases h

theorem Word.plain {word : Word db} {c d : Char} (h : c ∈ word.text) (hd : isDelimiter d = true) :
    c ≠ d := by
  intro hsame
  have hfree := (word.free c h).1
  rw [hsame, hd] at hfree
  cases hfree

theorem dropWhile_head {p : Char → Bool} {text : Text} (h : text.dropWhile p = text) :
    ∀ c, text.head? = some c → p c = false := by
  intro c hhead
  cases text with
  | nil => cases hhead
  | cons d text =>
    cases hhead
    by_contra hc
    have hc : p c = true := by simpa using hc
    have hlength := congrArg List.length h
    rw [dropWhile_cons_of_pos hc, length_cons] at hlength
    have := length_dropWhile_le p text
    omega

theorem strip_eq_self {text : Text} (h : db.strip text = text) :
    (∀ c, text.head? = some c → db.isSpace c = false) ∧
      ∀ c, text.getLast? = some c → db.isSpace c = false := by
  have hlength := congrArg List.length h
  rw [CharacterDatabase.strip, length_reverse] at hlength
  have hright := length_dropWhile_le db.isSpace (text.dropWhile db.isSpace).reverse
  have hleft := length_dropWhile_le db.isSpace text
  rw [length_reverse] at hright
  have hdrop : text.dropWhile db.isSpace = text :=
    (dropWhile_suffix db.isSpace).eq_of_length (by omega)
  refine ⟨dropWhile_head hdrop, ?_⟩
  rw [CharacterDatabase.strip, hdrop] at h
  have hreverse : text.reverse.dropWhile db.isSpace = text.reverse := reverse_eq_iff.mp h
  intro c hlast
  exact dropWhile_head hreverse c (by rw [List.head?_reverse]; exact hlast)

theorem Token.edges (token : Token db) :
    ∃ first last, token.text.head? = some first ∧ token.text.getLast? = some last ∧
      db.isSpace first = false ∧ db.isSpace last = false := by
  have hword : ∀ word : Word db, ∃ first last, word.text.head? = some first ∧
      word.text.getLast? = some last ∧ db.isSpace first = false ∧ db.isSpace last = false := by
    intro word
    have ⟨hfirst, hlast⟩ := strip_eq_self word.trimmed
    have hsome := word.nonempty
    refine ⟨word.text.head hsome, word.text.getLast hsome, List.head?_eq_some_head hsome,
      List.getLast?_eq_some_getLast hsome, hfirst _ (List.head?_eq_some_head hsome),
      hlast _ (List.getLast?_eq_some_getLast hsome)⟩
  cases token with
  | name word => exact hword word
  | plain word => exact hword word
  | quoted content free =>
    exact ⟨'"', '"', rfl, by rw [Token.text, List.getLast?_concat], delimiter_solid rfl, delimiter_solid rfl⟩
  | equals => exact ⟨'=', '=', rfl, rfl, delimiter_solid rfl, delimiter_solid rfl⟩
  | comma => exact ⟨',', ',', rfl, rfl, delimiter_solid rfl, delimiter_solid rfl⟩
  | semicolon => exact ⟨';', ';', rfl, rfl, delimiter_solid rfl, delimiter_solid rfl⟩

/-! ## Spaced tokens -/

theorem Spaced.gap {tokens : List (Token db)} {gap text : Text} (hgap : ∀ c ∈ gap, db.isSpace c = true)
    (h : Spaced db tokens text) : Spaced db tokens (gap ++ text) := by
  cases h with
  | nil hblank =>
    refine .nil fun c hc => ?_
    cases mem_append.mp hc with
    | inl hfirst => exact hgap c hfirst
    | inr hsecond => exact hblank c hsecond
  | cons hblank hmore =>
    rw [← append_assoc]
    refine .cons (fun c hc => ?_) hmore
    cases mem_append.mp hc with
    | inl hfirst => exact hgap c hfirst
    | inr hsecond => exact hblank c hsecond

theorem Spaced.append {first second : List (Token db)} {front back : Text}
    (hfirst : Spaced db first front) (hsecond : Spaced db second back) :
    Spaced db (first ++ second) (front ++ back) := by
  induction hfirst with
  | nil hblank => exact hsecond.gap hblank
  | cons hblank _ ih =>
    rw [cons_append, append_assoc, append_assoc]
    exact .cons hblank ih

theorem Spaced.token (token : Token db) : Spaced db [token] token.text := by
  have h : Spaced db [token] ([] ++ (token.text ++ [])) :=
    .cons (fun _ hc => absurd hc not_mem_nil) (.nil fun _ hc => absurd hc not_mem_nil)
  simpa using h

theorem Spaced.split {first second : List (Token db)} {text : Text}
    (h : Spaced db (first ++ second) text) : ∃ front back, text = front ++ back ∧
      Spaced db first front ∧ Spaced db second back := by
  induction first generalizing text with
  | nil => exact ⟨[], text, rfl, .nil nofun, h⟩
  | cons token first ih =>
    rw [cons_append] at h
    cases h with
    | cons hblank hmore =>
      have ⟨front, back, htext, hfront, hback⟩ := ih hmore
      exact ⟨_, back, by rw [htext]; simp, .cons hblank hfront, hback⟩

theorem Spaced.single {token : Token db} {text : Text} (h : Spaced db [token] text) :
    ∃ gap after, text = gap ++ (token.text ++ after) ∧ (∀ c ∈ gap, db.isSpace c = true) ∧
      ∀ c ∈ after, db.isSpace c = true := by
  cases h with
  | cons hblank hmore =>
    cases hmore with
    | nil hafter => exact ⟨_, _, rfl, hblank, hafter⟩

theorem spaced_nil {text : Text} : Spaced db [] text ↔ ∀ c ∈ text, db.isSpace c = true := by
  constructor
  · intro h
    cases h with
    | nil hblank => exact hblank
  · exact .nil

/-! ## Stripping -/

theorem dropWhile_blank {gap : Text} (h : ∀ c ∈ gap, db.isSpace c = true) (rest : Text) :
    (gap ++ rest).dropWhile db.isSpace = rest.dropWhile db.isSpace := by
  induction gap with
  | nil => rfl
  | cons c gap ih =>
    rw [cons_append, dropWhile_cons_of_pos (h c mem_cons_self)]
    exact ih fun d hd => h d (mem_cons_of_mem c hd)

theorem dropWhile_stop {front back : Text} {c : Char} (h : db.isSpace c = false) :
    (front ++ c :: back).dropWhile db.isSpace = front.dropWhile db.isSpace ++ c :: back := by
  induction front with
  | nil => rw [nil_append, dropWhile_cons_of_neg (by simp [h])]; rfl
  | cons d front ih =>
    by_cases hd : db.isSpace d = true
    · rw [cons_append, dropWhile_cons_of_pos hd, dropWhile_cons_of_pos hd, ih]
    · rw [cons_append, dropWhile_cons_of_neg hd, dropWhile_cons_of_neg hd]
      rfl

theorem stripRight_blank (text : Text) {gap : Text} (h : ∀ c ∈ gap, db.isSpace c = true) :
    stripRight db (text ++ gap) = stripRight db text := by
  have hreverse : ∀ c ∈ gap.reverse, db.isSpace c = true :=
    fun c hc => h c (mem_reverse.mp hc)
  rw [stripRight, stripRight, reverse_append, dropWhile_blank hreverse]

theorem stripRight_stop {text : Text} {c : Char} (hlast : text.getLast? = some c)
    (hc : db.isSpace c = false) : stripRight db text = text := by
  have hhead : text.reverse.head? = some c := by
    rw [List.head?_reverse]
    exact hlast
  unfold stripRight
  cases hreverse : text.reverse with
  | nil => rw [hreverse] at hhead; cases hhead
  | cons d rest =>
    rw [hreverse] at hhead
    cases hhead
    rw [dropWhile_cons_of_neg (by simp [hc]), ← hreverse, reverse_reverse]

theorem strip_eq (text : Text) : db.strip text = stripRight db (text.dropWhile db.isSpace) := rfl

theorem strip_blank {text : Text} (h : ∀ c ∈ text, db.isSpace c = true) : db.strip text = [] := by
  have hnone := dropWhile_blank h []
  rw [append_nil] at hnone
  rw [strip_eq, hnone]
  rfl

theorem strip_token {token : Token db} {text : Text} (h : Spaced db [token] text) :
    db.strip text = token.text := by
  have ⟨gap, after, htext, hgap, hafter⟩ := h.single
  have ⟨first, last, hfirst, hlast, hsolidFirst, hsolidLast⟩ := token.edges
  have hsome : token.text ≠ [] := by
    intro hempty
    rw [hempty] at hfirst
    cases hfirst
  have hdrop : (token.text ++ after).dropWhile db.isSpace = token.text ++ after := by
    cases htoken : token.text with
    | nil => exact absurd htoken hsome
    | cons d rest =>
      rw [htoken] at hfirst
      cases hfirst
      rw [cons_append, dropWhile_cons_of_neg (by simp [hsolidFirst])]
  rw [strip_eq, htext, dropWhile_blank hgap, hdrop, stripRight_blank _ hafter,
    stripRight_stop hlast hsolidLast]

theorem Spaced.dropWhile {tokens : List (Token db)} {text : Text} (h : Spaced db tokens text) :
    Spaced db tokens (text.dropWhile db.isSpace) := by
  cases h with
  | nil hblank =>
    have hnone := dropWhile_blank hblank []
    rw [append_nil] at hnone
    rw [hnone]
    exact .nil fun _ hc => absurd hc not_mem_nil
  | @cons gap rest token tokens hblank hmore =>
    have ⟨first, _, hfirst, _, hsolid, _⟩ := token.edges
    rw [dropWhile_blank hblank]
    cases htoken : token.text with
    | nil => rw [htoken] at hfirst; cases hfirst
    | cons d more =>
      rw [htoken] at hfirst
      cases hfirst
      rw [cons_append, dropWhile_cons_of_neg (by simp [hsolid]), ← cons_append,
        ← htoken]
      exact .cons (fun _ hc => absurd hc not_mem_nil) hmore

theorem Spaced.stripRight_concat {before : List (Token db)} {token : Token db} {text : Text}
    (h : Spaced db (before ++ [token]) text) :
    ∃ front, stripRight db text = front ++ token.text ∧ Spaced db before front := by
  have ⟨front, back, htext, hfront, hback⟩ := h.split
  have ⟨gap, after, hgapped, hgap, hafter⟩ := hback.single
  have ⟨first, last, _, hlast, _, hsolid⟩ := token.edges
  have hstop : ((front ++ gap) ++ token.text).getLast? = some last := by
    rw [List.getLast?_append, hlast]
    rfl
  have hshape : text = ((front ++ gap) ++ token.text) ++ after := by
    rw [htext, hgapped]
    simp only [append_assoc]
  have hboth := hfront.append (spaced_nil.mpr hgap)
  rw [append_nil] at hboth
  exact ⟨front ++ gap, by rw [hshape, stripRight_blank _ hafter, stripRight_stop hstop hsolid], hboth⟩

theorem stripRight_empty {text : Text} (h : ∀ c ∈ text, db.isSpace c = true) :
    stripRight db text = [] := by
  have hempty := stripRight_blank [] h
  rwa [nil_append] at hempty

theorem Spaced.stripRight {tokens : List (Token db)} {text : Text} (h : Spaced db tokens text) :
    Spaced db tokens (stripRight db text) := by
  cases eq_nil_or_concat tokens with
  | inl hnil =>
    rw [hnil] at h ⊢
    rw [stripRight_empty (spaced_nil.mp h)]
    exact .nil fun _ hc => absurd hc not_mem_nil
  | inr hconcat =>
    have ⟨before, token, htokens⟩ := hconcat
    rw [htokens, concat_eq_append] at h ⊢
    have ⟨front, hstrip, hfront⟩ := h.stripRight_concat
    rw [hstrip]
    exact hfront.append (Spaced.token token)

theorem Spaced.strip {tokens : List (Token db)} {text : Text} (h : Spaced db tokens text) :
    Spaced db tokens (db.strip text) :=
  h.dropWhile.stripRight

/-! ## Comments -/

theorem withoutComment_spaced {tokens : List (Token db)} {text : Text} (h : Spaced db tokens text)
    (rest : Text) : withoutComment false (text ++ rest) = text ++ withoutComment false rest := by
  have hplain : ∀ (piece rest : Text), (∀ c ∈ piece, c ≠ '"' ∧ c ≠ '$') →
      withoutComment false (piece ++ rest) = piece ++ withoutComment false rest := by
    intro piece rest hpiece
    induction piece with
    | nil => rfl
    | cons c piece ih =>
      have ⟨hquote, hdollar⟩ := hpiece c mem_cons_self
      rw [cons_append, withoutComment]
      simp only [hquote, hdollar, false_and, if_false]
      rw [ih fun d hd => hpiece d (mem_cons_of_mem c hd)]
      rfl
  have hquoted : ∀ content rest : Text, withoutComment true (doubled content ++ '"' :: rest) =
      doubled content ++ '"' :: withoutComment false rest := by
    intro content rest
    induction content with
    | nil => simp [withoutComment, doubled]
    | cons c content ih =>
      by_cases hquote : c = '"'
      · have hshape : doubled (c :: content) = '"' :: '"' :: doubled content := by
          simp [doubled, hquote]
        rw [hshape, cons_append, cons_append, withoutComment, withoutComment]
        simp [ih]
      · have hshape : doubled (c :: content) = c :: doubled content := by simp [doubled, hquote]
        rw [hshape, cons_append, withoutComment]
        simp [hquote, ih]
  have hgap : ∀ gap : Text, (∀ c ∈ gap, db.isSpace c = true) → ∀ c ∈ gap, c ≠ '"' ∧ c ≠ '$' :=
    fun gap hblank c hc => ⟨space_plain (hblank c hc) rfl, space_plain (hblank c hc) rfl⟩
  have hword : ∀ word : Word db, ∀ c ∈ word.text, c ≠ '"' ∧ c ≠ '$' :=
    fun word c hc => ⟨word.plain hc rfl, word.plain hc rfl⟩
  have htoken : ∀ (token : Token db) (rest : Text),
      withoutComment false (token.text ++ rest) = token.text ++ withoutComment false rest := by
    intro token rest
    cases token with
    | name word => exact hplain word.text rest (hword word)
    | plain word => exact hplain word.text rest (hword word)
    | quoted content free =>
      have hcontent := hquoted content rest
      simp only [Token.text, cons_append, append_assoc, nil_append]
      rw [withoutComment]
      simp [hcontent]
    | equals => exact hplain ['='] rest (by decide)
    | comma => exact hplain [','] rest (by decide)
    | semicolon => exact hplain [';'] rest (by decide)
  induction h with
  | nil hblank => exact hplain _ rest (hgap _ hblank)
  | cons hblank _ ih =>
    rw [append_assoc, append_assoc, hplain _ _ (hgap _ hblank), htoken, ih]
    simp only [append_assoc]

end

/-! ## Reading a statement

The lines of one statement become an assignment with its name and its fields, wherever the
lines break after the equals sign.
-/

section

variable {db : CharacterDatabase}

/-! ### Joined lines -/

theorem joinText_cons (separator line next : Text) (lines : List Text) :
    joinText separator (line :: next :: lines) =
      line ++ (separator ++ joinText separator (next :: lines)) := by
  simp [joinText, intercalate]

theorem splitLines_join {lines : List Text} (hfree : ∀ line ∈ lines, ∀ c ∈ line, isLineEnd c = false)
    (hlast : lines.getLast? ≠ some []) : splitLines (joinText "\n" lines) = lines := by
  have hfeed : ∀ line ∈ lines, '\n' ∉ line := by
    intro line hline hmem
    have hend := hfree line hline '\n' hmem
    revert hend
    decide
  induction lines with
  | nil => rfl
  | cons line lines ih =>
    have hwhole := pieces_whole (hfree line mem_cons_self)
    cases lines with
    | nil =>
      have hjoin : joinText "\n" [line] = line := by simp [joinText, intercalate]
      rw [hjoin, splitLines]
      cases splitAt_last isLineEnd (hfeed line mem_cons_self) with
      | inl hsame => rw [← hsame, hwhole]
      | inr hempty =>
        rw [hwhole] at hempty
        have hnone : line = [] := by
          cases hlines : splitAt isLineEnd line with
          | nil => rw [hlines] at hempty; simpa using hempty
          | cons first more => rw [hlines] at hempty; simp at hempty
        exact absurd (by rw [hnone]; rfl) hlast
    | cons next lines =>
      have hending : LineEnd line ['\n'] := by
        refine .feed fun hreturn => ?_
        have hend := hfree line mem_cons_self '\r' (mem_of_getLast? hreturn)
        revert hend
        decide
      have hrest := ih (fun line hline => hfree line (mem_cons_of_mem _ hline))
        (by simpa using hlast) (fun line hline => hfeed line (mem_cons_of_mem _ hline))
      have htext : joinText "\n" (line :: next :: lines) =
          line ++ (['\n'] ++ joinText "\n" (next :: lines)) := joinText_cons _ _ _ _
      rw [htext, splitLines, splitAt_line (by rfl) (hfeed line mem_cons_self) hending,
        hwhole]
      have hmore : splitAt isLineEnd (joinText "\n" (next :: lines)) = next :: lines := hrest
      rw [hmore]
      rfl

theorem feed_space : db.isSpace '\n' = true := by
  rw [db.space_ascii '\n' (by decide)]
  decide

theorem spaced_join (lines : List (LaidLine db)) :
    Spaced db (lines.flatMap (·.tokens)) (joinText "\n" (lines.map (·.body))) := by
  have hfeed : ∀ c ∈ ['\n'], db.isSpace c = true := by
    intro c hc
    rw [mem_singleton.mp hc]
    exact feed_space
  induction lines with
  | nil => exact .nil fun _ hc => absurd hc not_mem_nil
  | cons line lines ih =>
    cases lines with
    | nil =>
      have hjoin : joinText "\n" [line.body] = line.body := by simp [joinText, intercalate]
      rw [flatMap_singleton, map_singleton, hjoin]
      exact line.spaced
    | cons next lines =>
      rw [map_cons, map_cons, joinText_cons, flatMap_cons]
      exact line.spaced.append (Spaced.gap hfeed ih)

theorem LaidLine.withoutComment_text (line : LaidLine db) :
    withoutComment false line.text = line.body := by
  have hcomment : withoutComment false line.comment = [] := by
    cases hcase : line.comment with
    | nil => rfl
    | cons c rest =>
      have hdollar : c = '$' := line.starts c (by rw [hcase]; rfl)
      rw [hdollar]
      simp [withoutComment]
  rw [LaidLine.text, withoutComment_spaced line.spaced, hcomment, append_nil]

/-! ### The equals sign -/

def Token.isSemicolon : Token db → Bool
  | .semicolon => true
  | _ => false

def Token.isName : Token db → Bool
  | .name _ => true
  | _ => false

theorem Spaced.free {tokens : List (Token db)} {text : Text} (h : Spaced db tokens text)
    (hfree : ∀ token ∈ tokens, '=' ∉ token.text) : '=' ∉ text := by
  induction h with
  | nil hblank => exact fun hmem => space_plain (hblank _ hmem) rfl rfl
  | @cons gap rest token tokens hblank _ ih =>
    intro hmem
    cases mem_append.mp hmem with
    | inl hgap => exact space_plain (hblank _ hgap) rfl rfl
    | inr hmem =>
      cases mem_append.mp hmem with
      | inl htoken => exact hfree token mem_cons_self htoken
      | inr hmore => exact ih (fun token h => hfree token (mem_cons_of_mem _ h)) hmore

theorem Spaced.mem {tokens : List (Token db)} {text : Text} (h : Spaced db tokens text)
    {token : Token db} (htoken : token ∈ tokens) : ∀ c ∈ token.text, c ∈ text := by
  have ⟨before, after, htokens⟩ := append_of_mem htoken
  rw [htokens] at h
  have ⟨front, back, htext, _, hback⟩ := h.split
  intro c hc
  rw [htext]
  cases hback with
  | cons _ _ =>
    apply mem_append_right
    apply mem_append_right
    exact mem_append_left _ hc

theorem Spaced.cut {before after : List (Token db)} {text : Text}
    (h : Spaced db (before ++ .equals :: after) text) (hfree : ∀ token ∈ before, '=' ∉ token.text) :
    ∃ front back, cutAt '=' text = some (front, back) ∧ Spaced db before front ∧
      Spaced db after back := by
  have ⟨front, rest, htext, hfront, hrest⟩ := h.split
  cases hrest with
  | @cons gap back token tokens hblank hmore =>
    refine ⟨front ++ gap, back, ?_, ?_, hmore⟩
    · rw [cutAt_eq_some, htext]
      constructor
      · simp [Token.text]
      · intro hmem
        cases mem_append.mp hmem with
        | inl hleft => exact hfront.free hfree hleft
        | inr hright => exact space_plain (hblank _ hright) rfl rfl
    · have hboth := hfront.append (spaced_nil.mpr hblank)
      rwa [append_nil] at hboth

theorem Spaced.value {tokens : List (Token db)} {text : Text}
    (h : Spaced db (tokens ++ [.semicolon]) text) :
    Spaced db tokens (db.strip (removeSemicolon (db.strip text))) := by
  have ⟨front, back, htext, hfront, hback⟩ := h.split
  have ⟨gap, after, hshape, hgap, hafter⟩ := hback.single
  have hsolid : db.isSpace ';' = false := delimiter_solid rfl
  have hwhole : text = (front ++ gap) ++ ';' :: after := by
    rw [htext, hshape, append_assoc]
    rfl
  have hlast : ((front ++ gap).dropWhile db.isSpace ++ [';']).getLast? = some ';' :=
    List.getLast?_concat
  have hstrip : db.strip text = (front ++ gap).dropWhile db.isSpace ++ [';'] := by
    have hsplit : (front ++ gap).dropWhile db.isSpace ++ ';' :: after =
        ((front ++ gap).dropWhile db.isSpace ++ [';']) ++ after := by simp
    rw [strip_eq, hwhole, dropWhile_stop hsolid, hsplit, stripRight_blank _ hafter,
      stripRight_stop hlast hsolid]
  have hremove : removeSemicolon (db.strip text) = (front ++ gap).dropWhile db.isSpace := by
    rw [hstrip, removeSemicolon, if_pos hlast, dropLast_concat]
  have hboth := hfront.append (spaced_nil.mpr hgap)
  rw [append_nil] at hboth
  rw [hremove]
  exact hboth.dropWhile.strip

end

end TwinForge.Eds
