import Mathlib.Data.List.Forall2
import Mathlib.Data.List.Induction
import TwinForge.Eds.Layout
import TwinForge.Foundation.Delimiters

/-! # Reading the statements of a section

Where every statement ends on its line and no name stands last on a line, the lines of each
statement become its assignment. Otherwise a statement is lost or its name is.
-/

namespace TwinForge.Eds

open Lines List

section

variable {db : CharacterDatabase}

/-! ## Fields -/

variable {piece : Text}

theorem fieldsFrom_plain (h : ∀ c ∈ piece, c ≠ '"' ∧ c ≠ ',') (current rest : Text) :
    fieldsFrom db false current (piece ++ rest) = fieldsFrom db false (current ++ piece) rest := by
  induction piece generalizing current with
  | nil => simp
  | cons c piece ih =>
    have ⟨hquote, hcomma⟩ := h c mem_cons_self
    rw [cons_append, fieldsFrom]
    · simp only [hquote, hcomma, false_and, if_false]
      rw [ih fun d hd => h d (mem_cons_of_mem c hd)]
      simp
    · intro _ hc
      exact absurd hc hquote

theorem fieldsFrom_content (content current : Text) {rest : Text} (hrest : rest.head? ≠ some '"') :
    fieldsFrom db true current (doubled content ++ '"' :: rest) =
      fieldsFrom db false (current ++ (doubled content ++ ['"'])) rest := by
  induction content generalizing current with
  | nil =>
    rw [doubled, flatMap_nil, nil_append, fieldsFrom]
    · simp
    · intro more _ hmore
      rw [hmore] at hrest
      exact hrest rfl
  | cons c content ih =>
    by_cases hquote : c = '"'
    · have hshape : doubled (c :: content) = '"' :: '"' :: doubled content := by
        simp [doubled, hquote]
      rw [hshape, cons_append, cons_append, fieldsFrom, if_pos rfl, ih]
      simp
    · have hshape : doubled (c :: content) = c :: doubled content := by simp [doubled, hquote]
      rw [hshape, cons_append, fieldsFrom]
      · simp only [hquote, if_false, Bool.true_eq_false, and_false]
        rw [ih]
        simp
      · intro _ hc
        exact absurd hc hquote

theorem fieldsFrom_open (current rest : Text) :
    fieldsFrom db false current ('"' :: rest) = fieldsFrom db true (current ++ ['"']) rest := by
  cases rest with
  | nil => simp [fieldsFrom]
  | cons d rest =>
    by_cases hquote : d = '"'
    · rw [hquote, fieldsFrom]
      simp
    · rw [fieldsFrom]
      · simp
      · intro more _ hmore
        exact absurd (List.cons.inj hmore).1 hquote

theorem fieldsFrom_field (field : Field db) (h : Spaced db field.tokens piece)
    (current rest : Text) (hrest : rest.head? ≠ some '"') :
    fieldsFrom db false current (piece ++ rest) = fieldsFrom db false (current ++ piece) rest := by
  have hgap : ∀ gap : Text, (∀ c ∈ gap, db.isSpace c = true) → ∀ c ∈ gap, c ≠ '"' ∧ c ≠ ',' :=
    fun gap hblank c hc => ⟨space_plain (hblank c hc) rfl, space_plain (hblank c hc) rfl⟩
  cases field with
  | empty => exact fieldsFrom_plain (hgap piece (spaced_nil.mp h)) current rest
  | plain word =>
    have ⟨gap, after, hpiece, hblank, hafter⟩ := h.single
    apply fieldsFrom_plain
    intro c hc
    rw [hpiece] at hc
    cases mem_append.mp hc with
    | inl hfront => exact hgap gap hblank c hfront
    | inr hback =>
      cases mem_append.mp hback with
      | inl hword => exact ⟨word.plain hword rfl, word.plain hword rfl⟩
      | inr hend => exact hgap after hafter c hend
  | quoted content free =>
    have ⟨gap, after, hpiece, hblank, hafter⟩ := h.single
    have hnext : (after ++ rest).head? ≠ some '"' := by
      cases after with
      | nil => exact hrest
      | cons d after =>
        intro hd
        have hsame : d = '"' := by simpa using hd
        exact space_plain (hafter d mem_cons_self) rfl hsame
    have hshape : piece ++ rest = gap ++ ('"' :: (doubled content ++ '"' :: (after ++ rest))) := by
      rw [hpiece]
      simp [Token.text]
    rw [hshape, fieldsFrom_plain (hgap gap hblank), fieldsFrom_open,
      fieldsFrom_content content _ hnext, fieldsFrom_plain (hgap after hafter),
      hpiece]
    simp [Token.text]

theorem strip_field {field : Field db} (h : Spaced db field.tokens piece) :
    db.strip piece = field.text := by
  cases field with
  | empty => exact strip_blank (spaced_nil.mp h)
  | plain word => exact strip_token h
  | quoted content free => exact strip_token h

variable {first : Field db} {others : List (Field db)}

theorem fields_spaced {text : Text} (h : Spaced db (fieldTokens first others) text) :
    fields db text = (first :: others).map Field.text := by
  induction others generalizing first text with
  | nil =>
    have hread := fieldsFrom_field first h [] [] (by simp)
    rw [append_nil, nil_append] at hread
    rw [fields, hread, fieldsFrom, strip_field h]
    rfl
  | cons next others ih =>
    rcases h.split with ⟨front, back, htext, hfront, hback⟩
    cases hback with
    | @cons gap rest token tokens hblank hmore =>
      have hpiece : Spaced db first.tokens (front ++ gap) := by
        have hboth := hfront.append (spaced_nil.mpr hblank)
        rwa [append_nil] at hboth
      have hshape : text = (front ++ gap) ++ ',' :: rest := by
        rw [htext]
        simp [Token.text]
      rw [fields, hshape, fieldsFrom_field first hpiece [] (',' :: rest) (by simp), nil_append, fieldsFrom]
      · simp only [Char.reduceEq, if_false, true_and, if_true]
        rw [strip_field hpiece, map_cons, ← ih hmore]
        rfl
      · intro _ hc
        exact absurd hc (by decide)

/-! ## One line -/

def LaidLine.ends (line : LaidLine db) : Bool := line.tokens.getLast?.any Token.isSemicolon

def LaidLine.breaksName (line : LaidLine db) : Bool := line.tokens.getLast?.any Token.isName

theorem LaidLine.hasTerminator_body (line : LaidLine db) :
    hasTerminator db line.body = line.ends := by
  have hbody : withoutComment false line.body = line.body := by
    have hwhole := withoutComment_spaced line.spaced []
    rwa [append_nil, withoutComment, append_nil] at hwhole
  have hspaced := line.spaced
  rw [hasTerminator, hbody, LaidLine.ends]
  cases eq_nil_or_concat line.tokens with
  | inl hnil =>
    rw [hnil] at hspaced
    rw [stripRight_empty (spaced_nil.mp hspaced), hnil]
    rfl
  | inr hconcat =>
    rcases hconcat with ⟨before, token, htokens⟩
    rw [concat_eq_append] at htokens
    rw [htokens] at hspaced
    rcases hspaced.stripRight_concat with ⟨front, hstrip, _⟩
    rcases token.edges with ⟨_, last, _, hlast, _⟩
    have hend : (front ++ token.text).getLast? = some last := by
      rw [List.getLast?_append, hlast]
      rfl
    have hword : ∀ word : Word db, word.text.getLast? = some last → last ≠ ';' :=
      fun word h => word.plain (mem_of_getLast? h) rfl
    rw [hstrip, hend, htokens, List.getLast?_concat]
    cases token with
    | name word => simp [Token.isSemicolon, hword word hlast]
    | plain word => simp [Token.isSemicolon, hword word hlast]
    | quoted content free =>
      rw [Token.text, List.getLast?_concat] at hlast
      cases hlast
      rfl
    | _ => cases hlast; rfl

variable {line : LaidLine db}

theorem sectionLine_idle (h : '=' ∉ line.body) {state : SectionState}
    (hstate : state.statement = []) : sectionLine db state line.text = state := by
  rw [sectionLine]
  simp only [line.withoutComment_text]
  rw [if_pos ⟨hstate, .inr h⟩]

theorem sectionLine_open {state : SectionState} (h : state.statement ≠ [] ∨ '=' ∈ line.body) :
    sectionLine db state line.text =
      if line.ends then
        SectionState.flush db { state with statement := state.statement ++ [line.text] }
      else { state with statement := state.statement ++ [line.text] } := by
  have hstrip : '=' ∈ line.body → db.strip line.body ≠ [] := by
    intro hmem hempty
    have hblank : '=' ∉ line.body := by
      have hspaced := line.spaced.strip
      rw [hempty] at hspaced
      apply line.spaced.free
      intro token htoken hequals
      exact absurd (hspaced.mem htoken '=' hequals) not_mem_nil
    exact hblank hmem
  rw [sectionLine]
  simp only [line.withoutComment_text, line.hasTerminator_body]
  rw [if_neg]
  intro ⟨hnone, hidle⟩
  cases h with
  | inl hsome => exact hsome hnone
  | inr hmem =>
    cases hidle with
    | inl hempty => exact hstrip hmem hempty
    | inr hnot => exact hnot hmem

variable {lines : List (LaidLine db)}

theorem lines_open (h : ∀ line ∈ lines, line.ends = false) (state : SectionState) :
    (lines.map (·.text)).foldl (sectionLine db) state =
      { state with statement := state.statement ++
          ((if state.statement = [] then lines.dropWhile (fun line => '=' ∉ line.body)
            else lines).map (·.text)) } := by
  induction lines generalizing state with
  | nil => simp
  | cons line lines ih =>
    have hmore : ∀ line ∈ lines, line.ends = false :=
      fun other hother => h other (mem_cons_of_mem line hother)
    have hline : line.ends = false := h line mem_cons_self
    rw [map_cons, foldl_cons]
    by_cases hidle : state.statement = [] ∧ '=' ∉ line.body
    · rw [sectionLine_idle hidle.2 hidle.1, ih hmore, if_pos hidle.1, if_pos hidle.1,
        dropWhile_cons_of_pos (by simpa using hidle.2)]
    · have hopen : state.statement ≠ [] ∨ '=' ∈ line.body := by
        by_cases hnone : state.statement = []
        · exact .inr (by_contra fun hmem => hidle ⟨hnone, hmem⟩)
        · exact .inl hnone
      have hkept : (if state.statement = [] then (line :: lines).dropWhile (fun line => '=' ∉ line.body)
          else line :: lines) = line :: lines := by
        cases hopen with
        | inl hsome => rw [if_neg hsome]
        | inr hmem =>
          rw [dropWhile_cons_of_neg (by simpa using hmem)]
          exact ite_self _
      rw [sectionLine_open hopen, hline, hkept, ih hmore]
      simp

/-! ## One statement -/

/-- The lines up to the end of a statement give what stands between the first equals sign
and that end. -/
theorem lines_statement {before : List (LaidLine db)} {last : LaidLine db}
    (hbefore : ∀ line ∈ before, line.ends = false) (hlast : last.ends = true)
    (hequals : ∃ line ∈ before ++ [last], '=' ∈ line.body) (assignments : List EdsAssignment) :
    ((before ++ [last]).map (·.text)).foldl (sectionLine db) { assignments } =
      { assignments := assignments ++ (assignment db (joinText "\n"
          (((before ++ [last]).dropWhile (fun line => '=' ∉ line.body)).map (·.text)))).toList } := by
  have hopen := lines_open hbefore { assignments }
  rw [if_pos rfl, nil_append] at hopen
  rw [map_append, foldl_append, hopen, map_singleton, foldl_cons, foldl_nil]
  rw [sectionLine_open, hlast, if_pos rfl, SectionState.flush]
  · cases hrest : before.dropWhile (fun line => '=' ∉ line.body) with
    | nil =>
      have hmem : '=' ∈ last.body := by
        have ⟨line, hline, hsign⟩ := hequals
        cases mem_append.mp hline with
        | inl hfront =>
          have hidle := dropWhile_eq_nil_iff.mp hrest line hfront
          exact absurd hsign (by simpa using hidle)
        | inr hback =>
          rw [mem_singleton.mp hback] at hsign
          exact hsign
      rw [dropWhile_append, hrest, isEmpty_nil, if_pos rfl,
        dropWhile_cons_of_neg (by simpa using hmem)]
      rfl
    | cons start more =>
      rw [dropWhile_append, hrest, isEmpty_cons, if_neg (by simp), map_append]
      rfl
  · cases hrest : before.dropWhile (fun line => '=' ∉ line.body) with
    | cons start more => exact .inl (by simp)
    | nil =>
      right
      have ⟨line, hline, hsign⟩ := hequals
      cases mem_append.mp hline with
      | inl hfront =>
        have hidle := dropWhile_eq_nil_iff.mp hrest line hfront
        exact absurd hsign (by simpa using hidle)
      | inr hback =>
        rw [mem_singleton.mp hback] at hsign
        exact hsign

theorem assignment_lines {before : List (Token db)}
    (htokens : lines.flatMap (·.tokens) =
      before ++ .equals :: (fieldTokens first others ++ [.semicolon]))
    (hlast : lines.getLast?.all (·.ends)) (hfree : ∀ token ∈ before, '=' ∉ token.text) :
    ∃ front value, assignment db (joinText "\n" (lines.map (·.text))) =
        some { name := db.strip front, value, rawStatement := joinText "\n" (lines.map (·.text)) } ∧
      Spaced db before front ∧ fields db value = (first :: others).map Field.text := by
  have hsplit : splitLines (joinText "\n" (lines.map (·.text))) = lines.map (·.text) := by
    apply splitLines_join
    · intro text htext c hc
      have ⟨line, _, hsame⟩ := mem_map.mp htext
      exact line.one_line c (by rw [← hsame] at hc; exact hc)
    · intro hempty
      rw [List.getLast?_map, Option.map_eq_some_iff] at hempty
      have ⟨line, hline, hnone⟩ := hempty
      rw [hline] at hlast
      have hsemicolon : ';' ∈ line.body := by
        have hends : line.ends = true := hlast
        rw [LaidLine.ends, Option.any_eq_true] at hends
        have ⟨token, htoken, hkind⟩ := hends
        cases token with
        | semicolon => exact line.spaced.mem (mem_of_getLast? htoken) ';' (mem_singleton_self _)
        | _ => cases hkind
      rw [(append_eq_nil_iff.mp hnone).1] at hsemicolon
      exact absurd hsemicolon not_mem_nil
  have hbodies : (lines.map (·.text)).map (withoutComment false) = lines.map (·.body) := by
    rw [map_map]
    apply map_congr_left
    intro line _
    exact line.withoutComment_text
  have hspaced := spaced_join lines
  rw [htokens] at hspaced
  have ⟨front, back, hcut, hfront, hback⟩ := hspaced.cut hfree
  refine ⟨front, _, ?_, hfront, fields_spaced hback.value⟩
  rw [assignment, hsplit, hbodies, hcut]

/-- An assignment has the name and the fields of a statement. -/
def ReadAs (assignment : EdsAssignment) (statement : EdsStatement db) : Prop :=
  assignment.name = statement.name.text ∧
    fields db assignment.value = statement.fields.map Field.text

theorem Word.no_equals (word : Word db) : '=' ∉ word.text := fun hmem => word.plain hmem rfl rfl

theorem fieldTokens_kinds :
    ∀ token ∈ fieldTokens first others, token.isName = false ∧ token.isSemicolon = false := by
  have hfield : ∀ field : Field db, ∀ token ∈ field.tokens,
      token.isName = false ∧ token.isSemicolon = false := by
    intro field token htoken
    cases field with
    | empty => exact absurd htoken not_mem_nil
    | plain word => rw [mem_singleton.mp htoken]; exact ⟨rfl, rfl⟩
    | quoted content free => rw [mem_singleton.mp htoken]; exact ⟨rfl, rfl⟩
  induction others generalizing first with
  | nil => exact hfield first
  | cons next others ih =>
    intro token htoken
    rw [fieldTokens, mem_append, mem_cons] at htoken
    cases htoken with
    | inl hfirst => exact hfield first token hfirst
    | inr hrest =>
      cases hrest with
      | inl hcomma => rw [hcomma]; exact ⟨rfl, rfl⟩
      | inr hmore => exact ih token hmore

variable {statement : EdsStatement db}

theorem statement_start (htokens : lines.flatMap (·.tokens) = statement.tokens) :
    ∃ idle start rest post, lines = idle ++ start :: rest ∧
      lines.dropWhile (fun line => '=' ∉ line.body) = start :: rest ∧
      ((idle.flatMap (·.tokens) = [] ∧ start.tokens = .name statement.name :: .equals :: post) ∨
        (idle.flatMap (·.tokens) = [.name statement.name] ∧ start.tokens = .equals :: post)) := by
  have hsplit : lines.takeWhile (fun line => '=' ∉ line.body) ++
      lines.dropWhile (fun line => '=' ∉ line.body) = lines := takeWhile_append_dropWhile
  have hidle : ∀ token ∈ (lines.takeWhile (fun line => '=' ∉ line.body)).flatMap (·.tokens),
      '=' ∉ token.text := by
    intro token htoken hsign
    have ⟨line, hline, hmem⟩ := mem_flatMap.mp htoken
    have hfree := mem_takeWhile_imp hline
    exact absurd (line.spaced.mem hmem '=' hsign) (by simpa using hfree)
  have hhead := List.head?_dropWhile_not (fun line : LaidLine db => '=' ∉ line.body) lines
  rw [← hsplit, flatMap_append, EdsStatement.tokens] at htokens
  generalize hfront : (lines.takeWhile (fun line => '=' ∉ line.body)).flatMap (·.tokens) = before
    at htokens hidle
  cases hopened : lines.dropWhile (fun line => '=' ∉ line.body) with
  | nil =>
    rw [hopened, flatMap_nil, append_nil] at htokens
    have hmem : Token.equals ∈ before := by rw [htokens]; simp
    exact absurd (mem_singleton_self '=') (hidle _ hmem)
  | cons start rest =>
    rw [hopened] at htokens hhead hsplit
    have hsign : '=' ∈ start.body := by simpa using hhead
    have ⟨token, htoken, hequals⟩ : ∃ token ∈ start.tokens, '=' ∈ token.text := by
      by_contra hnone
      exact start.spaced.free (fun token h hmem => hnone ⟨token, h, hmem⟩) hsign
    rw [flatMap_cons] at htokens
    have hwhole : ∃ post,
        (before = [] ∧ start.tokens = .name statement.name :: .equals :: post) ∨
          (before = [.name statement.name] ∧ start.tokens = .equals :: post) := by
      cases before with
      | nil =>
        cases htwo : start.tokens with
        | nil => rw [htwo] at htoken; exact absurd htoken not_mem_nil
        | cons name more =>
          rw [htwo] at htokens htoken
          have ⟨hname, hmore⟩ := List.cons.inj htokens
          cases more with
          | nil =>
            rw [mem_singleton.mp htoken, hname] at hequals
            exact absurd hequals statement.name.no_equals
          | cons sign post =>
            rw [hname, (List.cons.inj hmore).1]
            exact ⟨post, .inl ⟨rfl, rfl⟩⟩
      | cons name before =>
        have ⟨hname, hmore⟩ := List.cons.inj htokens
        cases before with
        | nil =>
          cases hone : start.tokens with
          | nil => rw [hone] at htoken; exact absurd htoken not_mem_nil
          | cons sign post =>
            rw [hone] at hmore
            rw [hname, (List.cons.inj hmore).1]
            exact ⟨post, .inr ⟨rfl, rfl⟩⟩
        | cons sign before =>
          have hsame : sign = .equals := (List.cons.inj hmore).1
          exact absurd (mem_singleton_self '=') (hidle .equals (by rw [← hsame]; simp))
    have ⟨post, hshape⟩ := hwhole
    rw [← hfront] at hshape
    exact ⟨_, start, rest, post, hsplit.symm, rfl, hshape⟩

theorem name_kept {idle rest : List (LaidLine db)}
    {start : LaidLine db} {post : List (Token db)} (hidle : idle.flatMap (·.tokens) = [])
    (hname : start.tokens = .name statement.name :: .equals :: post)
    (hpost : post ++ rest.flatMap (·.tokens) =
      fieldTokens statement.first statement.others ++ [.semicolon]) :
    ∀ line ∈ idle ++ start :: rest, line.breaksName = false := by
  have hkinds : ∀ token ∈ post ++ rest.flatMap (·.tokens), token.isName = false := by
    intro token htoken
    rw [hpost] at htoken
    cases mem_append.mp htoken with
    | inl hfield => exact (fieldTokens_kinds token hfield).1
    | inr hend => rw [mem_singleton.mp hend]; rfl
  intro line hline
  rw [LaidLine.breaksName, Option.any_eq_false]
  intro token htoken
  rw [mem_append, mem_cons] at hline
  cases hline with
  | inl hbefore =>
    rw [flatMap_eq_nil_iff.mp hidle line hbefore] at htoken
    cases htoken
  | inr hafter =>
    cases hafter with
    | inl hsame =>
      rw [hsame, hname, List.getLast?_cons_cons] at htoken
      cases mem_cons.mp (mem_of_getLast? htoken) with
      | inl hequals => rw [hequals]; rfl
      | inr hmem => exact hkinds token (mem_append_left _ hmem)
    | inr hrest =>
      apply hkinds token
      exact mem_append_right _ (mem_flatMap.mpr ⟨line, hrest, mem_of_getLast? htoken⟩)

/-- A name that is all there is before the line of the equals sign is last on its line. -/
theorem name_broken {name : Word db} {idle : List (LaidLine db)}
    (hidle : idle.flatMap (·.tokens) = [.name name]) : ∃ line ∈ idle, line.breaksName = true := by
  have hmem : Token.name name ∈ idle.flatMap (·.tokens) := by rw [hidle]; simp
  have ⟨line, hline, htoken⟩ := mem_flatMap.mp hmem
  have ⟨front, back, hsplit⟩ := append_of_mem hline
  rw [hsplit, flatMap_append, flatMap_cons] at hidle
  have hlength := congrArg List.length hidle
  rw [length_append, length_append, length_singleton] at hlength
  refine ⟨line, hline, ?_⟩
  rw [LaidLine.breaksName]
  cases htokens : line.tokens with
  | nil => rw [htokens] at htoken; exact absurd htoken not_mem_nil
  | cons token more =>
    rw [htokens, length_cons] at hlength
    have hmore : more = [] := eq_nil_of_length_eq_zero (by omega)
    rw [htokens, hmore] at htoken
    rw [hmore, ← mem_singleton.mp htoken]
    rfl

/-- The lines of one statement become its assignment, without the name if it stands last
on its line. -/
theorem statement_read {before : List (LaidLine db)}
    {last : LaidLine db} (htokens : (before ++ [last]).flatMap (·.tokens) = statement.tokens)
    (hbefore : ∀ line ∈ before, line.ends = false) (hlast : last.ends = true)
    (assignments : List EdsAssignment) :
    ∃ assignment, ((before ++ [last]).map (·.text)).foldl (sectionLine db) { assignments } =
        { assignments := assignments ++ [assignment] } ∧
      (ReadAs assignment statement ↔ ∀ line ∈ before ++ [last], line.breaksName = false) := by
  have ⟨idle, start, rest, post, hlines, hopened, hstart⟩ := statement_start htokens
  have hsign : '=' ∈ start.body := by
    cases hstart with
    | inl hwhole =>
      have hmem : Token.equals ∈ start.tokens := by rw [hwhole.2]; simp
      exact start.spaced.mem hmem '=' (mem_singleton_self '=')
    | inr hbroken =>
      have hmem : Token.equals ∈ start.tokens := by rw [hbroken.2]; simp
      exact start.spaced.mem hmem '=' (mem_singleton_self '=')
  have hrun := lines_statement hbefore hlast ⟨start, by rw [hlines]; simp, hsign⟩ assignments
  rw [hopened] at hrun
  have hends : (start :: rest).getLast?.all (·.ends) := by
    have hend : (before ++ [last]).getLast? = (start :: rest).getLast? := by
      rw [hlines, List.getLast?_append, List.getLast?_cons]
      rfl
    rw [← hend, List.getLast?_concat]
    exact hlast
  rw [hlines, flatMap_append, EdsStatement.tokens] at htokens
  cases hstart with
  | inl hwhole =>
    have ⟨hidle, hname⟩ := hwhole
    rw [hidle, nil_append] at htokens
    have hfree : ∀ token ∈ [Token.name statement.name], '=' ∉ token.text := by
      intro token htoken
      rw [mem_singleton.mp htoken]
      exact statement.name.no_equals
    have ⟨front, value, hread, hfront, hfields⟩ := assignment_lines htokens hends hfree
    rw [hread] at hrun
    refine ⟨_, hrun, fun _ => ?_, fun _ => ⟨strip_token hfront, hfields⟩⟩
    rw [flatMap_cons, hname] at htokens
    have hpost : post ++ rest.flatMap (·.tokens) =
        fieldTokens statement.first statement.others ++ [.semicolon] :=
      (List.cons.inj (List.cons.inj htokens).2).2
    rw [hlines]
    exact name_kept hidle hname hpost
  | inr hbroken =>
    have ⟨hidle, hname⟩ := hbroken
    rw [hidle] at htokens
    have hafter : (start :: rest).flatMap (·.tokens) =
        [] ++ .equals :: (fieldTokens statement.first statement.others ++ [.semicolon]) :=
      (List.cons.inj htokens).2
    have ⟨front, value, hread, hfront, hfields⟩ :=
      assignment_lines hafter hends fun _ htoken => absurd htoken not_mem_nil
    rw [hread] at hrun
    refine ⟨_, hrun, fun hreads => ?_, fun hnone => ?_⟩
    · have hempty : db.strip front = [] := strip_blank (spaced_nil.mp hfront)
      exact absurd (hreads.1.symm.trans hempty) statement.name.nonempty
    · have ⟨line, hline, hbreaks⟩ := name_broken hidle
      rw [hnone line (by rw [hlines]; exact mem_append_left _ hline)] at hbreaks
      cases hbreaks

/-! ## All statements -/

def LaidLine.Closed (line : LaidLine db) : Prop :=
  ∀ token ∈ line.tokens.dropLast, token.isSemicolon = false

theorem LaidLine.Closed.cases (h : line.Closed) :
    (line.ends = false ∧ ∀ token ∈ line.tokens, token.isSemicolon = false) ∨
      (line.ends = true ∧ ∃ before, line.tokens = before ++ [.semicolon] ∧
        ∀ token ∈ before, token.isSemicolon = false) := by
  cases eq_nil_or_concat line.tokens with
  | inl hnil =>
    rw [LaidLine.ends, hnil]
    exact .inl ⟨rfl, fun _ htoken => absurd htoken not_mem_nil⟩
  | inr hconcat =>
    have ⟨before, token, htokens⟩ := hconcat
    rw [concat_eq_append] at htokens
    have hbefore : ∀ token ∈ before, token.isSemicolon = false := by
      rw [LaidLine.Closed, htokens, dropLast_concat] at h
      exact h
    rw [LaidLine.ends, htokens, List.getLast?_concat, Option.any_some]
    cases hkind : token.isSemicolon with
    | false =>
      refine .inl ⟨rfl, fun other hother => ?_⟩
      cases mem_append.mp hother with
      | inl hfront => exact hbefore other hfront
      | inr hlast => rw [mem_singleton.mp hlast]; exact hkind
    | true =>
      cases token with
      | semicolon => exact .inr ⟨rfl, before, rfl, hbefore⟩
      | _ => cases hkind

theorem first_statement {more : List (Token db)} (hclosed : ∀ line ∈ lines, line.Closed)
    (htokens : lines.flatMap (·.tokens) = statement.tokens ++ more) :
    ∃ before last after, lines = (before ++ [last]) ++ after ∧
      (∀ line ∈ before, line.ends = false) ∧ last.ends = true ∧
      (before ++ [last]).flatMap (·.tokens) = statement.tokens ∧
      after.flatMap (·.tokens) = more := by
  have hsplit : lines.takeWhile (fun line => !line.ends) ++ lines.dropWhile (fun line => !line.ends) =
      lines := takeWhile_append_dropWhile
  have hopen : ∀ line ∈ lines.takeWhile (fun line => !line.ends), line.ends = false := by
    intro line hline
    simpa using mem_takeWhile_imp hline
  have hfree : ∀ token ∈ (lines.takeWhile (fun line => !line.ends)).flatMap (·.tokens),
      token.isSemicolon = false := by
    intro token htoken
    have ⟨line, hline, hmem⟩ := mem_flatMap.mp htoken
    cases (hclosed line (takeWhile_subset _ hline)).cases with
    | inl hnone => exact hnone.2 token hmem
    | inr hends => rw [hopen line hline] at hends; cases hends.1
  have hhead := List.head?_dropWhile_not (fun line : LaidLine db => !line.ends) lines
  have hstatement : statement.tokens ++ more = (.name statement.name :: .equals ::
      fieldTokens statement.first statement.others) ++ .semicolon :: more := by
    simp [EdsStatement.tokens]
  have hfields : ∀ token ∈ (.name statement.name :: .equals ::
      fieldTokens statement.first statement.others), token.isSemicolon = false := by
    intro token htoken
    rw [mem_cons, mem_cons] at htoken
    cases htoken with
    | inl hname => rw [hname]; rfl
    | inr hrest =>
      cases hrest with
      | inl hequals => rw [hequals]; rfl
      | inr hfield => exact (fieldTokens_kinds token hfield).2
  have hkind : (Token.semicolon : Token db).isSemicolon ≠ false := by simp [Token.isSemicolon]
  cases hrest : lines.dropWhile (fun line => !line.ends) with
  | nil =>
    rw [hrest, append_nil] at hsplit
    rw [hsplit, htokens, hstatement] at hfree
    exact absurd (hfree .semicolon (by simp)) hkind
  | cons last after =>
    rw [hrest] at hsplit hhead
    have hends : last.ends = true := by simpa using hhead
    have hlast : last ∈ lines := by rw [← hsplit]; simp
    cases (hclosed last hlast).cases with
    | inl hnone => rw [hends] at hnone; cases hnone.1
    | inr hshape =>
      have ⟨_, front, hfront, hfrontFree⟩ := hshape
      rw [hstatement, ← hsplit, flatMap_append, flatMap_cons, hfront, append_assoc,
        ← append_assoc, singleton_append] at htokens
      have hbefore : ∀ token ∈ (lines.takeWhile (fun line => !line.ends)).flatMap (·.tokens) ++ front,
          token.isSemicolon = false := by
        intro token htoken
        cases mem_append.mp htoken with
        | inl hopened => exact hfree token hopened
        | inr hlastFront => exact hfrontFree token hlastFront
      have ⟨hsame, hafter⟩ :=
        @Delimiters.run_unique (Token db) (fun token => token.isSemicolon = false) _ _ _ _
          hbefore hfields (by simpa using hkind) (by simpa using hkind) htokens
      refine ⟨_, last, after, by rw [append_assoc]; exact hsplit.symm, hopen, hends, ?_,
        (List.cons.inj hafter).2⟩
      rw [flatMap_append, flatMap_singleton, hfront, ← append_assoc, hsame]
      simp [EdsStatement.tokens]

/-- Where nothing follows a semicolon on its line, there is one assignment for each statement;
it is the statement's where no name stands last on a line. -/
theorem statements_read {statements : List (EdsStatement db)}
    (hclosed : ∀ line ∈ lines, line.Closed)
    (htokens : lines.flatMap (·.tokens) = statements.flatMap (·.tokens))
    (assignments : List EdsAssignment) :
    ∃ more, (lines.map (·.text)).foldl (sectionLine db) { assignments } =
        { assignments := assignments ++ more } ∧
      (List.Forall₂ ReadAs more statements ↔ ∀ line ∈ lines, line.breaksName = false) := by
  induction statements generalizing lines assignments with
  | nil =>
    rw [flatMap_nil, flatMap_eq_nil_iff] at htokens
    have hidle : ∀ line ∈ lines, '=' ∉ line.body := by
      intro line hline
      apply line.spaced.free
      rw [htokens line hline]
      exact fun _ htoken => absurd htoken not_mem_nil
    have hrun : (lines.map (·.text)).foldl (sectionLine db) { assignments } = { assignments } := by
      clear hclosed htokens
      induction lines with
      | nil => rfl
      | cons line lines ih =>
        rw [map_cons, foldl_cons, sectionLine_idle (hidle line mem_cons_self) rfl]
        exact ih fun other hother => hidle other (mem_cons_of_mem line hother)
    refine ⟨[], by rw [hrun, append_nil], fun _ line hline => ?_, fun _ => .nil⟩
    rw [LaidLine.breaksName, htokens line hline]
    rfl
  | cons statement statements ih =>
    rw [flatMap_cons] at htokens
    have ⟨before, last, after, hlines, hbefore, hlast, hfirst, hrest⟩ :=
      first_statement hclosed htokens
    have ⟨assignment, hread, hreads⟩ := statement_read hfirst hbefore hlast assignments
    have hmore : ∀ line ∈ after, line.Closed := fun line hline =>
      hclosed line (by rw [hlines]; exact mem_append_right _ hline)
    have ⟨others, hrun, hothers⟩ := ih hmore hrest (assignments ++ [assignment])
    refine ⟨assignment :: others, ?_, ?_⟩
    · rw [hlines, map_append, foldl_append, hread, hrun, append_assoc]
      rfl
    · rw [forall₂_cons, hreads, hothers, hlines]
      constructor
      · intro ⟨hstart, hend⟩ line hline
        cases mem_append.mp hline with
        | inl hfront => exact hstart line hfront
        | inr hback => exact hend line hback
      · intro h
        exact ⟨fun line hline => h line (mem_append_left _ hline),
          fun line hline => h line (mem_append_right _ hline)⟩

/-! ## Statements that share a line -/

theorem sectionLine_length (state : SectionState) (line : LaidLine db) :
    (sectionLine db state line.text).assignments.length ≤
      state.assignments.length + if line.ends then 1 else 0 := by
  by_cases hidle : state.statement = [] ∧ '=' ∉ line.body
  · rw [sectionLine_idle hidle.2 hidle.1]
    exact Nat.le_add_right _ _
  · have hopen : state.statement ≠ [] ∨ '=' ∈ line.body := by
      by_cases hnone : state.statement = []
      · exact .inr (by_contra fun hmem => hidle ⟨hnone, hmem⟩)
      · exact .inl hnone
    rw [sectionLine_open hopen]
    cases hends : line.ends with
    | false => simp
    | true =>
      rw [if_pos rfl, if_pos rfl, SectionState.flush, length_append]
      have hone : ∀ found : Option EdsAssignment, found.toList.length ≤ 1 := by
        intro found
        cases found <;> simp
      have := hone (assignment db (joinText "\n" (state.statement ++ [line.text])))
      simp only
      omega

theorem lines_length (lines : List (LaidLine db)) (state : SectionState) :
    ((lines.map (·.text)).foldl (sectionLine db) state).assignments.length ≤
      state.assignments.length + lines.countP (·.ends) := by
  induction lines generalizing state with
  | nil => exact Nat.le_refl _
  | cons line lines ih =>
    have hline := sectionLine_length state line
    have hmore := ih (sectionLine db state line.text)
    rw [map_cons, foldl_cons, countP_cons]
    omega

/-- There are as many semicolons as lines that end with one, and more where something
follows a semicolon. -/
theorem ends_le (lines : List (LaidLine db)) :
    lines.countP (·.ends) ≤ (lines.flatMap (·.tokens)).countP Token.isSemicolon ∧
      ((∃ line ∈ lines, ¬ line.Closed) →
        lines.countP (·.ends) < (lines.flatMap (·.tokens)).countP Token.isSemicolon) := by
  have hline : ∀ line : LaidLine db,
      (if line.ends then 1 else 0) ≤ line.tokens.countP Token.isSemicolon ∧
        (¬ line.Closed → (if line.ends then 1 else 0) < line.tokens.countP Token.isSemicolon) := by
    intro line
    cases eq_nil_or_concat line.tokens with
    | inl hnil => simp [LaidLine.ends, LaidLine.Closed, hnil]
    | inr hconcat =>
      have ⟨before, token, htokens⟩ := hconcat
      rw [concat_eq_append] at htokens
      rw [LaidLine.ends, LaidLine.Closed, htokens, List.getLast?_concat, dropLast_concat,
        countP_append, countP_singleton, Option.any_some]
      refine ⟨Nat.le_add_left _ _, fun hopen => ?_⟩
      have hsome : 0 < before.countP Token.isSemicolon := by
        rw [countP_pos_iff]
        by_contra hnone
        exact hopen fun other hother => by
          by_contra hkind
          exact hnone ⟨other, hother, by simpa using hkind⟩
      omega
  induction lines with
  | nil => simp
  | cons line lines ih =>
    have ⟨hfirst, hstrict⟩ := hline line
    rw [countP_cons, flatMap_cons, countP_append]
    refine ⟨by omega, fun ⟨other, hother, hopen⟩ => ?_⟩
    cases mem_cons.mp hother with
    | inl hsame =>
      have := hstrict (by rw [← hsame]; exact hopen)
      omega
    | inr hmore =>
      have := ih.2 ⟨other, hmore, hopen⟩
      omega

theorem statements_semicolons (statements : List (EdsStatement db)) :
    (statements.flatMap (·.tokens)).countP Token.isSemicolon = statements.length := by
  induction statements with
  | nil => rfl
  | cons statement statements ih =>
    have hfields : (fieldTokens statement.first statement.others).countP Token.isSemicolon = 0 := by
      rw [countP_eq_zero]
      intro token htoken
      rw [(fieldTokens_kinds token htoken).2]
      simp
    rw [flatMap_cons, countP_append, ih, EdsStatement.tokens, countP_cons,
      countP_cons, countP_append, hfields, length_cons]
    simp [Token.isSemicolon]
    omega

theorem lines_finished
    (h : ∀ token ∈ (lines.flatMap (·.tokens)).getLast?, token.isSemicolon = true) :
    ((lines.map (·.text)).foldl (sectionLine db) {}).statement = [] := by
  induction lines using reverseRecOn with
  | nil => rfl
  | append_singleton lines line ih =>
    rw [map_append, foldl_append, map_singleton, foldl_cons, foldl_nil]
    rw [flatMap_append, flatMap_singleton, List.getLast?_append] at h
    generalize hstate : (lines.map (·.text)).foldl (sectionLine db) {} = state at ih
    cases htokens : line.tokens.getLast? with
    | none =>
      have hnone : line.tokens = [] := List.getLast?_eq_none_iff.mp htokens
      have hblank : '=' ∉ line.body := by
        apply line.spaced.free
        rw [hnone]
        exact fun _ htoken => absurd htoken not_mem_nil
      rw [htokens, Option.none_or] at h
      rw [sectionLine_idle hblank (ih h)]
      exact ih h
    | some token =>
      rw [htokens] at h
      have hends : line.ends = true := by
        rw [LaidLine.ends, htokens]
        exact h token rfl
      by_cases hidle : state.statement = [] ∧ '=' ∉ line.body
      · rw [sectionLine_idle hidle.2 hidle.1]
        exact hidle.1
      · rw [sectionLine_open, hends, if_pos rfl]
        · rfl
        · by_cases hnone : state.statement = []
          · exact .inr (by_contra fun hmem => hidle ⟨hnone, hmem⟩)
          · exact .inl hnone

theorem last_semicolon (statements : List (EdsStatement db)) :
    ∀ token ∈ (statements.flatMap (·.tokens)).getLast?, token.isSemicolon = true := by
  intro token htoken
  cases eq_nil_or_concat statements with
  | inl hnil => rw [hnil] at htoken; cases htoken
  | inr hconcat =>
    have ⟨before, last, hstatements⟩ := hconcat
    have hlast : last.tokens.getLast? = some .semicolon := by
      rw [EdsStatement.tokens, List.getLast?_cons_cons, ← cons_append, List.getLast?_concat]
    rw [hstatements, concat_eq_append, flatMap_append, flatMap_singleton,
      List.getLast?_append, hlast] at htoken
    cases htoken
    rfl

/-- The assignments of a section are the statements laid out in its lines exactly when nothing
follows a semicolon on its line and no name stands last on a line. -/
theorem section_statements_iff (name : Text) (statements : List (EdsStatement db))
    (layout : Layout db statements) :
    List.Forall₂ ReadAs (buildSection db name (layout.lines.map (·.text))).assignments statements ↔
      ∀ line ∈ layout.lines, line.Closed ∧ line.breaksName = false := by
  have hfinished : ((layout.lines.map (·.text)).foldl (sectionLine db) {}).statement = [] := by
    apply lines_finished
    rw [layout.tokens_eq]
    exact last_semicolon statements
  have hread : (buildSection db name (layout.lines.map (·.text))).assignments =
      ((layout.lines.map (·.text)).foldl (sectionLine db) {}).assignments := by
    rw [buildSection]
    simp only [if_pos hfinished]
  rw [hread]
  by_cases hclosed : ∀ line ∈ layout.lines, line.Closed
  · have ⟨assignments, hrun, hreads⟩ := statements_read hclosed layout.tokens_eq []
    rw [hrun, nil_append, hreads]
    exact ⟨fun h line hline => ⟨hclosed line hline, h line hline⟩, fun h line hline => (h line hline).2⟩
  · constructor
    · intro hreads
      have hlength := hreads.length_eq
      have hfew := lines_length layout.lines {}
      have hopen : ∃ line ∈ layout.lines, ¬ line.Closed := by
        by_contra hnone
        exact hclosed fun line hline => by_contra fun hline' => hnone ⟨line, hline, hline'⟩
      have hmany := (ends_le layout.lines).2 hopen
      rw [layout.tokens_eq, statements_semicolons] at hmany
      simp only [length_nil] at hfew
      omega
    · exact fun h => absurd (fun line hline => (h line hline).1) hclosed

theorem spaced_tight (tokens : List (Token db)) : Spaced db tokens (tokens.flatMap Token.text) := by
  induction tokens with
  | nil => exact .nil fun _ hc => absurd hc not_mem_nil
  | cons token tokens ih => exact (Spaced.token token).append ih

end

def firstShared : EdsStatement Ascii.database where
  name := ⟨"A", by decide, by decide, by decide⟩
  first := .plain ⟨"1", by decide, by decide, by decide⟩
  others := []

def secondShared : EdsStatement Ascii.database where
  name := ⟨"B", by decide, by decide, by decide⟩
  first := .plain ⟨"2", by decide, by decide, by decide⟩
  others := []

/-- Both statements on the line `A=1;B=2;`. -/
def sharedLine : Layout Ascii.database [firstShared, secondShared] where
  lines := [{
    tokens := firstShared.tokens ++ secondShared.tokens
    body := (firstShared.tokens ++ secondShared.tokens).flatMap Token.text
    comment := []
    spaced := spaced_tight _
    starts := fun _ h => by cases h
    one_line := by decide }]
  tokens_eq := rfl

/-- Two statements on one line become one assignment. -/
theorem shared_line_read :
    ¬ ∀ (db : CharacterDatabase) (name : Text) (statements : List (EdsStatement db))
      (layout : Layout db statements), List.Forall₂ ReadAs
        (buildSection db name (layout.lines.map (·.text))).assignments statements := by
  intro h
  have hlength := (h Ascii.database "S" _ sharedLine).length_eq
  revert hlength
  decide +kernel

end TwinForge.Eds
