import TwinForge.Discovery.SnmprecRecording

/-! # What becomes of the lines of a recording

Every line that ends with a line feed is recorded or kept unparsed, once and in order, as
long as no other character ends a line within it. Where one does, only some lines come through
unharmed.
-/

namespace TwinForge.Discovery.Snmprec

open Lines List

/-- A line with an object identifier, a type code and a value of the type. -/
inductive Reads (db : CharacterDatabase) (line : Text) : Text → SnmprecValue → Prop where
  | integer {oid typeCode raw : Text} {value : Int}
      (line_eq : line = oid ++ '|' :: (typeCode ++ '|' :: raw)) (oid_bar : '|' ∉ oid)
      (type_bar : '|' ∉ typeCode) (type_integer : typeCode ∈ integerTypes)
      (read : readInt db raw = some value) : Reads db line oid ⟨typeCode, .integer value⟩
  | text {oid typeCode raw : Text}
      (line_eq : line = oid ++ '|' :: (typeCode ++ '|' :: raw)) (oid_bar : '|' ∉ oid)
      (type_bar : '|' ∉ typeCode) (type_text : typeCode ∉ integerTypes) :
      Reads db line oid ⟨typeCode, .text raw⟩

/-- A line that is neither blank nor a comment. -/
def Stated (line : Text) : Prop := line ≠ [] ∧ line.head? ≠ some '#'

instance (line : Text) : Decidable (Stated line) := by
  unfold Stated
  infer_instance

def Malformed (db : CharacterDatabase) (line : Text) : Prop :=
  Stated line ∧ ∀ oid value, ¬ Reads db line oid value

/-- The outcome that a numbered line must have. -/
inductive Accounts (db : CharacterDatabase) : Text × Nat → LineOutcome → Prop where
  | recorded {line oid : Text} {number : Nat} {value : SnmprecValue}
      (reads : Reads db line oid value) : Accounts db (line, number) (.recorded oid value)
  | unparsed {line : Text} {number : Nat} (malformed : Malformed db line) :
      Accounts db (line, number) (.unparsed ⟨number, line,
        if (recordFields line).isSome then "integer_value" else "syntax"⟩)

/-! ## Single lines -/

variable {oid : Text} {number : Nat} {outcome : LineOutcome}

section

variable {db : CharacterDatabase} {line : Text}

theorem recordFields_eq_some {typeCode raw : Text} :
    recordFields line = some (oid, typeCode, raw) ↔
      line = oid ++ '|' :: (typeCode ++ '|' :: raw) ∧ '|' ∉ oid ∧ '|' ∉ typeCode := by
  unfold recordFields
  constructor
  · intro h
    split at h
    · cases h
    · next front rest hfirst =>
      split at h
      · cases h
      · next second back hsecond =>
        cases h
        have ⟨hline, hoid⟩ := cutAt_eq_some.mp hfirst
        have ⟨hrest, htype⟩ := cutAt_eq_some.mp hsecond
        exact ⟨by rw [hline, hrest], hoid, htype⟩
  · intro ⟨hline, hoid, htype⟩
    rw [cutAt_eq_some.mpr ⟨hline, hoid⟩]
    simp only
    rw [cutAt_eq_some.mpr ⟨rfl, htype⟩]

theorem reads_iff {value : SnmprecValue} :
    Reads db line oid value ↔ ∃ typeCode raw, recordFields line = some (oid, typeCode, raw) ∧
      ((typeCode ∈ integerTypes ∧ ∃ integer, readInt db raw = some integer ∧
          value = ⟨typeCode, .integer integer⟩) ∨
        (typeCode ∉ integerTypes ∧ value = ⟨typeCode, .text raw⟩)) := by
  constructor
  · intro h
    cases h with
    | integer hline hoid htype hinteger hread =>
      exact ⟨_, _, recordFields_eq_some.mpr ⟨hline, hoid, htype⟩,
        .inl ⟨hinteger, _, hread, rfl⟩⟩
    | text hline hoid htype htext =>
      exact ⟨_, _, recordFields_eq_some.mpr ⟨hline, hoid, htype⟩, .inr ⟨htext, rfl⟩⟩
  · intro ⟨typeCode, raw, hfields, hvalue⟩
    have ⟨hline, hoid, htype⟩ := recordFields_eq_some.mp hfields
    cases hvalue with
    | inl hinteger =>
      have ⟨hmem, integer, hread, hvalue⟩ := hinteger
      rw [hvalue]
      exact .integer hline hoid htype hmem hread
    | inr htext =>
      rw [htext.2]
      exact .text hline hoid htype htext.1

theorem reads_unique {other : Text} {value found : SnmprecValue}
    (h : Reads db line oid value) (hother : Reads db line other found) :
    oid = other ∧ value = found := by
  have ⟨typeCode, raw, hfields, hvalue⟩ := reads_iff.mp h
  have ⟨_, _, hsame, hfound⟩ := reads_iff.mp hother
  rw [hfields] at hsame
  cases hsame
  refine ⟨rfl, ?_⟩
  rcases hvalue with ⟨htype, integer, hread, hvalue⟩ | ⟨htype, hvalue⟩
  · rcases hfound with ⟨_, _, hagain, hfound⟩ | ⟨htext, _⟩
    · rw [hread, Option.some.injEq] at hagain
      rw [hvalue, hfound, hagain]
    · exact absurd htype htext
  · rcases hfound with ⟨hinteger, _⟩ | ⟨_, hfound⟩
    · exact absurd hinteger htype
    · rw [hvalue, hfound]

theorem Accounts.unique {entry : Text × Nat} {found : LineOutcome}
    (h : Accounts db entry outcome) (hfound : Accounts db entry found) : outcome = found := by
  cases h with
  | recorded hreads =>
    cases hfound with
    | recorded hagain =>
      have ⟨hoid, hvalue⟩ := reads_unique hreads hagain
      rw [hoid, hvalue]
    | unparsed hmalformed => exact absurd hreads (hmalformed.2 _ _)
  | unparsed hmalformed =>
    cases hfound with
    | recorded hreads => exact absurd hreads (hmalformed.2 _ _)
    | unparsed _ => rfl

theorem lineOutcome_accounts (db : CharacterDatabase) (number : Nat) (h : Stated line) :
    ∃ outcome, lineOutcome db number line = some outcome ∧ Accounts db (line, number) outcome := by
  have hmalformed := fun hnone => @Accounts.unparsed db line number ⟨h, hnone⟩
  unfold lineOutcome
  rw [if_neg (not_or.mpr h)]
  cases hfields : recordFields line with
  | none =>
    rw [hfields] at hmalformed
    refine ⟨_, rfl, hmalformed fun oid value hreads => ?_⟩
    have ⟨_, _, hsome, _⟩ := reads_iff.mp hreads
    rw [hfields] at hsome
    cases hsome
  | some fields =>
    have ⟨oid, typeCode, raw⟩ := fields
    simp only
    by_cases htype : typeCode ∈ integerTypes
    · rw [if_pos htype]
      cases hint : readInt db raw with
      | some integer =>
        exact ⟨_, rfl,
          .recorded (reads_iff.mpr ⟨_, _, hfields, .inl ⟨htype, integer, hint, rfl⟩⟩)⟩
      | none =>
        rw [hfields] at hmalformed
        refine ⟨_, rfl, hmalformed fun other value hreads => ?_⟩
        have ⟨_, _, hsome, hvalue⟩ := reads_iff.mp hreads
        rw [hfields] at hsome
        cases hsome
        simp [htype, hint] at hvalue
    · rw [if_neg htype]
      exact ⟨_, rfl, .recorded (reads_iff.mpr ⟨_, _, hfields, .inr ⟨htype, rfl⟩⟩)⟩

theorem lineOutcome_eq_none : lineOutcome db number line = none ↔ ¬ Stated line := by
  constructor
  · intro h hstated
    have ⟨outcome, hsome, _⟩ := lineOutcome_accounts db number hstated
    rw [h] at hsome
    cases hsome
  · intro h
    unfold lineOutcome
    rw [if_pos (by rwa [Stated, not_and_or, not_not, not_not] at h)]

theorem lineOutcome_eq_some :
    lineOutcome db number line = some outcome ↔
      Stated line ∧ Accounts db (line, number) outcome := by
  constructor
  · intro h
    have hstated : Stated line := by
      by_contra hother
      rw [lineOutcome_eq_none.mpr hother] at h
      cases h
    have ⟨found, hfound, haccounts⟩ := lineOutcome_accounts db number hstated
    rw [h] at hfound
    cases hfound
    exact ⟨hstated, haccounts⟩
  · intro ⟨hstated, haccounts⟩
    have ⟨found, hfound, hother⟩ := lineOutcome_accounts db number hstated
    rw [hfound, hother.unique haccounts]

theorem lineOutcome_number (h : ¬ Malformed db line) (number other : Nat) :
    lineOutcome db number line = lineOutcome db other line := by
  by_cases hstated : Stated line
  · have ⟨outcome, houtcome, haccounts⟩ := lineOutcome_accounts db number hstated
    cases haccounts with
    | recorded hreads => rw [houtcome, lineOutcome_eq_some.mpr ⟨hstated, .recorded hreads⟩]
    | unparsed hmalformed => exact absurd hmalformed h
  · rw [lineOutcome_eq_none.mpr hstated, lineOutcome_eq_none.mpr hstated]

end

/-! ## Outcomes of lines -/

variable {lines : List Text}

section

variable (db : CharacterDatabase)

/-- The outcomes of the loop over numbered lines, in order. -/
def outcomes : Nat → List Text → List LineOutcome
  | _, [] => []
  | number, line :: lines => (lineOutcome db number line).toList ++ outcomes (number + 1) lines

theorem readLines_eq (number : Nat) (lines : List Text) (recording : SnmprecRecording) :
    readLines db number lines recording =
      (outcomes db number lines).foldl SnmprecRecording.add recording := by
  induction lines generalizing number recording with
  | nil => rfl
  | cons line lines ih =>
    rw [readLines, ih, outcomes, foldl_append, readLine]
    cases lineOutcome db number line <;> rfl

variable {db}

theorem outcomes_append (number : Nat) (first second : List Text) :
    outcomes db number (first ++ second) =
      outcomes db number first ++ outcomes db (number + first.length) second := by
  induction first generalizing number with
  | nil => rfl
  | cons line first ih =>
    rw [cons_append, outcomes, outcomes, ih, append_assoc, length_cons,
      Nat.add_right_comm, Nat.add_assoc]

theorem outcomes_singleton (number : Nat) (line : Text) :
    outcomes db number [line] = (lineOutcome db number line).toList := by
  rw [outcomes, outcomes, append_nil]

theorem outcomes_empty (number : Nat) (lines : List Text) :
    outcomes db number (lines ++ [[]]) = outcomes db number lines := by
  have hempty : outcomes db (number + lines.length) [[]] = [] := rfl
  rw [outcomes_append, hempty, append_nil]

theorem outcomes_unstated (h : ∀ line ∈ lines, ¬ Stated line) :
    outcomes db number lines = [] := by
  induction lines generalizing number with
  | nil => rfl
  | cons line lines ih =>
    rw [outcomes, lineOutcome_eq_none.mpr (h line mem_cons_self),
      ih fun other hother => h other (mem_cons_of_mem line hother)]
    rfl

theorem outcomes_eq_nil (h : outcomes db number lines = []) :
    ∀ line ∈ lines, ¬ Stated line := by
  induction lines generalizing number with
  | nil => exact fun _ hmem => absurd hmem not_mem_nil
  | cons line lines ih =>
    have ⟨hfirst, hrest⟩ := append_eq_nil_iff.mp h
    intro other hother
    cases mem_cons.mp hother with
    | inl hsame =>
      rw [hsame]
      exact lineOutcome_eq_none.mp (Option.toList_eq_nil_iff.mp hfirst)
    | inr hmem => exact ih hrest other hmem

theorem mem_outcomes (h : outcome ∈ outcomes db number lines) :
    ∃ line ∈ lines, ∃ at', lineOutcome db at' line = some outcome := by
  induction lines generalizing number with
  | nil => cases h
  | cons line lines ih =>
    cases mem_append.mp h with
    | inl hfirst => exact ⟨line, mem_cons_self, number, by simpa using hfirst⟩
    | inr hrest =>
      have ⟨other, hother, houtcome⟩ := ih hrest
      exact ⟨other, mem_cons_of_mem line hother, houtcome⟩

end

/-! ## Lines with an end inside -/

/-- No character of the line ends a line. -/
def Whole (line : Text) : Prop := ∀ c ∈ line, isLineEnd c = false

instance (line : Text) : Decidable (Whole line) := by
  unfold Whole
  infer_instance

/-- The texts of an outcome hold no end of a line. -/
def Clean : LineOutcome → Prop
  | .recorded oid value =>
    Whole oid ∧ Whole value.typeCode ∧ ∀ text, value.value = .text text → Whole text
  | .unparsed line => Whole line.text

/-- A line that comes through although it is cut: a comment in pieces of comments, or an
integer with nothing but ends behind it. -/
inductive Harmless (db : CharacterDatabase) (line : Text) : Prop where
  | comment (starts : line.head? = some '#')
      (quiet : ∀ piece ∈ pieces isLineEnd line, ¬ Stated piece)
  | integer {front ends oid : Text} {value : SnmprecValue} (stated : Stated line)
      (line_eq : line = front ++ ends) (whole : Whole front)
      (ends_only : ∀ c ∈ ends, isLineEnd c = true) (front_reads : Reads db front oid value)
      (line_reads : Reads db line oid value)

/-- Lines that keep their outcomes wherever their numbers begin. -/
def Settled (db : CharacterDatabase) (lines : List Text) : Prop :=
  ∀ line ∈ lines, ¬ Malformed db line ∧ (Whole line ∨ Harmless db line)

/-- From the first line with an end inside on, the lines are settled. -/
def WellEnded (db : CharacterDatabase) (lines : List Text) : Prop :=
  ∀ earlier line later, lines = earlier ++ line :: later → ¬ Whole line →
    Settled db (line :: later)

variable {other : Nat} {text rest : Text}

section

variable {db : CharacterDatabase} {line : Text}

theorem Whole.append {first second : Text} (hfirst : Whole first) (hsecond : Whole second) :
    Whole (first ++ second) := by
  intro c hc
  cases mem_append.mp hc with
  | inl h => exact hfirst c h
  | inr h => exact hsecond c h

theorem Whole.cons {c : Char} {rest : Text} (hc : isLineEnd c = false) (h : Whole rest) :
    Whole (c :: rest) := by
  intro d hd
  cases mem_cons.mp hd with
  | inl hsame => rw [hsame]; exact hc
  | inr hmem => exact h d hmem

theorem bar_no_end : isLineEnd '|' = false := by decide

theorem whole_nil : Whole [] := fun _ h => absurd h not_mem_nil

theorem clean_of_whole (hwhole : Whole line)
    (h : lineOutcome db number line = some outcome) : Clean outcome := by
  have hpart : ∀ {oid typeCode raw : Text}, line = oid ++ '|' :: (typeCode ++ '|' :: raw) →
      Whole oid ∧ Whole typeCode ∧ Whole raw := by
    intro oid typeCode raw hline
    rw [hline] at hwhole
    exact ⟨fun c hc => hwhole c (by simp [hc]), fun c hc => hwhole c (by simp [hc]),
      fun c hc => hwhole c (by simp [hc])⟩
  cases (lineOutcome_eq_some.mp h).2 with
  | unparsed _ => exact hwhole
  | recorded hreads =>
    cases hreads with
    | integer hline =>
      have ⟨hoid, htype, _⟩ := hpart hline
      exact ⟨hoid, htype, nofun⟩
    | text hline =>
      have ⟨hoid, htype, hraw⟩ := hpart hline
      refine ⟨hoid, htype, fun text htext => ?_⟩
      rw [← SnmprecScalar.text.inj htext]
      exact hraw

theorem splitLines_whole (text : Text) : ∀ line ∈ splitLines text, Whole line := by
  induction text using lines_induction with
  | last line hfeed =>
    intro piece hpiece
    have hmem : piece ∈ pieces isLineEnd line := by
      cases splitAt_last isLineEnd hfeed with
      | inl hsame => rw [hsame]; exact hpiece
      | inr hempty => rw [hempty]; exact mem_append_left _ hpiece
    exact mem_pieces hmem
  | more line ending rest hfeed hending ih =>
    intro piece hpiece
    rw [splitLines, splitAt_line (by decide) hfeed hending] at hpiece
    cases mem_append.mp hpiece with
    | inl hmem => exact mem_pieces hmem
    | inr hmem => exact ih piece hmem

/-- A line that is cut and still has a clean outcome is an integer, cut within its value. -/
theorem cut_integer (hcut : ¬ Whole line)
    (h : lineOutcome db number line = some outcome) (hclean : Clean outcome) :
    ∃ front c rest oid typeCode raw value, line = front ++ c :: rest ∧ Whole front ∧
      isLineEnd c = true ∧ front = oid ++ '|' :: (typeCode ++ '|' :: raw) ∧ '|' ∉ oid ∧
      '|' ∉ typeCode ∧ readInt db (raw ++ c :: rest) = some value ∧
      outcome = .recorded oid ⟨typeCode, .integer value⟩ ∧
      Reads db line oid ⟨typeCode, .integer value⟩ := by
  cases (lineOutcome_eq_some.mp h).2 with
  | unparsed _ => exact absurd hclean hcut
  | @recorded _ oid _ value hreads =>
    have ⟨hoid, htype, hvalue⟩ := hclean
    have hread := hreads
    cases hreads with
    | text hline =>
      apply absurd _ hcut
      rw [hline]
      exact hoid.append (.cons bar_no_end (htype.append (.cons bar_no_end (hvalue _ rfl))))
    | @integer typeCode raw value hline hoidBar htypeBar hinteger hint =>
      have ⟨front, c, rest, hcutAt, hfront, hc⟩ := exists_cut hcut
      have hhead : Whole (oid ++ '|' :: (typeCode ++ ['|'])) :=
        hoid.append (.cons bar_no_end (htype.append (.cons bar_no_end whole_nil)))
      have hsame : front ++ c :: rest = (oid ++ '|' :: (typeCode ++ ['|'])) ++ raw := by
        rw [← hcutAt, hline]
        simp
      have hprefix : ∃ shorter, front = (oid ++ '|' :: (typeCode ++ ['|'])) ++ shorter ∧
          raw = shorter ++ c :: rest := by
        rcases append_eq_append_iff.mp hsame with ⟨more, hmore, hback⟩ |
          ⟨shorter, hshorter, hback⟩
        · cases more with
          | nil => exact ⟨[], by simpa using hmore.symm, by simpa using hback.symm⟩
          | cons d more =>
            have hd : c = d := (List.cons.inj hback).1
            have hend := hhead d (by rw [hmore]; simp)
            rw [← hd, hc] at hend
            cases hend
        · exact ⟨shorter, hshorter, hback⟩
      have ⟨shorter, hfrontEq, hraw⟩ := hprefix
      exact ⟨front, c, rest, oid, typeCode, shorter, value, hcutAt, hfront, hc,
        by rw [hfrontEq]; simp, hoidBar, htypeBar, hraw ▸ hint, rfl, hread⟩

theorem readDigits_chars {value found : Nat} {afterDigit : Bool}
    (h : readDigits db value afterDigit text = some found) :
    ∀ c ∈ text, c = '_' ∨ (db.decimalDigit c).isSome := by
  induction text generalizing value afterDigit with
  | nil => exact fun _ hc => absurd hc not_mem_nil
  | cons d text ih =>
    have hrest : ∃ value afterDigit, readDigits db value afterDigit text = some found ∧
        (d = '_' ∨ (db.decimalDigit d).isSome) := by
      unfold readDigits at h
      split at h
      · next hnil => cases hnil
      · next hline =>
        rcases List.cons.inj hline with ⟨hd, htext⟩
        split at h
        · exact ⟨_, _, htext ▸ h, .inl hd⟩
        · cases h
      · next hline =>
        rcases List.cons.inj hline with ⟨hd, htext⟩
        split at h
        · next hdigit => exact ⟨_, _, htext ▸ h, .inr (by rw [hd, hdigit]; rfl)⟩
        · cases h
    rcases hrest with ⟨_, _, hread, hd⟩
    intro c hc
    cases mem_cons.mp hc with
    | inl hsame => rw [hsame]; exact hd
    | inr hmem => exact ih hread c hmem

variable {c : Char}

theorem mem_dropWhile {p : Char → Bool} (h : c ∈ text) :
    p c = true ∨ c ∈ text.dropWhile p := by
  rw [← takeWhile_append_dropWhile (p := p) (l := text), mem_append] at h
  cases h with
  | inl hfront => exact .inl (mem_takeWhile_imp hfront)
  | inr hrest => exact .inr hrest

theorem readInt_hash {value : Int} (h : readInt db text = some value) :
    '#' ∉ text := by
  have hspace : db.isSpace '#' = false := by
    rw [db.space_ascii _ (by decide)]
    rfl
  have hdigit : db.decimalDigit '#' = none := by
    rw [db.decimalDigit_ascii _ (by decide)]
    rfl
  have hdigits : ∀ {rest}, readDigits db 0 false rest ≠ none → '#' ∉ rest := by
    intro rest hsome hmem
    have ⟨found, hread⟩ := Option.ne_none_iff_exists'.mp hsome
    cases readDigits_chars hread '#' hmem with
    | inl hsame => cases hsame
    | inr hsome =>
      rw [hdigit] at hsome
      cases hsome
  have hstrip : '#' ∉ db.strip text := by
    unfold readInt at h
    split at h
    · next rest hrest =>
      rw [hrest]
      simpa using hdigits fun hnone => by rw [hnone] at h; cases h
    · next rest hrest =>
      rw [hrest]
      simpa using hdigits fun hnone => by rw [hnone] at h; cases h
    · exact hdigits fun hnone => by rw [hnone] at h; cases h
  intro hmem
  have hkept : '#' ∈ text.dropWhile db.isSpace := by
    cases mem_dropWhile (p := db.isSpace) hmem with
    | inl hblank => rw [hspace] at hblank; cases hblank
    | inr hrest => exact hrest
  cases mem_dropWhile (p := db.isSpace) (mem_reverse.mpr hkept) with
  | inl hblank => rw [hspace] at hblank; cases hblank
  | inr hrest => exact hstrip (mem_reverse.mpr hrest)

theorem front_stated {front typeCode raw : Text}
    (hfront : front = oid ++ '|' :: (typeCode ++ '|' :: raw)) (hline : line = front ++ c :: rest)
    (hstated : Stated line) : Stated front := by
  have hnonempty : front ≠ [] := by
    rw [hfront]
    simp
  refine ⟨hnonempty, ?_⟩
  rw [hline, Stated] at hstated
  rw [← List.head?_append_of_ne_nil front hnonempty]
  exact hstated.2

theorem cut_outcome (db : CharacterDatabase) {front : Text} (hline : line = front ++ c :: rest)
    (hfront : Whole front) (hc : isLineEnd c = true) (hstated : Stated front) (number : Nat) :
    ∃ outcome, lineOutcome db number front = some outcome ∧
      outcomes db number (pieces isLineEnd line) =
        outcome :: outcomes db (number + 1) (pieces isLineEnd rest) := by
  have ⟨outcome, houtcome, _⟩ := lineOutcome_accounts db number hstated
  refine ⟨outcome, houtcome, ?_⟩
  rw [hline, pieces_cut hfront hc, outcomes, houtcome]
  rfl

theorem line_length_le
    (hclean : ∀ outcome, lineOutcome db other line = some outcome → Clean outcome) (number : Nat) :
    (lineOutcome db other line).toList.length ≤
      (outcomes db number (pieces isLineEnd line)).length := by
  cases houtcome : lineOutcome db other line with
  | none => exact Nat.zero_le _
  | some outcome =>
    have hstated := (lineOutcome_eq_some.mp houtcome).1
    by_cases hwhole : Whole line
    · have ⟨found, hfound, _⟩ := lineOutcome_accounts db number hstated
      rw [pieces_whole hwhole, outcomes_singleton, hfound]
      exact Nat.le_refl 1
    · have ⟨front, c, rest, _, _, _, _, hline, hfront, hc, hfields, _⟩ :=
        cut_integer hwhole houtcome (hclean outcome houtcome)
      have ⟨_, _, hpieces⟩ := cut_outcome db hline hfront hc
        (front_stated hfields hline hstated) number
      rw [hpieces]
      exact Nat.succ_le_succ (Nat.zero_le _)

end

/-! ## Texts line by line -/

section

variable {db : CharacterDatabase} {line ending : Text}

theorem outcomes_last (hfeed : '\n' ∉ line) (number : Nat) :
    outcomes db number (splitLines line) = outcomes db number (pieces isLineEnd line) := by
  cases splitAt_last isLineEnd hfeed with
  | inl hsame => rw [hsame]; rfl
  | inr hempty => rw [hempty, outcomes_empty]; rfl

theorem outcomes_feed_last (hfeed : '\n' ∉ line) (number : Nat) :
    outcomes db number (feedLines line) = (lineOutcome db number line).toList := by
  rw [feedLines_last hfeed]
  by_cases hempty : line = []
  · rw [if_pos hempty, hempty]
    rfl
  · rw [if_neg hempty, outcomes_singleton]

theorem outcomes_more (hfeed : '\n' ∉ line) (hending : LineEnd line ending) (rest : Text)
    (number : Nat) :
    outcomes db number (splitLines (line ++ (ending ++ rest))) =
      outcomes db number (pieces isLineEnd line) ++
        outcomes db (number + (pieces isLineEnd line).length) (splitLines rest) := by
  rw [splitLines, splitAt_line (by decide) hfeed hending, outcomes_append]
  rfl

theorem outcomes_feed_more (hfeed : '\n' ∉ line) (hending : LineEnd line ending) (rest : Text)
    (number : Nat) :
    outcomes db number (feedLines (line ++ (ending ++ rest))) =
      (lineOutcome db number line).toList ++ outcomes db (number + 1) (feedLines rest) := by
  rw [feedLines_line hfeed hending, outcomes]

theorem outcomes_length_le (text : Text) : ∀ number other,
    (∀ outcome ∈ outcomes db other (feedLines text), Clean outcome) →
      (outcomes db other (feedLines text)).length ≤
        (outcomes db number (splitLines text)).length := by
  induction text using lines_induction with
  | last line hfeed =>
    intro number other hclean
    rw [outcomes_feed_last hfeed] at hclean ⊢
    rw [outcomes_last hfeed]
    exact line_length_le (fun outcome h => hclean outcome (by simp [h])) number
  | more line ending rest hfeed hending ih =>
    intro number other hclean
    rw [outcomes_feed_more hfeed hending] at hclean ⊢
    rw [outcomes_more hfeed hending, length_append, length_append]
    have hfirst := line_length_le
      (fun outcome (h : lineOutcome db other line = some outcome) => hclean outcome (by simp [h]))
      number
    have hrest := ih (number + (pieces isLineEnd line).length) (other + 1)
      fun outcome h => hclean outcome (mem_append_right _ h)
    omega

abbrev SettledLine (db : CharacterDatabase) (line : Text) : Prop :=
  ¬ Malformed db line ∧ (Whole line ∨ Harmless db line)

theorem settled_of_eq {first second : List LineOutcome} (hoff : other < number ∨ ¬ Whole line)
    (hclean : ∀ outcome, lineOutcome db other line = some outcome → Clean outcome)
    (hlength : second.length ≤ first.length)
    (h : outcomes db number (pieces isLineEnd line) ++ first =
      (lineOutcome db other line).toList ++ second) :
    SettledLine db line ∧ first = second := by
  by_cases hwhole : Whole line
  · have hlater : other < number := hoff.resolve_right (not_not.mpr hwhole)
    rw [pieces_whole hwhole, outcomes_singleton] at h
    have hwell : ¬ Malformed db line := by
      intro hmalformed
      rw [lineOutcome_eq_some.mpr ⟨hmalformed.1, .unparsed hmalformed⟩,
        lineOutcome_eq_some.mpr ⟨hmalformed.1, .unparsed hmalformed⟩] at h
      have hnumber : number = other ∧ first = second := by simpa using h
      omega
    rw [lineOutcome_number hwell number other] at h
    exact ⟨⟨hwell, .inl hwhole⟩, append_cancel_left h⟩
  · cases houtcome : lineOutcome db other line with
    | none =>
      rw [houtcome] at h
      have hunstated := lineOutcome_eq_none.mp houtcome
      have hlengths := congrArg List.length h
      simp only [length_append, Option.toList_none, length_nil] at hlengths
      have hnil : outcomes db number (pieces isLineEnd line) = [] :=
        eq_nil_of_length_eq_zero (by omega)
      have hstarts : line.head? = some '#' := by
        by_contra hother
        apply hunstated
        refine ⟨fun hempty => hwhole ?_, hother⟩
        rw [hempty]
        exact whole_nil
      rw [hnil] at h
      exact ⟨⟨fun hmalformed => hunstated hmalformed.1,
        .inr (.comment hstarts (outcomes_eq_nil hnil))⟩, h⟩
    | some outcome =>
      have hstated := (lineOutcome_eq_some.mp houtcome).1
      have ⟨front, c, rest, oid, typeCode, raw, value, hline, hfront, hc, hfields, _, _, hint,
        hvalue, hreads⟩ := cut_integer hwhole houtcome (hclean outcome houtcome)
      have hfrontStated := front_stated hfields hline hstated
      have ⟨found, hfound, hpieces⟩ := cut_outcome db hline hfront hc hfrontStated number
      rw [houtcome, hpieces] at h
      have ⟨hsame, hrest⟩ : found = outcome ∧
          outcomes db (number + 1) (pieces isLineEnd rest) ++ first = second :=
        List.cons.inj h
      have hlengths := congrArg List.length hrest
      rw [length_append] at hlengths
      have hnil : outcomes db (number + 1) (pieces isLineEnd rest) = [] :=
        eq_nil_of_length_eq_zero (by omega)
      have hhash : '#' ∉ rest := by
        intro hmem
        exact readInt_hash hint (by simp [hmem])
      have hempty : ∀ piece ∈ pieces isLineEnd rest, piece = [] := by
        intro piece hpiece
        by_contra hsome
        apply outcomes_eq_nil hnil piece hpiece
        refine ⟨hsome, fun hhead => hhash ?_⟩
        exact mem_line hpiece '#' (mem_of_mem_head? hhead)
      have hfrontReads : Reads db front oid ⟨typeCode, .integer value⟩ := by
        rw [hsame, hvalue] at hfound
        cases (lineOutcome_eq_some.mp hfound).2 with
        | recorded hread => exact hread
      have hends : ∀ d ∈ c :: rest, isLineEnd d = true := by
        intro d hd
        cases mem_cons.mp hd with
        | inl hsame => rw [hsame]; exact hc
        | inr hmem => exact all_ends hempty d hmem
      rw [hnil] at hrest
      exact ⟨⟨fun hmalformed => hmalformed.2 oid _ hreads,
        .inr (.integer hstated hline hfront hends hfrontReads hreads)⟩, hrest⟩

theorem eq_of_settled (h : SettledLine db line)
    (number other : Nat) :
    outcomes db number (pieces isLineEnd line) = (lineOutcome db other line).toList := by
  cases h.2 with
  | inl hwhole =>
    rw [pieces_whole hwhole, outcomes_singleton, lineOutcome_number h.1 number other]
  | inr hharmless =>
    cases hharmless with
    | comment hstarts hquiet =>
      have hunstated : ¬ Stated line := fun hstated => hstated.2 hstarts
      rw [outcomes_unstated hquiet, lineOutcome_eq_none.mpr hunstated]
      rfl
    | @integer front ends oid value hstated hline hfront hends hfrontReads hreads =>
      have houtcome : lineOutcome db other line = some (.recorded oid value) :=
        lineOutcome_eq_some.mpr ⟨hstated, .recorded hreads⟩
      cases ends with
      | nil =>
        rw [append_nil] at hline
        rw [← hline] at hfront
        rw [pieces_whole hfront, outcomes_singleton, lineOutcome_number h.1 number other]
      | cons c ends =>
        have hfrontStated : Stated front := by
          have ⟨_, _, hfields, _⟩ := reads_iff.mp hfrontReads
          exact front_stated (recordFields_eq_some.mp hfields).1 hline hstated
        have hfound : lineOutcome db number front = some (.recorded oid value) :=
          lineOutcome_eq_some.mpr ⟨hfrontStated, .recorded hfrontReads⟩
        have hempty := pieces_ends fun d hd => hends d (mem_cons_of_mem c hd)
        have hunstated : ∀ piece ∈ pieces isLineEnd ends, ¬ Stated piece :=
          fun piece hpiece hstated => hstated.1 (hempty piece hpiece)
        rw [hline, pieces_cut hfront (hends c mem_cons_self), outcomes, hfound,
          outcomes_unstated hunstated, ← hline, houtcome]
        rfl

theorem settled_cons :
    Settled db (line :: lines) ↔
      SettledLine db line ∧ Settled db lines := by
  simp [Settled]

theorem settled_feed_last (hfeed : '\n' ∉ line) :
    Settled db (feedLines line) ↔ SettledLine db line := by
  rw [feedLines_last hfeed]
  by_cases hempty : line = []
  · rw [if_pos hempty, hempty]
    have hnil : SettledLine db [] :=
      ⟨fun hmalformed => hmalformed.1.1 rfl, .inl whole_nil⟩
    simpa [Settled] using hnil
  · rw [if_neg hempty]
    simp [Settled]

theorem clean_outcomes (h : outcome ∈ outcomes db number (splitLines text)) : Clean outcome := by
  have ⟨line, hline, _, houtcome⟩ := mem_outcomes h
  exact clean_of_whole (splitLines_whole text line hline) houtcome

theorem pieces_length_pos (line : Text) : 0 < (pieces isLineEnd line).length :=
  length_pos_iff.mpr (pieces_ne_nil isLineEnd line)

theorem pieces_length_cut (hcut : ¬ Whole line) : 1 < (pieces isLineEnd line).length := by
  have ⟨front, c, rest, hline, hfront, hc⟩ := exists_cut hcut
  rw [hline, pieces_cut hfront hc, length_cons]
  exact Nat.succ_lt_succ (pieces_length_pos rest)

theorem settled_more (hfeed : '\n' ∉ line)
    (hending : LineEnd line ending) (hoff : other < number ∨ ¬ Whole line) :
    outcomes db number (splitLines (line ++ (ending ++ rest))) =
        outcomes db other (feedLines (line ++ (ending ++ rest))) ↔
      SettledLine db line ∧
      outcomes db (number + (pieces isLineEnd line).length) (splitLines rest) =
        outcomes db (other + 1) (feedLines rest) := by
  rw [outcomes_more hfeed hending, outcomes_feed_more hfeed hending]
  constructor
  · intro h
    have hclean : ∀ outcome ∈ (lineOutcome db other line).toList ++
        outcomes db (other + 1) (feedLines rest), Clean outcome := by
      intro outcome hmem
      rw [← h, ← outcomes_more hfeed hending] at hmem
      exact clean_outcomes hmem
    apply settled_of_eq hoff _ _ h
    · exact fun outcome houtcome => hclean outcome (by simp [houtcome])
    · exact outcomes_length_le rest _ _ fun outcome hmem =>
        hclean outcome (mem_append_right _ hmem)
  · intro ⟨hsettled, hrest⟩
    rw [eq_of_settled hsettled number other, hrest]

theorem settled_last (hfeed : '\n' ∉ line) (hoff : other < number ∨ ¬ Whole line) :
    outcomes db number (splitLines line) = outcomes db other (feedLines line) ↔
      SettledLine db line := by
  rw [outcomes_last hfeed, outcomes_feed_last hfeed]
  constructor
  · intro h
    have hclean : ∀ outcome, lineOutcome db other line = some outcome → Clean outcome := by
      intro outcome houtcome
      rw [houtcome, ← outcomes_last hfeed] at h
      have hmem : outcome ∈ outcomes db number (splitLines line) := by
        rw [h]
        simp
      exact clean_outcomes hmem
    have hends : outcomes db number (pieces isLineEnd line) ++ [] =
        (lineOutcome db other line).toList ++ [] := congrArg (· ++ []) h
    exact (settled_of_eq hoff hclean (Nat.le_refl _) hends).1
  · exact fun h => eq_of_settled h number other

theorem settled_iff (text : Text) : ∀ number other, other < number →
    (outcomes db number (splitLines text) = outcomes db other (feedLines text) ↔
      Settled db (feedLines text)) := by
  induction text using lines_induction with
  | last line hfeed =>
    intro number other hoff
    rw [settled_last hfeed (.inl hoff), settled_feed_last hfeed]
  | more line ending rest hfeed hending ih =>
    intro number other hoff
    have := pieces_length_pos line
    rw [settled_more hfeed hending (.inl hoff), ih _ _ (by omega), feedLines_line hfeed hending,
      settled_cons]

theorem wellEnded_whole (hwhole : Whole line) :
    WellEnded db (line :: lines) ↔ WellEnded db lines := by
  constructor
  · intro h earlier other later hlines
    exact h (line :: earlier) other later (by rw [hlines]; rfl)
  · intro h earlier other later hlines hcut
    cases earlier with
    | nil =>
      have hsame : line = other := (List.cons.inj hlines).1
      exact absurd (hsame ▸ hwhole) hcut
    | cons first earlier => exact h earlier other later (List.cons.inj hlines).2 hcut

theorem wellEnded_cut (hcut : ¬ Whole line) :
    WellEnded db (line :: lines) ↔ Settled db (line :: lines) := by
  constructor
  · exact fun h => h [] line lines rfl hcut
  · intro h earlier other later hlines _ next hnext
    exact h next (by rw [hlines]; exact mem_append_right earlier hnext)

/-- The outcomes of the loop are those of the lines of the line feeds exactly where the lines
are well ended. -/
theorem wellEnded_iff (text : Text) : ∀ number,
    outcomes db number (splitLines text) = outcomes db number (feedLines text) ↔
      WellEnded db (feedLines text) := by
  induction text using lines_induction with
  | last line hfeed =>
    intro number
    by_cases hwhole : Whole line
    · rw [outcomes_last hfeed, outcomes_feed_last hfeed, pieces_whole hwhole, outcomes_singleton,
        feedLines_last hfeed]
      apply iff_of_true rfl
      by_cases hempty : line = []
      · rw [if_pos hempty]
        intro earlier other later hlines
        simp at hlines
      · rw [if_neg hempty, wellEnded_whole hwhole]
        intro earlier other later hlines
        simp at hlines
    · have hsome : line ≠ [] := fun hempty => hwhole (hempty ▸ whole_nil)
      rw [settled_last hfeed (.inr hwhole), ← settled_feed_last hfeed, feedLines_last hfeed,
        if_neg hsome, wellEnded_cut hwhole]
  | more line ending rest hfeed hending ih =>
    intro number
    by_cases hwhole : Whole line
    · rw [outcomes_more hfeed hending, outcomes_feed_more hfeed hending, pieces_whole hwhole,
        outcomes_singleton, append_cancel_left_eq, length_singleton, ih,
        feedLines_line hfeed hending, wellEnded_whole hwhole]
    · have := pieces_length_cut hwhole
      rw [settled_more hfeed hending (.inr hwhole), settled_iff rest _ _ (by omega),
        feedLines_line hfeed hending, wellEnded_cut hwhole, settled_cons]

end

/-! ## Recordings -/

/-- The lines of a payload that are neither blank nor comments, with their numbers. -/
def statedLines (payload : List UInt8) : List (Text × Nat) :=
  ((feedLines (decodePayload payload)).zipIdx 1).filter (fun entry => Stated entry.1)

def SnmprecRecording.keptAt (recording : SnmprecRecording) (number : Nat) : List Text :=
  (recording.unparsedLines.filter (fun kept => kept.number = number)).map (·.text)

/-- The outcomes of the loop are one for each stated line, in order; in the recording, a
line with a value has it recorded, unless a later line has another for its identifier, and
a malformed line is kept under its number. -/
structure LinesAccounted (db : CharacterDatabase) (payload : List UInt8)
    (recording : SnmprecRecording) : Prop where
  accounts : List.Forall₂ (Accounts db) (statedLines payload)
    (outcomes db 1 (splitLines (decodePayload payload)))
  recorded : ∀ earlier line number later oid value,
    statedLines payload = earlier ++ (line, number) :: later → Reads db line oid value →
      recording.keptAt number = [] ∧
      ((∀ next ∈ later, ∀ other, ¬ Reads db next.1 oid other) →
        recording.records.get? oid = some value)
  unparsed : ∀ line number, (line, number) ∈ statedLines payload → Malformed db line →
    recording.keptAt number = [line]

section

variable {db : CharacterDatabase}

theorem forall₂_split {A B : Type} {relation : A → B → Prop} {front back : List A} {item : A}
    {results : List B} (h : List.Forall₂ relation (front ++ item :: back) results) :
    ∃ first result second, results = first ++ result :: second ∧
      List.Forall₂ relation front first ∧ relation item result ∧
      List.Forall₂ relation back second := by
  induction front generalizing results with
  | nil =>
    cases h with
    | cons hitem hback => exact ⟨[], _, _, rfl, .nil, hitem, hback⟩
  | cons other front ih =>
    cases h with
    | cons hother hrest =>
      have ⟨first, result, second, hresults, hfront, hitem, hback⟩ := ih hrest
      exact ⟨_ :: first, result, second, by rw [hresults]; rfl, .cons hother hfront, hitem,
        hback⟩

theorem statedLines_pairwise (payload : List UInt8) :
    (statedLines payload).Pairwise (fun first second => first.2 < second.2) := by
  apply List.Pairwise.filter
  apply pairwise_map.mp
  rw [List.zipIdx_map_snd]
  exact pairwise_lt_range'

theorem outcomes_stated (db : CharacterDatabase) (lines : List Text) (number : Nat) : List.Forall₂ (Accounts db)
    ((lines.zipIdx number).filter (fun entry => Stated entry.1)) (outcomes db number lines) := by
  induction lines generalizing number with
  | nil => exact .nil
  | cons line lines ih =>
    rw [List.zipIdx_cons, outcomes]
    by_cases hstated : Stated line
    · have ⟨outcome, houtcome, _⟩ := lineOutcome_accounts db number hstated
      rw [filter_cons_of_pos (by simpa using hstated), houtcome]
      exact .cons (lineOutcome_eq_some.mp houtcome).2 (ih (number + 1))
    · rw [filter_cons_of_neg (by simpa using hstated), lineOutcome_eq_none.mpr hstated]
      exact ih (number + 1)

theorem accounts_unique {entries : List (Text × Nat)} {first second : List LineOutcome}
    (hfirst : List.Forall₂ (Accounts db) entries first)
    (hsecond : List.Forall₂ (Accounts db) entries second) : first = second := by
  induction hfirst generalizing second with
  | nil => cases hsecond; rfl
  | cons hhere _ ih =>
    cases hsecond with
    | cons hthere hrest => rw [hhere.unique hthere, ih hrest]

theorem accounts_iff (payload : List UInt8) :
    List.Forall₂ (Accounts db) (statedLines payload)
        (outcomes db 1 (splitLines (decodePayload payload))) ↔
      outcomes db 1 (splitLines (decodePayload payload)) =
        outcomes db 1 (feedLines (decodePayload payload)) := by
  have hlines := outcomes_stated db (feedLines (decodePayload payload)) 1
  constructor
  · exact fun h => accounts_unique h hlines
  · intro h
    rw [h]
    exact hlines

def LineOutcome.keptAt (number : Nat) : LineOutcome → List Text
  | .recorded _ _ => []
  | .unparsed line => if line.number = number then [line.text] else []

theorem keptAt_foldl (number : Nat) (results : List LineOutcome) (recording : SnmprecRecording) :
    (results.foldl SnmprecRecording.add recording).keptAt number =
      recording.keptAt number ++ results.flatMap (·.keptAt number) := by
  induction results generalizing recording with
  | nil => simp
  | cons outcome results ih =>
    have hstep : (recording.add outcome).keptAt number =
        recording.keptAt number ++ outcome.keptAt number := by
      cases outcome with
      | recorded oid value => simp [SnmprecRecording.add, SnmprecRecording.keptAt,
          LineOutcome.keptAt]
      | unparsed line =>
        by_cases hnumber : line.number = number <;>
          simp [SnmprecRecording.add, SnmprecRecording.keptAt, LineOutcome.keptAt, hnumber]
    rw [foldl_cons, ih, hstep, flatMap_cons, append_assoc]

theorem keptAt_other {entries : List (Text × Nat)} {results : List LineOutcome}
    (h : List.Forall₂ (Accounts db) entries results) (hother : ∀ entry ∈ entries, entry.2 ≠ number) :
    results.flatMap (·.keptAt number) = [] := by
  rw [flatMap_eq_nil_iff]
  intro outcome houtcome
  have ⟨entry, hentry, haccounts⟩ := Guards.exists_item h houtcome
  cases haccounts with
  | recorded _ => rfl
  | unparsed _ => exact if_neg (hother _ hentry)

theorem records_foldl {results : List LineOutcome} (recording : SnmprecRecording)
    (h : ∀ value, LineOutcome.recorded oid value ∉ results) :
    (results.foldl SnmprecRecording.add recording).records.get? oid =
      recording.records.get? oid := by
  induction results generalizing recording with
  | nil => rfl
  | cons outcome results ih =>
    rw [foldl_cons, ih _ fun value hmem => h value (mem_cons_of_mem outcome hmem)]
    cases outcome with
    | unparsed line => rfl
    | recorded other value =>
      have hother : oid ≠ other := by
        intro hsame
        exact h value (by rw [hsame]; exact mem_cons_self)
      rw [SnmprecRecording.add, Dictionary.get?_set, if_neg hother]

theorem linesAccounted_of_accounts {payload : List UInt8}
    (h : List.Forall₂ (Accounts db) (statedLines payload)
      (outcomes db 1 (splitLines (decodePayload payload)))) :
    LinesAccounted db payload (readLines db 1 (splitLines (decodePayload payload)) {}) := by
  have hsplit : ∀ {earlier line number later}, statedLines payload = earlier ++ (line, number) :: later →
      ∃ first outcome second, outcomes db 1 (splitLines (decodePayload payload)) =
        first ++ outcome :: second ∧ Accounts db (line, number) outcome ∧
        List.Forall₂ (Accounts db) later second ∧
        (readLines db 1 (splitLines (decodePayload payload)) {}).keptAt number =
          outcome.keptAt number := by
    intro earlier line number later hlines
    have hentries := h
    rw [hlines] at hentries
    have ⟨first, outcome, second, hresults, hfirst, houtcome, hsecond⟩ := forall₂_split hentries
    have hnumbers := statedLines_pairwise payload
    rw [hlines, pairwise_append, pairwise_cons] at hnumbers
    have ⟨_, ⟨hlater, _⟩, hearlier⟩ := hnumbers
    refine ⟨first, outcome, second, hresults, houtcome, hsecond, ?_⟩
    have hbefore := keptAt_other hfirst fun entry hentry =>
      Nat.ne_of_lt (hearlier entry hentry (line, number) mem_cons_self)
    have hafter := keptAt_other hsecond fun entry hentry => Nat.ne_of_gt (hlater entry hentry)
    rw [readLines_eq, keptAt_foldl, hresults, flatMap_append, flatMap_cons, hbefore, hafter]
    simp [SnmprecRecording.keptAt]
  refine ⟨h, ?_, ?_⟩
  · intro earlier line number later oid value hlines hreads
    have ⟨first, outcome, second, hresults, houtcome, hsecond, hkept⟩ := hsplit hlines
    cases houtcome with
    | unparsed hmalformed => exact absurd hreads (hmalformed.2 oid value)
    | recorded hsame =>
      have ⟨hoid, hvalue⟩ := reads_unique hreads hsame
      refine ⟨hkept, fun hlast => ?_⟩
      have hnone : ∀ other, LineOutcome.recorded oid other ∉ second := by
        intro other hmem
        have ⟨entry, hentry, haccounts⟩ := Guards.exists_item hsecond hmem
        cases haccounts with
        | recorded hread => exact hlast _ hentry other hread
      rw [readLines_eq, hresults, foldl_append, foldl_cons, records_foldl _ hnone,
        SnmprecRecording.add, Dictionary.get?_set, if_pos hoid, hvalue]
  · intro line number hmem hmalformed
    have ⟨earlier, later, hlines⟩ := append_of_mem hmem
    have ⟨_, outcome, _, _, houtcome, _, hkept⟩ := hsplit hlines
    rw [hkept]
    cases houtcome with
    | recorded hreads => exact absurd hreads (hmalformed.2 _ _)
    | unparsed _ => exact if_pos rfl

end

/-- Every stated line of a payload is accounted for exactly when its lines are well ended. -/
theorem recording_accounts_iff (db : CharacterDatabase) (payload : List UInt8) :
    (∃ recording, readSnmprecRecording db none payload = .ok recording ∧
        LinesAccounted db payload recording) ↔
      WellEnded db (feedLines (decodePayload payload)) := by
  have hread : readSnmprecRecording db none payload =
      .ok (readLines db 1 (splitLines (decodePayload payload)) {}) := rfl
  rw [← wellEnded_iff (decodePayload payload) 1, ← accounts_iff]
  constructor
  · intro ⟨recording, _, haccounted⟩
    exact haccounted.accounts
  · exact fun h => ⟨_, hread, linesAccounted_of_accounts h⟩

/-- A vertical tab in a value ends the line there. -/
theorem recording_cut : ¬ ∀ payload, ∃ recording,
    readSnmprecRecording Ascii.database none payload = .ok recording ∧
      LinesAccounted Ascii.database payload recording := by
  intro hall
  have htext : decodePayload (Points.utf8Bytes ("1.3|4|a\x0bb\n" : Text)) = "1.3|4|a\x0bb\n" := by
    rw [decodePayload, Points.decodeUtf8_utf8Bytes]
  have ⟨recording, hrecording, haccounted⟩ := hall (Points.utf8Bytes ("1.3|4|a\x0bb\n" : Text))
  have hstated : statedLines (Points.utf8Bytes ("1.3|4|a\x0bb\n" : Text)) =
      [(("1.3|4|a\x0bb" : Text), 1)] := by
    unfold statedLines
    rw [htext]
    decide
  have hvalue := (haccounted.recorded [] _ 1 [] "1.3" ⟨"4", .text "a\x0bb"⟩ hstated
    (.text rfl (by decide) (by decide) (by decide))).2 (by simp)
  rw [readSnmprecRecording, htext] at hrecording
  have hsame : recording.records.get? "1.3" = some ⟨"4", .text "a"⟩ := by
    rw [← Except.ok.inj hrecording]
    decide
  rw [hsame] at hvalue
  exact absurd hvalue (by decide)

end TwinForge.Discovery.Snmprec
