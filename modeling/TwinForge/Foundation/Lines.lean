import TwinForge.Foundation.Text

/-! # Lines of a text

A text is split at the characters that end a line; a carriage return with its line feed is
one end. A splitter that knows more ends than the line feed cuts the lines of the line feeds
into pieces.
-/

namespace TwinForge.Lines

open List

/-- The lines of a text, without their ends; nothing follows the last end. -/
def splitAt (isEnd : Char → Bool) : Text → List Text
  | [] => []
  | '\r' :: '\n' :: rest => [] :: splitAt isEnd rest
  | c :: rest =>
    if isEnd c then [] :: splitAt isEnd rest
    else match splitAt isEnd rest with
      | [] => [[c]]
      | line :: lines => (c :: line) :: lines

/-- The characters at which `str.splitlines` ends a line. -/
def isLineEnd (c : Char) : Bool :=
  c ∈ ['\n', '\r', '\x0b', '\x0c', '\x1c', '\x1d', '\x1e', '\u0085', '\u2028', '\u2029']

/-- `str.splitlines`. -/
def splitLines (text : Text) : List Text := splitAt isLineEnd text

def cutAt (separator : Char) : Text → Option (Text × Text)
  | [] => none
  | c :: rest =>
    if c = separator then some ([], rest)
    else match cutAt separator rest with
      | none => none
      | some (front, back) => some (c :: front, back)

/-- The lines that end with LF or CR LF. -/
def feedLines (text : Text) : List Text := splitAt (· == '\n') text

def pieces (isEnd : Char → Bool) : Text → List Text
  | [] => [[]]
  | c :: rest =>
    if isEnd c then [] :: pieces isEnd rest
    else match pieces isEnd rest with
      | [] => [[c]]
      | piece :: more => (c :: piece) :: more

inductive LineEnd (line : Text) : Text → Prop where
  | feed (noReturn : line.getLast? ≠ some '\r') : LineEnd line ['\n']
  | returnFeed : LineEnd line ['\r', '\n']

theorem exists_line (text : Text) : '\n' ∉ text ∨
    ∃ line ending rest, '\n' ∉ line ∧ LineEnd line ending ∧ text = line ++ (ending ++ rest) := by
  induction text with
  | nil => exact .inl not_mem_nil
  | cons c text ih =>
    by_cases hfeed : c = '\n'
    · exact .inr ⟨[], ['\n'], text, not_mem_nil, .feed (by simp), by rw [hfeed]; rfl⟩
    · cases ih with
      | inl hnone =>
        left
        intro hmem
        cases mem_cons.mp hmem with
        | inl hsame => exact hfeed hsame.symm
        | inr hrest => exact hnone hrest
      | inr hline =>
        have ⟨line, ending, rest, hnone, hending, htext⟩ := hline
        right
        have hcons : '\n' ∉ c :: line := by
          intro hmem
          cases mem_cons.mp hmem with
          | inl hsame => exact hfeed hsame.symm
          | inr hrest => exact hnone hrest
        cases hending with
        | returnFeed =>
          exact ⟨c :: line, _, rest, hcons, .returnFeed, by rw [htext]; rfl⟩
        | feed hreturn =>
          by_cases hbare : line = [] ∧ c = '\r'
          · exact ⟨[], _, rest, not_mem_nil, .returnFeed, by
              rw [htext, hbare.1, hbare.2]; rfl⟩
          · refine ⟨c :: line, _, rest, hcons, .feed ?_, by rw [htext]; rfl⟩
            cases line with
            | nil =>
              intro hlast
              exact hbare ⟨rfl, by simpa using hlast⟩
            | cons d line => simpa using hreturn

/-- An argument over the lines of a text: the last one without an end, and one more line. -/
theorem lines_induction {motive : Text → Prop} (last : ∀ line, '\n' ∉ line → motive line)
    (more : ∀ line ending rest, '\n' ∉ line → LineEnd line ending → motive rest →
      motive (line ++ (ending ++ rest))) (text : Text) : motive text := by
  match exists_line text with
  | .inl hnone => exact last text hnone
  | .inr ⟨line, ending, rest, hnone, hending, htext⟩ =>
    have hshorter : rest.length < text.length := by
      rw [htext, length_append, length_append]
      cases hending <;> simp <;> omega
    have hrest := lines_induction last more rest
    rw [htext]
    exact more line ending rest hnone hending hrest
termination_by text.length

variable {line ending : Text}

section

variable {isEnd : Char → Bool}

theorem splitAt_cons {c : Char} {rest : Text} (h : ¬ (c = '\r' ∧ rest.head? = some '\n')) :
    splitAt isEnd (c :: rest) =
      if isEnd c then [] :: splitAt isEnd rest
      else match splitAt isEnd rest with
        | [] => [[c]]
        | line :: lines => (c :: line) :: lines := by
  rw [splitAt]
  intro after hreturn hrest
  exact h ⟨hreturn, by rw [hrest]; rfl⟩

theorem pieces_ne_nil (isEnd : Char → Bool) (line : Text) : pieces isEnd line ≠ [] := by
  cases line with
  | nil => simp [pieces]
  | cons c line =>
    unfold pieces
    split
    · simp
    · split <;> simp

theorem splitAt_ending (hfeed : isEnd '\n' = true) (h : LineEnd line ending)
    (rest : Text) : splitAt isEnd (ending ++ rest) = [] :: splitAt isEnd rest := by
  cases h with
  | returnFeed => simp [splitAt]
  | feed _ => simp [splitAt, hfeed]

theorem splitAt_line (hfeed : isEnd '\n' = true) (hline : '\n' ∉ line)
    (h : LineEnd line ending) (rest : Text) :
    splitAt isEnd (line ++ (ending ++ rest)) = pieces isEnd line ++ splitAt isEnd rest := by
  induction line with
  | nil => exact splitAt_ending hfeed h rest
  | cons c line ih =>
    have hmore : LineEnd line ending := by
      cases h with
      | returnFeed => exact .returnFeed
      | feed hreturn =>
        refine .feed ?_
        cases line with
        | nil => simp
        | cons d line => simpa using hreturn
    have hnext : ¬ (c = '\r' ∧ (line ++ (ending ++ rest)).head? = some '\n') := by
      intro ⟨hc, hhead⟩
      cases line with
      | nil =>
        cases h with
        | returnFeed => cases hhead
        | feed hreturn => exact hreturn (by rw [hc]; rfl)
      | cons d line =>
        have hd : d = '\n' := by simpa using hhead
        exact hline (by rw [hd]; simp)
    rw [cons_append, splitAt_cons hnext,
      ih (fun hmem => hline (mem_cons_of_mem c hmem)) hmore, pieces]
    split
    · rfl
    · have hsome := pieces_ne_nil isEnd line
      cases hpieces : pieces isEnd line with
      | nil => exact absurd hpieces hsome
      | cons piece more => rfl

theorem splitAt_last (isEnd : Char → Bool) (hline : '\n' ∉ line) :
    pieces isEnd line = splitAt isEnd line ∨ pieces isEnd line = splitAt isEnd line ++ [[]] := by
  induction line with
  | nil => exact .inr rfl
  | cons c line ih =>
    have hmore : '\n' ∉ line := fun hmem => hline (mem_cons_of_mem c hmem)
    have hnext : ¬ (c = '\r' ∧ line.head? = some '\n') := by
      intro ⟨_, hhead⟩
      exact hmore (mem_of_mem_head? hhead)
    rw [splitAt_cons hnext, pieces]
    by_cases hend : isEnd c = true
    · rw [if_pos hend, if_pos hend]
      cases ih hmore with
      | inl hsame => exact .inl (by rw [hsame])
      | inr hempty => exact .inr (by rw [hempty]; rfl)
    · rw [if_neg hend, if_neg hend]
      cases ih hmore with
      | inl hsame => exact .inl (by rw [hsame])
      | inr hempty =>
        rw [hempty]
        cases splitAt isEnd line with
        | nil => exact .inl rfl
        | cons piece more => exact .inr rfl

theorem pieces_whole (h : ∀ c ∈ line, isEnd c = false) :
    pieces isEnd line = [line] := by
  induction line with
  | nil => rfl
  | cons c line ih =>
    rw [pieces, ih fun d hd => h d (mem_cons_of_mem c hd), if_neg (by simp [h c])]

theorem pieces_cut {front : Text} {c : Char} (hfront : ∀ d ∈ front, isEnd d = false)
    (hc : isEnd c = true) (rest : Text) :
    pieces isEnd (front ++ c :: rest) = front :: pieces isEnd rest := by
  induction front with
  | nil => rw [nil_append, pieces, if_pos hc]
  | cons d front ih =>
    rw [cons_append, pieces, ih fun e he => hfront e (mem_cons_of_mem d he),
      if_neg (by simp [hfront d])]

theorem pieces_append {c : Char} (hc : isEnd c = true) (front rest : Text) :
    pieces isEnd (front ++ c :: rest) = pieces isEnd front ++ pieces isEnd rest := by
  induction front with
  | nil => simp [pieces, hc]
  | cons d front ih =>
    rw [cons_append, pieces, pieces, ih]
    by_cases hd : isEnd d = true
    · rw [if_pos hd, if_pos hd, cons_append]
    · rw [if_neg hd, if_neg hd]
      cases hpieces : pieces isEnd front with
      | nil => exact absurd hpieces (pieces_ne_nil isEnd front)
      | cons piece more => rfl

theorem mem_pieces {piece : Text} (h : piece ∈ pieces isEnd line) :
    ∀ c ∈ piece, isEnd c = false := by
  induction line generalizing piece with
  | nil => simp_all [pieces]
  | cons c line ih =>
    rw [pieces] at h
    by_cases hend : isEnd c = true
    · rw [if_pos hend] at h
      cases mem_cons.mp h with
      | inl hempty => simp [hempty]
      | inr hmem => exact ih hmem
    · rw [if_neg hend] at h
      cases hpieces : pieces isEnd line with
      | nil => exact absurd hpieces (pieces_ne_nil isEnd line)
      | cons first more =>
        rw [hpieces] at h ih
        cases mem_cons.mp h with
        | inl hsame =>
          rw [hsame]
          intro d hd
          cases mem_cons.mp hd with
          | inl hc => simpa [hc] using hend
          | inr hfirst => exact ih mem_cons_self d hfirst
        | inr hmem => exact ih (mem_cons_of_mem first hmem)

theorem mem_line {piece : Text} (h : piece ∈ pieces isEnd line) : ∀ c ∈ piece, c ∈ line := by
  induction line generalizing piece with
  | nil =>
    have hempty : piece = [] := by simpa [pieces] using h
    simp [hempty]
  | cons c line ih =>
    rw [pieces] at h
    by_cases hend : isEnd c = true
    · rw [if_pos hend] at h
      cases mem_cons.mp h with
      | inl hempty => simp [hempty]
      | inr hmem => exact fun d hd => mem_cons_of_mem c (ih hmem d hd)
    · rw [if_neg hend] at h
      cases hpieces : pieces isEnd line with
      | nil => exact absurd hpieces (pieces_ne_nil isEnd line)
      | cons first more =>
        rw [hpieces] at h ih
        cases mem_cons.mp h with
        | inl hsame =>
          rw [hsame]
          intro d hd
          cases mem_cons.mp hd with
          | inl hc => rw [hc]; exact mem_cons_self
          | inr hfirst => exact mem_cons_of_mem c (ih mem_cons_self d hfirst)
        | inr hmem =>
          exact fun d hd =>
            mem_cons_of_mem c (ih (mem_cons_of_mem first hmem) d hd)

theorem all_ends (h : ∀ piece ∈ pieces isEnd line, piece = []) :
    ∀ c ∈ line, isEnd c = true := by
  induction line with
  | nil => exact fun _ hc => absurd hc not_mem_nil
  | cons c line ih =>
    rw [pieces] at h
    by_cases hend : isEnd c = true
    · rw [if_pos hend] at h
      intro d hd
      cases mem_cons.mp hd with
      | inl hsame => rw [hsame]; exact hend
      | inr hmem => exact ih (fun piece hpiece => h piece (mem_cons_of_mem _ hpiece)) d hmem
    · rw [if_neg hend] at h
      cases hpieces : pieces isEnd line with
      | nil => exact absurd hpieces (pieces_ne_nil isEnd line)
      | cons first more =>
        rw [hpieces] at h
        exact absurd (h _ mem_cons_self) (cons_ne_nil c first)

theorem pieces_ends (h : ∀ c ∈ line, isEnd c = true) :
    ∀ piece ∈ pieces isEnd line, piece = [] := by
  induction line with
  | nil => simp [pieces]
  | cons c line ih =>
    rw [pieces, if_pos (h c mem_cons_self)]
    intro piece hpiece
    cases mem_cons.mp hpiece with
    | inl hempty => exact hempty
    | inr hmem => exact ih (fun d hd => h d (mem_cons_of_mem c hd)) piece hmem

theorem exists_cut (h : ¬ ∀ c ∈ line, isEnd c = false) :
    ∃ front c rest, line = front ++ c :: rest ∧ (∀ d ∈ front, isEnd d = false) ∧
      isEnd c = true := by
  induction line with
  | nil => exact absurd (fun _ hc => absurd hc not_mem_nil) h
  | cons c line ih =>
    by_cases hend : isEnd c = true
    · exact ⟨[], c, line, rfl, fun _ hd => absurd hd not_mem_nil, hend⟩
    · have hc : isEnd c = false := by simpa using hend
      have hrest : ¬ ∀ d ∈ line, isEnd d = false := by
        intro hnone
        apply h
        intro d hd
        cases mem_cons.mp hd with
        | inl hsame => rw [hsame]; exact hc
        | inr hmem => exact hnone d hmem
      have ⟨front, d, rest, hline, hfront, hd⟩ := ih hrest
      refine ⟨c :: front, d, rest, by rw [hline]; rfl, ?_, hd⟩
      intro e he
      cases mem_cons.mp he with
      | inl hsame => rw [hsame]; exact hc
      | inr hmem => exact hfront e hmem

end

theorem feedLines_line (hline : '\n' ∉ line) (h : LineEnd line ending)
    (rest : Text) : feedLines (line ++ (ending ++ rest)) = line :: feedLines rest := by
  have hwhole : ∀ c ∈ line, (c == '\n') = false := by
    intro c hc
    rw [beq_eq_false_iff_ne]
    intro hsame
    exact hline (hsame ▸ hc)
  rw [feedLines, splitAt_line (by rfl) hline h, pieces_whole hwhole]
  rfl

theorem feedLines_last (hline : '\n' ∉ line) :
    feedLines line = if line = [] then [] else [line] := by
  have hwhole : ∀ c ∈ line, (c == '\n') = false := by
    intro c hc
    rw [beq_eq_false_iff_ne]
    intro hsame
    exact hline (hsame ▸ hc)
  have hlast := splitAt_last (· == '\n') hline
  rw [pieces_whole hwhole] at hlast
  unfold feedLines
  cases hlast with
  | inl hone =>
    rw [← hone, if_neg]
    intro hempty
    rw [hempty] at hone
    cases hone
  | inr htwo =>
    cases hlines : splitAt (· == '\n') line with
    | nil =>
      rw [hlines] at htwo
      rw [if_pos (by simpa using htwo)]
    | cons first more =>
      rw [hlines] at htwo
      simp at htwo

theorem cutAt_eq_some {separator : Char} {text front back : Text} :
    cutAt separator text = some (front, back) ↔
      text = front ++ separator :: back ∧ separator ∉ front := by
  induction text generalizing front back with
  | nil => simp [cutAt]
  | cons c text ih =>
    rw [cutAt]
    by_cases hbar : c = separator
    · rw [if_pos hbar]
      cases front with
      | nil => simp [hbar]
      | cons d front =>
        simp only [Option.some.injEq, Prod.mk.injEq, cons_append, List.cons.injEq,
          mem_cons, not_or, reduceCtorEq, false_and, false_iff]
        intro ⟨⟨hd, _⟩, hnot, _⟩
        exact hnot (by rw [← hd, hbar])
    · rw [if_neg hbar]
      cases hcut : cutAt separator text with
      | none =>
        simp only [reduceCtorEq, false_iff]
        intro ⟨htext, hfree⟩
        cases front with
        | nil => exact hbar (List.cons.inj htext).1
        | cons d front =>
          have hsome := ih.mpr ⟨(List.cons.inj htext).2, fun h =>
            hfree (mem_cons_of_mem d h)⟩
          rw [hcut] at hsome
          cases hsome
      | some found =>
        have ⟨first, rest⟩ := found
        have ⟨hfirst, hfree⟩ := ih.mp hcut
        simp only [Option.some.injEq, Prod.mk.injEq]
        constructor
        · intro ⟨hfront, hback⟩
          rw [← hfront, ← hback, hfirst]
          refine ⟨rfl, fun hmem => ?_⟩
          cases mem_cons.mp hmem with
          | inl hsame => exact hbar hsame.symm
          | inr hrest => exact hfree hrest
        · intro ⟨htext, hnone⟩
          cases front with
          | nil => exact absurd (List.cons.inj htext).1 hbar
          | cons d front =>
            have ⟨hc, hrest⟩ := List.cons.inj htext
            have hsome := ih.mpr ⟨hrest, fun h => hnone (mem_cons_of_mem d h)⟩
            rw [hcut, Option.some.injEq, Prod.mk.injEq] at hsome
            rw [hsome.1, hsome.2, hc]
            exact ⟨rfl, rfl⟩

end TwinForge.Lines
