import TwinForge.Analysis.CallOrder
import TwinForge.Foundation.Guards

/-! # The captured lines of calls

A call is reported on the captured line whose index is the number of newlines in front of it.
Newlines inside captured texts shift that index.
-/

namespace TwinForge.SoftwareCalls

open StructuredText Forest Fuel Guards List
open Model (Routine Program SoftwareCallSite)

/-! ## Captured lines -/

/-- The index of the captured line that holds an offset, and the number of newlines inside
captured texts in front of the offset. -/
def capturedPlace (start offset : Nat) : List StructuredTextLine → Option (Nat × Nat)
  | [] => none
  | line :: lines =>
    let stop := start + line.text.length
    if offset ≤ stop then some (0, (line.text.take (offset - start)).count '\n')
    else (capturedPlace (stop + 1) offset lines).map fun place =>
      (place.1 + 1, line.text.count '\n' + place.2)

variable {lines : List StructuredTextLine} {offset : Nat}

theorem capturedFrom_eq {start index inside : Nat}
    (h : capturedPlace start offset lines = some (index, inside)) :
    capturedFrom start offset lines = lines[index]? := by
  induction lines generalizing start index inside with
  | nil => cases h
  | cons line lines ih =>
    rw [capturedPlace] at h
    rw [capturedFrom]
    split
    · next hhere =>
      rw [if_pos hhere] at h
      cases h
      rfl
    · next hlater =>
      rw [if_neg hlater] at h
      have ⟨place, hplace, hsame⟩ := Option.map_eq_some_iff.mp h
      cases hsame
      exact ih hplace

def joinedLines (lines : List StructuredTextLine) : Text := joinText "\n" (lines.map (·.text))

theorem joinedLines_cons (line : StructuredTextLine)
    (h : lines ≠ []) : joinedLines (line :: lines) = line.text ++ '\n' :: joinedLines lines := by
  cases lines with
  | nil => exact absurd rfl h
  | cons next lines => rfl

theorem capturedPlace_shift (lines : List StructuredTextLine) (start shift offset : Nat) :
    capturedPlace (start + shift) (offset + shift) lines = capturedPlace start offset lines := by
  induction lines generalizing start with
  | nil => rfl
  | cons line lines ih =>
    have hstop : start + shift + line.text.length = start + line.text.length + shift := by omega
    have hnext : start + line.text.length + shift + 1 = start + line.text.length + 1 + shift := by omega
    have hinside : offset + shift - (start + shift) = offset - start := by omega
    rw [capturedPlace, capturedPlace]
    simp only [hstop, hnext, ih, hinside, Nat.add_le_add_iff_right]

/-- The newlines in front of an offset are those between captured lines and those inside. -/
theorem physicalLine_eq (hlines : lines ≠ []) (hoffset : offset ≤ (joinedLines lines).length) :
    ∃ index inside, capturedPlace 0 offset lines = some (index, inside) ∧ index < lines.length ∧
      physicalLine (joinedLines lines) offset = index + inside := by
  induction lines generalizing offset with
  | nil => exact absurd rfl hlines
  | cons line lines ih =>
    by_cases hhere : offset ≤ line.text.length
    · have hplace : capturedPlace 0 offset (line :: lines) =
          some (0, (line.text.take offset).count '\n') := by
        rw [capturedPlace]
        simp only [Nat.zero_add, if_pos hhere, Nat.sub_zero]
      refine ⟨0, (line.text.take offset).count '\n', hplace, Nat.succ_pos _, ?_⟩
      rw [physicalLine, Nat.zero_add]
      cases hmore : lines with
      | nil =>
        have hone : joinedLines [line] = line.text := by simp [joinedLines, joinText]
        rw [hone]
      | cons next more =>
        rw [joinedLines_cons line (cons_ne_nil next more), take_append_of_le_length hhere]
    · have hmore : lines ≠ [] := by
        intro hnil
        have hone : joinedLines [line] = line.text := by simp [joinedLines, joinText]
        rw [hnil, hone] at hoffset
        exact hhere hoffset
      rw [joinedLines_cons line hmore] at hoffset ⊢
      have hlength : (line.text ++ '\n' :: joinedLines lines).length =
          line.text.length + ((joinedLines lines).length + 1) := by
        rw [length_append, length_cons]
      have hrest : offset - (line.text.length + 1) ≤ (joinedLines lines).length := by omega
      have ⟨index, inside, hplace, hindex, hcount⟩ := ih hmore hrest
      have hback : offset = offset - (line.text.length + 1) + (line.text.length + 1) := by omega
      have hshift := capturedPlace_shift lines 0 (line.text.length + 1)
        (offset - (line.text.length + 1))
      rw [← hback, hplace] at hshift
      have hwhole : capturedPlace 0 offset (line :: lines) =
          some (index + 1, line.text.count '\n' + inside) := by
        rw [capturedPlace]
        simp only [Nat.zero_add, if_neg hhere] at hshift ⊢
        rw [hshift]
        rfl
      refine ⟨index + 1, line.text.count '\n' + inside, hwhole, Nat.succ_lt_succ hindex, ?_⟩
      have htake : (line.text ++ '\n' :: joinedLines lines).take offset =
          line.text ++ '\n' :: (joinedLines lines).take (offset - (line.text.length + 1)) := by
        rw [take_append, take_of_length_le (by omega)]
        have hsplit : offset - line.text.length = offset - (line.text.length + 1) + 1 := by omega
        rw [hsplit, take_succ_cons]
      rw [physicalLine] at hcount ⊢
      rw [htake, count_append, count_cons_self, hcount]
      omega

/-- The line that the newlines in front of an offset select has the number of the captured line
that holds the offset. -/
def Aligned (routine : Routine) (offset : Nat) : Prop :=
  ∃ index inside, capturedPlace 0 offset routine.structuredTextLines = some (index, inside) ∧
    (routine.structuredTextLines[index + inside]?).map (·.number) =
      (routine.structuredTextLines[index]?).map (·.number)

variable {routine : Routine}

theorem aligned_iff (hlines : routine.structuredTextLines ≠ [])
    (hoffset : offset ≤ routine.structuredText.length) :
    Aligned routine offset ↔
      ∃ line, routine.structuredTextLines[physicalLine routine.structuredText offset]? = some line ∧
        line.number = (capturedLine routine offset).bind (·.number) := by
  have ⟨index, inside, hplace, hindex, hphysical⟩ := physicalLine_eq hlines hoffset
  have hcaptured := capturedFrom_eq hplace
  have hheld := List.getElem?_eq_getElem hindex
  change physicalLine routine.structuredText offset = index + inside at hphysical
  rw [hphysical, capturedLine, hcaptured, hheld]
  constructor
  · intro ⟨index', inside', hplace', hnumbers⟩
    rw [hplace, Option.some.injEq, Prod.mk.injEq] at hplace'
    rw [← hplace'.1, ← hplace'.2, hheld] at hnumbers
    exact Option.map_eq_some_iff.mp hnumbers
  · intro ⟨line, hline, hnumber⟩
    refine ⟨index, inside, hplace, ?_⟩
    rw [hline, hheld, Option.map_some, Option.map_some, hnumber]
    rfl

/-! ## The calls of a routine -/

section

variable (db : CharacterDatabase)

def parsedCalls (routine : Routine) : List CallNode :=
  (syntaxCalls db (parseFuel routine.structuredText) routine).getD []

theorem syntaxCalls_eq {fuel : Nat} (hfuel : parseFuel routine.structuredText ≤ fuel) :
    syntaxCalls db fuel routine = some (parsedCalls db routine) := by
  have ⟨document, hdocument⟩ := parseStructuredText_total db routine.structuredText
  have hparsed : ∀ enough, parseFuel routine.structuredText ≤ enough →
      syntaxCalls db enough routine =
        some (if routine.structuredText = [] then [] else statementCalls document.statements) := by
    intro enough henough
    rw [syntaxCalls, hdocument enough henough]
    split <;> rfl
  rw [parsedCalls, hparsed fuel hfuel, hparsed _ (Nat.le_refl _)]
  rfl

def callAt (statements : List Statement) (place : List Nat) : Option CallNode :=
  (nodeAt SyntaxNode.fields (statements.map .statement) place).bind SyntaxNode.call?

/-- A list of calls has every call of a syntax tree once, in source order. -/
structure ListsCalls (statements : List Statement) (calls : List CallNode) : Prop where
  once : ∃ places : List (List Nat), places.Pairwise (· < ·) ∧
    (∀ place, place ∈ places ↔ ∃ call, callAt statements place = some call) ∧
    calls.map some = places.map (callAt statements)
  ordered : (calls.map (·.span.start)).Pairwise (· ≤ ·)

theorem statements_of_empty {fuel : Nat} {document : StructuredTextDocument}
    (h : parseStructuredText db fuel [] = some document) : document.statements = [] := by
  have ⟨front, marker, diagnostics, hlex, htiles, hkind, _⟩ := lexStructuredText_lossless db []
  have hlength := tiles_length [] htiles
  have hfront : front = [] := eq_nil_of_length_eq_zero (by simpa using hlength)
  rw [hfront, nil_append] at hlex
  unfold parseStructuredText at h
  simp only [hlex, Option.bind_eq_bind, Option.bind_some, List.getLast?_singleton,
    dropLast_singleton] at h
  have ⟨⟨statements, q⟩, hlist, hdocument⟩ := Option.bind_eq_some_iff.mp h
  cases hdocument
  cases fuel with
  | zero => cases hlist
  | succ fuel =>
    have hend : (Parser.start [] [] marker diagnostics).current.kind = .endOfFile := hkind
    rw [Parser.statementList, if_pos hend] at hlist
    cases hlist
    rfl

theorem parsedCalls_lists (routine : Routine) :
    ∃ document, Converges (fun fuel => parseStructuredText db fuel routine.structuredText) document ∧
      ListsCalls document.statements (parsedCalls db routine) ∧
      (∀ call ∈ parsedCalls db routine, routine.structuredTextLines ≠ [] ∧
        call.span.start ≤ routine.structuredText.length) := by
  have ⟨document, hdocument⟩ := parseStructuredText_total db routine.structuredText
  have hparsed := hdocument (parseFuel routine.structuredText) (Nat.le_refl _)
  have hcalls : parsedCalls db routine = statementCalls document.statements := by
    rw [parsedCalls, syntaxCalls, hparsed]
    split
    · next hempty =>
      rw [hempty] at hparsed
      rw [statements_of_empty db hparsed]
      rfl
    · rfl
  have hordered := document_ordered hparsed
  refine ⟨document, ⟨_, hdocument⟩, ⟨?_, ?_⟩, ?_⟩
  · rw [hcalls]
    exact calls_placed document.statements
  · rw [hcalls]
    exact hordered.ordered
  · intro call hcall
    have hstart : call.span.start ∈ callStarts (walkStatements document.statements) := by
      rw [hcalls] at hcall
      exact mem_map_of_mem hcall
    refine ⟨fun hnone => ?_, (hordered.bounded _ hstart).2⟩
    have hempty : routine.structuredText = [] := by
      rw [Routine.structuredText, hnone]
      rfl
    rw [parsedCalls, syntaxCalls, if_pos hempty] at hcall
    exact absurd hcall not_mem_nil

/-! ## The calls of a program -/

variable (program : Program)

/-- The site of a call on the captured line that holds its start. -/
def locatedSite (routine : Routine) (call : CallNode) : SoftwareCallSite :=
  siteOn program routine call ((capturedLine routine call.span.start).bind (·.number))

def locatedCalls (routine : Routine) : List SoftwareCallSite :=
  (parsedCalls db routine).map (locatedSite program routine) ++ ladderCalls db program routine

def locatedSites (sourcePath : Option Text) : List SoftwareCallSite :=
  (program.routines.values.flatMap (locatedCalls db program)).map (withPath sourcePath)

def routineOutcome (routine : Routine) : Except IndexError (List SoftwareCallSite) :=
  ((parsedCalls db routine).mapM (callSite program routine)).map (· ++ ladderCalls db program routine)

def programOutcome (sourcePath : Option Text) : Except IndexError (List SoftwareCallSite) :=
  (program.routines.values.mapM (routineOutcome db program)).map fun calls =>
    calls.flatten.map (withPath sourcePath)

theorem extractProgramCalls_converges (sourcePath : Option Text) :
    Converges (fun fuel => extractProgramCalls db fuel program sourcePath)
      (programOutcome db program sourcePath) := by
  have hroutine : ∀ routine ∈ program.routines.values,
      Converges (fun fuel => routineCalls db fuel program routine)
        (routineOutcome db program routine) := by
    intro routine _
    have hcalls : Converges (fun fuel => syntaxCalls db fuel routine) (parsedCalls db routine) :=
      ⟨_, fun _ hfuel => syntaxCalls_eq db hfuel⟩
    exact hcalls.map _
  have hread := (Converges.mapM hroutine).map fun found =>
    (found.mapM id).map fun calls => calls.flatten.map (withPath sourcePath)
  rw [mapM_map] at hread
  exact hread

section

variable {db program} {call : CallNode}

theorem callSite_eq_ok {site : SoftwareCallSite} :
    callSite program routine call = .ok site ↔
      ∃ line, routine.structuredTextLines[physicalLine routine.structuredText call.span.start]? =
        some line ∧ siteOn program routine call line.number = site := by
  rw [callSite]
  cases routine.structuredTextLines[physicalLine routine.structuredText call.span.start]? with
  | none => simp
  | some line => simp

variable {sites : List SoftwareCallSite}

theorem routineOutcome_eq_ok :
    routineOutcome db program routine = .ok sites ↔
      ∃ found, List.Forall₂ (fun call site => callSite program routine call = .ok site)
        (parsedCalls db routine) found ∧ found ++ ladderCalls db program routine = sites := by
  rw [routineOutcome, map_eq_ok]
  simp only [mapM_eq_ok]

variable {sourcePath : Option Text}

theorem programOutcome_eq_ok :
    programOutcome db program sourcePath = .ok sites ↔
      ∃ found, List.Forall₂ (fun routine sites => routineOutcome db program routine = .ok sites)
        program.routines.values found ∧ found.flatten.map (withPath sourcePath) = sites := by
  rw [programOutcome, map_eq_ok]
  simp only [mapM_eq_ok]

theorem programOutcome_returns :
    (∃ sites, programOutcome db program sourcePath = .ok sites) ↔
      ∀ routine ∈ program.routines.values, ∀ call ∈ parsedCalls db routine,
        physicalLine routine.structuredText call.span.start < routine.structuredTextLines.length := by
  have hroutine : ∀ routine, (∃ sites, routineOutcome db program routine = .ok sites) ↔
      ∀ call ∈ parsedCalls db routine,
        physicalLine routine.structuredText call.span.start < routine.structuredTextLines.length := by
    intro routine
    have hcall : ∀ call, (∃ site, callSite program routine call = .ok site) ↔
        physicalLine routine.structuredText call.span.start < routine.structuredTextLines.length := by
      intro call
      simp only [callSite_eq_ok]
      constructor
      · intro ⟨_, line, hline, _⟩
        exact (List.getElem?_eq_some_iff.mp hline).1
      · intro hline
        exact ⟨_, _, List.getElem?_eq_getElem hline, rfl⟩
    simp only [routineOutcome, map_eq_ok, ← hcall, ← exists_mapM_eq_ok]
    constructor
    · intro ⟨_, found, hfound, _⟩
      exact ⟨found, hfound⟩
    · intro ⟨found, hfound⟩
      exact ⟨_, found, hfound, rfl⟩
  simp only [programOutcome, map_eq_ok, ← hroutine, ← exists_mapM_eq_ok]
  constructor
  · intro ⟨_, found, hfound, _⟩
    exact ⟨found, hfound⟩
  · intro ⟨found, hfound⟩
    exact ⟨_, found, hfound, rfl⟩

def reportedNumber (routine : Routine) (call : CallNode) : Option Nat :=
  routine.structuredTextLines[physicalLine routine.structuredText call.span.start]?.bind (·.number)

theorem callSite_number {site : SoftwareCallSite} (h : callSite program routine call = .ok site) :
    site.lineNumber = reportedNumber routine call := by
  have ⟨line, hline, hsite⟩ := callSite_eq_ok.mp h
  rw [reportedNumber, hline, ← hsite]
  rfl

theorem forall₂_map {A B C : Type} {relation : A → B → Prop} {f : A → C} {g : B → C} {items : List A}
    {results : List B} (h : List.Forall₂ relation items results)
    (hsame : ∀ item result, relation item result → g result = f item) : results.map g = items.map f := by
  induction h with
  | nil => rfl
  | cons hhere _ ih => rw [map_cons, map_cons, hsame _ _ hhere, ih]

theorem routineOutcome_numbers (h : routineOutcome db program routine = .ok sites) :
    sites.map (·.lineNumber) = (parsedCalls db routine).map (reportedNumber routine) ++
      (ladderCalls db program routine).map (·.lineNumber) := by
  have ⟨found, hfound, hsites⟩ := routineOutcome_eq_ok.mp h
  rw [← hsites, map_append, forall₂_map hfound fun _ _ hsite => callSite_number hsite]

theorem withPath_number (sourcePath : Option Text) (site : SoftwareCallSite) :
    (withPath sourcePath site).lineNumber = site.lineNumber := by
  cases sourcePath <;> rfl

theorem numbers_withPath (sourcePath : Option Text) (sites : List SoftwareCallSite) :
    (sites.map (withPath sourcePath)).map (·.lineNumber) = sites.map (·.lineNumber) := by
  rw [map_map]
  exact map_congr_left fun site _ => withPath_number sourcePath site

theorem flatMap_blocks {A B : Type} {f g : A → List B} {items : List A}
    (hlength : ∀ item ∈ items, (f item).length = (g item).length)
    (h : items.flatMap f = items.flatMap g) : ∀ item ∈ items, f item = g item := by
  induction items with
  | nil => exact fun _ hitem => absurd hitem not_mem_nil
  | cons item items ih =>
    rw [flatMap_cons, flatMap_cons] at h
    have ⟨hhere, hrest⟩ := append_inj h (hlength item mem_cons_self)
    intro other hother
    cases mem_cons.mp hother with
    | inl hsame => rw [hsame, hhere]
    | inr hmem =>
      exact ih (fun each heach => hlength each (mem_cons_of_mem item heach)) hrest other hmem

/-- Every call is reported on a line with the number of the captured line that holds its start,
exactly if that holds for the calls of every routine. -/
theorem programOutcome_iff :
    programOutcome db program sourcePath = .ok (locatedSites db program sourcePath) ↔
      ∀ routine ∈ program.routines.values, ∀ call ∈ parsedCalls db routine,
        callSite program routine call = .ok (locatedSite program routine call) := by
  rw [programOutcome_eq_ok]
  constructor
  · intro ⟨found, hfound, hsites⟩ routine hroutine call hcall
    have hnumbers : found.flatten.map (·.lineNumber) = program.routines.values.flatMap fun routine =>
        (parsedCalls db routine).map (reportedNumber routine) ++
          (ladderCalls db program routine).map (·.lineNumber) := by
      rw [map_flatten, forall₂_map hfound fun _ _ h => routineOutcome_numbers h, flatMap_def]
    have hlocated : (locatedSites db program sourcePath).map (·.lineNumber) =
        program.routines.values.flatMap fun routine =>
          ((parsedCalls db routine).map fun call => (locatedSite program routine call).lineNumber) ++
            (ladderCalls db program routine).map (·.lineNumber) := by
      rw [locatedSites, numbers_withPath, map_flatMap]
      simp only [locatedCalls, map_append, map_map]
      rfl
    have hsame := congrArg (List.map (·.lineNumber)) hsites
    rw [numbers_withPath, hnumbers, hlocated] at hsame
    have hblock := flatMap_blocks (fun routine _ => by simp) hsame routine hroutine
    have hcalls := (append_inj hblock (by simp)).1
    have hnumber : reportedNumber routine call = (locatedSite program routine call).lineNumber :=
      map_inj_left.mp hcalls call hcall
    have hread : ∃ sites, routineOutcome db program routine = .ok sites := by
      have hall := exists_mapM_eq_ok.mp ⟨found, mapM_eq_ok.mpr hfound⟩
      exact hall routine hroutine
    have ⟨sites, hsites⟩ := hread
    have ⟨taken, htaken, _⟩ := routineOutcome_eq_ok.mp hsites
    have ⟨site, hsite⟩ := exists_mapM_eq_ok.mp ⟨taken, mapM_eq_ok.mpr htaken⟩ call hcall
    have ⟨line, hline, hshape⟩ := callSite_eq_ok.mp hsite
    rw [reportedNumber, hline] at hnumber
    rw [hsite, ← hshape]
    exact congrArg (fun number => Except.ok (siteOn program routine call number)) hnumber
  · intro h
    refine ⟨program.routines.values.map (locatedCalls db program), ?_, ?_⟩
    · rw [forall₂_map_right_iff, forall₂_same]
      intro routine hroutine
      rw [routineOutcome_eq_ok]
      refine ⟨(parsedCalls db routine).map (locatedSite program routine), ?_, rfl⟩
      rw [forall₂_map_right_iff, forall₂_same]
      exact h routine hroutine
    · rw [locatedSites, flatMap_def]

theorem callSite_located :
    callSite program routine call = .ok (locatedSite program routine call) ↔
      ∃ line, routine.structuredTextLines[physicalLine routine.structuredText call.span.start]? =
        some line ∧ line.number = (capturedLine routine call.span.start).bind (·.number) := by
  rw [callSite_eq_ok]
  constructor
  · intro ⟨line, hline, hsite⟩
    exact ⟨line, hline, congrArg SoftwareCallSite.lineNumber hsite⟩
  · intro ⟨line, hline, hnumber⟩
    exact ⟨line, hline, by rw [hnumber]; rfl⟩

end

/-- The calls of a program are collected once each, in source order, with the numbers of the
captured lines that hold them. -/
structure Located (sourcePath : Option Text) : Prop where
  listed : ∀ routine ∈ program.routines.values, ∃ document,
    Converges (fun fuel => parseStructuredText db fuel routine.structuredText) document ∧
      ListsCalls document.statements (parsedCalls db routine)
  returned : Converges (fun fuel => extractProgramCalls db fuel program sourcePath)
    (.ok (locatedSites db program sourcePath))

theorem located_iff (sourcePath : Option Text) :
    Located db program sourcePath ↔
      ∀ routine ∈ program.routines.values, ∀ call ∈ parsedCalls db routine,
        Aligned routine call.span.start := by
  have houtcome := extractProgramCalls_converges db program sourcePath
  have haligned : ∀ routine ∈ program.routines.values, ∀ call ∈ parsedCalls db routine,
      (Aligned routine call.span.start ↔
        callSite program routine call = .ok (locatedSite program routine call)) := by
    intro routine _ call hcall
    have ⟨_, _, _, hstarts⟩ := parsedCalls_lists db routine
    have ⟨hlines, hstart⟩ := hstarts call hcall
    rw [callSite_located, aligned_iff hlines hstart]
  have hlisted : ∀ routine ∈ program.routines.values, ∃ document,
      Converges (fun fuel => parseStructuredText db fuel routine.structuredText) document ∧
        ListsCalls document.statements (parsedCalls db routine) := by
    intro routine _
    have ⟨document, hdocument, hcalls, _⟩ := parsedCalls_lists db routine
    exact ⟨document, hdocument, hcalls⟩
  constructor
  · intro h routine hroutine call hcall
    have hok := houtcome.unique h.returned
    exact (haligned routine hroutine call hcall).mpr
      (programOutcome_iff.mp hok routine hroutine call hcall)
  · intro h
    refine ⟨hlisted, ?_⟩
    have hok : programOutcome db program sourcePath = .ok (locatedSites db program sourcePath) :=
      programOutcome_iff.mpr fun routine hroutine call hcall =>
        (haligned routine hroutine call hcall).mp (h routine hroutine call hcall)
    exact hok ▸ houtcome

end

/-- One captured line with a newline inside it. -/
def foldedProgram : Program where
  name := "Main"
  routines := .ofItems (·.name) id [{
    name := "Body"
    structuredTextLines := [{ number := some 1, text := "a := 1;\nF(x);" }] }]

theorem folded_line_raises :
    Converges (fun fuel => extractProgramCalls Ascii.database fuel foldedProgram none)
      (.error .outOfRange) ∧ ¬ Located Ascii.database foldedProgram none := by
  have houtcome := extractProgramCalls_converges Ascii.database foldedProgram none
  have hraises : programOutcome Ascii.database foldedProgram none = .error .outOfRange := by
    decide +kernel
  rw [hraises] at houtcome
  refine ⟨houtcome, fun h => ?_⟩
  have hok := houtcome.unique h.returned
  cases hok

end TwinForge.SoftwareCalls
