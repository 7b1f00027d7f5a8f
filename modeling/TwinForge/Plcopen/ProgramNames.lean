import TwinForge.Foundation.Delimiters
import TwinForge.Foundation.Integers
import TwinForge.Foundation.Naming
import TwinForge.Plcopen.LadderEmission
import TwinForge.Plcopen.PortableNames

/-! # Names of exported programs

Every program is exported under an identifier: its own name, or the first free spelling of
it. The loop compares spellings exactly, while identifiers do not distinguish letter case.
-/

namespace TwinForge.Plcopen

open Model List

def exportedProgramName (programs : List Program) (program : Program) : Text :=
  ((portableProgramNames programs).lookup program.name).getD program.name

/-- Up to the case of ASCII letters. -/
def lowerAscii (name : Text) : Text := name.map Char.toLower

def programNaming (name : Text) (taken : List Text) : Naming Text where
  candidate := candidateOf (portableProgramBase name) 2 (portableProgramBase name)
  taken := taken
  granted := uniqueName taken (portableProgramBase name)
  first := uniqueName_first taken (portableProgramBase name)

def programRenamings : List Text → List Program → List (Text × Naming Text)
  | _, [] => []
  | taken, program :: programs =>
    if isIecProgramName program.name then programRenamings taken programs
    else
      let naming := programNaming program.name taken
      (program.name, naming) :: programRenamings (naming.granted :: taken) programs

/-- The names that are identifiers already. -/
def keptProgramNames (programs : List Program) : List Text :=
  (programs.map (·.name)).filter isIecProgramName

/-! ## Names as they are written -/

/-- The identifier that a name is spelled as, without a number. -/
def spelledProgramName (name : Text) : Text :=
  if isIecProgramName name then name else portableProgramBase name

/-- The spellings of a name: its base, and the base with the numbers from two on. -/
def programSpelling (name : Text) : Nat → Text :=
  candidateOf (portableProgramBase name) 2 (portableProgramBase name)

def respelledNames (names : List Text) : List Text :=
  names.filter fun name => !isIecProgramName name

/-- Names that are spelled alike up to letter case are spelled alike, and a numbered spelling
whose turn comes agrees up to letter case with no spelling but itself. Its turn comes where the
spellings in front of it are names of programs or used up by the programs before. -/
structure ProgramNamesApart (names : List Text) : Prop where
  spelled : ∀ first ∈ names, ∀ second ∈ names,
    lowerAscii (spelledProgramName first) = lowerAscii (spelledProgramName second) →
      spelledProgramName first = spelledProgramName second
  numbered : ∀ name ∈ respelledNames names, ∀ number,
    UsedUp (· ∈ names) ((respelledNames names).map programSpelling)
      (numbered (portableProgramBase name) (2 + number)) →
    ∀ other ∈ names, lowerAscii (numbered (portableProgramBase name) (2 + number)) =
        lowerAscii (spelledProgramName other) →
      numbered (portableProgramBase name) (2 + number) = spelledProgramName other

/-- The exported names are identifiers and differ by more than letter case, every search of a
free name ends, and a name that is an identifier is kept. -/
structure ProgramNamesPortable (programs : List Program) : Prop where
  identifiers : ∀ program ∈ programs, isIecProgramName (exportedProgramName programs program) = true
  distinct : ((programs.map (exportedProgramName programs)).map lowerAscii).Nodup
  ends : ∀ (taken : List Text) (base : Text),
    ∃ name, firstFree taken base (taken.length + 2) 2 base = some name ∧ name ∉ taken
  kept : ∀ program ∈ programs, isIecProgramName program.name = true →
    exportedProgramName programs program = program.name

/-! ## Identifiers -/

/-- ASCII letters, digits and underscores. -/
def isProgramCharacter (character : Char) : Bool := character.isAlphanum || character == '_'

variable {text : Text}

theorem collapseUnderscores_word (h : text.all isProgramCharacter = true)
    (collapsing : Bool) : (collapseUnderscores collapsing text).all isProgramCharacter = true := by
  induction text generalizing collapsing with
  | nil => rfl
  | cons character rest ih =>
    rw [all_cons, Bool.and_eq_true] at h
    simp only [collapseUnderscores]
    split
    · rw [all_cons, h.1, ih h.2]
      rfl
    · split
      · exact ih h.2 true
      · rw [all_cons, ih h.2]
        rfl

theorem stripUnderscores_word (h : text.all isProgramCharacter = true) :
    (stripUnderscores text).all isProgramCharacter = true := by
  rw [all_eq_true] at h ⊢
  intro character hcharacter
  unfold stripUnderscores at hcharacter
  rw [mem_reverse] at hcharacter
  have hrest := (dropWhile_sublist _).mem hcharacter
  rw [mem_reverse] at hrest
  exact h character ((dropWhile_sublist _).mem hrest)

theorem stripUnderscores_head {rest : Text} {first : Char}
    (h : stripUnderscores text = first :: rest) : first ≠ '_' := by
  have hstripped : (stripUnderscores text) <+: text.dropWhile (· == '_') := by
    unfold stripUnderscores
    rw [← reverse_suffix, reverse_reverse]
    exact dropWhile_suffix _
  rw [h] at hstripped
  obtain ⟨tail, htail⟩ := hstripped
  have hnonempty : text.dropWhile (· == '_') ≠ [] := by
    rw [← htail]
    simp
  have hhead := List.head_dropWhile_not (· == '_') hnonempty
  simp only [← htail, cons_append, List.head_cons, beq_eq_false_iff_ne] at hhead
  exact hhead

theorem isIecProgramName_cons {first : Char} {rest : Text}
    (hfirst : (first.isAlpha || first == '_') = true) (hrest : rest.all isProgramCharacter = true) :
    isIecProgramName (first :: rest) = true := by
  rw [isIecProgramName, hfirst, Bool.true_and]
  exact hrest

theorem portableProgramBase_identifier (name : Text) :
    isIecProgramName (portableProgramBase name) = true := by
  have hspelled : (name.map (fun c => if c.isAlphanum || c == '_' then c else '_')).all
      isProgramCharacter = true := by
    rw [all_map, all_eq_true]
    intro character _
    simp only [Function.comp_apply, isProgramCharacter]
    split
    · assumption
    · rfl
  have hword := stripUnderscores_word (collapseUnderscores_word hspelled false)
  unfold portableProgramBase
  simp only
  split
  · decide
  · next first rest hstripped =>
    have hnot := stripUnderscores_head hstripped
    rw [hstripped] at hword
    split
    · exact isIecProgramName_cons (by decide) (by rw [all_cons, hword]; rfl)
    · next hdigit =>
      rw [all_cons, Bool.and_eq_true] at hword
      apply isIecProgramName_cons _ hword.2
      have hfirst := hword.1
      simp only [isProgramCharacter, Char.isAlphanum, Bool.or_eq_true, beq_iff_eq] at hfirst
      simp only [Bool.or_eq_true, beq_iff_eq]
      tauto

theorem candidate_identifier {base : Text} (h : isIecProgramName base = true) (index : Nat) :
    isIecProgramName (candidateOf base 2 base index) = true := by
  cases index with
  | zero => exact h
  | succ index =>
    cases base with
    | nil => cases h
    | cons first rest =>
      simp only [isIecProgramName, Bool.and_eq_true] at h
      apply isIecProgramName_cons h.1
      have hdigits : (decimal (2 + index)).all isProgramCharacter = true := by
        rw [all_eq_true]
        intro character hcharacter
        simp [isProgramCharacter, Char.isAlphanum, decimal_digits hcharacter]
      have hrest : rest.all isProgramCharacter = true := h.2
      show (rest ++ '_' :: decimal (2 + index)).all isProgramCharacter = true
      rw [all_append, hrest, all_cons, hdigits]
      rfl

theorem granted_identifier (name : Text) (taken : List Text) :
    isIecProgramName (programNaming name taken).granted = true := by
  have ⟨index, hgranted, _⟩ := (programNaming name taken).first
  rw [hgranted]
  exact candidate_identifier (portableProgramBase_identifier name) index

/-! ## The names of a run -/

theorem portableProgramName_run (programs : List Program) (names : List (Text × Text))
    (taken : List Text) :
    (programs.foldl portableProgramName (names, taken)).1 =
      ((programRenamings taken programs).map (fun entry => (entry.1, entry.2.granted))).reverse ++
        names := by
  induction programs generalizing names taken with
  | nil => rfl
  | cons program programs ih =>
    rw [foldl_cons]
    cases hname : isIecProgramName program.name with
    | true =>
      simp only [portableProgramName, programRenamings, hname, if_true]
      exact ih names taken
    | false =>
      simp only [portableProgramName, programRenamings, hname, Bool.false_eq_true, if_false]
      rw [ih]
      simp [programNaming]

theorem programRenamings_keys (programs : List Program) (taken : List Text) :
    (programRenamings taken programs).map Prod.fst =
      (programs.map (·.name)).filter (fun name => !isIecProgramName name) := by
  induction programs generalizing taken with
  | nil => rfl
  | cons program programs ih =>
    cases hname : isIecProgramName program.name with
    | true => simp [programRenamings, hname, ih]
    | false => simp [programRenamings, hname, ih]

section

variable {programs : List Program}

theorem portableProgramNames_eq (programs : List Program) :
    portableProgramNames programs = ((programRenamings (programs.map (·.name)) programs).map
      (fun entry => (entry.1, entry.2.granted))).reverse := by
  unfold portableProgramNames
  rw [portableProgramName_run, append_nil]

variable {program : Program}

theorem exported_kept (h : isIecProgramName program.name = true) :
    exportedProgramName programs program = program.name := by
  have hnone : (portableProgramNames programs).lookup program.name = none := by
    cases hlookup : (portableProgramNames programs).lookup program.name with
    | none => rfl
    | some granted =>
      have hmem := mem_of_lookup hlookup
      rw [portableProgramNames_eq, mem_reverse] at hmem
      have ⟨entry, hentry, hsame⟩ := mem_map.mp hmem
      have hkey : entry.1 ∈ (programRenamings (programs.map (·.name)) programs).map Prod.fst :=
        mem_map_of_mem hentry
      rw [programRenamings_keys, mem_filter] at hkey
      rw [(Prod.mk.inj hsame).1, h] at hkey
      cases hkey.2
  rw [exportedProgramName, hnone]
  rfl

theorem exported_granted (hdistinct : (programs.map (·.name)).Nodup) {naming : Naming Text}
    (h : (program.name, naming) ∈ programRenamings (programs.map (·.name)) programs) :
    exportedProgramName programs program = naming.granted := by
  have hkeys : ((portableProgramNames programs).map Prod.fst).Nodup := by
    rw [portableProgramNames_eq, map_reverse, nodup_reverse, map_map]
    show ((programRenamings _ programs).map Prod.fst).Nodup
    rw [programRenamings_keys]
    exact hdistinct.filter _
  have hmem : (program.name, naming.granted) ∈ portableProgramNames programs := by
    rw [portableProgramNames_eq, mem_reverse]
    exact mem_map.mpr ⟨_, h, rfl⟩
  have ⟨granted, hlookup⟩ := Option.isSome_iff_exists.mp (lookup_isSome_of_mem hmem)
  have hsame := inj_on_of_nodup_map hkeys (mem_of_lookup hlookup) hmem rfl
  rw [exportedProgramName, hlookup]
  exact (Prod.mk.inj hsame).2

theorem exported_perm (exported : Program → Text) (programs : List Program) (taken : List Text)
    (hkept : ∀ program ∈ programs, isIecProgramName program.name = true →
      exported program = program.name) (hgranted : ∀ program ∈ programs, ∀ naming,
      (program.name, naming) ∈ programRenamings taken programs → exported program = naming.granted) :
    (programs.map exported).Perm (keptProgramNames programs ++
      ((programRenamings taken programs).map Prod.snd).map Naming.granted) := by
  induction programs generalizing taken with
  | nil => exact .nil
  | cons program programs ih =>
    have hlater := fun other hother => hkept other (mem_cons_of_mem program hother)
    rw [map_cons]
    cases hname : isIecProgramName program.name with
    | true =>
      have hrest := ih taken hlater (fun other hother naming hnaming =>
        hgranted other (mem_cons_of_mem program hother) naming
          (by simpa [programRenamings, hname] using hnaming))
      rw [hkept program mem_cons_self hname]
      simpa [keptProgramNames, programRenamings, hname] using hrest
    | false =>
      have hrest := ih ((programNaming program.name taken).granted :: taken) hlater
        (fun other hother naming hnaming =>
          hgranted other (mem_cons_of_mem program hother) naming (by
            simp only [programRenamings, hname, Bool.false_eq_true, if_false]
            exact mem_cons_of_mem _ hnaming))
      have hhere := hgranted program mem_cons_self (programNaming program.name taken)
        (by simp [programRenamings, hname])
      rw [hhere]
      simp only [keptProgramNames, programRenamings, hname, map_cons, filter_cons,
        Bool.false_eq_true, if_false]
      exact (hrest.cons _).trans perm_middle.symm

theorem renaming_identifier {programs : List Program} {taken : List Text}
    {entry : Text × Naming Text} (h : entry ∈ programRenamings taken programs) :
    isIecProgramName entry.2.granted = true := by
  induction programs generalizing taken with
  | nil => cases h
  | cons program programs ih =>
    cases hname : isIecProgramName program.name with
    | true => exact ih (by simpa [programRenamings, hname] using h)
    | false =>
      simp only [programRenamings, hname, Bool.false_eq_true, if_false] at h
      cases h with
      | head => exact granted_identifier program.name taken
      | tail _ hrest => exact ih hrest

theorem exported_identifier (hdistinct : (programs.map (·.name)).Nodup)
    (hprogram : program ∈ programs) :
    isIecProgramName (exportedProgramName programs program) = true := by
  cases hname : isIecProgramName program.name with
  | true => rw [exported_kept hname, hname]
  | false =>
    have hkey : program.name ∈
        (programRenamings (programs.map (·.name)) programs).map Prod.fst := by
      rw [programRenamings_keys, mem_filter, hname]
      exact ⟨mem_map_of_mem hprogram, rfl⟩
    have ⟨entry, hentry, hsame⟩ := mem_map.mp hkey
    rw [exported_granted hdistinct (hsame ▸ hentry : (program.name, entry.2) ∈ _)]
    exact renaming_identifier hentry

end

/-! ## Spellings up to letter case -/

theorem toLower_digit {character : Char} (h : character.isDigit = true) :
    character.toLower = character := by
  have hrange := digit_range h
  have hcapital : ¬ (character.val ≥ 'A'.val ∧ character.val ≤ 'Z'.val) := by
    intro hboth
    have hlow := UInt32.le_iff_toNat_le.mp hboth.1
    have hletter : 'A'.val.toNat = 65 := rfl
    have hsame : character.toNat = character.val.toNat := rfl
    omega
  unfold Char.toLower
  rw [dif_neg hcapital]

theorem lowerAscii_numbered (base : Text) (number : Nat) :
    lowerAscii (numbered base number) = numbered (lowerAscii base) number := by
  have hdigits : (decimal number).map Char.toLower = decimal number := by
    calc (decimal number).map Char.toLower = (decimal number).map id :=
          map_congr_left fun _ hcharacter => toLower_digit (decimal_digits hcharacter)
      _ = decimal number := map_id _
  unfold lowerAscii numbered
  rw [map_append, map_cons, hdigits]
  rfl

theorem numbered_unique {base other : Text} {first second : Nat}
    (h : numbered base first = numbered other second) : base = other ∧ first = second := by
  have hplain : ∀ number, '_' ∉ decimal number := by
    intro number hmem
    have hdigit := decimal_digits hmem
    cases hdigit
  have ⟨hbase, hnumber⟩ := Delimiters.last_delimiter (hplain first) (hplain second) h
  exact ⟨hbase, decimal_injective hnumber⟩

/-! ## The names of a run, by their spellings -/

theorem programRenamings_informed (programs : List Program) (taken : List Text) :
    Naming.Informed taken ((programRenamings taken programs).map Prod.snd) := by
  induction programs generalizing taken with
  | nil => trivial
  | cons program programs ih =>
    cases hname : isIecProgramName program.name with
    | true =>
      simp only [programRenamings, hname, if_true]
      exact ih taken
    | false =>
      simp only [programRenamings, hname, Bool.false_eq_true, if_false, map_cons]
      exact ⟨rfl, ih _⟩

theorem programRenamings_spellings (programs : List Program) (taken : List Text) :
    ((programRenamings taken programs).map Prod.snd).map Naming.candidate =
      (respelledNames (programs.map (·.name))).map programSpelling := by
  induction programs generalizing taken with
  | nil => rfl
  | cons program programs ih =>
    unfold respelledNames at ih ⊢
    cases hname : isIecProgramName program.name with
    | true =>
      simp only [programRenamings, hname, if_true, map_cons, filter_cons, Bool.not_true,
        Bool.false_eq_true, if_false]
      exact ih taken
    | false =>
      simp only [programRenamings, hname, if_true, map_cons, filter_cons, Bool.not_false,
        Bool.false_eq_true, if_false]
      rw [ih]
      rfl

section

variable {programs : List Program} {name : Text}

/-- The names that the programs are exported under, the kept ones first. -/
def exportedNames (programs : List Program) : List Text :=
  keptProgramNames programs ++
    ((programRenamings (programs.map (·.name)) programs).map Prod.snd).map Naming.granted

theorem exportedNames_perm (hdistinct : (programs.map (·.name)).Nodup) :
    (programs.map (exportedProgramName programs)).Perm (exportedNames programs) := by
  apply exported_perm
  · exact fun _ _ hname => exported_kept hname
  · exact fun _ _ _ hnaming => exported_granted hdistinct hnaming

theorem exportedNames_nodup (hdistinct : (programs.map (·.name)).Nodup) :
    (exportedNames programs).Nodup := by
  have ⟨hgranted, hfresh⟩ := (programRenamings_informed programs (programs.map (·.name))).fresh
  refine (hdistinct.filter _).append hgranted ?_
  exact fun name hkept hname => hfresh name hname (mem_of_mem_filter hkept)

theorem usedUp_iff (hname : isIecProgramName name = true) :
    UsedUp (· ∈ programs.map (·.name))
        ((respelledNames (programs.map (·.name))).map programSpelling) name ↔
      name ∈ exportedNames programs := by
  rw [← programRenamings_spellings programs (programs.map (·.name)),
    UsedUp.informed_iff (programRenamings_informed programs _), exportedNames, mem_append,
    keptProgramNames, mem_filter, and_iff_left hname]

theorem mem_respelledNames {names : List Text} :
    name ∈ respelledNames names ↔ name ∈ names ∧ isIecProgramName name = false := by
  simp [respelledNames]

theorem spelled_exported (h : name ∈ programs.map (·.name)) :
    spelledProgramName name ∈ exportedNames programs := by
  unfold spelledProgramName
  cases hname : isIecProgramName name with
  | true => exact mem_append_left _ (mem_filter.mpr ⟨h, hname⟩)
  | false =>
    rw [if_neg Bool.false_ne_true, ← usedUp_iff (portableProgramBase_identifier name)]
    have hsearched : programSpelling name ∈
        (respelledNames (programs.map (·.name))).map programSpelling :=
      mem_map_of_mem (mem_respelledNames.mpr ⟨h, hname⟩)
    exact UsedUp.first hsearched

/-- An exported name is a spelling without a number, or a numbered spelling of a name. -/
theorem exported_cases (h : name ∈ exportedNames programs) :
    (∃ source ∈ programs.map (·.name), name = spelledProgramName source) ∨
      ∃ source ∈ respelledNames (programs.map (·.name)), ∃ number,
        name = numbered (portableProgramBase source) (2 + number) := by
  rcases mem_append.mp h with hkept | hgranted
  · have ⟨hsource, hname⟩ := mem_filter.mp hkept
    exact .inl ⟨name, hsource, by rw [spelledProgramName, if_pos hname]⟩
  · have ⟨naming, hnaming, hname⟩ := mem_map.mp hgranted
    have ⟨index, hcandidate, _⟩ := naming.first
    have hspelling : naming.candidate ∈
        (respelledNames (programs.map (·.name))).map programSpelling :=
      programRenamings_spellings programs (programs.map (·.name)) ▸ mem_map_of_mem hnaming
    have ⟨source, hsource, hsame⟩ := mem_map.mp hspelling
    rw [← hname, hcandidate, ← hsame]
    cases index with
    | zero =>
      have ⟨hmem, hother⟩ := mem_respelledNames.mp hsource
      refine .inl ⟨source, hmem, ?_⟩
      rw [spelledProgramName, if_neg (by simp [hother])]
      rfl
    | succ index => exact .inr ⟨source, hsource, index, rfl⟩

theorem numbered_identifier {source : Text} (number : Nat) :
    isIecProgramName (numbered (portableProgramBase source) (2 + number)) = true :=
  candidate_identifier (portableProgramBase_identifier source) (number + 1)

theorem apart_iff (hdistinct : (programs.map (·.name)).Nodup) :
    ((exportedNames programs).map lowerAscii).Nodup ↔
      ProgramNamesApart (programs.map (·.name)) := by
  constructor
  · intro h
    have hinjective := inj_on_of_nodup_map h
    constructor
    · intro first hfirst second hsecond
      exact hinjective (spelled_exported hfirst) (spelled_exported hsecond)
    · intro name _ number hused other hother
      exact hinjective ((usedUp_iff (numbered_identifier number)).mp hused)
        (spelled_exported hother)
  · intro h
    refine (nodup_map_iff_inj_on (exportedNames_nodup hdistinct)).mpr ?_
    intro first hfirst second hsecond hlower
    have hused : ∀ {source number},
        numbered (portableProgramBase source) (2 + number) ∈ exportedNames programs → _ :=
      fun {_ number} => (usedUp_iff (numbered_identifier number)).mpr
    rcases exported_cases hfirst with ⟨source, hsource, rfl⟩ | ⟨source, hsource, number, rfl⟩ <;>
      rcases exported_cases hsecond with ⟨other, hother, rfl⟩ | ⟨other, hother, second, rfl⟩
    · exact h.spelled source hsource other hother hlower
    · exact (h.numbered other hother second (hused hsecond) source hsource hlower.symm).symm
    · exact h.numbered source hsource number (hused hfirst) other hother hlower
    · -- Numbered spellings agree in their numbers, and their bases up to letter case.
      rw [lowerAscii_numbered, lowerAscii_numbered] at hlower
      have ⟨hbases, hnumbers⟩ := numbered_unique hlower
      have ⟨hmem, hname⟩ := mem_respelledNames.mp hsource
      have ⟨hmem', hname'⟩ := mem_respelledNames.mp hother
      have hspelled := h.spelled source hmem other hmem'
      simp only [spelledProgramName, hname, hname', Bool.false_eq_true, if_false] at hspelled
      rw [hspelled hbases, hnumbers]

end

def bareProgram (name : Text) : Program where
  name := name
  routines := []
  tags := []
  mainRoutine := none

/-- Two names of one base beside an identifier that is the base already. -/
def pouPrograms : List Program := ["New POU", "Main", "New-POU", "New_POU"].map
  fun name : String => bareProgram name

end TwinForge.Plcopen
