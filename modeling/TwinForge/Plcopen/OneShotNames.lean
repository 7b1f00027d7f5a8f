import TwinForge.Foundation.Integers
import TwinForge.Plcopen.ExportedRungs
import TwinForge.Plcopen.PortableNames

/-! # Names of one-shots

The state of a one-shot is named when its rung is met: with identifiers, which no operand is
rewritten to or from, and with an instance that no other rung has.
-/

namespace TwinForge.Plcopen

open Model List

section

variable {db : CharacterDatabase}

/-! ## Portable names are identifiers -/

theorem isWordCharacter_underscore : isWordCharacter db '_' = true := by
  simp [isWordCharacter]

theorem isWordCharacter_digit {character : Char} (h : character.isDigit = true) :
    isWordCharacter db character = true := by
  have hascii : character.toNat < 128 := by
    have hrange : 48 ≤ character.toNat ∧ character.toNat ≤ 57 := by
      simp only [Char.isDigit, Bool.and_eq_true, decide_eq_true_eq] at h
      exact ⟨UInt32.le_iff_toNat_le.mp h.1, UInt32.le_iff_toNat_le.mp h.2⟩
    omega
  have halnum : character.isAlphanum = true := by simp [Char.isAlphanum, h]
  rw [isWordCharacter, db.alnum_ascii character hascii, halnum]
  rfl

theorem collapseNonWord_word (text : Text) :
    ∀ collapsing, ∀ character ∈ collapseNonWord db collapsing text,
      isWordCharacter db character = true := by
  induction text with
  | nil => simp [collapseNonWord]
  | cons first text ih =>
    intro collapsing character hcharacter
    unfold collapseNonWord at hcharacter
    split at hcharacter
    · rename_i hword
      rcases mem_cons.mp hcharacter with rfl | hlater
      · exact hword
      · exact ih false character hlater
    · split at hcharacter
      · exact ih true character hcharacter
      · rcases mem_cons.mp hcharacter with rfl | hlater
        · exact isWordCharacter_underscore
        · exact ih true character hlater

theorem mem_stripUnderscores {text : Text} {character : Char}
    (h : character ∈ stripUnderscores text) : character ∈ text := by
  have hinner := (dropWhile_sublist _).subset (mem_reverse.mp h)
  exact (dropWhile_sublist _).subset (mem_reverse.mp hinner)

theorem portableBase_identifier (operand : Text) :
    ∃ rest, portableBase db operand = 'T' :: rest ∧
      ∀ character ∈ rest, isWordCharacter db character = true := by
  have hletters : ∀ character : Char, character.toNat < 128 → character.isAlphanum = true →
      isWordCharacter db character = true := by
    intro character hascii halnum
    rw [isWordCharacter, db.alnum_ascii character hascii, halnum]
    rfl
  unfold portableBase
  simp only
  split
  · refine ⟨("F_Operand" : Text), rfl, ?_⟩
    intro character hcharacter
    have hspelled : character ∈ ['F', '_', 'O', 'p', 'e', 'r', 'a', 'n', 'd'] := hcharacter
    by_cases hunderscore : character = '_'
    · rw [hunderscore]
      exact isWordCharacter_underscore
    · have hall : ∀ other ∈ ['F', '_', 'O', 'p', 'e', 'r', 'a', 'n', 'd'], other ≠ '_' →
          other.toNat < 128 ∧ other.isAlphanum = true := by decide
      have hfound := hall character hspelled hunderscore
      exact hletters character hfound.1 hfound.2
  · refine ⟨'F' :: '_' :: stripUnderscores (collapseNonWord db false operand), rfl, ?_⟩
    intro character hcharacter
    rcases mem_cons.mp hcharacter with rfl | hcharacter
    · exact hletters 'F' (by decide) (by decide)
    rcases mem_cons.mp hcharacter with rfl | hword
    · exact isWordCharacter_underscore
    · exact collapseNonWord_word operand false character (mem_stripUnderscores hword)

theorem isIecIdentifier_portable (operand : Text) (names : List Text) :
    isIecIdentifier db (uniquePortableName db operand names) = true := by
  obtain ⟨index, hname, -, -⟩ := uniqueName_first names (portableBase db operand)
  obtain ⟨rest, hbase, hrest⟩ := @portableBase_identifier db operand
  have hspelled : uniquePortableName db operand names =
      candidateOf (portableBase db operand) 2 (portableBase db operand) index := hname
  rw [hspelled, hbase]
  have hfirst : ('T'.isAlpha || 'T' == '_') = true := by decide
  cases index with
  | zero =>
    show (('T'.isAlpha || 'T' == '_') && rest.all (isWordCharacter db)) = true
    rw [hfirst, Bool.true_and, all_eq_true]
    exact hrest
  | succ index =>
    show (('T'.isAlpha || 'T' == '_') &&
      (rest ++ '_' :: decimal (2 + index)).all (isWordCharacter db)) = true
    rw [hfirst, Bool.true_and, all_eq_true]
    intro character hcharacter
    rcases mem_append.mp hcharacter with hbefore | hcharacter
    · exact hrest character hbefore
    rcases mem_cons.mp hcharacter with rfl | hdigit
    · exact isWordCharacter_underscore
    · exact isWordCharacter_digit (decimal_digits hdigit)

/-! ## Rewritten operands are no identifiers -/

/-- Only operands that are no identifiers are rewritten. -/
def Symbols.KeepsIdentifiers (db : CharacterDatabase) (symbols : Symbols) : Prop :=
  ∀ entry ∈ symbols.operandNames, isIecIdentifier db entry.1 = false

theorem Symbols.KeepsIdentifiers.renameTag {renamed : Symbols × List (Text × Text)}
    (h : renamed.1.KeepsIdentifiers db) (tag : Tag) :
    (renameTag db renamed tag).1.KeepsIdentifiers db := by
  unfold Plcopen.renameTag
  simp only
  split
  · exact h
  · rename_i hname
    intro entry hentry
    rcases mem_cons.mp hentry with rfl | hlater
    · simpa using hname
    · exact h entry hlater

theorem Symbols.KeepsIdentifiers.prepareOperand {symbols : Symbols}
    (h : symbols.KeepsIdentifiers db) (aliases : List (Text × Text)) (opcode : Opcode)
    (operand : Text) : (prepareOperand db aliases opcode symbols operand).KeepsIdentifiers db := by
  have hboolean : (if opcode.isBoolean then
      { symbols with booleanOperands := operand :: symbols.booleanOperands }
      else symbols).operandNames = symbols.operandNames := by
    split <;> rfl
  unfold Plcopen.prepareOperand
  simp only
  split
  · intro entry hentry
    rw [hboolean] at hentry
    exact h entry hentry
  · rename_i hplain
    have hoperand : isIecOperand db operand = false := by
      cases hiec : isIecOperand db operand with
      | false => rfl
      | true => simp [hiec] at hplain
    split
    · intro entry hentry
      rcases mem_cons.mp hentry with rfl | hlater
      · exact isIecIdentifier_of_operand hoperand
      · rw [hboolean] at hlater
        exact h entry hlater
    · intro entry hentry
      rcases mem_cons.mp hentry with rfl | hlater
      · exact isIecIdentifier_of_operand hoperand
      · rw [hboolean] at hlater
        exact h entry hlater

theorem foldl_keeps {Item State : Type} {step : State → Item → State} (holds : State → Prop)
    (hstep : ∀ state item, holds state → holds (step state item)) (items : List Item)
    {state : State} (h : holds state) : holds (items.foldl step state) := by
  induction items generalizing state with
  | nil => exact h
  | cons item items ih => exact ih (hstep state item h)

theorem prepareRung_keepsIdentifiers (controller : Controller) (aliases : List (Text × Text))
    {stage : OperandStage} (h : stage.symbols.KeepsIdentifiers db) (site : RungSite) :
    (prepareRung db controller aliases stage site).symbols.KeepsIdentifiers db := by
  unfold prepareRung
  split
  · exact h
  · simp only
    split
    · exact h
    · refine foldl_keeps (Symbols.KeepsIdentifiers db) ?_ _ ?_
      · intro symbols instruction hsymbols
        refine foldl_keeps (Symbols.KeepsIdentifiers db) ?_ _ hsymbols
        intro symbols operand hsymbols
        exact hsymbols.prepareOperand aliases instruction.opcode operand
      · unfold prepareComparisons
        split
        · exact h
        · exact h

theorem prepareOperands_keepsIdentifiers (controller : Controller) :
    (prepareOperands db controller).1.symbols.KeepsIdentifiers db := by
  unfold prepareOperands
  simp only
  refine foldl_keeps (fun stage : OperandStage => stage.symbols.KeepsIdentifiers db)
    ?_ _ ?_
  · intro stage site hstage
    exact prepareRung_keepsIdentifiers controller _ hstage site
  · refine foldl_keeps (fun renamed : Symbols × List (Text × Text) =>
      renamed.1.KeepsIdentifiers db) ?_ _ ?_
    · intro renamed tag hrenamed
      exact hrenamed.renameTag tag
    · intro entry hentry
      cases hentry

theorem portableOperand_identifier {codesys : Bool} {controller : Controller} {name : Text}
    (h : isIecIdentifier db name = true) :
    (exportPlan db codesys controller).portableOperand name = name := by
  unfold PLCopenOperandPlan.portableOperand
  cases hlookup : (exportPlan db codesys controller).operandNames.lookup name with
  | none => rfl
  | some portable =>
    have hmember : (name, portable) ∈
        (prepareOperands db controller).1.symbols.operandNames := mem_of_lookup hlookup
    rw [prepareOperands_keepsIdentifiers controller _ hmember] at h
    cases h

/-! ## Instances -/

/-- The names of a one-shot: identifiers, the pulse and the execution apart. -/
structure PLCopenOneShotExport.Named (db : CharacterDatabase) (oneshot : PLCopenOneShotExport) :
    Prop where
  input : isIecIdentifier db oneshot.inputName = true
  pulse : isIecIdentifier db oneshot.pulseName = true
  executed : isIecIdentifier db oneshot.executedName = true
  apart : oneshot.executedName ≠ oneshot.pulseName

/-- Every one-shot so far is named, with an instance of its own among the names in use. -/
structure OneShotStage.Apart (db : CharacterDatabase) (stage : OneShotStage) : Prop where
  named : ∀ entry ∈ stage.oneshots, entry.2.Named db
  taken : ∀ entry ∈ stage.oneshots, entry.2.instanceName ∈ stage.names
  distinct : (stage.oneshots.map fun entry => entry.2.instanceName).Nodup

theorem declareNames_four (first second third fourth : Text) (names : List Text) :
    ∃ name₁ name₂ name₃ name₄, declareNames db [first, second, third, fourth] names =
        ([name₁, name₂, name₃, name₄], name₄ :: name₃ :: name₂ :: name₁ :: names) ∧
      name₁ ∉ names ∧ name₄ ≠ name₃ ∧
      ∀ name ∈ [name₁, name₂, name₃, name₄], isIecIdentifier db name = true := by
  refine ⟨_, _, _, _, rfl, uniquePortableName_not_mem db first names, ?_, ?_⟩
  · intro hsame
    have hfresh := uniquePortableName_not_mem db fourth
      (uniquePortableName db third (uniquePortableName db second
        (uniquePortableName db first names :: names) :: uniquePortableName db first names ::
          names) :: uniquePortableName db second (uniquePortableName db first names :: names) ::
            uniquePortableName db first names :: names)
    rw [hsame] at hfresh
    exact hfresh mem_cons_self
  · intro name hname
    simp only [mem_cons, not_mem_nil, or_false] at hname
    rcases hname with rfl | rfl | rfl | rfl <;> exact isIecIdentifier_portable _ _

theorem OneShotStage.Apart.site {stage : OneShotStage} (h : stage.Apart db)
    (risingTriggerType : Text) (site : RungSite) :
    (prepareOneShot db risingTriggerType stage site).Apart db := by
  unfold prepareOneShot
  split
  · exact h
  · rename_i storage _
    let base := ("ONS_" : Text) ++ site.program.name ++ '_' :: site.routine.name ++ '_' ::
      rungLabel site.rung.number
    obtain ⟨name₁, name₂, name₃, name₄, hnames, hfresh, happart, hidentifiers⟩ :=
      @declareNames_four db (base ++ ("_FB" : Text)) (base ++ ("_IN" : Text))
        (base ++ ("_Pulse" : Text)) (base ++ ("_Executed" : Text)) stage.names
    have hgenerated : declareNames db ((["_FB", "_IN", "_Pulse", "_Executed"] : List Text).map
        (base ++ ·)) stage.names =
          ([name₁, name₂, name₃, name₄], name₄ :: name₃ :: name₂ :: name₁ :: stage.names) := hnames
    simp only [base] at hgenerated
    simp only [hgenerated]
    constructor
    · intro entry hentry
      rcases mem_cons.mp hentry with rfl | hlater
      · exact ⟨hidentifiers name₂ (by simp), hidentifiers name₃ (by simp),
          hidentifiers name₄ (by simp), happart⟩
      · exact h.named entry hlater
    · intro entry hentry
      rcases mem_cons.mp hentry with rfl | hlater
      · simp
      · have htaken := h.taken entry hlater
        simp [htaken]
    · rw [map_cons, nodup_cons]
      refine ⟨?_, h.distinct⟩
      intro hmember
      obtain ⟨entry, hentry, hsame⟩ := mem_map.mp hmember
      have htaken := h.taken entry hentry
      rw [hsame] at htaken
      exact hfresh htaken

theorem OneShotStage.Apart.program {stage : OneShotStage} (h : stage.Apart db)
    (risingTriggerType : Text) (comparisonTags : List (Text × Tag)) (program : Program) :
    (prepareOneShots db risingTriggerType comparisonTags stage program).Apart db := by
  refine foldl_keeps (OneShotStage.Apart db) ?_ _ ?_
  · intro stage site hstage
    exact hstage.site risingTriggerType site
  · exact ⟨h.named, fun entry hentry => mem_append_right _ (h.taken entry hentry), h.distinct⟩

theorem oneshots_apart (codesys : Bool) (controller : Controller) :
    ∃ names tags, OneShotStage.Apart db
      ⟨names, (exportPlan db codesys controller).oneshots, tags⟩ := by
  have hfold : ∀ (risingTriggerType : Text) (comparisonTags : List (Text × Tag))
      (programs : List Program) (stage : OneShotStage), stage.oneshots = [] →
      (programs.foldl (prepareOneShots db risingTriggerType comparisonTags) stage).Apart db := by
    intro risingTriggerType comparisonTags programs stage hnone
    refine foldl_keeps (OneShotStage.Apart db) ?_ _ ?_
    · intro stage program hstage
      exact hstage.program risingTriggerType comparisonTags program
    · refine ⟨?_, ?_, ?_⟩ <;> simp [hnone]
  unfold exportPlan prepare
  simp only
  exact ⟨_, _, hfold _ _ _ _ rfl⟩

variable {codesys : Bool} {controller : Controller}

theorem oneshot_named {id : RungId} {oneshot : PLCopenOneShotExport}
    (h : (exportPlan db codesys controller).oneshots.lookup id = some oneshot) :
    oneshot.Named db := by
  obtain ⟨names, tags, hapart⟩ := @oneshots_apart db codesys controller
  exact hapart.named (id, oneshot) (mem_of_lookup h)

theorem oneshot_instance_ne {first second : RungId} {oneshot other : PLCopenOneShotExport}
    (hfirst : (exportPlan db codesys controller).oneshots.lookup first = some oneshot)
    (hsecond : (exportPlan db codesys controller).oneshots.lookup second = some other)
    (hne : first ≠ second) : oneshot.instanceName ≠ other.instanceName := by
  obtain ⟨names, tags, hapart⟩ := @oneshots_apart db codesys controller
  intro hsame
  have hentry := inj_on_of_nodup_map hapart.distinct (mem_of_lookup hfirst)
    (mem_of_lookup hsecond) hsame
  exact hne (congrArg Prod.fst hentry)

end

end TwinForge.Plcopen
