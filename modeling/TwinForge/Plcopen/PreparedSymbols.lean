import TwinForge.Foundation.Naming
import TwinForge.Plcopen.Operands

/-! # What the plan holds for a rung

The symbols a rung needs while it is emitted are in the plan: a result name for each
of its comparisons, the one-shot state, and the timer state of each timer tag.
-/

namespace TwinForge.Plcopen

open Model

/-! ## Well-formed controllers -/

/-- Routines are kept by name, and the main routine is one of them. -/
structure ProgramWellFormed (program : Program) : Prop where
  keyed : ∀ entry ∈ program.routines, entry.1 = entry.2.name
  distinct : (program.routines.map Prod.fst).Nodup
  main : ∀ main, program.mainRoutine = some main → (main.name, main) ∈ program.routines

/-- Programs are kept by name. -/
structure ControllerWellFormed (controller : Controller) : Prop where
  keyed : ∀ entry ∈ controller.programs, entry.1 = entry.2.name
  distinct : (controller.programs.map Prod.fst).Nodup
  programs : ∀ entry ∈ controller.programs, ProgramWellFormed entry.2

theorem eq_of_key {Value : Type} {entries : List (Text × Value)} {first second : Text × Value}
    (hdistinct : (entries.map Prod.fst).Nodup) (hfirst : first ∈ entries)
    (hsecond : second ∈ entries) (hkey : first.1 = second.1) : first = second :=
  List.inj_on_of_nodup_map hdistinct hfirst hsecond hkey

variable {program : Program}

theorem ProgramWellFormed.eq_of_name (h : ProgramWellFormed program)
    {first second : Text × Routine} (hfirst : first ∈ program.routines)
    (hsecond : second ∈ program.routines) (hname : first.2.name = second.2.name) :
    first = second := by
  apply eq_of_key h.distinct hfirst hsecond
  rw [h.keyed first hfirst, h.keyed second hsecond, hname]

variable {site : RungSite}

theorem mem_routineSites {routine : Routine} :
    site ∈ routineSites program routine ↔
      site.program = program ∧ site.routine = routine ∧
        routine.ladderRungs[site.position]? = some site.rung := by
  unfold routineSites
  rw [List.mem_map]
  constructor
  · rintro ⟨⟨rung, position⟩, hmem, rfl⟩
    exact ⟨rfl, rfl, List.mem_zipIdx_iff_getElem?.mp hmem⟩
  · rintro ⟨rfl, rfl, hrung⟩
    exact ⟨(site.rung, site.position), List.mem_zipIdx_iff_getElem?.mpr hrung, rfl⟩

theorem mem_programSites :
    site ∈ programSites program ↔
      ∃ entry ∈ program.routines, site ∈ routineSites program entry.2 := by
  simp [programSites]

variable {controller : Controller}

theorem mem_rungSites :
    site ∈ rungSites controller ↔
      ∃ entry ∈ controller.programs, site ∈ programSites entry.2 := by
  simp [rungSites]

theorem ControllerWellFormed.eq_of_id (h : ControllerWellFormed controller)
    {first second : RungSite} (hfirst : first ∈ rungSites controller)
    (hsecond : second ∈ rungSites controller) (hid : first.id = second.id) : first = second := by
  obtain ⟨entry₁, hentry₁, hfirst⟩ := mem_rungSites.mp hfirst
  obtain ⟨routine₁, hroutine₁, hfirst⟩ := mem_programSites.mp hfirst
  obtain ⟨entry₂, hentry₂, hsecond⟩ := mem_rungSites.mp hsecond
  obtain ⟨routine₂, hroutine₂, hsecond⟩ := mem_programSites.mp hsecond
  obtain ⟨hprogram₁, hin₁, hrung₁⟩ := mem_routineSites.mp hfirst
  obtain ⟨hprogram₂, hin₂, hrung₂⟩ := mem_routineSites.mp hsecond
  simp only [RungSite.id, RungId.mk.injEq] at hid
  obtain ⟨hprogramName, hroutineName, hposition⟩ := hid
  have hentry : entry₁ = entry₂ := by
    apply eq_of_key h.distinct hentry₁ hentry₂
    rw [h.keyed entry₁ hentry₁, h.keyed entry₂ hentry₂, ← hprogram₁, ← hprogram₂, hprogramName]
  subst hentry
  have hroutine : routine₁ = routine₂ := by
    apply (h.programs entry₁ hentry₁).eq_of_name hroutine₁ hroutine₂
    rw [← hin₁, ← hin₂, hroutineName]
  subst hroutine
  rw [hposition, hrung₂, Option.some.injEq] at hrung₁
  obtain ⟨program, routine, position, rung⟩ := first
  obtain ⟨program', routine', position', rung'⟩ := second
  simp only at hprogram₁ hprogram₂ hin₁ hin₂ hposition hrung₁
  subst hprogram₁ hprogram₂ hin₁ hin₂ hposition hrung₁
  rfl

section

variable {db : CharacterDatabase}

/-! ## Comparisons -/

theorem tagExportType_primitive (db : CharacterDatabase) (first second : List Text) (tag : Tag) :
    tagExportType db first tag = tagExportType db second tag ∨
      (tagExportType db first tag ∈ primitiveTypes ∧
        tagExportType db second tag ∈ primitiveTypes) := by
  unfold tagExportType
  split
  · exact .inl rfl
  · by_cases halias : (tag.aliasFor.getD []).isEmpty
    · simp [halias]
    · simp only [halias, Bool.false_eq_true, if_false]
      right
      constructor <;> split_ifs <;> decide

theorem comparisonUsesUnsupportedType_eq (first second : List Text)
    (tagsByName : List (Text × Tag)) (operandText : Text) :
    comparisonUsesUnsupportedType db first tagsByName operandText =
      comparisonUsesUnsupportedType db second tagsByName operandText := by
  unfold comparisonUsesUnsupportedType
  congr 1
  funext operand
  cases tagsByName.lookup (rootName operand) with
  | none => rfl
  | some tag =>
    have htimer : ("TIMER" : Text) ∉ primitiveTypes := by decide
    rcases tagExportType_primitive db first second tag with heq | ⟨hfirst, hsecond⟩
    · simp only [heq]
    · have hne₁ : tagExportType db first tag ≠ ("TIMER" : Text) := by
        intro heq
        exact htimer (heq ▸ hfirst)
      have hne₂ : tagExportType db second tag ≠ ("TIMER" : Text) := by
        intro heq
        exact htimer (heq ▸ hsecond)
      simp [hne₁, hne₂, hfirst, hsecond]

/-- A comparison of the rung reads a tag whose type is not exported. -/
def comparesUnsupported (db : CharacterDatabase) (controller : Controller) (program : Program)
    (parsed : ParsedBooleanRung) : Bool :=
  parsed.comparisons.any (fun comparison =>
    comparisonUsesUnsupportedType db [] (tagsByName controller program) comparison.operand)

/-- The rung is set aside for its comparisons. -/
def IsSetAside (db : CharacterDatabase) (controller : Controller) (site : RungSite) : Prop :=
  ∃ parsed, parseSupportedRung db site.rung.text = some parsed ∧
    comparesUnsupported db controller site.program parsed = true

/-- The rung has comparisons and is not set aside for them. -/
def NeedsResults (db : CharacterDatabase) (controller : Controller) (site : RungSite) : Prop :=
  ∃ parsed, parseSupportedRung db site.rung.text = some parsed ∧
    comparesUnsupported db controller site.program parsed = false ∧ parsed.comparisons ≠ []

/-- One result name for each comparison of the rung. -/
def FitsResults (db : CharacterDatabase) (site : RungSite) (temps : List Text) : Prop :=
  ∀ parsed, parseSupportedRung db site.rung.text = some parsed →
    temps.length = parsed.comparisons.length

theorem prepareRung_of_parsed {aliases : List (Text × Text)} {stage : OperandStage}
    {parsed : ParsedBooleanRung} (h : parseSupportedRung db site.rung.text = some parsed) :
    prepareRung db controller aliases stage site =
      if comparesUnsupported db controller site.program parsed then
        { stage with unsupportedComparisonRungs := site.id :: stage.unsupportedComparisonRungs }
      else
        let stage := prepareComparisons db site parsed.comparisons.length stage
        { stage with
          symbols := parsed.instructions.foldl (prepareInstruction db aliases) stage.symbols } := by
  unfold prepareRung comparesUnsupported
  rw [h]
  simp only [comparisonUsesUnsupportedType_eq stage.symbols.booleanOperands []]

theorem prepareRung_of_none {aliases : List (Text × Text)} {stage : OperandStage}
    (h : parseSupportedRung db site.rung.text = none) :
    prepareRung db controller aliases stage site = stage := by
  unfold prepareRung
  rw [h]

@[simp] theorem prepareComparisons_unsupported (site : RungSite) (count : Nat)
    (stage : OperandStage) :
    (prepareComparisons db site count stage).unsupportedComparisonRungs =
      stage.unsupportedComparisonRungs := by
  unfold prepareComparisons
  split <;> rfl

theorem prepareRung_registers (db : CharacterDatabase) (controller : Controller) (aliases : List (Text × Text)) :
    Registers (prepareRung db controller aliases) OperandStage.comparisonTemps RungSite.id
      (NeedsResults db controller) (FitsResults db) where
  added stage site := by
    rintro ⟨parsed, hparsed, hsupported, hne⟩
    have hcount : parsed.comparisons.length ≠ 0 := by
      simpa using hne
    rw [prepareRung_of_parsed hparsed, hsupported]
    refine ⟨(declareNames db (comparisonBases site parsed.comparisons.length)
      stage.symbols.names).1, ?_, ?_⟩
    · intro other hother
      rw [hparsed, Option.some.injEq] at hother
      subst hother
      simp [comparisonBases]
    · simp [prepareComparisons, hcount]
  kept stage site hneeds := by
    cases hparsed : parseSupportedRung db site.rung.text with
    | none => rw [prepareRung_of_none hparsed]
    | some parsed =>
      rw [prepareRung_of_parsed hparsed]
      split
      · rfl
      · next hsupported =>
          have hnone : parsed.comparisons = [] := by
            by_contra hne
            exact hneeds ⟨parsed, hparsed, by simpa using hsupported, hne⟩
          simp [prepareComparisons, hnone]

theorem prepareRungs_unsupported (db : CharacterDatabase) (controller : Controller)
    (aliases : List (Text × Text)) (sites : List RungSite) (stage : OperandStage) (id : RungId) :
    id ∈ (sites.foldl (prepareRung db controller aliases) stage).unsupportedComparisonRungs ↔
      id ∈ stage.unsupportedComparisonRungs ∨
        ∃ site ∈ sites, site.id = id ∧ IsSetAside db controller site := by
  induction sites generalizing stage with
  | nil => simp
  | cons site sites ih =>
    rw [List.foldl_cons, ih]
    have hstep : id ∈ (prepareRung db controller aliases stage site).unsupportedComparisonRungs ↔
        id ∈ stage.unsupportedComparisonRungs ∨
          (site.id = id ∧ IsSetAside db controller site) := by
      cases hparsed : parseSupportedRung db site.rung.text with
      | none =>
        rw [prepareRung_of_none hparsed]
        simp [IsSetAside, hparsed]
      | some parsed =>
        rw [prepareRung_of_parsed hparsed]
        by_cases hsupported : comparesUnsupported db controller site.program parsed = true
        · have haside : IsSetAside db controller site := ⟨parsed, hparsed, hsupported⟩
          simp only [hsupported, if_true, List.mem_cons, haside, and_true]
          rw [or_comm, eq_comm]
        · simp [IsSetAside, hparsed, hsupported]
    rw [hstep]
    simp [or_assoc]

/-! ## Timers -/

theorem prepareTimer_registers :
    Registers (prepareTimer db) TimerStage.timers Tag.name (fun tag => isTimerTag db tag = true)
      (fun _ _ => True) where
  added stage tag htimer := by
    unfold prepareTimer
    simp only [htimer, Bool.not_true, Bool.false_eq_true, if_false]
    exact ⟨_, trivial, rfl⟩
  kept stage tag htimer := by
    unfold prepareTimer
    simp [htimer]

/-! ## One-shots -/

def HasOneShot (db : CharacterDatabase) (site : RungSite) : Prop :=
  ∃ parsed, parseSupportedRung db site.rung.text = some parsed ∧
    parsed.oneShotStorage.isSome = true

theorem prepareOneShot_registers (db : CharacterDatabase) (risingTriggerType : Text) :
    Registers (prepareOneShot db risingTriggerType) OneShotStage.oneshots RungSite.id
      (HasOneShot db) (fun _ _ => True) where
  added stage site := by
    rintro ⟨parsed, hparsed, hstorage⟩
    obtain ⟨storage, hstorage⟩ := Option.isSome_iff_exists.mp hstorage
    unfold prepareOneShot
    simp only [hparsed, Option.bind_some, hstorage]
    exact ⟨_, trivial, rfl⟩
  kept stage site hnone := by
    unfold prepareOneShot
    cases hparsed : parseSupportedRung db site.rung.text with
    | none => rfl
    | some parsed =>
      cases hstorage : parsed.oneShotStorage with
      | none => simp [hstorage]
      | some storage => exact (hnone ⟨parsed, hparsed, by simp [hstorage]⟩).elim

theorem prepareOneShots_isSome {risingTriggerType : Text} {comparisonTags : List (Text × Tag)}
    {id : RungId} (programs : List Program) (stage : OneShotStage)
    (h : (stage.oneshots.lookup id).isSome ∨
      ∃ program ∈ programs, ∃ site ∈ programSites program, HasOneShot db site ∧ site.id = id) :
    ((programs.foldl (prepareOneShots db risingTriggerType comparisonTags)
      stage).oneshots.lookup id).isSome := by
  induction programs generalizing stage with
  | nil =>
    rcases h with h | ⟨program, hprogram, -⟩
    · exact h
    · cases hprogram
  | cons program programs ih =>
    rw [List.foldl_cons]
    apply ih
    have hinner := (prepareOneShot_registers db risingTriggerType).lookup_isSome
      (programSites program)
      { stage with names := programNames comparisonTags program ++ stage.names } id
    rcases h with h | ⟨other, hother, hsite⟩
    · exact .inl (hinner.mpr (.inl h))
    · rcases List.mem_cons.mp hother with rfl | hother
      · exact .inl (hinner.mpr (.inr hsite))
      · exact .inr ⟨other, hother, hsite⟩

/-! ## The plan -/

variable {controller : Controller} (risingTriggerType : Text)

theorem prepare_unsupported (h : ControllerWellFormed controller)
    (hsite : site ∈ rungSites controller) :
    site.id ∈ (prepare db risingTriggerType controller).unsupportedComparisonRungs ↔
      IsSetAside db controller site := by
  refine (prepareRungs_unsupported db controller (aliasesByTarget (allTags controller))
    (rungSites controller) _ site.id).trans ?_
  constructor
  · rintro (hnone | ⟨other, hother, hid, haside⟩)
    · cases hnone
    · rwa [← h.eq_of_id hother hsite hid]
  · intro haside
    exact .inr ⟨site, hsite, rfl, haside⟩

theorem prepare_comparisonTemps (h : ControllerWellFormed controller)
    (hsite : site ∈ rungSites controller) {parsed : ParsedBooleanRung}
    (hparsed : parseSupportedRung db site.rung.text = some parsed)
    (hsupported : comparesUnsupported db controller site.program parsed = false)
    (hne : parsed.comparisons ≠ []) :
    ∃ temps, (prepare db risingTriggerType controller).comparisonTemps.lookup site.id =
      some temps ∧ temps.length = parsed.comparisons.length := by
  have hregisters := prepareRung_registers db controller (aliasesByTarget (allTags controller))
  have hsome : ((prepare db risingTriggerType controller).comparisonTemps.lookup site.id).isSome :=
    (hregisters.lookup_isSome (rungSites controller) _ site.id).mpr
      (.inr ⟨site, hsite, ⟨parsed, hparsed, hsupported, hne⟩, rfl⟩)
  obtain ⟨temps, htemps⟩ := Option.isSome_iff_exists.mp hsome
  refine ⟨temps, htemps, ?_⟩
  rcases hregisters.lookup_fits htemps with hnone | ⟨other, hother, hid, -, hfits⟩
  · cases hnone
  · rw [h.eq_of_id hother hsite hid] at hfits
    exact hfits parsed hparsed

theorem prepare_timers (name : Text) :
    ((prepare db risingTriggerType controller).timers.lookup name).isSome ↔
      ∃ tag ∈ allTags controller, isTimerTag db tag = true ∧ tag.name = name := by
  refine (prepareTimer_registers.lookup_isSome (allTags controller) _ name).trans ?_
  simp

theorem prepare_oneshots (hsite : site ∈ rungSites controller) (h : HasOneShot db site) :
    ((prepare db risingTriggerType controller).oneshots.lookup site.id).isSome := by
  obtain ⟨entry, hentry, hin⟩ := mem_rungSites.mp hsite
  apply prepareOneShots_isSome
  exact .inr ⟨entry.2, List.mem_map.mpr ⟨entry, hentry, rfl⟩, site, hin, h, rfl⟩

end

end TwinForge.Plcopen
