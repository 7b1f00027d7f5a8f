import TwinForge.IecSt.Emitter

/-! # Which inputs an emitted unit stores into

Promotion turns the inputs that the normal scan assigns into outputs. What else the
emitted body stores into are the destinations of reads and all that the mapped
EnableInFalse routine stores.
-/

namespace TwinForge.IecSt

open IR List
open Model (AddOnInstruction)

/-- The variable a statement stores into: the root of an assignment target or of the
destination of a read. -/
def storedName : Statement → Option Text
  | .assignment _ target _ => rootReference target
  | .wallClockRead _ destination _ => rootReference destination
  | .controllerObjectRead _ _ _ _ destination _ _ => rootReference destination
  | _ => none

/-- The destination of a clock read or of a controller-object read. -/
def readName : Statement → Option Text
  | .wallClockRead _ destination _ => rootReference destination
  | .controllerObjectRead _ _ _ _ destination _ _ => rootReference destination
  | _ => none

def storedNames (statements : List Statement) : List Text :=
  (walkStatements statements).filterMap storedName

def readNames (statements : List Statement) : List Text :=
  (walkStatements statements).filterMap readName

section

variable (db : CharacterDatabase)

/-- An emitted statement stores into a parameter declared in VAR_INPUT. -/
def WritesInput (unit : ReusableUnit) : Prop :=
  ∃ routine ∈ executableRoutines unit, ∃ name ∈ storedNames routine.statements,
    ∃ parameter ∈ unit.parameters, parameter.direction = .input ∧
      db.casefoldText parameter.name = db.casefoldText name

/-- The case-folded names that promotion does not look for: EnableOut, the
destinations of reads, and the stores of the mapped EnableInFalse routine. -/
def unscannedStores (unit : ReusableUnit) : List Text :=
  ("enableout" : Text) ::
    ((executableRoutines unit).flatMap (fun routine => readNames routine.statements) ++
      storedNames ((mappedEnableInFalse unit).getD [])).map db.casefoldText

/-- Every input among those names is also assigned by the normal scan. -/
def StoresPromoted (unit : ReusableUnit) : Prop :=
  ∀ parameter ∈ unit.parameters, parameter.direction = .input →
    db.casefoldText parameter.name ∈ unscannedStores db unit →
      db.casefoldText parameter.name ∈ (writtenInputs db unit).map (·.1)

/-! ## What promotion looks for -/

theorem storedName_iff (statement : Statement) (name : Text) :
    storedName statement = some name ↔
      (∃ span, assignedName statement = some (name, span)) ∨ readName statement = some name := by
  cases statement with
  | assignment span target value =>
    simp only [storedName, assignedName, readName, Option.map_eq_some_iff, Prod.mk.injEq,
      reduceCtorEq, or_false]
    constructor
    · intro h
      exact ⟨span, name, h, rfl, rfl⟩
    · rintro ⟨_, root, h, rfl, -⟩
      exact h
  | _ => simp [storedName, assignedName, readName]

variable {name : Text}

theorem mem_storedNames {statements : List Statement} :
    name ∈ storedNames statements ↔
      name ∈ ((walkStatements statements).filterMap assignedName).map (·.1) ∨
        name ∈ readNames statements := by
  simp only [storedNames, readNames, mem_filterMap, mem_map, storedName_iff]
  constructor
  · rintro ⟨statement, hmem, ⟨span, hassigned⟩ | hread⟩
    · exact .inl ⟨(name, span), ⟨statement, hmem, hassigned⟩, rfl⟩
    · exact .inr ⟨statement, hmem, hread⟩
  · rintro (⟨⟨_, span⟩, ⟨statement, hmem, hassigned⟩, rfl⟩ | ⟨statement, hmem, hread⟩)
    · exact ⟨statement, hmem, .inl ⟨span, hassigned⟩⟩
    · exact ⟨statement, hmem, .inr hread⟩

variable {db}

theorem collectWritten_names (inputs : List Text) (name : Text)
    (assignments written : List (Text × StructuredText.SourceSpan)) :
    name ∈ (collectWritten db inputs written assignments).map (·.1) ↔
      name ∈ written.map (·.1) ∨
        (name ∈ inputs ∧ name ∈ assignments.map (fun item => db.casefoldText item.1)) := by
  induction assignments generalizing written with
  | nil => simp [collectWritten]
  | cons assignment rest ih =>
    obtain ⟨root, span⟩ := assignment
    unfold collectWritten
    simp only [map_cons, mem_cons]
    split
    · rename_i hnew
      rw [ih]
      simp only [map_append, map_cons, map_nil, mem_append,
        mem_singleton]
      constructor
      · rintro ((hold | rfl) | ⟨hinput, hrest⟩)
        · exact .inl hold
        · exact .inr ⟨hnew.1, .inl rfl⟩
        · exact .inr ⟨hinput, .inr hrest⟩
      · rintro (hold | ⟨hinput, rfl | hrest⟩)
        · exact .inl (.inl hold)
        · exact .inl (.inr rfl)
        · exact .inr ⟨hinput, hrest⟩
    · rename_i hknown
      rw [ih]
      constructor
      · rintro (hold | ⟨hinput, hrest⟩)
        · exact .inl hold
        · exact .inr ⟨hinput, .inr hrest⟩
      · rintro (hold | ⟨hinput, rfl | hrest⟩)
        · exact .inl hold
        · left
          by_contra hmissing
          exact hknown ⟨hinput, hmissing⟩
        · exact .inr ⟨hinput, hrest⟩

variable {unit : ReusableUnit}

theorem mem_writtenInputs :
    name ∈ (writtenInputs db unit).map (·.1) ↔
      (∃ parameter ∈ unit.parameters, parameter.direction = .input ∧
        db.casefoldText parameter.name = name) ∧
      ∃ root ∈ (scannedAssignments unit.routines).map (·.1), db.casefoldText root = name := by
  unfold writtenInputs
  rw [collectWritten_names]
  simp only [map_nil, not_mem_nil, false_or, mem_map, mem_filter, beq_iff_eq,
    and_assoc]
  constructor
  · rintro ⟨hinput, item, hitem, rfl⟩
    exact ⟨hinput, item.1, ⟨item, hitem, rfl⟩, rfl⟩
  · rintro ⟨hinput, _, ⟨item, hitem, rfl⟩, rfl⟩
    exact ⟨hinput, item, hitem, rfl⟩

/-! ## The normalized unit -/

theorem lookup_isSome {written : List (Text × StructuredText.SourceSpan)} :
    (∃ span, written.lookup name = some span) ↔ name ∈ written.map (·.1) := by
  induction written with
  | nil => simp
  | cons item rest ih =>
    obtain ⟨first, span⟩ := item
    by_cases h : name = first
    · simp [h]
    · have hne : (name == first) = false := by simpa using h
      simp only [lookup_cons, hne, ih, map_cons, mem_cons, h, false_or]

variable (written : List (Text × StructuredText.SourceSpan))

theorem promoteParameters_value (parameters : List Parameter) :
    (promoteParameters db written parameters).value =
      parameters.map (fun parameter => (promoteParameter db written parameter).value) := by
  induction parameters with
  | nil => rfl
  | cons parameter rest ih => simp [promoteParameters, ih]

theorem promoteParameter_input (parameter : Parameter) :
    (promoteParameter db written parameter).value.direction = .input →
      (promoteParameter db written parameter).value = parameter ∧
        db.casefoldText parameter.name ∉ written.map (·.1) := by
  unfold promoteParameter
  split
  · intro h
    cases h
  · rename_i hkeep
    intro hinput
    refine ⟨rfl, fun hwritten => ?_⟩
    obtain ⟨span, hspan⟩ := lookup_isSome.mpr hwritten
    exact hkeep span hinput hspan

theorem promoteParameter_keep {written : List (Text × StructuredText.SourceSpan)}
    {parameter : Parameter} (h : db.casefoldText parameter.name ∉ written.map (·.1)) :
    (promoteParameter db written parameter).value = parameter := by
  unfold promoteParameter
  split
  · rename_i span _ hspan
    exact absurd (lookup_isSome.mp ⟨span, hspan⟩) h
  · rfl

theorem promoteParameters_input (parameters : List Parameter) (parameter : Parameter) :
    (parameter ∈ (promoteParameters db written parameters).value ∧
        parameter.direction = .input) ↔
      parameter ∈ parameters ∧ parameter.direction = .input ∧
        db.casefoldText parameter.name ∉ written.map (·.1) := by
  rw [promoteParameters_value, mem_map]
  constructor
  · rintro ⟨⟨original, horiginal, rfl⟩, hinput⟩
    obtain ⟨hsame, hkept⟩ := promoteParameter_input written original hinput
    rw [hsame] at hinput ⊢
    exact ⟨horiginal, hinput, hkept⟩
  · rintro ⟨hmem, hinput, hkept⟩
    exact ⟨⟨parameter, hmem, promoteParameter_keep hkept⟩, hinput⟩

def changeCodes : List Text := ["input_promoted_to_output", "unit_promoted_to_function_block"]

theorem promoteParameters_codes (parameters : List Parameter) :
    ∀ item ∈ (promoteParameters db written parameters).items, item.code ∈ changeCodes := by
  induction parameters with
  | nil => simp [promoteParameters]
  | cons parameter rest ih =>
    intro item hitem
    simp only [promoteParameters, Reported.bind_items, Reported.pure_items, append_nil,
      mem_append] at hitem
    rcases hitem with hitem | hitem
    · unfold promoteParameter at hitem
      split at hitem
      · simp only [Reported.bind_items, Reported.report_items, Reported.pure_items,
          append_nil, mem_singleton] at hitem
        rw [hitem]
        exact mem_cons_self
      · cases hitem
    · exact ih item hitem

theorem promoteKind_codes (kind : UnitKind) (span : StructuredText.SourceSpan) :
    ∀ item ∈ (promoteKind kind span).items, item.code ∈ changeCodes := by
  intro item hitem
  cases kind with
  | functionBlock => cases hitem
  | function =>
    have hitem : item ∈ [_] := hitem
    rw [mem_singleton] at hitem
    rw [hitem]
    exact mem_cons_of_mem _ mem_cons_self

/-- What promotion keeps, and what it changes. -/
structure Promoted (db : CharacterDatabase) (unit normalized : ReusableUnit) : Prop where
  routines : normalized.routines = unit.routines
  lifecycle : normalized.lifecycle = unit.lifecycle
  inputs : ∀ parameter, (parameter ∈ normalized.parameters ∧ parameter.direction = .input) ↔
    parameter ∈ unit.parameters ∧ parameter.direction = .input ∧
      db.casefoldText parameter.name ∉ (writtenInputs db unit).map (·.1)
  codes : ∀ item ∈ normalized.diagnostics, item ∈ unit.diagnostics ∨ item.code ∈ changeCodes

theorem normalizeReusableUnit_promoted (unit : ReusableUnit) :
    Promoted db unit (normalizeReusableUnit db unit .promoteWrittenInputs).1 := by
  unfold normalizeReusableUnit
  split
  · contradiction
  · rename_i hnone
    refine ⟨rfl, rfl, fun parameter => ?_, fun item hitem => .inl hitem⟩
    simp [hnone]
  · rename_i first span rest hwritten
    refine ⟨rfl, rfl, fun parameter => ?_, fun item hitem => ?_⟩
    · rw [hwritten]
      exact promoteParameters_input _ _ _
    · rcases mem_append.mp hitem with hkept | hchange
      · exact .inl (mem_of_mem_filter hkept)
      · right
        rcases mem_append.mp hchange with hchange | hchange
        · exact promoteParameters_codes _ _ item hchange
        · exact promoteKind_codes _ _ item hchange

/-! ## The diagnostics of a lowered unit -/

/-- The codes of the diagnostics that lowering an instruction gives its unit. -/
def loweringCodes : List Text :=
  ["missing_routine_semantics", "lifecycle_routine_in_routines_container",
    "unknown_scan_mode_routine", "write_to_input_parameter"]

variable {semantics : Text → Option Semantics}

theorem lowerRoutines_codes {assigned : Bool}
    {routines : List Model.Routine} {lowered : Lowered (List Routine)}
    (h : lowerRoutines db semantics assigned routines = some lowered) :
    ∀ item ∈ lowered.items, item.code ∈ loweringCodes := by
  induction routines generalizing assigned lowered with
  | nil =>
    cases h
    simp
  | cons routine rest ih =>
    intro item hitem
    unfold lowerRoutines at h
    split at h
    · obtain ⟨others, hothers, heq⟩ := Option.bind_eq_some_iff.mp h
      cases heq
      rcases mem_cons.mp hitem with rfl | hitem
      · exact mem_cons_self
      · exact ih hothers item hitem
    · split at h
      · obtain ⟨first, -, h⟩ := Option.bind_eq_some_iff.mp h
        obtain ⟨others, hothers, heq⟩ := Option.bind_eq_some_iff.mp h
        cases heq
        rcases mem_cons.mp hitem with rfl | hitem
        · exact mem_cons_of_mem _ mem_cons_self
        · simp only [Reported.bind_items, Reported.pure_items, append_nil] at hitem
          exact ih hothers item hitem
      · obtain ⟨first, -, h⟩ := Option.bind_eq_some_iff.mp h
        obtain ⟨others, hothers, heq⟩ := Option.bind_eq_some_iff.mp h
        cases heq
        simp only [Reported.bind_items, Reported.pure_items, append_nil] at hitem
        exact ih hothers item hitem

theorem lowerScanModeRoutines_codes
    {routines : List Model.Routine} {lowered : Lowered (List Routine)}
    (h : lowerScanModeRoutines db semantics routines = some lowered) :
    ∀ item ∈ lowered.items, item.code ∈ loweringCodes := by
  induction routines generalizing lowered with
  | nil =>
    cases h
    simp
  | cons routine rest ih =>
    intro item hitem
    unfold lowerScanModeRoutines at h
    split at h
    · obtain ⟨others, hothers, heq⟩ := Option.bind_eq_some_iff.mp h
      cases heq
      rcases mem_cons.mp hitem with rfl | hitem
      · exact mem_cons_self
      · exact ih hothers item hitem
    · obtain ⟨first, -, h⟩ := Option.bind_eq_some_iff.mp h
      obtain ⟨others, hothers, heq⟩ := Option.bind_eq_some_iff.mp h
      cases heq
      split at hitem
      · rcases mem_cons.mp hitem with rfl | hitem
        · exact mem_cons_of_mem _ (mem_cons_of_mem _ mem_cons_self)
        · simp only [Reported.bind_items, Reported.pure_items, append_nil] at hitem
          exact ih hothers item hitem
      · simp only [Reported.bind_items, Reported.pure_items, append_nil] at hitem
        exact ih hothers item hitem

theorem writeDiagnostics_codes (inputs : List (Text × Text))
    (assignments : List (Text × StructuredText.SourceSpan)) (reported : List Text) :
    ∀ item ∈ writeDiagnostics db inputs reported assignments, item.code ∈ loweringCodes := by
  induction assignments generalizing reported with
  | nil => simp [writeDiagnostics]
  | cons assignment rest ih =>
    obtain ⟨root, span⟩ := assignment
    intro item hitem
    unfold writeDiagnostics at hitem
    split at hitem
    · exact ih _ item hitem
    · split at hitem
      · exact ih _ item hitem
      · rcases mem_cons.mp hitem with rfl | hitem
        · exact mem_cons_of_mem _ (mem_cons_of_mem _
            (mem_cons_of_mem _ mem_cons_self))
        · exact ih _ item hitem

theorem lowerAddOnInstruction_codes {instruction : AddOnInstruction}
    (h : lowerAddOnInstruction db instruction semantics = some unit) :
    ∀ item ∈ unit.diagnostics, item.code ∈ loweringCodes := by
  unfold lowerAddOnInstruction at h
  obtain ⟨main, hmain, h⟩ := Option.bind_eq_some_iff.mp h
  obtain ⟨scanMode, hscanMode, h⟩ := Option.bind_eq_some_iff.mp h
  cases h
  intro item hitem
  simp only [mem_append] at hitem
  rcases hitem with (hitem | hitem) | hitem
  · exact lowerRoutines_codes hmain item hitem
  · exact lowerScanModeRoutines_codes hscanMode item hitem
  · exact writeDiagnostics_codes _ _ _ item hitem

/-! ## The emitted body -/

theorem complete_unit {dialect : Option Dialect}
    (h : (emitIecStUnit db dialect unit).complete = true) :
    (∀ item ∈ unit.diagnostics, item.code ∉ blockingCodes) ∧
      (executableRoutines unit).length ≤ 1 := by
  unfold Emission.complete at h
  rw [Bool.not_eq_true', any_eq_false] at h
  simp only [decide_eq_true_eq] at h
  constructor
  · intro item hitem
    apply h
    simp only [emitIecStUnit, mem_append]
    exact .inl (.inl (.inl (.inl hitem)))
  · by_contra hmany
    apply h ⟨"multiple_routines_require_lifecycle_mapping",
      ("multiple source routines require explicit execution-role " : Text) ++
        ("and lifecycle mapping before target emission" : Text), noSpan⟩
    · simp only [emitIecStUnit, mem_append]
      left; left; right
      rw [if_pos (by omega)]
      exact mem_singleton.mpr rfl
    · decide

structure Enabled (db : CharacterDatabase) (unit applied : ReusableUnit) : Prop where
  parameters : applied.parameters = unit.parameters
  routines : ∃ before primary after enableIn enableOut span,
    unit.routines = before ++ primary :: after ∧ primary.role = .primary ∧
    db.casefoldText enableOut = ("enableout" : Text) ∧
    applied.routines = before ++ { primary with
      statements := guardedPrimary enableIn enableOut span primary.statements
        ((mappedEnableInFalse unit).getD []) } :: after

theorem applyAoiExecutionSemantics_enabled
    (hnew : ∀ item ∈ unit.diagnostics, item.code ≠ enableApplied)
    (hcomplete : ∀ item ∈ (applyAoiExecutionSemantics db unit).diagnostics,
      item.code ∉ blockingCodes) :
    Enabled db unit (applyAoiExecutionSemantics db unit) := by
  have hfirst : unit.diagnostics.any (fun item => item.code == enableApplied) = false := by
    rw [any_eq_false]
    intro item hitem
    simpa using hnew item hitem
  unfold applyAoiExecutionSemantics at hcomplete ⊢
  simp only [hfirst, Bool.false_eq_true, if_false] at hcomplete ⊢
  split at hcomplete
  · rename_i enableIn enableOut primaryIndex hin hout hindex
    obtain ⟨hlt, hrole, -⟩ := List.findIdx?_eq_some_iff_getElem.mp hindex
    have hget : unit.routines[primaryIndex]? = some unit.routines[primaryIndex] :=
      List.getElem?_eq_getElem hlt
    simp only [hget]
    refine ⟨rfl, unit.routines.take primaryIndex, unit.routines[primaryIndex],
      unit.routines.drop (primaryIndex + 1), enableIn.name, enableOut.name,
      (unit.routines[primaryIndex].statements.head?.map (·.span)).getD noSpan, ?_, eq_of_beq hrole,
      ?_, ?_⟩
    · rw [← drop_eq_getElem_cons hlt, take_append_drop]
    · have := List.find?_some hout
      simp only [Bool.and_eq_true, beq_iff_eq] at this
      exact this.1.2
    · rw [set_eq_take_append_cons_drop, if_pos hlt]
  · exfalso
    apply hcomplete ⟨"aoi_enable_interface_unavailable", _, noSpan⟩
      (mem_append_right _ (mem_singleton.mpr rfl))
    decide

theorem filter_single {before after : List Routine} {primary : Routine}
    (h : ((before ++ primary :: after).filter (fun routine => !routine.role.isLifecycle)).length ≤ 1)
    (hrole : primary.role.isLifecycle = false)
    (other : Routine) (hother : other.role = primary.role) :
    (before ++ other :: after).filter (fun routine => !routine.role.isLifecycle) = [other] := by
  have hlifecycle : other.role.isLifecycle = false := by rw [hother, hrole]
  rw [filter_append, filter_cons_of_pos (by simp [hrole]), length_append,
    length_cons] at h
  have hbefore : before.filter (fun routine => !routine.role.isLifecycle) = [] :=
    length_eq_zero_iff.mp (by omega)
  have hafter : after.filter (fun routine => !routine.role.isLifecycle) = [] :=
    length_eq_zero_iff.mp (by omega)
  rw [filter_append, filter_cons_of_pos (by simp [hlifecycle]), hbefore, hafter]
  rfl

theorem mem_guardedPrimary {enableIn enableOut : Text} {span : StructuredText.SourceSpan}
    {primary enableInFalse : List Statement} :
    name ∈ storedNames (guardedPrimary enableIn enableOut span primary enableInFalse) ↔
      name = enableOut ∨ name ∈ storedNames primary ∨ name ∈ storedNames enableInFalse := by
  have hwalk : walkStatements (guardedPrimary enableIn enableOut span primary enableInFalse) =
      .assignment span (.reference span (some ("BOOL" : Text)) enableOut)
        (.reference span (some ("BOOL" : Text)) enableIn) ::
      .ifThen span [⟨span, .reference span (some ("BOOL" : Text)) enableIn, primary⟩]
        enableInFalse :: (walkStatements primary ++ walkStatements enableInFalse) := by
    simp [guardedPrimary, walkStatements, walkStatement, walkBranches]
  unfold storedNames
  rw [hwalk]
  simp only [filterMap_cons, storedName, rootReference, filterMap_append, mem_cons,
    mem_append]

/-- The body a complete emission is made of, and the statements of its one source
routine. -/
theorem enabled_stores {normalized applied : ReusableUnit}
    (hpromoted : Promoted db unit normalized) (henabled : Enabled db normalized applied)
    (hsingle : (executableRoutines applied).length ≤ 1) :
    ∃ primary, executableRoutines unit = [primary] ∧
      ∃ body enableOut, executableRoutines applied = [body] ∧
        db.casefoldText enableOut = ("enableout" : Text) ∧
        ∀ name, name ∈ storedNames body.statements ↔ name = enableOut ∨
          name ∈ storedNames primary.statements ∨
          name ∈ storedNames ((mappedEnableInFalse unit).getD []) := by
  obtain ⟨before, primary, after, enableIn, enableOut, span, hroutines, hrole, hname, happlied⟩ :=
    henabled.routines
  have hscan : primary.role.isLifecycle = false := by rw [hrole]; rfl
  have hmapped : mappedEnableInFalse normalized = mappedEnableInFalse unit := by
    unfold mappedEnableInFalse
    rw [hpromoted.routines, hpromoted.lifecycle]
  unfold executableRoutines at hsingle ⊢
  rw [happlied] at hsingle ⊢
  rw [← hpromoted.routines, hroutines]
  refine ⟨primary, ?_, { primary with
    statements := guardedPrimary enableIn enableOut span primary.statements
      ((mappedEnableInFalse normalized).getD []) }, enableOut, ?_, hname, fun name => ?_⟩
  · exact filter_single hsingle hscan primary rfl
  · exact filter_single hsingle hscan _ rfl
  · rw [mem_guardedPrimary, hmapped]

end

/-- A complete emission of a normalized and enabled instruction stores into no input
exactly when every input that its reads, its mapped EnableInFalse routine or EnableOut
store into is also assigned by its normal scan. -/
theorem emitIecStUnit_inputs_iff (db : CharacterDatabase) (dialect : Option Dialect)
    (instruction : AddOnInstruction) (semantics : Text → Option Semantics) (unit : ReusableUnit)
    (hlower : lowerAddOnInstruction db instruction semantics = some unit)
    (hcomplete : (emitIecStUnit db dialect (applyAoiExecutionSemantics db
      (normalizeReusableUnit db unit .promoteWrittenInputs).1)).complete = true) :
    ¬WritesInput db (applyAoiExecutionSemantics db
        (normalizeReusableUnit db unit .promoteWrittenInputs).1) ↔ StoresPromoted db unit := by
  have hpromoted : Promoted db unit (normalizeReusableUnit db unit .promoteWrittenInputs).1 :=
    normalizeReusableUnit_promoted unit
  generalize (normalizeReusableUnit db unit .promoteWrittenInputs).1 = normalized
    at hcomplete hpromoted ⊢
  have hnew : ∀ item ∈ normalized.diagnostics, item.code ≠ enableApplied := by
    intro item hitem heq
    rcases hpromoted.codes item hitem with hlowered | hchange
    · have hcode := lowerAddOnInstruction_codes hlower item hlowered
      rw [heq] at hcode
      exact absurd hcode (by decide)
    · rw [heq] at hchange
      exact absurd hchange (by decide)
  obtain ⟨hblocking, hsingle⟩ := complete_unit hcomplete
  have henabled := applyAoiExecutionSemantics_enabled hnew hblocking
  obtain ⟨primary, hunit, body, enableOut, hbody, hname, hstores⟩ :=
    enabled_stores hpromoted henabled hsingle
  have hwritten : ∀ parameter ∈ unit.parameters, parameter.direction = .input →
      ∀ name ∈ ((walkStatements primary.statements).filterMap assignedName).map (·.1),
        db.casefoldText parameter.name = db.casefoldText name →
          db.casefoldText parameter.name ∈ (writtenInputs db unit).map (·.1) := by
    intro parameter hmem hinput name hassigned heq
    refine mem_writtenInputs.mpr ⟨⟨parameter, hmem, hinput, rfl⟩, name, ?_, heq.symm⟩
    unfold executableRoutines at hunit
    unfold scannedAssignments
    rw [hunit, flatMap_singleton]
    exact hassigned
  have hinputs : ∀ parameter, (parameter ∈ (applyAoiExecutionSemantics db normalized).parameters ∧
      parameter.direction = .input) ↔ parameter ∈ unit.parameters ∧ parameter.direction = .input ∧
        db.casefoldText parameter.name ∉ (writtenInputs db unit).map (·.1) := by
    intro parameter
    rw [henabled.parameters]
    exact hpromoted.inputs parameter
  unfold WritesInput StoresPromoted unscannedStores
  rw [hbody, hunit, flatMap_singleton]
  constructor
  · intro hsafe parameter hmem hinput hstored
    by_contra hkept
    obtain ⟨hpresent, hdirection⟩ := (hinputs parameter).mpr ⟨hmem, hinput, hkept⟩
    apply hsafe
    rcases mem_cons.mp hstored with henable | hstored
    · exact ⟨body, mem_singleton.mpr rfl, enableOut, (hstores _).mpr (.inl rfl), parameter,
        hpresent, hdirection, henable.trans hname.symm⟩
    · obtain ⟨name, hread, heq⟩ := mem_map.mp hstored
      refine ⟨body, mem_singleton.mpr rfl, name, (hstores _).mpr (.inr ?_), parameter,
        hpresent, hdirection, heq.symm⟩
      rcases mem_append.mp hread with hread | hfalse
      · exact .inl (mem_storedNames.mpr (.inr hread))
      · exact .inr hfalse
  · rintro hpromotes ⟨routine, hroutine, name, hstored, parameter, hpresent, hdirection, heq⟩
    rw [mem_singleton.mp hroutine] at hstored
    obtain ⟨hmem, hinput, hkept⟩ := (hinputs parameter).mp ⟨hpresent, hdirection⟩
    apply hkept
    rcases (hstores name).mp hstored with rfl | hprimary | hfalse
    · exact hpromotes parameter hmem hinput (mem_cons.mpr (.inl (heq.trans hname)))
    · rcases mem_storedNames.mp hprimary with hassigned | hread
      · exact hwritten parameter hmem hinput name hassigned heq
      · apply hpromotes parameter hmem hinput (mem_cons_of_mem _ ?_)
        exact mem_map.mpr ⟨name, mem_append_left _ hread, heq.symm⟩
    · apply hpromotes parameter hmem hinput (mem_cons_of_mem _ ?_)
      exact mem_map.mpr ⟨name, mem_append_right _ hfalse, heq.symm⟩

/-- An instruction with input Command, output Motor and a mapped EnableInFalse routine. -/
def motorInstruction : AddOnInstruction where
  name := "Motor"
  executeEnableInFalse := some true
  parameters := [("EnableIn", ⟨"EnableIn", some ("BOOL" : Text), none, some ("Input" : Text), none⟩),
    ("EnableOut", ⟨"EnableOut", some ("BOOL" : Text), none, some ("Output" : Text), none⟩),
    ("Command", ⟨"Command", some ("BOOL" : Text), none, some ("Input" : Text), none⟩),
    ("Motor", ⟨"Motor", some ("BOOL" : Text), none, some ("Output" : Text), none⟩)]
  routines := [("Logic", ⟨"Logic", []⟩)]
  scanModeRoutines := [("EnableInFalse", ⟨"EnableInFalse", []⟩)]

/-- The resolved document of the one assignment of a constant to a variable. -/
def clearing (name : Text) : Semantics where
  document := ⟨name ++ (" := FALSE;" : Text), [],
    [.assignment ⟨0, 20⟩ (.name ⟨0, 7⟩ name) ":=" (.literal ⟨11, 16⟩ "FALSE")], []⟩
  references := [⟨⟨0, 7⟩, .resolved⟩]

/-- Both routines clear an output. -/
theorem emitIecStUnit_inputs_kept :
    ∃ unit, lowerAddOnInstruction Ascii.database motorInstruction
        (fun _ => some (clearing "Motor")) = some unit ∧
      ¬WritesInput Ascii.database (applyAoiExecutionSemantics Ascii.database
        (normalizeReusableUnit Ascii.database unit .promoteWrittenInputs).1) := by
  refine ⟨_, rfl, (emitIecStUnit_inputs_iff Ascii.database none motorInstruction
    (fun _ => some (clearing "Motor")) _ rfl (by decide +kernel)).mpr ?_⟩
  unfold StoresPromoted
  decide +kernel

/-- The mapped EnableInFalse routine clears an input that stays in VAR_INPUT, and the
emission is complete. -/
theorem emitIecStUnit_input_cleared :
    ∃ unit, lowerAddOnInstruction Ascii.database motorInstruction (fun name => some (clearing
          (if name = ("EnableInFalse" : Text) then "Command" else "Motor"))) = some unit ∧
      (emitIecStUnit Ascii.database none (applyAoiExecutionSemantics Ascii.database
        (normalizeReusableUnit Ascii.database unit .promoteWrittenInputs).1)).complete = true ∧
      WritesInput Ascii.database (applyAoiExecutionSemantics Ascii.database
        (normalizeReusableUnit Ascii.database unit .promoteWrittenInputs).1) := by
  refine ⟨_, rfl, by decide +kernel, ?_⟩
  unfold WritesInput
  decide +kernel

end TwinForge.IecSt
