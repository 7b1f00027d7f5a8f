import TwinForge.Codesys.EmissionFindings
import TwinForge.Foundation.Guards

/-! # What a complete CODESYS export leaves out

The text of `FB_Init` comes from an emission of its own, which the export asks for its
requirements, and only for the primary unit. A mapped Prescan of the primary unit takes
the missing mappings of all units off the list.
-/

namespace TwinForge.Codesys

open IR List
open IecSt

/-! ## The document of a complete export -/

def Enabled (unit : ReusableUnit) : RoutineRole → Prop
  | .prescan => unit.lifecycle.prescanEnabled = some true
  | .postscan => unit.lifecycle.postscanEnabled = some true
  | .enableInFalse => unit.lifecycle.enableInFalseEnabled = some true
  | _ => False

def falseBranch : Statement → Option (List Statement)
  | .ifThen _ _ elseStatements => some elseStatements
  | _ => none

def falseBranches (statements : List Statement) : List (List Statement) :=
  (walkStatements statements).filterMap falseBranch

section

variable (db : CharacterDatabase)

/-- The lines of the block, at some margin, stand in a row among these lines. -/
def WrittenIn (lines : List Text) (block : List Statement) : Prop :=
  ∃ indent, (emitStatements db (some codesysDialect) indent block).value <:+: lines

/-- The POU of the unit runs a lifecycle routine: Prescan as `FB_Init`, and EnableInFalse as
a false branch of the scan. No place runs Postscan. -/
def Present (unit : ReusableUnit) (routine : Routine) : Prop :=
  match routine.role with
  | .prescan => mappedPrescan unit = some routine
  | .enableInFalse => ∃ scanned ∈ executableRoutines unit,
      routine.statements ∈ falseBranches scanned.statements ∧
        WrittenIn db (emitStatements db (some codesysDialect) 0 scanned.statements).value
          routine.statements
  | _ => False

/-- Every routine text of the POU is that of a clean emission, and every lifecycle routine
that the unit enables is there. -/
structure Sound (unit : ReusableUnit) (pou : Pou) : Prop where
  body : pou.body = bodyText db unit
  body_clean : ∀ routine ∈ executableRoutines unit, Clean (emitCodesysStRoutine db routine)
  fbInit : pou.fbInit = (mappedPrescan unit).map (initText db)
  fbInit_clean : ∀ routine, mappedPrescan unit = some routine →
    Clean (emitCodesysStRoutine db routine)
  lifecycle : ∀ role, Enabled unit role →
    (∃ routine ∈ unit.routines, routine.role = role) ∧
      ∀ routine ∈ unit.routines, routine.role = role → Present db unit routine

def adaptedUnits (unit : ReusableUnit) (additional : List ReusableUnit) : List ReusableUnit :=
  (unit :: additional).map (adaptCodesysRuntime db)

/-! ## What the units tell -/

def capturedDiagnostics (unit : ReusableUnit) : List Diagnostic :=
  unit.diagnostics ++ unit.routines.flatMap (·.diagnostics)

/-- A blocking code that stays on the list. -/
def KeptCode (mapped : Prop) (code : Text) : Prop :=
  code ∈ blockingCodes ∧ (mapped → code ≠ prescanRequired)

/-- The declarations or the scan of the unit have something to report. -/
def SelfReported (unit : ReusableUnit) : Prop :=
  1 < (executableRoutines unit).length ∨ Untyped unit ∨
    (∃ parameter ∈ unit.parameters, genericLeft parameter = true) ∨
    ∃ routine ∈ executableRoutines unit,
      Untranslated routine.statements ∨ NeedsAdapter routine.statements

def UnitReported (mapped : Prop) (unit : ReusableUnit) : Prop :=
  SelfReported unit ∨ ∃ item ∈ capturedDiagnostics unit, KeptCode mapped item.code

/-- Every lifecycle routine that the unit enables has a place in the POU: the only Prescan
routine of a function block, and EnableInFalse routines as false branches of the scan. -/
def LifecyclePlaced (unit : ReusableUnit) : Prop :=
  (unit.lifecycle.prescanEnabled = some true → unit.kind = .functionBlock ∧
    (∃ routine ∈ unit.routines, routine.role = .prescan) ∧
    ∀ routine ∈ unit.routines, routine.role = .prescan →
      unit.routines.find? (fun other => other.role == .prescan) = some routine) ∧
  unit.lifecycle.postscanEnabled ≠ some true ∧
  (unit.lifecycle.enableInFalseEnabled = some true →
    (∃ routine ∈ unit.routines, routine.role = .enableInFalse) ∧
    ∀ routine ∈ unit.routines, routine.role = .enableInFalse →
      ∃ scanned ∈ executableRoutines unit, routine.statements ∈ falseBranches scanned.statements)

/-- Nothing in the unit is out of sight of the export: its `FB_Init` is translated and asks
for no adapter, no routine of the POU holds a missing mapping that the list drops, and
every enabled lifecycle routine is placed. -/
def InSight (mapped : Prop) (unit : ReusableUnit) : Prop :=
  (∀ routine, mappedPrescan unit = some routine →
    ¬ Untranslated routine.statements ∧ ¬ NeedsAdapter routine.statements) ∧
  (mapped → ∀ routine ∈ executableRoutines unit ++ (mappedPrescan unit).toList,
    ∀ item ∈ routine.diagnostics, item.code ≠ prescanRequired) ∧
  LifecyclePlaced unit

/-- What makes completeness tell the truth about these units, the first of which is the
primary one: something is reported against one of them, or all of them are in sight. -/
def ReportedOrInSight : List ReusableUnit → Prop
  | [] => True
  | primary :: additional =>
    let mapped := (mappedPrescan primary).isSome = true
    (∃ unit ∈ primary :: additional, UnitReported mapped unit) ∨
    (∃ routine, mappedPrescan primary = some routine ∧ NeedsAdapter routine.statements) ∨
    ∀ unit ∈ primary :: additional, InSight mapped unit

/-! ## False branches in the text -/

variable {db} {block : List Statement}

theorem WrittenIn.within {lines more : List Text}
    (h : WrittenIn db lines block) (hmore : lines <:+: more) : WrittenIn db more block := by
  obtain ⟨indent, hlines⟩ := h
  exact ⟨indent, hlines.trans hmore⟩

mutual

theorem falseBranch_statement (indent : Nat) (statement : Statement)
    (h : block ∈ (walkStatement statement).filterMap falseBranch) :
    WrittenIn db (emitStatement db (some codesysDialect) indent statement).value block := by
  cases statement with
  | ifThen span branches elseStatements =>
    have hnext : (falseBranch (.ifThen span branches elseStatements)) = some elseStatements := rfl
    rw [walkStatement, filterMap_cons_some hnext, filterMap_append, mem_cons,
      mem_append] at h
    have helse : WrittenIn db (emitStatements db (some codesysDialect) (indent + 1)
        elseStatements).value block → WrittenIn db (emitStatement db (some codesysDialect) indent
        (.ifThen span branches elseStatements)).value block := by
      intro hwritten
      simp only [emitStatement, Reported.bind_value, Reported.pure_value]
      cases hempty : elseStatements.isEmpty with
      | true =>
        rw [isEmpty_iff.mp hempty] at hwritten
        obtain ⟨depth, hlines⟩ := hwritten
        exact ⟨depth, hlines.trans nil_infix⟩
      | false =>
        apply hwritten.within
        rw [if_neg Bool.false_ne_true, append_assoc]
        exact (infix_cons (prefix_append _ _).isInfix).trans
          (suffix_append _ _).isInfix
    rcases h with rfl | hbranch | hdeeper
    · exact helse ⟨indent + 1, infix_rfl⟩
    · apply (falseBranch_branches indent "IF" branches hbranch).within
      simp only [emitStatement, Reported.bind_value, Reported.pure_value]
      rw [append_assoc]
      exact (prefix_append _ _).isInfix
    · exact helse (falseBranch_statements (indent + 1) elseStatements hdeeper)
  | whileDo span condition statements =>
    rw [walkStatement, filterMap_cons_none rfl] at h
    apply (falseBranch_statements (indent + 1) statements h).within
    simp only [emitStatement, Reported.bind_value, Reported.pure_value]
    exact infix_cons (prefix_append _ _).isInfix
  | _ => simp [walkStatement, falseBranch] at h

theorem falseBranch_statements (indent : Nat)
    (statements : List Statement) (h : block ∈ falseBranches statements) :
    WrittenIn db (emitStatements db (some codesysDialect) indent statements).value block := by
  cases statements with
  | nil => cases h
  | cons statement rest =>
    rw [falseBranches, walkStatements, filterMap_append, mem_append] at h
    rcases h with hfirst | hrest
    · exact (falseBranch_statement indent statement hfirst).within
        (prefix_append _ _).isInfix
    · exact (falseBranch_statements indent rest hrest).within (suffix_append _ _).isInfix

theorem falseBranch_branches (indent : Nat) (keyword : Text) (branches : List (IfBranch Statement))
    (h : block ∈ (walkBranches branches).filterMap falseBranch) :
    WrittenIn db (emitBranches db (some codesysDialect) indent keyword branches).value block := by
  match branches with
  | [] => cases h
  | ⟨span, condition, statements⟩ :: rest =>
    rw [walkBranches, filterMap_append, mem_append] at h
    simp only [emitBranches, Reported.bind_value, Reported.pure_value]
    rcases h with hbody | hrest
    · exact (falseBranch_statements (indent + 1) statements hbody).within
        (infix_cons (prefix_append _ _).isInfix)
    · exact (falseBranch_branches indent "ELSIF" rest hrest).within
        (infix_cons (suffix_append _ _).isInfix)

end

/-! ## Adapting twice -/

theorem adaptCodesysRuntime_again (unit : ReusableUnit) :
    adaptCodesysRuntime db (adaptCodesysRuntime db unit) = adaptCodesysRuntime db unit := by
  have hmarked : ∀ marked : ReusableUnit,
      marked.diagnostics.any (fun item => item.code == adapterApplied) = true →
      adaptCodesysRuntime db marked = marked := by
    intro marked h
    rw [adaptCodesysRuntime, if_pos h]
  have hfree : ∀ free : ReusableUnit,
      free.routines.any (fun routine => hasWallClockRead routine.statements) = false →
      adaptCodesysRuntime db free = free := by
    intro free h
    rw [adaptCodesysRuntime]
    simp [h]
  by_cases hmark : unit.diagnostics.any (fun item => item.code == adapterApplied) = true
  · rw [hmarked unit hmark, hmarked unit hmark]
  · cases hread : unit.routines.any (fun routine => hasWallClockRead routine.statements) with
    | false => rw [hfree unit hread, hfree unit hread]
    | true =>
      apply hmarked
      rw [adaptCodesysRuntime, if_neg hmark]
      simp [hread]

variable {unit primary : ReusableUnit} {additional : List ReusableUnit}

theorem mem_adaptedUnits (h : unit ∈ adaptedUnits db primary additional) :
    adaptCodesysRuntime db unit = unit := by
  obtain ⟨source, -, rfl⟩ := mem_map.mp h
  exact adaptCodesysRuntime_again source

/-! ## The emission of a unit -/

variable {mapped : Prop}

theorem mem_unitDiagnostics (hadapted : adaptCodesysRuntime db unit = unit)
    :
    (∃ item ∈ (emitCodesysStUnit db unit).diagnostics, KeptCode mapped item.code) ↔
      (∃ item ∈ capturedDiagnostics unit, KeptCode mapped item.code) ∨
        1 < (executableRoutines unit).length ∨
        ∃ item, .diagnostic item ∈ (emitUnitBody db (some codesysDialect) unit).items ∧
          KeptCode mapped item.code := by
  have hshape : ¬ KeptCode mapped "implementation_shape_adjusted" := by
    intro h
    exact absurd h.1 (by decide)
  have hseveral : KeptCode mapped "multiple_routines_require_lifecycle_mapping" :=
    ⟨by decide, fun _ => by decide⟩
  rw [emitCodesysStUnit, hadapted]
  simp only [emitIecStUnit, capturedDiagnostics, mem_append, or_and_right, exists_or,
    mem_findingDiagnostics]
  constructor
  · rintro ((((hunit | ⟨item, hitem, hkept⟩) | ⟨item, hitem, hkept⟩) | hroutine) | hbody)
    · exact .inl (.inl hunit)
    · split at hitem
      · rw [mem_singleton.mp hitem] at hkept
        exact absurd hkept hshape
      · cases hitem
    · split at hitem
      · rename_i hmany
        exact .inr (.inl hmany)
      · cases hitem
    · exact .inl (.inr hroutine)
    · exact .inr (.inr hbody)
  · rintro ((hunit | hroutine) | hmany | hbody)
    · exact .inl (.inl (.inl (.inl hunit)))
    · exact .inl (.inr hroutine)
    · rw [if_pos hmany]
      exact .inl (.inl (.inr ⟨_, mem_singleton_self _, hseveral⟩))
    · exact .inr hbody

/-- The emission of a unit reports exactly what is captured against it, and what its
declarations and its scan hold. -/
theorem unit_reported (hadapted : adaptCodesysRuntime db unit = unit)
    :
    UnitReported mapped unit ↔
      (∃ item ∈ (emitCodesysStUnit db unit).diagnostics, KeptCode mapped item.code) ∨
        (emitCodesysStUnit db unit).requirements ≠ [] := by
  have huntyped : KeptCode mapped "unknown_data_type" := ⟨by decide, fun _ => by decide⟩
  have hrequirement : (emitCodesysStUnit db unit).requirements ≠ [] ↔
      ∃ item, .requirement item ∈ (emitUnitBody db (some codesysDialect) unit).items := by
    rw [ne_eq, eq_nil_iff_forall_not_mem, not_forall_not]
    simp only [emitCodesysStUnit, hadapted, emitIecStUnit, mem_sortedRequirements]
  rw [mem_unitDiagnostics hadapted, hrequirement]
  simp only [emitUnitBody_findings]
  unfold UnitReported SelfReported
  constructor
  · rintro ((hmany | hbare | hgeneric | ⟨routine, hmem, hrest⟩) | hcaptured)
    · exact .inl (.inr (.inl hmany))
    · exact .inl (.inr (.inr ⟨_, .inl ⟨hbare, rfl⟩, huntyped⟩))
    · exact .inr ⟨_, .inr (.inl ⟨hgeneric, rfl⟩)⟩
    · cases hrest with
      | inl huntranslated =>
        obtain ⟨item, hitem⟩ := (noted_untranslated _).mpr huntranslated
        have hcode := noted_code hitem
        exact .inl (.inr (.inr ⟨item, .inr (.inr ⟨routine, hmem, hitem⟩), hcode.1,
          fun _ => hcode.2⟩))
      | inr hadapter =>
        obtain ⟨item, hitem⟩ := (noted_adapter _).mpr hadapter
        exact .inr ⟨item, .inr (.inr ⟨routine, hmem, hitem⟩)⟩
    · exact .inl (.inl hcaptured)
  · rintro ((hcaptured | hmany | ⟨item, hitem, -⟩) | ⟨item, hitem⟩)
    · exact .inr hcaptured
    · exact .inl (.inl hmany)
    · rcases hitem with ⟨hbare, -⟩ | ⟨-, hother⟩ | ⟨routine, hmem, hnoted⟩
      · exact .inl (.inr (.inl hbare))
      · cases hother
      · exact .inl (.inr (.inr (.inr
          ⟨routine, hmem, .inl ((noted_untranslated _).mp ⟨item, hnoted⟩)⟩)))
    · rcases hitem with ⟨-, hother⟩ | ⟨hgeneric, -⟩ | ⟨routine, hmem, hnoted⟩
      · cases hother
      · exact .inl (.inr (.inr (.inl hgeneric)))
      · exact .inl (.inr (.inr (.inr
          ⟨routine, hmem, .inr ((noted_adapter _).mp ⟨item, hnoted⟩)⟩)))

/-! ## The export -/

theorem complete_iff (result : PlcopenResult) :
    result.complete = true ↔
      (∀ item ∈ result.diagnostics, item.code ∉ blockingCodes) ∧ result.requirements = [] := by
  simp [PlcopenResult.complete, and_comm]

variable {integration : Option ProjectIntegration}

theorem buildProject_pous {project : Project}
    (h : buildProject db unit additional integration = some project) :
    (unit :: additional).mapM (emitPou db) = some project.pous := by
  simp only [buildProject, Option.bind_eq_bind, Option.bind_eq_some_iff, Option.pure_def,
    Option.some.injEq] at h
  obtain ⟨program, -, pous, hpous, rfl⟩ := h
  exact hpous

/-- A result puts the POUs of the adapted units in order, and keeps the blocking codes of
their emissions and the adapters of the scans and of the primary `FB_Init`. -/
theorem exportUnits_parts {result : PlcopenResult}
    (h : exportUnits db primary additional integration = some result) :
    (adaptedUnits db primary additional).mapM (emitPou db) = some result.project.pous ∧
      (result.complete = true ↔
        (∀ unit ∈ adaptedUnits db primary additional,
          ∀ item ∈ (emitCodesysStUnit db unit).diagnostics,
            ¬ KeptCode ((mappedPrescan (adaptCodesysRuntime db primary)).isSome = true) item.code) ∧
        (∀ unit ∈ adaptedUnits db primary additional,
          (emitCodesysStUnit db unit).requirements = []) ∧
        ∀ routine, mappedPrescan (adaptCodesysRuntime db primary) = some routine →
          (emitCodesysStRoutine db routine).requirements = []) := by
  have hquiet : ∀ {found : List Requirement}, sortRequirements found = [] ↔ found = [] := by
    intro found
    simp only [eq_nil_iff_forall_not_mem, mem_sortRequirements]
  simp only [exportUnits, Option.bind_eq_bind, Option.bind_eq_some_iff] at h
  obtain ⟨project, hproject, h⟩ := h
  have hpous := buildProject_pous hproject
  rw [adaptedUnits, map_cons, forall_mem_cons, forall_mem_cons]
  cases hprescan : mappedPrescan (adaptCodesysRuntime db primary) with
  | none =>
    rw [hprescan] at h
    simp only [Option.pure_def, Option.some.injEq] at h
    subst h
    refine ⟨hpous, ?_⟩
    simp only [complete_iff, hquiet, KeptCode, mem_append, mem_flatMap,
      append_eq_nil_iff, flatMap_eq_nil_iff]
    simp [or_imp, forall_and]
    tauto
  | some prescan =>
    rw [hprescan] at h
    simp only [Option.pure_def, Option.some.injEq] at h
    subst h
    refine ⟨hpous, ?_⟩
    have hmapped : prescanMapped.code ∉ blockingCodes := by decide
    have hkept : ∀ code, ¬ KeptCode ((some prescan).isSome = true) code ↔
        (code ≠ prescanRequired → code ∉ blockingCodes) := by
      intro code
      simp only [KeptCode, Option.isSome_some, true_implies, not_and]
      exact not_imp_not.symm.trans (by rw [not_not])
    simp only [complete_iff, hquiet, hkept, mem_append, mem_flatMap,
      append_eq_nil_iff, flatMap_eq_nil_iff, mem_filter]
    simp [or_imp, forall_and, hmapped]
    tauto

/-- A result is complete when nothing is reported against the units and the primary
`FB_Init` asks for no adapter. -/
theorem complete_reported {result : PlcopenResult}
    (h : exportUnits db primary additional integration = some result) :
    result.complete = true ↔
      (∀ unit ∈ adaptedUnits db primary additional,
        ¬ UnitReported ((mappedPrescan (adaptCodesysRuntime db primary)).isSome = true) unit) ∧
      ∀ routine, mappedPrescan (adaptCodesysRuntime db primary) = some routine →
        ¬ NeedsAdapter routine.statements := by
  rw [(exportUnits_parts h).2, ← and_assoc, ← forall₂_and]
  apply and_congr
  · apply forall₂_congr
    intro unit hmem
    rw [unit_reported (mem_adaptedUnits hmem), not_or, not_exists]
    simp only [not_and, not_not, ne_eq]
  · simp only [emitCodesysStRoutine_requirements]

/-! ## One unit -/

variable {routine : Routine}

theorem mappedPrescan_eq :
    mappedPrescan unit = some routine ↔
      unit.kind = .functionBlock ∧ unit.lifecycle.prescanEnabled = some true ∧
        unit.routines.find? (fun other => other.role == .prescan) = some routine := by
  unfold mappedPrescan
  by_cases hkind : unit.kind = .functionBlock
  · by_cases henabled : unit.lifecycle.prescanEnabled = some true
    · simp [hkind, henabled]
    · simp [henabled]
  · simp [hkind]

theorem lifecycle_placed (db : CharacterDatabase) (unit : ReusableUnit) :
    (∀ role, Enabled unit role →
      (∃ routine ∈ unit.routines, routine.role = role) ∧
        ∀ routine ∈ unit.routines, routine.role = role → Present db unit routine) ↔
      LifecyclePlaced unit := by
  constructor
  · intro h
    refine ⟨?_, ?_, ?_⟩
    · intro henabled
      obtain ⟨⟨first, hfirst, hrole⟩, hpresent⟩ := h .prescan henabled
      have hmapped : ∀ routine ∈ unit.routines, routine.role = .prescan →
          mappedPrescan unit = some routine := by
        intro routine hroutine hprescan
        have hhere := hpresent routine hroutine hprescan
        rwa [Present, hprescan] at hhere
      exact ⟨(mappedPrescan_eq.mp (hmapped first hfirst hrole)).1, ⟨first, hfirst, hrole⟩,
        fun routine hroutine hprescan =>
          (mappedPrescan_eq.mp (hmapped routine hroutine hprescan)).2.2⟩
    · intro henabled
      obtain ⟨⟨routine, hroutine, hrole⟩, hpresent⟩ := h .postscan henabled
      have hhere := hpresent routine hroutine hrole
      rwa [Present, hrole] at hhere
    · intro henabled
      obtain ⟨hsome, hpresent⟩ := h .enableInFalse henabled
      refine ⟨hsome, ?_⟩
      intro routine hroutine hrole
      have hhere := hpresent routine hroutine hrole
      rw [Present, hrole] at hhere
      obtain ⟨scanned, hscanned, hbranch, -⟩ := hhere
      exact ⟨scanned, hscanned, hbranch⟩
  · rintro ⟨hprescan, hpostscan, henableInFalse⟩ role henabled
    cases role with
    | prescan =>
      obtain ⟨hkind, hsome, hfirst⟩ := hprescan henabled
      refine ⟨hsome, ?_⟩
      intro routine hroutine hrole
      rw [Present, hrole]
      exact mappedPrescan_eq.mpr ⟨hkind, henabled, hfirst routine hroutine hrole⟩
    | postscan => exact absurd henabled hpostscan
    | enableInFalse =>
      obtain ⟨hsome, hplaced⟩ := henableInFalse henabled
      refine ⟨hsome, ?_⟩
      intro routine hroutine hrole
      obtain ⟨scanned, hscanned, hbranch⟩ := hplaced routine hroutine hrole
      rw [Present, hrole]
      exact ⟨scanned, hscanned, hbranch, falseBranch_statements 0 scanned.statements hbranch⟩
    | _ => exact henabled.elim

theorem captured_routine {item : Diagnostic}
    (hroutine : routine ∈ unit.routines) (hitem : item ∈ routine.diagnostics) :
    item ∈ capturedDiagnostics unit :=
  mem_append_right _ (mem_flatMap.mpr ⟨routine, hroutine, hitem⟩)

/-- A routine with nothing on the list against it is blocked just by a missing mapping that
the list drops. -/
theorem blocked_dropped (hquiet : ¬ UnitReported mapped unit) (hroutine : routine ∈ unit.routines) :
    ¬ Blocked routine.diagnostics ↔
      (mapped → ∀ item ∈ routine.diagnostics, item.code ≠ prescanRequired) := by
  have hcode : prescanRequired ∈ blockingCodes := by decide
  constructor
  · intro hclean hmapped item hitem hrequired
    apply hclean
    exact ⟨item, hitem, by rwa [hrequired]⟩
  · rintro hdropped ⟨item, hitem, hblocking⟩
    apply hquiet
    exact .inr ⟨item, captured_routine hroutine hitem, hblocking,
      fun hmapped => hdropped hmapped item hitem⟩

theorem mem_executable (h : routine ∈ executableRoutines unit) : routine ∈ unit.routines :=
  (mem_filter.mp h).1

theorem mem_prescan (h : mappedPrescan unit = some routine) : routine ∈ unit.routines :=
  mem_of_find?_eq_some (mappedPrescan_eq.mp h).2.2

/-- The POU of a unit with nothing on the list against it is sound when the unit is in
sight. -/
theorem sound_inSight {pou : Pou}
    (hquiet : ¬ UnitReported mapped unit) (hpou : emitPou db unit = some pou) :
    Sound db unit pou ↔ InSight mapped unit := by
  have hscan : ∀ routine ∈ executableRoutines unit,
      ¬ Untranslated routine.statements ∧ ¬ NeedsAdapter routine.statements := by
    intro routine hroutine
    rw [← not_or]
    intro hfound
    exact hquiet (.inl (.inr (.inr (.inr ⟨routine, hroutine, hfound⟩))))
  simp only [emitPou, Option.bind_eq_bind, Option.bind_eq_some_iff, Option.pure_def,
    Option.some.injEq] at hpou
  obtain ⟨declared, -, rfl⟩ := hpou
  constructor
  · intro hsound
    have hinit := fun routine hprescan =>
      (emitCodesysStRoutine_clean db routine).mp (hsound.fbInit_clean routine hprescan)
    refine ⟨fun routine hprescan => (hinit routine hprescan).2, ?_,
      (lifecycle_placed db unit).mp hsound.lifecycle⟩
    intro hmapped routine hroutine
    rcases mem_append.mp hroutine with hexecutable | hprescan
    · have hclean := (emitCodesysStRoutine_clean db routine).mp
        (hsound.body_clean routine hexecutable)
      exact (blocked_dropped hquiet (mem_executable hexecutable)).mp hclean.1 hmapped
    · rw [Option.mem_toList] at hprescan
      exact (blocked_dropped hquiet (mem_prescan hprescan)).mp (hinit routine hprescan).1 hmapped
  · rintro ⟨hinit, hdropped, hlifecycle⟩
    refine ⟨rfl, ?_, rfl, ?_, (lifecycle_placed db unit).mpr hlifecycle⟩
    · intro routine hexecutable
      rw [emitCodesysStRoutine_clean, blocked_dropped hquiet (mem_executable hexecutable)]
      exact ⟨fun hmapped => hdropped hmapped routine (mem_append_left _ hexecutable),
        hscan routine hexecutable⟩
    · intro routine hprescan
      rw [emitCodesysStRoutine_clean, blocked_dropped hquiet (mem_prescan hprescan)]
      exact ⟨fun hmapped => hdropped hmapped routine
          (mem_append_right _ (Option.mem_toList.mpr hprescan)), hinit routine hprescan⟩

theorem forall₂_sound {units : List ReusableUnit} {pous : List Pou}
    (hpous : List.Forall₂ (fun unit pou => emitPou db unit = some pou) units pous)
    (hquiet : ∀ unit ∈ units, ¬ UnitReported mapped unit) :
    List.Forall₂ (Sound db) units pous ↔ ∀ unit ∈ units, InSight mapped unit := by
  induction hpous with
  | nil => simp
  | cons hpou _ ih =>
    rw [forall₂_cons, forall_mem_cons, ih fun unit hmem =>
      hquiet unit (mem_cons_of_mem _ hmem),
      sound_inSight (hquiet _ mem_cons_self) hpou]

/-- Whenever the result is complete, every POU holds only clean routine texts and every
enabled lifecycle routine, if and only if something is reported against a unit or all
units are in sight of the export. -/
theorem complete_sound_iff (db : CharacterDatabase) (primary : ReusableUnit)
    (additional : List ReusableUnit) (integration : Option ProjectIntegration)
    (result : PlcopenResult) (h : exportUnits db primary additional integration = some result) :
    (result.complete = true →
      List.Forall₂ (Sound db) (adaptedUnits db primary additional) result.project.pous) ↔
      ReportedOrInSight (adaptedUnits db primary additional) := by
  have hcomplete := complete_reported h
  have hpous := Guards.mapM_beside (exportUnits_parts h).1
  by_cases hdone : result.complete = true
  · have hquiet := hcomplete.mp hdone
    rw [forall₂_sound hpous hquiet.1]
    constructor
    · intro hsight
      exact .inr (.inr (hsight hdone))
    · rintro (⟨unit, hmem, hreported⟩ | ⟨routine, hprescan, hadapter⟩ | hsight) _
      · exact absurd hreported (hquiet.1 unit hmem)
      · exact absurd hadapter (hquiet.2 routine hprescan)
      · exact hsight
  · refine iff_of_true (fun hdone' => absurd hdone' hdone) ?_
    rw [hcomplete, not_and_or] at hdone
    rcases hdone with hreported | hadapter
    · push Not at hreported
      exact .inl hreported
    · push Not at hadapter
      exact .inr (.inl hadapter)

/-- A function block with an enabled Prescan routine of these statements. -/
def prescanUnit (name : Text) (statements : List Statement) : ReusableUnit where
  name := name
  kind := .functionBlock
  parameters := []
  instanceVariables := []
  routines := [{ name := "Logic", statements := [], role := .primary },
    { name := "Prescan", statements := statements, role := .prescan }]
  lifecycle := { prescanEnabled := some true }
  diagnostics := [⟨prescanRequired, "enabled AOI prescan behavior", noSpan⟩]

def identityRead : Statement :=
  .controllerObjectRead noSpan "Controller" "this" "Status" (.reference noSpan (some "INT") "Seen")
    .instanceIdentity none

def mixer : ReusableUnit := prescanUnit "Mixer" [.exit noSpan]

def valve : ReusableUnit := prescanUnit "Valve" [identityRead]

theorem mixer_inSight (mapped : Prop) : InSight mapped mixer := by
  have hprescan : mappedPrescan mixer =
      some { name := "Prescan", statements := [.exit noSpan], role := .prescan } := rfl
  refine ⟨?_, ?_, fun _ => ⟨rfl, ?_, ?_⟩, ?_, ?_⟩
  · intro routine hroutine
    rw [hprescan] at hroutine
    cases hroutine
    constructor <;> simp [Untranslated, NeedsAdapter, walkStatements, walkStatement,
      untranslatedStatement, adapterStatement, operands, nodesOf]
  · intro _ routine hroutine item hitem
    have hempty : routine.diagnostics = [] := by
      rw [hprescan] at hroutine
      rcases mem_cons.mp hroutine with rfl | hroutine
      · rfl
      · rw [mem_singleton.mp hroutine]
    rw [hempty] at hitem
    cases hitem
  · exact ⟨_, mem_cons_of_mem _ mem_cons_self, rfl⟩
  · intro routine hroutine hrole
    rcases mem_cons.mp hroutine with rfl | hroutine
    · cases hrole
    · rw [mem_singleton.mp hroutine]
      rfl
  · intro henabled
    cases henabled
  · intro henabled
    cases henabled

theorem mixer_complete : ∃ result, exportUnits Ascii.database mixer [] none = some result ∧
    result.complete = true ∧
    List.Forall₂ (Sound Ascii.database) (adaptedUnits Ascii.database mixer [])
      result.project.pous := by
  have hdone : (exportUnits Ascii.database mixer [] none).any (·.complete) = true := by
    decide +kernel
  obtain ⟨result, hresult, hcomplete⟩ := (Option.any_eq_true _ _).mp hdone
  have hsight : ReportedOrInSight (adaptedUnits Ascii.database mixer []) := by
    refine .inr (.inr ?_)
    intro unit hunit
    rw [mem_singleton.mp hunit]
    exact mixer_inSight _
  exact ⟨result, hresult, hcomplete,
    (complete_sound_iff Ascii.database mixer [] none result hresult).mpr hsight hcomplete⟩

/-- The adapter that the Prescan of an additional unit asks for is not reported. -/
theorem additional_adapter_hidden : ¬ ∀ (db : CharacterDatabase) (primary : ReusableUnit)
    (additional : List ReusableUnit) (integration : Option ProjectIntegration)
    (result : PlcopenResult), exportUnits db primary additional integration = some result →
      result.complete = true →
      List.Forall₂ (Sound db) (adaptedUnits db primary additional) result.project.pous := by
  intro h
  have hdone : (exportUnits Ascii.database mixer [valve] none).any (·.complete) = true := by
    decide +kernel
  obtain ⟨result, hresult, hcomplete⟩ := (Option.any_eq_true _ _).mp hdone
  have hsound := h Ascii.database mixer [valve] none result hresult hcomplete
  generalize result.project.pous = pous at hsound
  obtain _ | ⟨-, _ | ⟨hvalve, -⟩⟩ := hsound
  have hclean := hvalve.fbInit_clean
    { name := "Prescan", statements := [identityRead], role := .prescan } rfl
  have hadapter : NeedsAdapter [identityRead] := ⟨identityRead, mem_cons_self, .inl rfl⟩
  exact ((emitCodesysStRoutine_clean _ _).mp hclean).2.2 hadapter

end

end TwinForge.Codesys
