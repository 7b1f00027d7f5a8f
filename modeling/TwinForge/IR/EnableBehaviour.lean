import TwinForge.IR.ReusableUnit

/-! # What statements do

Runs of statement lists over the variables of a unit, whose names are not case-sensitive. Values,
expressions other than references, and statements that neither branch nor loop mean what an
interpretation says.
-/

namespace TwinForge.IR

open List

/-- The variables, by their case-folded names. -/
abbrev Environment (Value : Type) := Text → Value

def Environment.update {Value : Type} (environment : Environment Value) (name : Text)
    (value : Value) : Environment Value :=
  fun other => if other = name then value else environment other

variable {name : Text}

theorem Environment.update_other {Value : Type} (environment : Environment Value)
    {other : Text} (value : Value) (h : other ≠ name) :
    environment.update name value other = environment other := if_neg h

structure Interpretation (Value : Type) where
  truth : Value → Bool
  evaluate : Environment Value → Expression → Value
  perform : Statement → Environment Value → Environment Value → Prop

/-- How a run of statements ended: with the last one, or with an EXIT. -/
inductive RunOutcome where
  | completed
  | exited
  deriving DecidableEq, Repr

variable {outcome : RunOutcome}

section

variable {Value : Type} (db : CharacterDatabase) (interpretation : Interpretation Value)

def valueOf (environment : Environment Value) : Expression → Value
  | .reference _ _ name => environment (db.casefoldText name)
  | expression => interpretation.evaluate environment expression

def holds (environment : Environment Value) (condition : Expression) : Bool :=
  interpretation.truth (valueOf db interpretation environment condition)

/-- The statements of the first branch whose condition holds, or those of ELSE. -/
def selectedStatements (environment : Environment Value) :
    List (IfBranch Statement) → List Statement → List Statement
  | [], elseStatements => elseStatements
  | branch :: branches, elseStatements =>
    if holds db interpretation environment branch.condition then branch.statements
    else selectedStatements environment branches elseStatements

/-- Statements whose effect is left to the interpretation. -/
def Statement.isPerformed : Statement → Bool
  | .assignment _ (.reference ..) _ => false
  | .ifThen .. => false
  | .whileDo .. => false
  | .exit _ => false
  | _ => true

inductive Executes : List Statement → Environment Value → Environment Value → RunOutcome → Prop where
  | done (environment) : Executes [] environment environment .completed
  | assignment {span referenceSpan dataType name value rest environment final outcome}
      (later : Executes rest (environment.update (db.casefoldText name)
        (valueOf db interpretation environment value)) final outcome) :
      Executes (.assignment span (.reference referenceSpan dataType name) value :: rest)
        environment final outcome
  | performed {statement rest environment middle final outcome}
      (leaf : statement.isPerformed = true)
      (effect : interpretation.perform statement environment middle)
      (later : Executes rest middle final outcome) :
      Executes (statement :: rest) environment final outcome
  | branch {span branches elseStatements rest environment final outcome}
      (chosen : Executes (selectedStatements db interpretation environment branches
        elseStatements ++ rest) environment final outcome) :
      Executes (.ifThen span branches elseStatements :: rest) environment final outcome
  | repeated {span condition statements rest environment middle final outcome}
      (hholds : holds db interpretation environment condition = true)
      (body : Executes statements environment middle .completed)
      (later : Executes (.whileDo span condition statements :: rest) middle final outcome) :
      Executes (.whileDo span condition statements :: rest) environment final outcome
  | left {span condition statements rest environment middle final outcome}
      (hholds : holds db interpretation environment condition = true)
      (body : Executes statements environment middle .exited)
      (later : Executes rest middle final outcome) :
      Executes (.whileDo span condition statements :: rest) environment final outcome
  | finished {span condition statements rest environment final outcome}
      (hholds : holds db interpretation environment condition = false)
      (later : Executes rest environment final outcome) :
      Executes (.whileDo span condition statements :: rest) environment final outcome
  | exit {span rest environment} : Executes (.exit span :: rest) environment environment .exited

variable {db interpretation} {environment final : Environment Value}

theorem executes_assignment {span referenceSpan dataType name value rest}
    :
    Executes db interpretation
        (.assignment span (.reference referenceSpan dataType name) value :: rest) environment final
        outcome ↔
      Executes db interpretation rest (environment.update (db.casefoldText name)
        (valueOf db interpretation environment value)) final outcome := by
  constructor
  · intro h
    cases h with
    | assignment later => exact later
    | performed leaf _ _ => cases leaf
  · exact .assignment

theorem executes_branch {span branches elseStatements rest}
    :
    Executes db interpretation (.ifThen span branches elseStatements :: rest) environment final
        outcome ↔
      Executes db interpretation (selectedStatements db interpretation environment branches
        elseStatements ++ rest) environment final outcome := by
  constructor
  · intro h
    cases h with
    | branch chosen => exact chosen
    | performed leaf _ _ => cases leaf
  · exact .branch

end

/-! ## The enable behaviour of reusable units

A unit that was given its enable behaviour says so in its diagnostics, and is left as it is. A
unit without the interface for it says so too, but is not told apart when it comes again.
-/

variable (db : CharacterDatabase)

/-- The behaviour was applied before. -/
def EnableMarked (unit : ReusableUnit) : Prop :=
  ∃ item ∈ unit.diagnostics, item.code = enableApplied

/-- EnableIn, EnableOut and a primary routine. -/
def EnableInterface (unit : ReusableUnit) : Prop :=
  (∃ parameter ∈ unit.parameters, parameter.systemDefined = true ∧
    db.casefoldText parameter.name = "enablein" ∧ parameter.direction = .input) ∧
  (∃ parameter ∈ unit.parameters, parameter.systemDefined = true ∧
    db.casefoldText parameter.name = "enableout" ∧ parameter.direction = .output) ∧
  ∃ routine ∈ unit.routines, routine.role = .primary

/-- The first primary routine of a unit, with its place. -/
def IsPrimary (unit : ReusableUnit) (index : Nat) (primary : Routine) : Prop :=
  unit.routines[index]? = some primary ∧ primary.role = .primary ∧
    ∀ earlier ∈ unit.routines.take index, earlier.role ≠ .primary

/-- A run of the primary routine first copies EnableIn to EnableOut. Then it is a run of the
captured primary logic where EnableIn is true, and otherwise of the enabled EnableInFalse logic. -/
def EnableGuarded (unit applied : ReusableUnit) : Prop :=
  ∃ index primary statements, IsPrimary unit index primary ∧
    applied.routines = unit.routines.set index { primary with statements } ∧
    ∀ {Value : Type} (interpretation : Interpretation Value)
      (environment final : Environment Value) (outcome : RunOutcome),
      Executes db interpretation statements environment final outcome ↔
        Executes db interpretation
          (if interpretation.truth (environment "enablein") then primary.statements
            else (mappedEnableInFalse unit).getD [])
          (environment.update "enableout" (environment "enablein")) final outcome

/-! ### Parts of the pass -/

theorem guardedPrimary_executes {Value : Type} {interpretation : Interpretation Value}
    {enableIn enableOut : Text} (hin : db.casefoldText enableIn = "enablein")
    (hout : db.casefoldText enableOut = "enableout") (span : StructuredText.SourceSpan)
    (primary enableInFalse : List Statement) {environment final : Environment Value}
    :
    Executes db interpretation (guardedPrimary enableIn enableOut span primary enableInFalse)
        environment final outcome ↔
      Executes db interpretation
        (if interpretation.truth (environment "enablein") then primary else enableInFalse)
        (environment.update "enableout" (environment "enablein")) final outcome := by
  have hkept : (environment.update "enableout" (environment "enablein")) "enablein" =
      environment "enablein" := environment.update_other _ (by decide)
  rw [guardedPrimary, executes_assignment, executes_branch]
  simp only [valueOf, hin, hout, selectedStatements, holds, hkept, append_nil]

variable {unit : ReusableUnit}

theorem systemParameter_isSome {direction : Direction} :
    (systemParameter db unit name direction).isSome ↔
      ∃ parameter ∈ unit.parameters, parameter.systemDefined = true ∧
        db.casefoldText parameter.name = name ∧ parameter.direction = direction := by
  simp [systemParameter, List.find?_isSome, and_assoc]

theorem systemParameter_name {direction : Direction}
    {parameter : Parameter} (h : systemParameter db unit name direction = some parameter) :
    db.casefoldText parameter.name = name := by
  have hfound := List.find?_some h
  simp only [Bool.and_eq_true, beq_iff_eq] at hfound
  exact hfound.1.2

theorem interface_iff : EnableInterface db unit ↔
    (systemParameter db unit "enablein" .input).isSome ∧
    (systemParameter db unit "enableout" .output).isSome ∧
    (unit.routines.findIdx? (fun routine => routine.role == .primary)).isSome := by
  rw [systemParameter_isSome, systemParameter_isSome, List.findIdx?_isSome, any_eq_true]
  simp only [EnableInterface, beq_iff_eq]

theorem any_marked :
    unit.diagnostics.any (fun item => item.code == enableApplied) = true ↔ EnableMarked unit := by
  simp [EnableMarked]

theorem primary_found {index : Nat}
    (h : unit.routines.findIdx? (fun routine => routine.role == .primary) = some index) :
    ∃ primary, IsPrimary unit index primary := by
  obtain ⟨hbound, hrole, hearlier⟩ := List.findIdx?_eq_some_iff_getElem.mp h
  refine ⟨unit.routines[index], List.getElem?_eq_getElem hbound, by simpa using hrole, ?_⟩
  intro earlier hmember
  obtain ⟨place, hplace, rfl⟩ := mem_take_iff_getElem.mp hmember
  simpa using hearlier place (by omega)

theorem unmapped_unmarked (unit : ReusableUnit) :
    ∀ item ∈ unmappedLifecycleDiagnostics unit, item.code ≠ enableApplied := by
  have hprescan : ("prescan" : Text) ++ ("_mapping_required" : Text) ≠ enableApplied := by decide
  have hpostscan : ("postscan" : Text) ++ ("_mapping_required" : Text) ≠ enableApplied := by
    decide
  have hfalse : ("enable_in_false_mapping_required" : Text) ≠ enableApplied := by decide
  intro item hitem
  simp only [unmappedLifecycleDiagnostics, mem_append, mem_ite_nil_right,
    mem_singleton] at hitem
  obtain (⟨_, rfl⟩ | ⟨_, rfl⟩) | ⟨_, rfl⟩ := hitem
  · exact hprescan
  · exact hpostscan
  · exact hfalse

/-! ### The pass -/

theorem apply_marked (h : EnableMarked unit) :
    applyAoiExecutionSemantics db unit = unit := by
  rw [applyAoiExecutionSemantics, if_pos (any_marked.mpr h)]

theorem apply_unavailable (hmarked : ¬ EnableMarked unit) (hinterface : ¬ EnableInterface db unit) :
    ∃ reports, reports ≠ [] ∧ (∀ item ∈ reports, item.code ≠ enableApplied) ∧
      applyAoiExecutionSemantics db unit =
        { unit with diagnostics := unit.diagnostics ++ reports } := by
  have hcode : ("aoi_enable_interface_unavailable" : Text) ≠ enableApplied := by decide
  refine ⟨unmappedLifecycleDiagnostics unit ++ [⟨"aoi_enable_interface_unavailable",
    ("AOI execution semantics require system-defined EnableIn, " : Text) ++
      ("EnableOut, and a primary routine" : Text), noSpan⟩], by simp, ?_, ?_⟩
  · intro item hitem
    cases mem_append.mp hitem with
    | inl hunmapped => exact unmapped_unmarked unit item hunmapped
    | inr hlast =>
      rw [mem_singleton.mp hlast]
      exact hcode
  · rw [interface_iff] at hinterface
    rw [applyAoiExecutionSemantics, if_neg (mt any_marked.mp hmarked)]
    cases hin : systemParameter db unit "enablein" .input with
    | none => simp only [append_assoc]
    | some enableIn =>
      cases hout : systemParameter db unit "enableout" .output with
      | none => simp only [append_assoc]
      | some enableOut =>
        cases hindex : unit.routines.findIdx? (fun routine => routine.role == .primary) with
        | none => simp only [append_assoc]
        | some index =>
          rw [hin, hout, hindex] at hinterface
          exact absurd ⟨rfl, rfl, rfl⟩ hinterface

theorem apply_available (hmarked : ¬ EnableMarked unit) (hinterface : EnableInterface db unit) :
    EnableMarked (applyAoiExecutionSemantics db unit) ∧
      EnableGuarded db unit (applyAoiExecutionSemantics db unit) := by
  obtain ⟨hin, hout, hprimary⟩ := (interface_iff db).mp hinterface
  obtain ⟨enableIn, hin⟩ := Option.isSome_iff_exists.mp hin
  obtain ⟨enableOut, hout⟩ := Option.isSome_iff_exists.mp hout
  obtain ⟨index, hindex⟩ := Option.isSome_iff_exists.mp hprimary
  obtain ⟨primary, hplace⟩ := primary_found hindex
  rw [applyAoiExecutionSemantics, if_neg (mt any_marked.mp hmarked)]
  simp only [hin, hout, hindex, hplace.1]
  constructor
  · exact ⟨⟨enableApplied, "applied target-neutral AOI normal-scan semantics",
      (primary.statements.head?.map (·.span)).getD noSpan⟩, by simp, rfl⟩
  · refine ⟨index, primary, _, hplace, rfl, ?_⟩
    intro Value interpretation environment final outcome
    exact guardedPrimary_executes db (systemParameter_name db hin)
      (systemParameter_name db hout) _ _ _

/-! ### Twice -/

/-- A second application changes nothing, and a first one that applies guards the logic. -/
def EnableBehaviour (unit : ReusableUnit) : Prop :=
  applyAoiExecutionSemantics db (applyAoiExecutionSemantics db unit) =
      applyAoiExecutionSemantics db unit ∧
    (¬ EnableMarked unit → EnableMarked (applyAoiExecutionSemantics db unit) →
      EnableGuarded db unit (applyAoiExecutionSemantics db unit))

theorem unavailable_again (hmarked : ¬ EnableMarked unit) (hinterface : ¬ EnableInterface db unit) :
    applyAoiExecutionSemantics db (applyAoiExecutionSemantics db unit) ≠
      applyAoiExecutionSemantics db unit := by
  obtain ⟨reports, _, hcodes, happly⟩ := apply_unavailable db hmarked hinterface
  have hunmarked : ¬ EnableMarked { unit with diagnostics := unit.diagnostics ++ reports } := by
    intro h
    obtain ⟨item, hitem, hcode⟩ := h
    cases mem_append.mp hitem with
    | inl hold => exact hmarked ⟨item, hold, hcode⟩
    | inr hnew => exact hcodes item hnew hcode
  obtain ⟨later, hlater, _, hagain⟩ := apply_unavailable db hunmarked hinterface
  rw [happly, hagain]
  intro hsame
  have hdiagnostics := congrArg ReusableUnit.diagnostics hsame
  exact hlater (append_right_eq_self.mp hdiagnostics)

/-- The pass is idempotent exactly on units that are marked or have the interface. -/
theorem applyAoiExecutionSemantics_behaviour_iff (unit : ReusableUnit) :
    EnableBehaviour db unit ↔ EnableMarked unit ∨ EnableInterface db unit := by
  constructor
  · intro h
    by_contra hneither
    rw [not_or] at hneither
    exact unavailable_again db hneither.1 hneither.2 h.1
  · intro h
    by_cases hmarked : EnableMarked unit
    · refine ⟨?_, fun hunmarked => absurd hmarked hunmarked⟩
      rw [apply_marked db hmarked, apply_marked db hmarked]
    · have hinterface := h.resolve_left hmarked
      have ⟨hmarks, hguarded⟩ := apply_available db hmarked hinterface
      exact ⟨apply_marked db hmarks, fun _ _ => hguarded⟩

def bareUnit : ReusableUnit where
  name := "Bare"
  kind := .function
  parameters := []
  instanceVariables := []
  routines := []

theorem bareUnit_reported_again : ¬ EnableBehaviour Ascii.database bareUnit := by
  have hmarked : ¬ EnableMarked bareUnit := by simp [EnableMarked, bareUnit]
  have hinterface : ¬ EnableInterface Ascii.database bareUnit := by
    simp [EnableInterface, bareUnit]
  intro h
  exact unavailable_again Ascii.database hmarked hinterface h.1

end TwinForge.IR
