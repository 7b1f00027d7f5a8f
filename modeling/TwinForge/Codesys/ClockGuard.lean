import TwinForge.IR.Model

/-! # Wall-clock reads on CODESYS

A mapped clock read leaves its status in a variable of the adapter. The adapter
guards what follows a read in its statement list by that status, and clears the
visible Boolean outputs when the read failed.
-/

namespace TwinForge.Codesys

open IR
open StructuredText (SourceSpan)

def clockMilliseconds : Text := "tfWallClockMilliseconds"

def clockResult : Text := "tfWallClockResult"

mutual

def statementHasClockRead : Statement → Bool
  | .wallClockRead .. => true
  | .ifThen _ branches elseStatements =>
    branchesHaveClockRead branches || hasWallClockRead elseStatements
  | .whileDo _ _ statements => hasWallClockRead statements
  | _ => false

def hasWallClockRead : List Statement → Bool
  | [] => false
  | statement :: rest => statementHasClockRead statement || hasWallClockRead rest

def branchesHaveClockRead : List (IfBranch Statement) → Bool
  | [] => false
  | ⟨_, _, statements⟩ :: rest => hasWallClockRead statements || branchesHaveClockRead rest

end

/-- `tfWallClockResult = 0`. -/
def clockSucceeded (span : SourceSpan) : Expression :=
  .binary span (some "BOOL") (.reference span (some "SysTypes.RTS_IEC_RESULT") clockResult) "="
    (.literal span (some "DINT") "0")

def clockGuard (span : SourceSpan) (remaining failure : List Statement) : Statement :=
  .ifThen span [⟨span, clockSucceeded span, remaining⟩] failure

mutual

def guardStatement (failure : List Statement) : Statement → Statement
  | .ifThen span branches elseStatements =>
    .ifThen span (guardBranches failure branches) (guardClockReads failure elseStatements)
  | .whileDo span condition statements =>
    .whileDo span condition (guardClockReads failure statements)
  | statement => statement

def guardClockReads (failure : List Statement) : List Statement → List Statement
  | [] => []
  | .wallClockRead span destination timestampUnit :: rest =>
    [.wallClockRead span destination timestampUnit,
      clockGuard span (guardClockReads failure rest) failure]
  | statement :: rest => guardStatement failure statement :: guardClockReads failure rest

def guardBranches (failure : List Statement) :
    List (IfBranch Statement) → List (IfBranch Statement)
  | [] => []
  | ⟨span, condition, statements⟩ :: rest =>
    ⟨span, condition, guardClockReads failure statements⟩ :: guardBranches failure rest

end

/-- The failure assignments: FALSE to every Boolean output the source declares. -/
def clockFailureAssignments (parameters : List Parameter) : List Statement :=
  (parameters.filter (fun parameter => parameter.direction = .output &&
      parameter.dataType = some ("BOOL" : Text) && !parameter.systemDefined)).map
    (fun parameter => .assignment ⟨0, 0⟩ (.reference ⟨0, 0⟩ (some "BOOL") parameter.name)
      (.literal ⟨0, 0⟩ (some "BOOL") "FALSE"))

def adapterApplied : Text := "codesys_wall_clock_adapter_applied"

/-- Add target-only state required by mapped CODESYS runtime services. -/
def adaptCodesysRuntime (db : CharacterDatabase) (unit : ReusableUnit) : ReusableUnit :=
  if unit.diagnostics.any (fun item => item.code == adapterApplied) then unit
  else if !unit.routines.any (fun routine => hasWallClockRead routine.statements) then unit
  else
    let names := unit.instanceVariables.map (fun item => db.casefoldText item.name)
    let additions : List Variable :=
      [⟨clockMilliseconds, some "SysTime", none⟩,
       ⟨clockResult, some "SysTypes.RTS_IEC_RESULT", none⟩]
    let failure := clockFailureAssignments unit.parameters
    { unit with
      instanceVariables := unit.instanceVariables ++
        additions.filter (fun item => db.casefoldText item.name ∉ names)
      routines := unit.routines.map (fun routine =>
        { routine with statements := guardClockReads failure routine.statements })
      diagnostics := unit.diagnostics ++
        [⟨adapterApplied, ("mapped wall-clock reads to SysTimeRtcHighResGet, converted " : Text) ++
          ("milliseconds to source microseconds, and guarded subsequent " : Text) ++
          ("logic against a failed read" : Text), ⟨0, 0⟩⟩] }

/-! ## Routines without a clock read -/

mutual

theorem guardStatement_readFree (failure : List Statement) (statement : Statement)
    (h : statementHasClockRead statement = false) :
    guardStatement failure statement = statement := by
  cases statement with
  | ifThen span branches elseStatements =>
    rw [statementHasClockRead, Bool.or_eq_false_iff] at h
    rw [guardStatement, guardBranches_readFree failure branches h.1,
      guardClockReads_readFree failure elseStatements h.2]
  | whileDo span condition statements =>
    rw [statementHasClockRead] at h
    rw [guardStatement, guardClockReads_readFree failure statements h]
  | _ => rfl

theorem guardClockReads_readFree (failure : List Statement) (statements : List Statement)
    (h : hasWallClockRead statements = false) : guardClockReads failure statements = statements := by
  cases statements with
  | nil => rfl
  | cons statement rest =>
    rw [hasWallClockRead, Bool.or_eq_false_iff] at h
    have hstatement := guardStatement_readFree failure statement h.1
    have hrest := guardClockReads_readFree failure rest h.2
    cases statement with
    | wallClockRead => cases h.1
    | _ => rw [guardClockReads, hstatement, hrest]; simp

theorem guardBranches_readFree (failure : List Statement) (branches : List (IfBranch Statement))
    (h : branchesHaveClockRead branches = false) : guardBranches failure branches = branches := by
  match branches, h with
  | [], _ => rfl
  | ⟨span, condition, statements⟩ :: rest, h =>
    rw [branchesHaveClockRead, Bool.or_eq_false_iff] at h
    rw [guardBranches, guardClockReads_readFree failure statements h.1,
      guardBranches_readFree failure rest h.2]

end

theorem adaptCodesysRuntime_routines (db : CharacterDatabase) {unit : ReusableUnit}
    (h : ∀ item ∈ unit.diagnostics, item.code ≠ adapterApplied) :
    (adaptCodesysRuntime db unit).routines = unit.routines.map (fun routine =>
      { routine with statements :=
        guardClockReads (clockFailureAssignments unit.parameters) routine.statements }) := by
  unfold adaptCodesysRuntime
  have hnew : unit.diagnostics.any (fun item => item.code == adapterApplied) = false := by
    rw [List.any_eq_false]
    intro item hitem
    simpa using h item hitem
  rw [hnew]
  by_cases hread : unit.routines.any (fun routine => hasWallClockRead routine.statements) = true
  · simp [hread]
  · rw [Bool.not_eq_true] at hread
    simp only [hread, Bool.false_eq_true, if_false, Bool.not_false, if_true]
    symm
    conv => right; rw [← List.map_id unit.routines]
    apply List.map_congr_left
    intro routine hroutine
    have hfree : hasWallClockRead routine.statements = false := by
      simpa using List.any_eq_false.mp hread routine hroutine
    rw [guardClockReads_readFree _ _ hfree]
    rfl

end TwinForge.Codesys
