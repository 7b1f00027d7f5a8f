import TwinForge.Codesys.GuardTransparency

/-! # After a failed clock read

What a guarded routine still executes once a clock read has failed.
-/

namespace TwinForge.Codesys

open IR StateTransition List

/-! ## Quiet stacks -/

section

variable {db : CharacterDatabase} {Value World : Type} (machine : Machine db Value World)

/-- Nothing on the stack executes a statement: no list has statements left, and no
loop is entered again. -/
def quiet (memory : Memory Value World) : List Task → Bool
  | [] => true
  | .list statements :: rest => statements.isEmpty && quiet memory rest
  | .loop condition _ :: rest =>
    match machine.decides condition memory with
    | none => true
    | some again => !again && quiet memory rest

def afterFailure : List Statement → Memory Value World → Option (Memory Value World)
  | [], memory => some memory
  | statement :: rest, memory => (machine.performs statement memory).bind (afterFailure rest)

variable (clock : Nat → Reading Value) (failure : List Statement)

def FailsRead (config : Config Value World) : Prop :=
  (∃ span destination timestampUnit,
    config.executed = some (.wallClockRead span destination timestampUnit)) ∧
    machine.isZero (clock config.reads.length).status = false

/-- Nothing that encloses the list of the next statement goes on once the clock has
answered and the failure assignments have been made. -/
def LastRead (config : Config Value World) : Prop :=
  ∀ cleared, afterFailure machine failure
      (answered db (clock config.reads.length) config.memory) = some cleared →
    quiet machine cleared config.stack.tail = true

/-- A statement the adapter added: a failure assignment, or the guard of a read. -/
def Added (failure : List Statement) (statement : Statement) : Prop :=
  statement ∈ failure ∨ ∃ span remaining, statement = clockGuard span remaining failure

/-! ## Stacks of a guarded routine -/

/-- A task behind the top of the stack of a guarded routine. -/
inductive Pending (failure : List Statement) : Task → Prop
  | list (statements : List Statement) :
      Pending failure (.list (guardClockReads failure statements))
  | loop (condition : Expression) (statements : List Statement) :
      Pending failure (.loop condition (guardClockReads failure statements))

/-- The stacks of a guarded routine: on top a pending task, the guard of a read, or
the rest of the failure assignments. -/
inductive Produced (failure : List Statement) : List Task → Prop
  | pending {stack} : (∀ task ∈ stack, Pending failure task) → Produced failure stack
  | guard {stack} (span statements) : (∀ task ∈ stack, Pending failure task) →
      Produced failure (.list [clockGuard span (guardClockReads failure statements) failure] ::
        stack)
  | failing {stack rest} : rest <:+ failure → (∀ task ∈ stack, Pending failure task) →
      Produced failure (.list rest :: stack)

variable {machine clock failure} {stack : List Task}

theorem pending_cons {task : Task} (h : Pending failure task)
    (hstack : ∀ task ∈ stack, Pending failure task) :
    ∀ other ∈ task :: stack, Pending failure other := by
  intro other hother
  rcases mem_cons.mp hother with rfl | hother
  · exact h
  · exact hstack other hother

theorem leaveLoop_pending {outside : List Task}
    (hstack : ∀ task ∈ stack, Pending failure task) (h : leaveLoop stack = some outside) :
    ∀ task ∈ outside, Pending failure task := by
  induction stack with
  | nil => cases h
  | cons task stack ih =>
    have hrest : ∀ task ∈ stack, Pending failure task :=
      fun other hother => hstack other (mem_cons_of_mem _ hother)
    cases task with
    | list => exact ih hrest h
    | loop =>
      cases h
      exact hrest

theorem chooseBranch_pending {memory : Memory Value World} {branches : List (IfBranch Statement)}
    {elseStatements chosen : List Statement}
    (h : chooseBranch machine memory (guardBranches failure branches)
      (guardClockReads failure elseStatements) = some chosen) :
    ∃ statements, chosen = guardClockReads failure statements := by
  induction branches with
  | nil => exact ⟨_, (Option.some.inj h).symm⟩
  | cons branch rest ih =>
    obtain ⟨span, condition, statements⟩ := branch
    unfold guardBranches chooseBranch at h
    split at h
    · cases h
    · exact ⟨_, (Option.some.inj h).symm⟩
    · exact ih h

variable {config after : Config Value World}

theorem codesysRead_stack {destination : Expression} {timestampUnit : Text}
    (h : codesysRead machine clock destination timestampUnit config = some after) :
    after.stack = config.stack := by
  unfold codesysRead at h
  simp only at h
  split at h
  · obtain ⟨_, -, rfl⟩ := Option.map_eq_some_iff.mp h
    rfl
  · cases h
    rfl

theorem guarded_produced {statement : Statement} {rest : List Statement}
    (hstack : ∀ task ∈ stack, Pending failure task)
    (hconfig : config.stack = .list (guardClockReads failure (statement :: rest)) :: stack)
    (h : step machine (codesysRead machine clock) config = some after) :
    Produced failure after.stack := by
  have hrest := pending_cons (.list rest) hstack
  obtain ⟨whole, memory, reads, exited⟩ := config
  simp only at hconfig
  subst hconfig
  cases statement with
  | assignment | callStatement | controllerObjectRead | controllerObjectWrite | unsupported =>
    obtain ⟨_, -, rfl⟩ := Option.map_eq_some_iff.mp h
    exact .pending hrest
  | wallClockRead span destination timestampUnit =>
    rw [codesysRead_stack h]
    exact .guard span rest hstack
  | ifThen span branches elseStatements =>
    obtain ⟨chosen, hchosen, rfl⟩ := Option.map_eq_some_iff.mp h
    obtain ⟨statements, rfl⟩ := chooseBranch_pending hchosen
    exact .pending (pending_cons (.list statements) hrest)
  | whileDo span condition statements =>
    cases h
    exact .pending (pending_cons (.loop condition statements) hrest)
  | exit span =>
    have hexit : execute machine (codesysRead machine clock) ⟨_, memory, reads, exited⟩
        (.list (guardClockReads failure rest) :: stack) (.exit span) = some after := h
    simp only [execute] at hexit
    split at hexit
    · next outside hleave =>
      cases hexit
      exact .pending (leaveLoop_pending hrest hleave)
    · cases hexit
      exact .pending (by simp)

def Assignments (failure : List Statement) : Prop :=
  ∀ statement ∈ failure, ∃ span target value, statement = .assignment span target value

theorem step_produced (hfailure : Assignments failure) (hproduced : Produced failure config.stack)
    (h : step machine (codesysRead machine clock) config = some after) :
    Produced failure after.stack := by
  obtain ⟨whole, memory, reads, exited⟩ := config
  simp only at hproduced
  cases hproduced with
  | pending hall =>
    cases whole with
    | nil => cases h
    | cons task stack =>
      have hstack : ∀ task ∈ stack, Pending failure task :=
        fun other hother => hall other (mem_cons_of_mem _ hother)
      cases hall task mem_cons_self with
      | list statements =>
        cases statements with
        | nil =>
          cases h
          exact .pending hstack
        | cons statement rest => exact guarded_produced hstack rfl h
      | loop condition statements =>
        obtain ⟨again, -, rfl⟩ := Option.map_eq_some_iff.mp h
        cases again with
        | true => exact .pending (pending_cons (.list statements) hall)
        | false => exact .pending hstack
  | @guard stack span statements hstack =>
    obtain ⟨chosen, hchosen, rfl⟩ := Option.map_eq_some_iff.mp h
    have hempty := pending_cons (.list []) hstack
    unfold chooseBranch at hchosen
    split at hchosen
    · cases hchosen
    · cases hchosen
      exact .pending (pending_cons (.list statements) hempty)
    · cases hchosen
      exact .failing suffix_rfl hempty
  | @failing stack rest hsuffix hstack =>
    cases rest with
    | nil =>
      cases h
      exact .pending hstack
    | cons statement rest =>
      obtain ⟨span, target, value, rfl⟩ :=
        hfailure statement (hsuffix.subset mem_cons_self)
      obtain ⟨_, -, rfl⟩ := Option.map_eq_some_iff.mp h
      exact .failing ((suffix_cons _ _).trans hsuffix) hstack

theorem reaches_produced (hfailure : Assignments failure) {statements : List Statement}
    {memory : Memory Value World} (h : Reaches (step machine (codesysRead machine clock))
      (start (guardClockReads failure statements) memory) config) :
    Produced failure config.stack := by
  induction h with
  | refl => exact .pending (pending_cons (.list statements) (by simp))
  | tail _ hstep ih => exact step_produced hfailure ih hstep

theorem produced_read (hfailure : Assignments failure)
    (h : Produced failure config.stack) {span : StructuredText.SourceSpan}
    {destination : Expression} {timestampUnit : Text}
    (hread : config.executed = some (.wallClockRead span destination timestampUnit)) :
    ∃ remaining stack, config.stack = .list [.wallClockRead span destination timestampUnit,
      clockGuard span remaining failure] :: stack := by
  obtain ⟨whole, memory, reads, exited⟩ := config
  simp only at h ⊢
  cases h with
  | pending hall =>
    cases whole with
    | nil => cases hread
    | cons task stack =>
      cases hall task mem_cons_self with
      | loop => cases hread
      | list statements =>
        cases statements with
        | nil => cases hread
        | cons statement rest =>
          cases statement <;> cases hread
          exact ⟨_, _, rfl⟩
  | guard => cases hread
  | @failing stack rest hsuffix =>
    cases rest with
    | nil => cases hread
    | cons statement rest =>
      obtain ⟨_, _, _, rfl⟩ := hfailure statement (hsuffix.subset mem_cons_self)
      cases hread

/-! ## After the failure -/

variable (machine failure)

/-- A scan in which a clock read has failed and nothing but the adapter goes on. -/
inductive Closing : Config Value World → Prop
  | guard {span remaining stack memory reads exited} :
      machine.isZero (memory.store (resultName db)) = false →
      (∀ cleared, afterFailure machine failure memory = some cleared →
        quiet machine cleared stack = true) →
      Closing ⟨.list [clockGuard span remaining failure] :: stack, memory, reads, exited⟩
  | clearing {rest stack memory reads exited} : rest <:+ failure →
      (∀ cleared, afterFailure machine rest memory = some cleared →
        quiet machine cleared stack = true) →
      Closing ⟨.list rest :: stack, memory, reads, exited⟩
  | closed {stack memory reads exited} : quiet machine memory stack = true →
      Closing ⟨stack, memory, reads, exited⟩

variable {machine failure}

theorem Closing.executed (h : Closing machine failure config)
    {statement : Statement} (hexecuted : config.executed = some statement) :
    Added failure statement := by
  cases h with
  | guard =>
    cases hexecuted
    exact .inr ⟨_, _, rfl⟩
  | @clearing rest _ _ _ _ hsuffix =>
    cases rest with
    | nil => cases hexecuted
    | cons first rest =>
      cases hexecuted
      exact .inl (hsuffix.subset mem_cons_self)
  | @closed stack memory reads exited hquiet =>
    match stack, hquiet with
    | [], _ => cases hexecuted
    | .list [] :: _, _ => cases hexecuted
    | .loop _ _ :: _, _ => cases hexecuted

theorem Closing.step (hfailure : Assignments failure) {config after : Config Value World}
    (h : Closing machine failure config)
    (hstep : step machine (codesysRead machine clock) config = some after) :
    Closing machine failure after := by
  cases h with
  | @guard span remaining stack memory reads exited hresult hquiet =>
    have hchosen : chooseBranch machine memory [⟨span, clockSucceeded span, remaining⟩] failure =
        some failure := by
      unfold chooseBranch
      simp only [machine.decides_succeeded, hresult]
      rfl
    have hnext : (chooseBranch machine memory [⟨span, clockSucceeded span, remaining⟩]
        failure).map (fun chosen => (⟨.list chosen :: .list [] :: stack, memory, reads, exited⟩ :
          Config Value World)) = some after := hstep
    rw [hchosen] at hnext
    cases hnext
    exact .clearing suffix_rfl hquiet
  | @clearing rest stack memory reads exited hsuffix hquiet =>
    cases rest with
    | nil =>
      cases hstep
      exact .closed (hquiet memory rfl)
    | cons statement rest =>
      obtain ⟨span, target, value, rfl⟩ :=
        hfailure statement (hsuffix.subset mem_cons_self)
      obtain ⟨next, hnext, rfl⟩ := Option.map_eq_some_iff.mp hstep
      apply Closing.clearing ((suffix_cons _ _).trans hsuffix)
      intro cleared hcleared
      apply hquiet
      show (machine.performs _ memory).bind _ = _
      rw [hnext]
      exact hcleared
  | @closed stack memory reads exited hquiet =>
    rcases stack with _ | ⟨_ | ⟨condition, statements⟩, rest⟩
    · cases hstep
    · next pending =>
      cases pending with
      | nil =>
        cases hstep
        exact .closed hquiet
      | cons => cases hquiet
    · obtain ⟨again, hagain, rfl⟩ := Option.map_eq_some_iff.mp hstep
      unfold quiet at hquiet
      simp only [hagain, Bool.and_eq_true, Bool.not_eq_true'] at hquiet
      rw [hquiet.1]
      exact .closed hquiet.2

theorem Closing.reaches (hfailure : Assignments failure) {later : Config Value World}
    (h : Closing machine failure config)
    (hreach : Reaches (Codesys.step machine (codesysRead machine clock)) config later) :
    Closing machine failure later := by
  induction hreach with
  | refl => exact h
  | tail _ hstep ih => exact ih.step hfailure hstep

theorem failsRead_closing (hfailure : Assignments failure)
    (hproduced : Produced failure config.stack) (hfails : FailsRead machine clock config)
    (hlast : LastRead machine clock failure config)
    (hstep : Codesys.step machine (codesysRead machine clock) config = some after) :
    Closing machine failure after := by
  obtain ⟨⟨span, destination, timestampUnit, hread⟩, hfailed⟩ := hfails
  obtain ⟨remaining, stack, hstack⟩ := produced_read hfailure hproduced hread
  obtain ⟨whole, memory, reads, exited⟩ := config
  simp only at hstack hfailed
  subst hstack
  have hanswer : (if machine.isZero (clock reads.length).status = true then _ else
      some (⟨.list [clockGuard span remaining failure] :: stack,
        answered db (clock reads.length) memory, reads ++ [(destination, timestampUnit)], exited⟩ :
          Config Value World)) = some after := hstep
  rw [if_neg (by simp [hfailed])] at hanswer
  cases hanswer
  apply Closing.guard
  · rw [answered_result]
    exact hfailed
  · exact hlast

end

theorem clockFailureAssignments_assignments (parameters : List Parameter) :
    Assignments (clockFailureAssignments parameters) := by
  intro statement h
  obtain ⟨parameter, -, rfl⟩ := mem_map.mp h
  exact ⟨_, _, _, rfl⟩

/-- In every run of a routine of an adapted unit: after a clock read that fails where
nothing around its list goes on, only failure assignments and the guard are executed. -/
theorem adaptCodesysRuntime_failure (db : CharacterDatabase) {Value World : Type}
    (machine : Machine db Value World) (clock : Nat → Reading Value) (unit : ReusableUnit)
    (hnew : ∀ item ∈ unit.diagnostics, item.code ≠ adapterApplied) (routine : Routine)
    (hroutine : routine ∈ (adaptCodesysRuntime db unit).routines) (memory : Memory Value World)
    (config : Config Value World)
    (hreach : Reaches (step machine (codesysRead machine clock)) (start routine.statements memory)
      config) (hfails : FailsRead machine clock config)
    (hlast : LastRead machine clock (clockFailureAssignments unit.parameters) config)
    (later : Config Value World)
    (hlater : Reaches₁ (step machine (codesysRead machine clock)) config later)
    (statement : Statement) (hexecuted : later.executed = some statement) :
    Added (clockFailureAssignments unit.parameters) statement := by
  have hfailure := clockFailureAssignments_assignments unit.parameters
  rw [adaptCodesysRuntime_routines db hnew] at hroutine
  obtain ⟨original, -, rfl⟩ := mem_map.mp hroutine
  have hproduced := reaches_produced hfailure hreach
  obtain ⟨after, hstep, hrest⟩ := Relation.TransGen.head'_iff.mp hlater
  have hclosing := failsRead_closing hfailure hproduced hfails hlast hstep
  exact (hclosing.reaches hfailure hrest).executed hexecuted


/-- A unit whose routine is the given list; Valid is its visible Boolean output. -/
def stampUnit (statements : List Statement) : ReusableUnit where
  name := "Timestamp"
  kind := .functionBlock
  parameters := [⟨"Go", .input, some ("BOOL" : Text), none, false, false⟩,
    ⟨"Valid", .output, some ("BOOL" : Text), none, false, false⟩]
  instanceVariables := [⟨"Stamp", some ("LINT" : Text), none⟩]
  routines := [⟨"Logic", statements, [], .primary⟩]

def branchRead : Statement :=
  .ifThen ⟨0, 4⟩ [⟨⟨0, 4⟩, .reference ⟨1, 2⟩ none "Go",
    [.wallClockRead ⟨2, 3⟩ (.reference ⟨2, 3⟩ none "Stamp") "microseconds"]⟩] []

def setValid : Statement :=
  .assignment ⟨4, 5⟩ (.reference ⟨4, 5⟩ none "Valid") (.literal ⟨4, 5⟩ none "TRUE")

/-- A scan with integer variables whose clock answers 1, a failure. -/
def failingStep (config : Config Int Unit) : Option (Config Int Unit) :=
  let machine := integerMachine Ascii.database
  step machine (codesysRead machine (fun _ => ⟨1, 0⟩)) config

theorem reaches_step {next : Config Int Unit → Option (Config Int Unit)}
    {config after final : Config Int Unit} (hstep : next config = some after)
    (h : Reaches next after final) : Reaches next config final :=
  .head hstep h

def atRead (outer : List Statement) : Config Int Unit where
  stack := [.list (guardClockReads (clockFailureAssignments (stampUnit []).parameters)
    [.wallClockRead ⟨2, 3⟩ (.reference ⟨2, 3⟩ none "Stamp") "microseconds"]), .list outer]
  memory := ⟨fun _ => 1, ()⟩

/-- The read is the last statement of its branch and the IF the last one of the
routine: once the read has failed, only the adapter executes statements. -/
theorem adaptCodesysRuntime_failure_last :
    Added (clockFailureAssignments (stampUnit []).parameters)
      (.assignment ⟨0, 0⟩ (.reference ⟨0, 0⟩ (some ("BOOL" : Text)) "Valid")
        (.literal ⟨0, 0⟩ (some ("BOOL" : Text)) "FALSE")) := by
  obtain ⟨later, hlater, hexecuted⟩ : ∃ later, Reaches₁ failingStep (atRead []) later ∧
      later.executed = some (.assignment ⟨0, 0⟩ (.reference ⟨0, 0⟩ (some ("BOOL" : Text)) "Valid")
        (.literal ⟨0, 0⟩ (some ("BOOL" : Text)) "FALSE")) :=
    ⟨_, .head' rfl (reaches_step rfl .refl), rfl⟩
  exact adaptCodesysRuntime_failure Ascii.database (integerMachine Ascii.database)
    (fun _ => ⟨1, 0⟩) (stampUnit [branchRead]) (by simp [stampUnit]) _ mem_cons_self
    ⟨fun _ => 1, ()⟩ (atRead []) (reaches_step rfl .refl) ⟨⟨_, _, _, rfl⟩, rfl⟩
    (fun _ _ => rfl) later hlater _ hexecuted

/-- The read in the branch fails, and the assignment behind the IF is still executed. -/
theorem adaptCodesysRuntime_failure_branch :
    ∃ config later, Reaches failingStep
        (start ((adaptCodesysRuntime Ascii.database (stampUnit [branchRead, setValid])).routines.flatMap
          (·.statements)) ⟨fun _ => 1, ()⟩) config ∧
      FailsRead (integerMachine Ascii.database) (fun _ => ⟨1, 0⟩) config ∧
      Reaches₁ failingStep config later ∧ later.executed = some setValid ∧
      ¬Added (clockFailureAssignments (stampUnit []).parameters) setValid := by
  obtain ⟨later, hlater, hexecuted⟩ : ∃ later, Reaches₁ failingStep (atRead [setValid]) later ∧
      later.executed = some setValid :=
    ⟨_, .head' rfl (reaches_step rfl (reaches_step rfl (reaches_step rfl (reaches_step rfl
      .refl)))), rfl⟩
  refine ⟨atRead [setValid], later, reaches_step rfl .refl, ⟨⟨_, _, _, rfl⟩, rfl⟩, hlater,
    hexecuted, ?_⟩
  rintro (hmem | ⟨span, remaining, heq⟩)
  · obtain ⟨parameter, -, heq⟩ := mem_map.mp hmem
    cases heq
  · cases heq

end TwinForge.Codesys
