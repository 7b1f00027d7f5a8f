import TwinForge.L5X.CallArguments

/-! # Operands of add-on instruction calls

The operands behind the instance are bound by position and by name. A call starts with its
instance in the sense of the binding exactly when its program has a tag that is named as the
first operand is written.
-/

namespace TwinForge.L5X.Calls

open List

open Model (SoftwareCallArgument SoftwareCallSite)

section

variable (db : CharacterDatabase)

/-! ## Instances -/

/-- A path behind a tag leads from its data type to that of an element or a member. -/
inductive Leads (membersOf : Text → List (Text × Text)) : Text → Text → Text → Prop where
  | here (dataType : Text) : Leads membersOf dataType [] dataType
  | element {dataType path found : Text} (index : Text) (more : Leads membersOf dataType path found) :
      Leads membersOf dataType ('[' :: index ++ ']' :: path) found
  | member {dataType name written memberType path found : Text}
      (declared : (name, memberType) ∈ membersOf dataType)
      (named : db.casefoldText written = db.casefoldText name)
      (more : Leads membersOf memberType path found) :
      Leads membersOf dataType ('.' :: written ++ path) found

def callTags (workspaces : List ControllerWorkspace) (call : SoftwareCallSite) : List Tag :=
  ((callProgram db workspaces call).map fun program => program.tags.values).getD [] ++
    (controllerTagsForCall ((documentBySource workspaces).get? (sourceText call))
      ((workspaceBySource workspaces).get? (sourceText call))).map (·.1)

/-- An operand is a tag of the definition's type, or an element or a member of a tag that is. -/
def InstanceOperand (membersOf : Text → List (Text × Text)) (tags : List Tag)
    (definition : SoftwareComponent) (operand : Text) : Prop :=
  ∃ tag ∈ tags, ∃ dataType ∈ tag.dataType, ∃ written path found, operand = written ++ path ∧
    db.casefoldText written = db.casefoldText tag.name ∧ Leads db membersOf dataType path found ∧
    db.casefoldText found = db.casefoldText definition.name

def StartsWithInstance (membersOf : Text → List (Text × Text)) (workspaces : List ControllerWorkspace)
    (call : SoftwareCallSite) (definition : SoftwareComponent) : Prop :=
  ∃ first rest, call.arguments = first :: rest ∧ first.name = none ∧
    InstanceOperand db membersOf (callTags db workspaces call) definition first.source

/-- The callee names one component, which is an add-on instruction. -/
def NamesInstruction (index : Dictionary Text (List SoftwareComponent)) (call : SoftwareCallSite)
    (definition : SoftwareComponent) (instruction : AddOnInstruction) : Prop :=
  index.get? (db.casefoldText call.callee) = some [definition] ∧
    definition.implementation = .addOnInstruction instruction

/-- The program of the call has a tag that is named as the first operand is written. -/
def ProgramTagFirst (workspaces : List ControllerWorkspace) (call : SoftwareCallSite) : Prop :=
  ∃ path ∈ call.sourcePath, ∃ first ∈ call.arguments.head?, ∃ program,
    (programIndex db workspaces).get? (path, db.casefoldText call.programName) = some program ∧
      first.source ∈ program.tags.keys

/-! ## Bound calls -/

/-- The bindings and the diagnostics of a call that starts with its instance. -/
structure Bound (call : SoftwareCallSite) (instruction : AddOnInstruction)
    (bindings : List SoftwareCallArgumentBinding) (diagnostics : List CorpusDiagnostic) : Prop where
  operands : bindings.map (·.argument) = call.arguments
  first : bindings.head?.map (·.role) = some .instanceOperand
  roles : ∀ binding ∈ bindings.tail,
    binding.role = if binding.parameter.isSome then .parameter else .unmatched
  positional : ∀ (k : Nat) (binding : SoftwareCallArgumentBinding),
    (bindings.tail.filter fun binding => binding.argument.name = none)[k]? = some binding →
      binding.parameter = (required instruction)[k]?
  named : ∀ binding ∈ bindings.tail, ∀ name ∈ binding.argument.name,
    (∀ parameter ∈ binding.parameter, parameter ∈ instruction.parameters.values ∧
      db.casefoldText parameter.name = db.casefoldText name) ∧
    (binding.parameter = none → ∀ parameter ∈ instruction.parameters.values,
      db.casefoldText parameter.name ≠ db.casefoldText name)
  reported : diagnostics =
    ((bindings.tail.filter fun binding => binding.parameter = none).map fun binding =>
      unmatchedArgument db call binding.argument) ++
    ((required instruction).filter fun parameter => !bindings.any fun binding =>
      binding.parameter.any fun bound =>
        db.casefoldText bound.name = db.casefoldText parameter.name).map (parameterUnbound db call)

/-- A call that starts with its instance is resolved and bound so. -/
def CallBound (membersOf : Text → List (Text × Text)) (workspaces : List ControllerWorkspace)
    (index : Dictionary Text (List SoftwareComponent)) (call : SoftwareCallSite) : Prop :=
  ∀ definition instruction, NamesInstruction db index call definition instruction →
    StartsWithInstance db membersOf workspaces call definition →
      ∃ instanceTag argumentBindings,
        (resolveCalls db workspaces index [] [call]).resolved =
          [{ callSite := call, definition, instanceTag, argumentBindings }] ∧
        Bound db call instruction argumentBindings
          (resolveCalls db workspaces index [] [call]).diagnostics

end

section

variable {db : CharacterDatabase}

/-! ## Operands behind the instance -/

/-- The bindings of operands that are not the instance. -/
def boundFrom (db : CharacterDatabase) (scope : CallScope) :
    Nat → List SoftwareCallArgument → List SoftwareCallArgumentBinding
  | _, [] => []
  | positionalIndex, argument :: rest =>
    parameterBinding db scope positionalIndex argument ::
      boundFrom db scope (positionalIndex + if argument.name = none then 1 else 0) rest

/-- The state behind an operand that is not the instance. -/
def plainTurn (db : CharacterDatabase) (call : SoftwareCallSite) (scope : CallScope)
    (state : BindingState) (argument : SoftwareCallArgument) : BindingState :=
  let binding := parameterBinding db scope state.positionalIndex argument
  { state with
    positionalIndex := state.positionalIndex + if argument.name = none then 1 else 0
    bindings := state.bindings ++ [binding]
    diagnostics := state.diagnostics ++
      if binding.parameter = none then [unmatchedArgument db call argument] else [] }

variable {scope : CallScope}

theorem isInstance_none (h : scope.instanceTag = none)
    (target : Option (Tag × SoftwareTagScope)) : isInstance scope target = false := by
  unfold isInstance
  rw [h]
  cases target <;> rfl

theorem bindArgument_plain (call : SoftwareCallSite) {state : BindingState}
    (h : state.instanceConsumed = true ∨ scope.instanceTag = none) (argument : SoftwareCallArgument) :
    bindArgument db call scope state argument = plainTurn db call scope state argument := by
  have hplain : ¬ (state.instanceConsumed = false ∧ argument.name = none ∧
      isInstance scope (operandTag db scope.program scope.controllerTags argument.source)) := by
    intro ⟨hfree, _, hinstance⟩
    cases h with
    | inl hconsumed => rw [hconsumed] at hfree; cases hfree
    | inr hnone => rw [isInstance_none hnone] at hinstance; cases hinstance
  unfold bindArgument
  exact if_neg hplain

theorem bindArguments_plain (call : SoftwareCallSite) (scope : CallScope)
    (arguments : List SoftwareCallArgument) (state : BindingState)
    (h : state.instanceConsumed = true ∨ scope.instanceTag = none) :
    (arguments.foldl (bindArgument db call scope) state).bindings =
        state.bindings ++ boundFrom db scope state.positionalIndex arguments ∧
      (arguments.foldl (bindArgument db call scope) state).diagnostics =
        state.diagnostics ++ ((boundFrom db scope state.positionalIndex arguments).filter
          fun binding => binding.parameter = none).map fun binding =>
            unmatchedArgument db call binding.argument := by
  induction arguments generalizing state with
  | nil => simp [boundFrom]
  | cons argument rest ih =>
    rw [foldl_cons, bindArgument_plain call h, boundFrom]
    have ⟨hbindings, hdiagnostics⟩ := ih (plainTurn db call scope state argument) h
    rw [hbindings, hdiagnostics, filter_cons]
    constructor
    · simp [plainTurn]
    · have hargument : (parameterBinding db scope state.positionalIndex argument).argument =
          argument := rfl
      by_cases hnone : (parameterBinding db scope state.positionalIndex argument).parameter = none
      · simp [plainTurn, hnone, hargument]
      · simp [plainTurn, hnone]

theorem boundFrom_arguments (scope : CallScope) (positionalIndex : Nat)
    (arguments : List SoftwareCallArgument) :
    (boundFrom db scope positionalIndex arguments).map (·.argument) = arguments := by
  induction arguments generalizing positionalIndex with
  | nil => rfl
  | cons argument rest ih => rw [boundFrom, map_cons, ih]; rfl

variable {arguments : List SoftwareCallArgument} {binding : SoftwareCallArgumentBinding}

theorem mem_boundFrom {positionalIndex : Nat}
    (h : binding ∈ boundFrom db scope positionalIndex arguments) :
    ∃ k, binding = parameterBinding db scope k binding.argument := by
  induction arguments generalizing positionalIndex with
  | nil => cases h
  | cons argument rest ih =>
    cases mem_cons.mp h with
    | inl hsame => exact ⟨positionalIndex, by rw [hsame]; rfl⟩
    | inr hmore => exact ih hmore

theorem parameterBinding_role (scope : CallScope) (k : Nat) (argument : SoftwareCallArgument) :
    (parameterBinding db scope k argument).role =
      if (parameterBinding db scope k argument).parameter.isSome then .parameter else .unmatched := rfl

theorem boundFrom_positional {start : Nat} {k : Nat}
    (h : ((boundFrom db scope start arguments).filter fun binding =>
      binding.argument.name = none)[k]? = some binding) :
    binding.parameter = (required scope.instruction)[start + k]? := by
  induction arguments generalizing start k with
  | nil => simp [boundFrom] at h
  | cons argument rest ih =>
    rw [boundFrom, filter_cons] at h
    cases hname : argument.name with
    | some name =>
      rw [if_neg (by simp [parameterBinding, hname]), hname] at h
      exact ih h
    | none =>
      rw [if_pos (by simp [parameterBinding, hname]), hname, if_pos rfl] at h
      cases k with
      | zero =>
        have hsame : parameterBinding db scope start argument = binding := by simpa using h
        rw [← hsame]
        simp [parameterBinding, operandParameter, hname]
      | succ k =>
        rw [List.getElem?_cons_succ] at h
        rw [ih h, Nat.add_assoc, Nat.add_comm 1 k]

theorem parametersByName_spec (instruction : AddOnInstruction) (name : Text) :
    (∀ parameter ∈ (parametersByName db instruction).get? (db.casefoldText name),
      parameter ∈ instruction.parameters.values ∧
        db.casefoldText parameter.name = db.casefoldText name) ∧
    ((parametersByName db instruction).get? (db.casefoldText name) = none →
      ∀ parameter ∈ instruction.parameters.values,
        db.casefoldText parameter.name ≠ db.casefoldText name) := by
  rw [parametersByName, Dictionary.ofItems_last, map_id]
  constructor
  · intro parameter hparameter
    have hmem := mem_filter.mp (mem_of_getLast? hparameter)
    exact ⟨hmem.1, by simpa using hmem.2⟩
  · intro hnone parameter hparameter hsame
    rw [List.getLast?_eq_none_iff, filter_eq_nil_iff] at hnone
    exact hnone parameter hparameter (by simpa using hsame)

theorem boundFrom_named {start : Nat} (h : binding ∈ boundFrom db scope start arguments)
    {name : Text} (hname : binding.argument.name = some name) :
    (∀ parameter ∈ binding.parameter, parameter ∈ scope.instruction.parameters.values ∧
      db.casefoldText parameter.name = db.casefoldText name) ∧
    (binding.parameter = none → ∀ parameter ∈ scope.instruction.parameters.values,
      db.casefoldText parameter.name ≠ db.casefoldText name) := by
  have ⟨k, hbinding⟩ := mem_boundFrom h
  have hparameter : binding.parameter =
      (parametersByName db scope.instruction).get? (db.casefoldText name) := by
    rw [hbinding, parameterBinding]
    simp only [operandParameter, hname]
  rw [hparameter]
  exact parametersByName_spec scope.instruction name

/-! ## One call -/

theorem mem_boundParameters (bindings : List SoftwareCallArgumentBinding) (parameter : AddOnInstructionParameter) :
    (decide (db.casefoldText parameter.name ∉ boundParameters db bindings)) =
      !bindings.any fun binding => binding.parameter.any fun bound =>
        db.casefoldText bound.name = db.casefoldText parameter.name := by
  rw [Bool.eq_iff_iff]
  simp [boundParameters, Option.any_eq_false]

theorem bindCallArguments_bound {call : SoftwareCallSite} {scope : CallScope}
    {first : SoftwareCallArgument} {rest : List SoftwareCallArgument} {tag : Tag}
    (harguments : call.arguments = first :: rest) (hname : first.name = none)
    (htag : scope.instanceTag = some tag)
    (hoperand : operandTag db scope.program scope.controllerTags first.source = some (tag, .program)) :
    Bound db call scope.instruction (bindCallArguments db call scope).1
      (bindCallArguments db call scope).2 := by
  have hinstance : isInstance scope (some (tag, SoftwareTagScope.program)) = true := by
    simp [isInstance, htag]
  have hstep : bindArgument db call scope {} first =
      { instanceConsumed := true
        bindings := [{
          argument := first
          role := .instanceOperand
          targetTag := some tag
          targetTagScope := some .program }] } := by
    unfold bindArgument
    rw [hoperand]
    exact if_pos ⟨rfl, hname, hinstance⟩
  have hloop := @bindArguments_plain db call scope rest (bindArgument db call scope {} first)
    (by rw [hstep]; exact .inl rfl)
  have hall : call.arguments.foldl (bindArgument db call scope) {} =
      rest.foldl (bindArgument db call scope) (bindArgument db call scope {} first) := by
    rw [harguments]
    rfl
  rw [← hall, hstep] at hloop
  have ⟨hbindings, hdiagnostics⟩ := hloop
  unfold bindCallArguments
  simp only [hbindings, hdiagnostics]
  constructor
  · simp [boundFrom_arguments, harguments]
  · rfl
  · intro binding hbinding
    have ⟨k, hsame⟩ := mem_boundFrom hbinding
    rw [hsame]
    exact parameterBinding_role scope k _
  · intro k binding hbinding
    have hposition := boundFrom_positional hbinding
    rw [Nat.zero_add] at hposition
    exact hposition
  · exact fun binding hbinding name hname => boundFrom_named hbinding hname
  · simp only [mem_boundParameters]
    rfl

theorem bindCallArguments_unbound {call : SoftwareCallSite} {scope : CallScope}
    (htag : scope.instanceTag = none) :
    (bindCallArguments db call scope).1.head?.map (·.role) ≠ some .instanceOperand := by
  have ⟨hbindings, _⟩ := @bindArguments_plain db call scope call.arguments {} (.inr htag)
  unfold bindCallArguments
  simp only [hbindings, nil_append]
  cases hcase : boundFrom db scope 0 call.arguments with
  | nil => simp
  | cons binding rest =>
    have hmem : binding ∈ boundFrom db scope 0 call.arguments := by rw [hcase]; simp
    have ⟨k, hsame⟩ := mem_boundFrom hmem
    rw [List.head?_cons, hsame, Option.map_some, parameterBinding_role]
    split <;> simp

/-! ## All calls -/

section

variable {workspaces : List ControllerWorkspace} {index : Dictionary Text (List SoftwareComponent)}

theorem resolveCall_append (state : ResolvedCalls) (call : SoftwareCallSite) :
    resolveCall db workspaces index state call =
      { resolved := state.resolved ++ (resolveCalls db workspaces index [] [call]).resolved
        diagnostics := state.diagnostics ++ (resolveCalls db workspaces index [] [call]).diagnostics } := by
  have hone : resolveCalls db workspaces index [] [call] = resolveCall db workspaces index {} call := rfl
  rw [hone]
  unfold resolveCall
  split <;> simp

theorem resolveCalls_append (diagnostics : List CorpusDiagnostic) (calls : List SoftwareCallSite) :
    resolveCalls db workspaces index diagnostics calls =
      { resolved := calls.flatMap fun call => (resolveCalls db workspaces index [] [call]).resolved
        diagnostics := diagnostics ++
          calls.flatMap fun call => (resolveCalls db workspaces index [] [call]).diagnostics } := by
  have hrun : ∀ (calls : List SoftwareCallSite) (state : ResolvedCalls),
      calls.foldl (resolveCall db workspaces index) state =
        { resolved := state.resolved ++
            calls.flatMap fun call => (resolveCalls db workspaces index [] [call]).resolved
          diagnostics := state.diagnostics ++
            calls.flatMap fun call => (resolveCalls db workspaces index [] [call]).diagnostics } := by
    intro calls
    induction calls with
    | nil => simp
    | cons call calls ih =>
      intro state
      rw [foldl_cons, ih, resolveCall_append]
      simp
  have hcalls := hrun calls { diagnostics }
  rw [nil_append] at hcalls
  exact hcalls

theorem resolveCalls_instruction {call : SoftwareCallSite} {definition : SoftwareComponent}
    {instruction : AddOnInstruction} (h : NamesInstruction db index call definition instruction) :
    resolveCalls db workspaces index [] [call] =
      { resolved := [{
          callSite := call
          definition
          instanceTag := instanceTagOf db workspaces call
          argumentBindings :=
            (bindCallArguments db call (callScope db workspaces call instruction)).1 }]
        diagnostics := (bindCallArguments db call (callScope db workspaces call instruction)).2 } := by
  have hone : resolveCalls db workspaces index [] [call] = resolveCall db workspaces index {} call := rfl
  rw [hone, resolveCall, h.1]
  simp [h.2]

theorem instanceTagOf_isSome_iff (call : SoftwareCallSite) :
    (instanceTagOf db workspaces call).isSome ↔ ProgramTagFirst db workspaces call := by
  have hkeys : ∀ (program : Program) (name : Text),
      (program.getTag name).isSome ↔ name ∈ program.tags.keys := by
    intro program name
    rw [Program.getTag, Option.isSome_iff_exists]
    simp only [Dictionary.mem_keys_iff]
  unfold instanceTagOf callProgram ProgramTagFirst
  cases harguments : call.arguments with
  | nil => simp
  | cons first rest =>
    cases hpath : call.sourcePath with
    | none => simp
    | some path =>
      simp only [List.head?_cons, Option.bind_some, Option.mem_def, Option.some.injEq]
      cases hprogram : (programIndex db workspaces).get? (path, db.casefoldText call.programName) with
      | none => simp [hprogram]
      | some program =>
        rw [Option.bind_some, hkeys]
        constructor
        · exact fun hkey => ⟨path, rfl, first, rfl, program, hprogram, hkey⟩
        · rintro ⟨_, hsame, _, hfirst, other, hother, hkey⟩
          rw [← hsame, hprogram] at hother
          rw [hfirst, Option.some.inj hother]
          exact hkey

/-- A call is bound as it should be exactly when its program has a tag that is named as the
first operand is written. -/
theorem callBound_iff (membersOf : Text → List (Text × Text)) (call : SoftwareCallSite) :
    CallBound db membersOf workspaces index call ↔
      ∀ definition instruction, NamesInstruction db index call definition instruction →
        StartsWithInstance db membersOf workspaces call definition →
          ProgramTagFirst db workspaces call := by
  constructor
  · intro h definition instruction hnames hstarts
    have ⟨_, bindings, hresolved, hbound⟩ := h definition instruction hnames hstarts
    rw [resolveCalls_instruction hnames] at hresolved hbound
    have hbindings : (bindCallArguments db call (callScope db workspaces call instruction)).1 =
        bindings := congrArg ResolvedSoftwareCall.argumentBindings (List.cons.inj hresolved).1
    rw [← instanceTagOf_isSome_iff]
    cases htag : instanceTagOf db workspaces call with
    | some tag => rfl
    | none =>
      have hunbound := @bindCallArguments_unbound db call
        (callScope db workspaces call instruction) htag
      rw [hbindings] at hunbound
      exact absurd hbound.first hunbound
  · intro h definition instruction hnames hstarts
    have hfirst := h definition instruction hnames hstarts
    rw [← instanceTagOf_isSome_iff, Option.isSome_iff_exists] at hfirst
    have ⟨tag, htag⟩ := hfirst
    have ⟨first, rest, harguments, hname, _⟩ := hstarts
    have hoperand : operandTag db (callProgram db workspaces call)
        (callScope db workspaces call instruction).controllerTags first.source =
          some (tag, .program) := by
      rw [instanceTagOf, harguments, List.head?_cons, Option.bind_some] at htag
      rw [operandTag, htag]
    have hbound := @bindCallArguments_bound db call (callScope db workspaces call instruction)
      first rest tag harguments hname htag hoperand
    rw [resolveCalls_instruction hnames]
    exact ⟨_, _, rfl, hbound⟩

/-- The calls of a corpus are resolved each for itself, and those that start with an instance of
the add-on instruction they name are bound to it by position and by name exactly when the
instance is written as a tag of their program. -/
theorem resolveCalls_bound_iff (membersOf : Text → List (Text × Text))
    (diagnostics : List CorpusDiagnostic) (calls : List SoftwareCallSite) :
    resolveCalls db workspaces index diagnostics calls =
      { resolved := calls.flatMap fun call => (resolveCalls db workspaces index [] [call]).resolved
        diagnostics := diagnostics ++
          calls.flatMap fun call => (resolveCalls db workspaces index [] [call]).diagnostics } ∧
      ((∀ call ∈ calls, CallBound db membersOf workspaces index call) ↔
        ∀ call ∈ calls, ∀ definition instruction,
          NamesInstruction db index call definition instruction →
            StartsWithInstance db membersOf workspaces call definition →
              ProgramTagFirst db workspaces call) := by
  refine ⟨resolveCalls_append diagnostics calls, ?_⟩
  constructor
  · exact fun h call hcall => (callBound_iff membersOf call).mp (h call hcall)
  · exact fun h call hcall => (callBound_iff membersOf call).mpr (h call hcall)

end

end

/-! ## An instance of the controller -/

/-- A program without tags whose controller has the tag `Inst`. -/
def driveWorkspace : ControllerWorkspace where
  documents := [{
    targetType := .program
    target := .program { name := "Drive" }
    sourcePath := "drive.L5X"
    contextControllerTags := [⟨0, "Inst", some ("Aoi" : Text)⟩] }]

def aoi : SoftwareComponent where
  name := "Aoi"
  implementation := .addOnInstruction { parameters := {
    entries := [("Cmd", ⟨"Cmd", some ("Input" : Text), some true⟩)] } }

/-- `Aoi(Inst,Run)`. -/
def driveCall : SoftwareCallSite where
  callee := "Aoi"
  arguments := [{ position := 0, source := "Inst" }, { position := 1, source := "Run" }]
  programName := "Drive"
  routineName := "Main"
  language := .ladder
  sourceText := "Aoi(Inst,Run)"
  sourcePath := some ("drive.L5X" : Text)

/-- An instance among the controller's tags is not bound as one. -/
theorem controller_instance_unbound :
    ¬ ∀ (db : CharacterDatabase) (membersOf : Text → List (Text × Text))
      (workspaces : List ControllerWorkspace) (components : List SoftwareComponent)
      (calls : List SoftwareCallSite), ∀ call ∈ calls,
        CallBound db membersOf workspaces (softwareIndex db components) call := by
  intro h
  have hcall := h Ascii.database (fun _ => []) [driveWorkspace] [aoi] [driveCall] driveCall
    (mem_singleton_self _)
  rw [callBound_iff] at hcall
  have hstarts : StartsWithInstance Ascii.database (fun _ => []) [driveWorkspace] driveCall aoi := by
    refine ⟨_, _, rfl, rfl, ⟨0, "Inst", some ("Aoi" : Text)⟩, ?_, ("Aoi" : Text), rfl, "Inst", [],
      "Aoi", rfl, rfl, .here _, rfl⟩
    decide +kernel
  have hfirst := hcall aoi _ ⟨rfl, rfl⟩ hstarts
  rw [← instanceTagOf_isSome_iff] at hfirst
  revert hfirst
  decide +kernel

end TwinForge.L5X.Calls
