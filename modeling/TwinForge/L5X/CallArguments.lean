import Mathlib.Algebra.GroupWithZero.Nat
import TwinForge.Foundation.Grouping
import TwinForge.L5X.Corpus
import TwinForge.Model.SoftwareCall

/-! # Calls of add-on instructions

A call whose callee names one definition is resolved, and each of its operands is bound to the
instance or to a parameter of the definition.
-/

namespace TwinForge.L5X.Calls

open Model (SoftwareCallArgument SoftwareCallSite)

/-! ## What calls refer to -/

structure Tag where
  identity : Nat
  name : Text
  dataType : Option Text := none
deriving DecidableEq, Repr

structure Program where
  name : Text
  tags : Dictionary Text Tag := {}

def Program.getTag (program : Program) (name : Text) : Option Tag := program.tags.get? name

structure Connection where
  name : Text
deriving DecidableEq, Repr

inductive Module where
  | mk (name : Text) (connections : List Connection) (childModules : List Module)

namespace Module

def name : Module → Text
  | mk name _ _ => name

def connections : Module → List Connection
  | mk _ connections _ => connections

def childModules : Module → List Module
  | mk _ _ childModules => childModules

theorem sizeOf_children (module : Module) :
    (module.childModules.map sizeOf).sum < sizeOf module := by
  have hlist : ∀ modules : List Module, (modules.map sizeOf).sum < sizeOf modules := by
    intro modules
    induction modules with
    | nil => simp
    | cons module modules ih =>
      rw [List.map_cons, List.sum_cons, List.cons.sizeOf_spec]
      omega
  cases module with
  | mk name connections childModules =>
    have hchildren := hlist childModules
    rw [Module.childModules, mk.sizeOf_spec]
    omega

end Module

structure AddOnInstructionParameter where
  name : Text
  usage : Option Text := none
  required : Option Bool := none
deriving DecidableEq, Repr

structure AddOnInstruction where
  parameters : Dictionary Text AddOnInstructionParameter := {}

/-- What a component is implemented by. -/
inductive Implementation where
  | addOnInstruction (instruction : AddOnInstruction)
  | other

structure SoftwareComponent where
  name : Text
  implementation : Implementation

structure Controller where
  programs : Dictionary Text Program := {}
  tags : Dictionary Text Tag := {}
  /-- The modules of each chassis. -/
  chassis : List (List Module) := []
  unplacedModules : List Module := []

inductive Target where
  | controller (controller : Controller)
  | module (module : Module)
  | program (program : Program)
  | addOnInstruction

structure Document where
  targetType : TargetType
  target : Target
  sourcePath : Text
  contextControllerTags : List Tag := []

structure ControllerWorkspace where
  documents : List Document := []
  controllerDocument : Option Document := none

/-! ## Bindings -/

inductive SoftwareTagScope where
  | program | controller | controllerContext
deriving DecidableEq, Repr

/-- Meaning established for one call operand. -/
inductive SoftwareCallBindingRole where
  | instanceOperand | parameter | unmatched
deriving DecidableEq, Repr

inductive SoftwareParameterFlow where
  | input | output | inOut | unknown
deriving DecidableEq, Repr

inductive ModuleDataDirection where
  | input | output | configuration | status | unknown
deriving DecidableEq, Repr

structure SoftwareCallArgumentBinding where
  argument : SoftwareCallArgument
  role : SoftwareCallBindingRole
  parameter : Option AddOnInstructionParameter := none
  targetTag : Option Tag := none
  targetTagScope : Option SoftwareTagScope := none
  targetModule : Option Module := none
  targetConnection : Option Connection := none
  moduleDataPath : Option Text := none
  moduleDataDirection : Option ModuleDataDirection := none
  flow : SoftwareParameterFlow := .unknown

structure ResolvedSoftwareCall where
  callSite : SoftwareCallSite
  definition : SoftwareComponent
  instanceTag : Option Tag := none
  argumentBindings : List SoftwareCallArgumentBinding := []

/-! ## Workspaces -/

def workspacePrograms (workspace : ControllerWorkspace) : List (Program × Text) :=
  let own := match workspace.controllerDocument with
    | some ⟨_, .controller controller, sourcePath, _⟩ =>
      controller.programs.values.map fun program => (program, sourcePath)
    | _ => []
  own ++ workspace.documents.filterMap fun document =>
    match document.targetType, document.target with
    | .program, .program program => some (program, document.sourcePath)
    | _, _ => none

/-- `_controller_tags_for_call`: the strongest controller-tag evidence available to one call. -/
def controllerTagsForCall (document : Option Document) (workspace : Option ControllerWorkspace) :
    List (Tag × SoftwareTagScope) :=
  let context := (document.map (·.contextControllerTags)).getD []
  if context ≠ [] then context.map fun tag => (tag, .controllerContext)
  else match workspace.bind (·.controllerDocument) with
    | some ⟨_, .controller controller, _, _⟩ =>
      controller.tags.values.map fun tag => (tag, .controller)
    | _ => []

/-- The loop of `_workspace_modules`, over the modules that are pending. -/
def modulesFrom : List Module → List Module
  | [] => []
  | module :: pending => module :: modulesFrom (pending ++ module.childModules)
termination_by pending => (pending.map sizeOf).sum
decreasing_by
  have := module.sizeOf_children
  simp only [List.map_append, List.sum_append, List.map_cons, List.sum_cons]
  omega

def workspaceModules : Option ControllerWorkspace → List Module
  | none => []
  | some workspace =>
    let own := match workspace.controllerDocument with
      | some ⟨_, .controller controller, _, _⟩ =>
        controller.unplacedModules ++ controller.chassis.flatten
      | _ => []
    modulesFrom (own ++ workspace.documents.filterMap fun document =>
      match document.targetType, document.target with
      | .ioModule, .module module => some module
      | _, _ => none)

section

variable (db : CharacterDatabase)

def dataDirection (path : Text) : ModuleDataDirection :=
  let area := db.casefoldText (path.takeWhile (· ≠ '.'))
  if area = ("i" : Text) then .input
  else if area = ("o" : Text) then .output
  else if area = ("c" : Text) then .configuration
  else if area = ("s" : Text) then .status
  else .unknown

/-- `_resolve_module_operand`: the longest exact module-name prefix. -/
def resolveModuleOperand (operand : Text) (modules : List Module) :
    Option Module × Option Text × Option ModuleDataDirection :=
  match modules.filter fun module => db.casefoldText operand = db.casefoldText module.name with
  | [module] => (some module, none, some .unknown)
  | _ :: _ :: _ => (none, none, none)
  | [] =>
    let matching := modules.filter fun module =>
      (db.casefoldText (module.name ++ [':'])).isPrefixOf (db.casefoldText operand)
    let sorted := matching.mergeSort fun first second => second.name.length ≤ first.name.length
    match sorted with
    | [] => (none, none, none)
    | first :: _ =>
      match sorted.filter fun module => module.name.length = first.name.length with
      | [module] =>
        let path := operand.drop (module.name.length + 1)
        (some module, some path, some (dataDirection db path))
      | _ => (none, none, none)

def parameterFlow (usage : Option Text) : SoftwareParameterFlow :=
  let normalized := db.casefoldText (usage.getD [])
  if normalized = ("input" : Text) then .input
  else if normalized = ("output" : Text) then .output
  else if normalized = ("inout" : Text) then .inOut
  else .unknown

/-- `_software_index`, up to the order of its names. -/
def softwareIndex (components : List SoftwareComponent) : Dictionary Text (List SoftwareComponent) :=
  Dictionary.groupBy (fun component => db.casefoldText component.name) components

/-! ## One call -/

def operandTag (program : Option Program) (controllerTags : List (Tag × SoftwareTagScope))
    (operand : Text) : Option (Tag × SoftwareTagScope) :=
  match program.bind (·.getTag operand) with
  | some tag => some (tag, .program)
  | none =>
    match controllerTags.filter fun entry =>
      db.casefoldText entry.1.name = db.casefoldText operand with
    | [found] => some found
    | _ => none

def parametersByName (instruction : AddOnInstruction) : Dictionary Text AddOnInstructionParameter :=
  Dictionary.ofItems (fun parameter => db.casefoldText parameter.name) id instruction.parameters.values

def required (instruction : AddOnInstruction) : List AddOnInstructionParameter :=
  instruction.parameters.values.filter fun parameter => parameter.required = some true

def operandParameter (instruction : AddOnInstruction) (positionalIndex : Nat)
    (argument : SoftwareCallArgument) : Option AddOnInstructionParameter :=
  match argument.name with
  | some name => (parametersByName db instruction).get? (db.casefoldText name)
  | none => (required instruction)[positionalIndex]?

structure CallScope where
  instruction : AddOnInstruction
  program : Option Program
  controllerTags : List (Tag × SoftwareTagScope)
  instanceTag : Option Tag
  modules : List Module

def unmatchedArgument (call : SoftwareCallSite) (argument : SoftwareCallArgument) :
    CorpusDiagnostic where
  code := "unmatched_software_call_argument"
  message := ("call to " : Text) ++ db.reprText call.callee ++ (" has unmatched operand " : Text) ++
    db.reprText argument.source
  sourcePaths := call.sourcePath.toList

def parameterUnbound (call : SoftwareCallSite) (parameter : AddOnInstructionParameter) :
    CorpusDiagnostic where
  code := "required_software_parameter_unbound"
  message := ("call to " : Text) ++ db.reprText call.callee ++
    (" does not bind required parameter " : Text) ++ db.reprText parameter.name
  sourcePaths := call.sourcePath.toList

def ambiguousCall (call : SoftwareCallSite) (definitions : Nat) : CorpusDiagnostic where
  code := "ambiguous_software_call"
  message := ("call " : Text) ++ call.programName ++ ['.'] ++ call.routineName ++ (" to " : Text) ++
    db.reprText call.callee ++ (" matches " : Text) ++ decimal definitions ++
    (" definitions" : Text)
  sourcePaths := call.sourcePath.toList

structure BindingState where
  positionalIndex : Nat := 0
  instanceConsumed : Bool := false
  bindings : List SoftwareCallArgumentBinding := []
  diagnostics : List CorpusDiagnostic := []

/-- The binding of an operand that is not the instance. -/
def parameterBinding (scope : CallScope) (positionalIndex : Nat) (argument : SoftwareCallArgument) :
    SoftwareCallArgumentBinding :=
  let target := operandTag db scope.program scope.controllerTags argument.source
  let (targetModule, modulePath, moduleDirection) :=
    resolveModuleOperand db argument.source scope.modules
  let parameter := operandParameter db scope.instruction positionalIndex argument
  { argument
    role := if parameter.isSome then .parameter else .unmatched
    parameter
    targetTag := target.map (·.1)
    targetTagScope := target.map (·.2)
    targetModule
    targetConnection := match targetModule.map (·.connections) with
      | some [connection] => some connection
      | _ => none
    moduleDataPath := modulePath
    moduleDataDirection := moduleDirection
    flow := match parameter with
      | some parameter => parameterFlow db parameter.usage
      | none => .unknown }

/-- `target_tag is instance_tag and instance_tag is not None`. -/
def isInstance (scope : CallScope) (target : Option (Tag × SoftwareTagScope)) : Bool :=
  match target, scope.instanceTag with
  | some (tag, _), some instanceTag => tag.identity = instanceTag.identity
  | _, _ => false

/-- One turn of the loop of `_bind_call_arguments`. -/
def bindArgument (call : SoftwareCallSite) (scope : CallScope) (state : BindingState)
    (argument : SoftwareCallArgument) : BindingState :=
  let target := operandTag db scope.program scope.controllerTags argument.source
  if state.instanceConsumed = false ∧ argument.name = none ∧ isInstance scope target then
    { state with
      instanceConsumed := true
      bindings := state.bindings ++ [{
        argument
        role := .instanceOperand
        targetTag := target.map (·.1)
        targetTagScope := target.map (·.2) }] }
  else
    let binding := parameterBinding db scope state.positionalIndex argument
    { state with
      positionalIndex := state.positionalIndex + if argument.name = none then 1 else 0
      bindings := state.bindings ++ [binding]
      diagnostics := state.diagnostics ++
        if binding.parameter = none then [unmatchedArgument db call argument] else [] }

def boundParameters (bindings : List SoftwareCallArgumentBinding) : List Text :=
  bindings.filterMap fun binding => binding.parameter.map fun parameter =>
    db.casefoldText parameter.name

/-- `_bind_call_arguments` of an add-on instruction. -/
def bindCallArguments (call : SoftwareCallSite) (scope : CallScope) :
    List SoftwareCallArgumentBinding × List CorpusDiagnostic :=
  let state := call.arguments.foldl (bindArgument db call scope) {}
  let bound := boundParameters db state.bindings
  (state.bindings, state.diagnostics ++
    ((required scope.instruction).filter fun parameter =>
      db.casefoldText parameter.name ∉ bound).map (parameterUnbound db call))

/-! ## All calls -/

def programIndex (workspaces : List ControllerWorkspace) : Dictionary (Text × Text) Program :=
  Dictionary.ofItems (fun entry : Program × Text => (entry.2, db.casefoldText entry.1.name)) (·.1)
    (workspaces.flatMap workspacePrograms)

def workspaceBySource (workspaces : List ControllerWorkspace) : Dictionary Text ControllerWorkspace :=
  Dictionary.ofItems (fun entry : Document × ControllerWorkspace => entry.1.sourcePath) (·.2)
    (workspaces.flatMap fun workspace => workspace.documents.map fun document => (document, workspace))

def documentBySource (workspaces : List ControllerWorkspace) : Dictionary Text Document :=
  Dictionary.ofItems (fun document : Document => document.sourcePath) id
    (workspaces.flatMap (·.documents))

/-- `str(call.source_path)`. -/
def sourceText (call : SoftwareCallSite) : Text := call.sourcePath.getD ("None" : Text)

def callProgram (workspaces : List ControllerWorkspace) (call : SoftwareCallSite) : Option Program :=
  match call.sourcePath, call.arguments with
  | some path, _ :: _ => (programIndex db workspaces).get? (path, db.casefoldText call.programName)
  | _, _ => none

/-- The tag of the first operand, where the call's program has a tag of that name. -/
def instanceTagOf (workspaces : List ControllerWorkspace) (call : SoftwareCallSite) : Option Tag :=
  call.arguments.head?.bind fun first =>
    (callProgram db workspaces call).bind fun program => program.getTag first.source

def callScope (workspaces : List ControllerWorkspace) (call : SoftwareCallSite)
    (instruction : AddOnInstruction) : CallScope where
  instruction
  program := callProgram db workspaces call
  controllerTags := controllerTagsForCall ((documentBySource workspaces).get? (sourceText call))
    ((workspaceBySource workspaces).get? (sourceText call))
  instanceTag := instanceTagOf db workspaces call
  modules := workspaceModules ((workspaceBySource workspaces).get? (sourceText call))

structure ResolvedCalls where
  resolved : List ResolvedSoftwareCall := []
  diagnostics : List CorpusDiagnostic := []

/-- One turn of the loop of `_resolve_calls`. -/
def resolveCall (workspaces : List ControllerWorkspace)
    (index : Dictionary Text (List SoftwareComponent)) (state : ResolvedCalls)
    (call : SoftwareCallSite) : ResolvedCalls :=
  match (index.get? (db.casefoldText call.callee)).getD [] with
  | [] => state
  | [definition] =>
    let (argumentBindings, diagnostics) := match definition.implementation with
      | .addOnInstruction instruction =>
        bindCallArguments db call (callScope db workspaces call instruction)
      | .other => ([], [])
    { resolved := state.resolved ++ [{
        callSite := call
        definition
        instanceTag := instanceTagOf db workspaces call
        argumentBindings }]
      diagnostics := state.diagnostics ++ diagnostics }
  | definitions =>
    { state with
      diagnostics := state.diagnostics ++ [ambiguousCall db call definitions.length] }

def resolveCalls (workspaces : List ControllerWorkspace)
    (index : Dictionary Text (List SoftwareComponent)) (diagnostics : List CorpusDiagnostic)
    (calls : List SoftwareCallSite) : ResolvedCalls :=
  calls.foldl (resolveCall db workspaces index) { diagnostics }

end

end TwinForge.L5X.Calls
