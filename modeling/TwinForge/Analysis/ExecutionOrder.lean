import TwinForge.Foundation.Grouping
import TwinForge.Foundation.Waves
import TwinForge.Model.Graphical

/-! # Execution order of function block diagrams

Blocks run after the blocks they depend on, by an explicit wire or by an execution
override, and in grid position order within one depth. A diagram whose order the evidence
does not settle is left alone or reported.
-/

namespace TwinForge.Analysis

open Graphical

inductive OrderIssueCode where
  | unresolvedExecutionAfter
  | ambiguousBlockOrder
  | cyclicBlockDependency
deriving DecidableEq, Repr

structure ExecutionOrderIssue where
  programName : Text
  routineName : Text
  diagramIndex : Nat
  code : OrderIssueCode
  scope : IssueScope
deriving DecidableEq, Repr

/-- The order in which the set of the given indices is walked. -/
structure SetOrder where
  enumerate : List Nat → List Nat
  perm : ∀ indices, (enumerate indices).Perm indices.dedup

def blocks (diagram : GraphicalDiagram) : List Nat :=
  (diagram.objects.zipIdx.filter fun entry => entry.1.kind = .block).map Prod.snd

def instanceName (diagram : GraphicalDiagram) (block : Nat) : Text :=
  ((diagram.objects[block]?).bind (·.instanceName)).getD []

def position (diagram : GraphicalDiagram) (block : Nat) : Option LadderPosition :=
  (diagram.objects[block]?).bind (·.position)

/-! ## Dependencies -/

abbrev Dependencies := Dictionary Nat (List Nat)

def unmet (deps : Dependencies) (block : Nat) : List Nat := (deps.get? block).getD []

/-- `deps[destination].add(source)`. -/
def addDependency (deps : Dependencies) (destination source : Nat) : Dependencies :=
  deps.set destination ((unmet deps destination).insert source)

/-- The wires between blocks; `none` where some end of a wire is not resolved. -/
def wiredDependencies (diagram : GraphicalDiagram) (blockIndices : List Nat) :
    Option Dependencies :=
  diagram.links.foldlM
    (fun deps link =>
      if link.source.status ≠ .resolved ∨ link.destination.status ≠ .resolved then none
      else
        match link.source.objectIndex, link.destination.objectIndex with
        | some source, some destination =>
          if source ∈ blockIndices ∧ destination ∈ blockIndices then
            some (addDependency deps destination source)
          else some deps
        | _, _ => some deps)
    (Dictionary.ofItems id (fun _ => []) blockIndices)

/-- A symbol passes from an output of one block to an input of another without a wire. -/
def uncovered (deps : Dependencies) (blockIndices : List Nat)
    (group : GraphicalVariableReferences) : Bool :=
  let outputs := (group.outputPins.map Prod.fst).filter (· ∈ blockIndices)
  let inputs := (group.inputPins.map Prod.fst).filter (· ∈ blockIndices)
  outputs.any fun source => inputs.any fun destination =>
    decide (source ≠ destination ∧ source ∉ unmet deps destination)

/-- What each block depends on by wires, or `none` if any link is untrustworthy. -/
def dependencyGraph (diagram : GraphicalDiagram) (blockIndices : List Nat) :
    Option Dependencies := do
  let deps ← wiredDependencies diagram blockIndices
  if diagram.sharedVariables.any (uncovered deps blockIndices) then none else some deps

section

variable (db : CharacterDatabase)

/-- The execution override of a block, stripped. -/
def overrideTarget (diagram : GraphicalDiagram) (block : Nat) : Text :=
  db.strip (((diagram.objects[block]?).bind (·.executionAfter)).getD [])

def blocksByName (diagram : GraphicalDiagram) (indices : List Nat) : Dictionary Text (List Nat) :=
  Dictionary.groupBy (fun block => db.casefoldText (instanceName diagram block))
    (indices.filter fun block => instanceName diagram block ≠ [])

def overridesOf (diagram : GraphicalDiagram) (byName : Dictionary Text (List Nat)) :
    List Nat → Option (List (Nat × Nat))
  | [] => some []
  | block :: rest =>
    let target := overrideTarget db diagram block
    if target = [] then overridesOf diagram byName rest
    else
      match (byName.get? (db.casefoldText target)).getD [] with
      | [found] =>
        if found = block then none
        else (overridesOf diagram byName rest).map ((block, found) :: ·)
      | _ => none

/-- A block and the block it must follow, per execution override; `none` if any cannot be
resolved. -/
def executionOverrides (diagram : GraphicalDiagram) (indices : List Nat) :
    Option (List (Nat × Nat)) :=
  overridesOf db diagram (blocksByName db diagram indices) indices

/-! ## Resolving diagrams -/

/-- Row first, then column; blocks without a position are not compared. -/
def positionOrder (diagram : GraphicalDiagram) : Nat → Nat → Ordering :=
  compareLex (compareOn fun block => ((position diagram block).map (·.row)).getD 0)
    (compareOn fun block => ((position diagram block).map (·.column)).getD 0)

instance (diagram : GraphicalDiagram) : Std.TransCmp (positionOrder diagram) :=
  inferInstanceAs (Std.TransCmp (compareLex _ _))

def topologicalOrder (order : Nat → Nat → Ordering) (deps : Dependencies) : Option (List Nat) :=
  Waves.waves order deps.entries.length deps.entries

def unresolvedBindingKinds : List BindingKind :=
  [.unresolvedExpression, .missingSymbol, .ambiguousSymbol, .invalidOutputLiteral]

def badPins (diagram : GraphicalDiagram) : Bool :=
  (blocks diagram).any fun block => (((diagram.objects[block]?).map (·.pins)).getD []).any
    fun pin => pin.bindingKind ∈ unresolvedBindingKinds

def ambiguousWriters (diagram : GraphicalDiagram) : Bool :=
  diagram.sharedVariables.any fun group =>
    1 < ((group.outputPins.map Prod.fst).filter (· ∈ blocks diagram)).dedup.length

/-- Clear an order that rests on a basis no longer given. -/
def clearObsolete (diagram : GraphicalDiagram) : GraphicalDiagram :=
  if diagram.executionOrderBasis = some .sharedVariableDataflow then
    { diagram with
      executionOrder := [], executionOrderResolved := false, executionOrderBasis := none }
  else diagram

inductive Verdict where
  | leave
  | report (code : OrderIssueCode)
  | resolve (order : List Nat) (basis : ExecutionOrderBasis)

variable (sets : SetOrder)

def verdict (excluded : Bool) (diagram : GraphicalDiagram) : Verdict :=
  if diagram.executionOrderResolved ∨ diagram.language ≠ .fbd then .leave
  else if excluded then .leave
  else if (blocks diagram).length < 2 then .leave
  else if diagram.objects.any (fun object => object.kind ∉ [.block, ObjectKind.annotation]) then .leave
  else
    match executionOverrides db diagram (blocks diagram) with
    | none => .report .unresolvedExecutionAfter
    | some overrides =>
      if badPins diagram = false ∧ ambiguousWriters diagram then .report .ambiguousBlockOrder
      else
        match dependencyGraph diagram (sets.enumerate (blocks diagram)) with
        | none => .leave
        | some deps =>
          if (blocks diagram).any (fun block => position diagram block = none) then .leave
          else
            match topologicalOrder (positionOrder diagram)
                (overrides.foldl (fun deps pair => addDependency deps pair.1 pair.2) deps) with
            | none => .report .cyclicBlockDependency
            | some order => .resolve order (if overrides.isEmpty then
                .documentedDependencyOrder else .dependencyOrderWithExecAfter)

/-- Diagrams a run does not touch: a scope, a container, a routine and an index. -/
abbrev Exclusions := List (IssueScope × Text × Text × Nat)

def resolveDiagram (containerName routineName : Text) (scope : IssueScope)
    (excluded : Exclusions) (diagram : GraphicalDiagram) (index : Nat) :
    GraphicalDiagram × List ExecutionOrderIssue :=
  let cleared := clearObsolete diagram
  match verdict db sets (decide ((scope, containerName, routineName, index) ∈ excluded))
      cleared with
  | .leave => (cleared, [])
  | .report code => (cleared, [⟨containerName, routineName, index, code, scope⟩])
  | .resolve order basis =>
    ({ cleared with
        executionOrder := order, executionOrderResolved := true,
        executionOrderBasis := some basis }, [])

def resolveRoutineDiagrams (diagrams : List GraphicalDiagram) (containerName routineName : Text)
    (scope : IssueScope) (excluded : Exclusions) :
    List GraphicalDiagram × List ExecutionOrderIssue :=
  let resolved := diagrams.zipIdx.map fun entry =>
    resolveDiagram db sets containerName routineName scope excluded entry.1 entry.2
  (resolved.map Prod.fst, (resolved.map Prod.snd).flatten)

def resolveContainer (scope : IssueScope) (excluded : Exclusions) (container : Container) :
    Container × List ExecutionOrderIssue :=
  let resolved := container.routines.map fun routine =>
    (routine, resolveRoutineDiagrams db sets routine.graphicalDiagrams container.name routine.name
      scope excluded)
  ({ container with
      routines := resolved.map fun entry => { entry.1 with graphicalDiagrams := entry.2.1 } },
    (resolved.map fun entry => entry.2.2).flatten)

/-- Resolve every diagram of the programs and then of the reusable instructions. -/
def resolveFbdExecutionOrder (excluded functionBlockExcluded : List (Text × Text × Nat))
    (controller : Controller) : Controller × List ExecutionOrderIssue :=
  let keyed : Exclusions := excluded.map (fun key => (.program, key)) ++
    functionBlockExcluded.map fun key => (.functionBlock, key)
  let programs := controller.programs.map (resolveContainer db sets .program keyed)
  let instructions :=
    controller.addOnInstructions.map (resolveContainer db sets .functionBlock keyed)
  ({ controller with
      programs := programs.map Prod.fst, addOnInstructions := instructions.map Prod.fst },
    (programs.map Prod.snd).flatten ++ (instructions.map Prod.snd).flatten)

end

end TwinForge.Analysis
