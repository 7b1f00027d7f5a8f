import TwinForge.Foundation.Grouping
import TwinForge.Foundation.Integers

/-! # Sequential charts

The neutral structure of a chart: networks of elements with the properties the source
gives them, and links whose endpoints may have been found among the elements.
-/

namespace TwinForge.ControlExpert

inductive ElementKind where
  | network | step | action | actionTarget | variableReference | transitionReference
  | transition | condition | alternativeBranch | alternativeJoin | stepJump | explicitLink
  | linkSource | linkDestination | position | routePosition | stepTiming | actionTiming
  | timeLiteral | transitionDefinition | structuredText | unknown
  deriving DecidableEq, Repr

inductive ReferenceStatus where
  | resolved | ambiguous | missing | unsupportedType | invalidPosition
  deriving DecidableEq, Repr

/-- The place of a network in its chart, and of an element in that network. -/
structure ElementPath where
  network : Nat
  element : Nat
  deriving DecidableEq, Repr

inductive SequentialElement where
  | mk (kind : ElementKind) (properties : Dictionary Text Text)
      (referenceStatus : Option ReferenceStatus) (targetElementPath : Option ElementPath)
      (children : List SequentialElement)

namespace SequentialElement

def kind : SequentialElement → ElementKind
  | mk kind .. => kind

def properties : SequentialElement → Dictionary Text Text
  | mk _ properties .. => properties

def referenceStatus : SequentialElement → Option ReferenceStatus
  | mk _ _ status .. => status

def targetElementPath : SequentialElement → Option ElementPath
  | mk _ _ _ path _ => path

def children : SequentialElement → List SequentialElement
  | mk _ _ _ _ children => children

def childrenOf (element : SequentialElement) (kind : ElementKind) : List SequentialElement :=
  element.children.filter fun child => child.kind = kind

end SequentialElement

inductive EdgeBasis where
  | gridAdjacency | explicitLink | joinIndirection | namedJumpIndirection
  deriving DecidableEq, Repr

/-- One resolved edge between a step and a transition. -/
structure SequentialEdge where
  sourcePath : ElementPath
  destinationPath : ElementPath
  basis : EdgeBasis
  deriving DecidableEq, Repr

structure SequentialChart where
  elements : List SequentialElement
  connectivityResolved : Bool := false
  connectivityEdges : List SequentialEdge := []

/-! ## Connectivity of a sequential chart

The successor of a step or a transition is read from the grid, from an explicit link, or
from a branch, a join or a jump in between.
-/

structure ConnectivityIssue where
  elementPath : ElementPath
  code : Text
  detail : Text
  deriving DecidableEq, Repr

def isFlowKind (kind : ElementKind) : Bool := kind = .step ∨ kind = .transition

def isConnected (kind : ElementKind) : Bool :=
  isFlowKind kind ∨ kind = .alternativeBranch ∨ kind = .alternativeJoin ∨ kind = .stepJump

def below (position : Int × Int) : Int × Int := (position.1, position.2 + 1)

def only {Item : Type} : List Item → Option Item
  | [item] => some item
  | _ => none

def linkPaths (networkIndex : Nat) (link : SequentialElement) :
    Option (ElementPath × ElementPath) :=
  if link.kind ≠ .explicitLink then none
  else
    match link.childrenOf .linkSource, link.childrenOf .linkDestination with
    | [source], [destination] =>
      match source.targetElementPath, destination.targetElementPath with
      | some sourcePath, some destinationPath =>
        if source.referenceStatus = some .resolved ∧
            destination.referenceStatus = some .resolved ∧
            sourcePath.network = networkIndex then
          some (sourcePath, destinationPath)
        else none
      | _, _ => none
    | _, _ => none

/-- The destinations by source: of several links from one source the last one. -/
def explicitLinkEdges (network : SequentialElement) (networkIndex : Nat) :
    Dictionary ElementPath ElementPath :=
  Dictionary.ofItems Prod.fst Prod.snd (network.children.filterMap (linkPaths networkIndex))

section

variable (db : CharacterDatabase)

def gridPosition (element : SequentialElement) : Option (Int × Int) :=
  match element.childrenOf .position with
  | [found] => do
    let x ← found.properties.get? "x"
    let y ← found.properties.get? "y"
    return (← readInt db x, ← readInt db y)
  | _ => none

variable (network : SequentialElement)

/-- `kinds.get(index)`. -/
def kindAt (index : Nat) : Option ElementKind := do
  let element ← network.children[index]?
  if isConnected element.kind then some element.kind else none

/-- `list(kinds)`. -/
def indices : List Nat :=
  (List.range network.children.length).filter fun index => (kindAt network index).isSome

/-- `positions.get(index)`. -/
def positionAt (index : Nat) : Option (Int × Int) := do
  let _ ← kindAt network index
  gridPosition db (← network.children[index]?)

def byPosition : Dictionary (Option (Int × Int)) (List Nat) :=
  Dictionary.groupBy (positionAt db network)
    ((indices network).filter fun index => (positionAt db network index).isSome)

def candidatesAt (accepted : ElementKind → Bool) (position : Int × Int) : List Nat :=
  (((byPosition db network).get? (some position)).getD []).filter fun index =>
    (kindAt network index).any accepted

def flowAt (position : Int × Int) : Option Nat := only (candidatesAt db network isFlowKind position)

def branchAt (position : Int × Int) : Option Nat :=
  only (candidatesAt db network (· = .alternativeBranch) position)

def jumpAt (position : Int × Int) : Option Nat :=
  only (candidatesAt db network (· = .stepJump) position)

def branchTargets (branchIndex : Nat) (position : Int × Int) : Option (List Nat) := do
  let branch ← network.children[branchIndex]?
  if branch.properties.get? "relative_position" ≠ some (Text.of "0") then none
  else
    let width ← readInt db ((branch.properties.get? "width").getD [])
    if width ≤ 0 then none
    else
      (List.range width.toNat).mapM fun (column : Nat) =>
        only (candidatesAt db network (· = .transition) (position.1 + (column : Int), position.2))

def joinSuccessor (joinIndex : Nat) : Option Nat := do
  let join ← network.children[joinIndex]?
  let position ← positionAt db network joinIndex
  if join.properties.get? "relative_position" ≠ some (Text.of "0") then none
  else flowAt db network (below position)

def stepsNamed (name : Text) : List Nat :=
  (indices network).filter fun index =>
    kindAt network index = some .step ∧
      (network.children[index]?).any fun step =>
        db.casefoldText ((step.properties.get? "name").getD []) = db.casefoldText name

def jumpTarget (jumpIndex : Nat) : Option Nat := do
  let jump ← network.children[jumpIndex]?
  let name ← jump.properties.get? "step_name"
  if name = [] then none else only (stepsNamed db network name)

def destinationKindText : Option ElementKind → Text
  | some .step => "'step'"
  | some .transition => "'transition'"
  | some .alternativeBranch => "'alternative_branch'"
  | some .alternativeJoin => "'alternative_join'"
  | some .stepJump => "'step_jump'"
  | _ => "None"

variable (networkIndex : Nat)

def successor (index target : Nat) (basis : EdgeBasis) : SequentialEdge where
  sourcePath := ⟨networkIndex, index⟩
  destinationPath := ⟨networkIndex, target⟩
  basis

def resolveStep (index : Nat) (position : Int × Int) (linked : Option ElementPath) :
    Except (Text × Text) (List SequentialEdge) :=
  match branchAt db network (below position) with
  | some branchIndex =>
    if linked.isSome then
      .error ("ambiguous_sfc_successor",
        "step: alternative_branch conflicts with an explicit link")
    else
      match branchTargets db network branchIndex (below position) with
      | none =>
        .error ("unsupported_sfc_branch_position",
          "alternative_branch width/relative_position not evidenced or row incomplete")
      | some targets =>
        .ok (targets.map fun target => successor networkIndex index target .gridAdjacency)
  | none =>
    let plain := (flowAt db network (below position)).filter fun target =>
      kindAt network target = some .transition
    match plain, linked with
    | some _, some _ =>
      .error ("ambiguous_sfc_successor",
        "step: plain adjacency and explicit link disagree")
    | some target, none => .ok [successor networkIndex index target .gridAdjacency]
    | none, some path =>
      if path.network = networkIndex ∧ kindAt network path.element = some .transition then
        .ok [⟨⟨networkIndex, index⟩, path, .explicitLink⟩]
      else
        .error ("unresolved_sfc_successor",
          "explicit link destination is not a transition in this network")
    | none, none => .error ("unresolved_sfc_successor", "no adjacent or linked transition")

def resolveLinkedTransition (index : Nat) (path : ElementPath) :
    Except (Text × Text) (List SequentialEdge) :=
  if path.network ≠ networkIndex then
    .error ("unresolved_sfc_successor", "explicit link crosses network")
  else
    match kindAt network path.element with
    | some .step => .ok [⟨⟨networkIndex, index⟩, path, .explicitLink⟩]
    | some .alternativeJoin =>
      match joinSuccessor db network path.element with
      | none =>
        .error ("unsupported_sfc_branch_position",
          "alternative_join width/relative_position not evidenced or has no successor")
      | some target => .ok [successor networkIndex index target .joinIndirection]
    | kind =>
      .error ("unresolved_sfc_successor",
        ("explicit link destination kind " : Text) ++ destinationKindText kind ++
          (" is not a step or alternative_join" : Text))

def resolveTransition (index : Nat) (position : Int × Int) (linked : Option ElementPath) :
    Except (Text × Text) (List SequentialEdge) :=
  let plain := (flowAt db network (below position)).filter fun target =>
    kindAt network target = some .step
  match plain, jumpAt db network (below position), linked with
  | some target, none, none => .ok [successor networkIndex index target .gridAdjacency]
  | none, some jumpIndex, none =>
    match jumpTarget db network jumpIndex with
    | none =>
      .error ("unresolved_sfc_successor",
        "jumpSFC target step is missing or ambiguous within this network")
    | some target => .ok [successor networkIndex index target .namedJumpIndirection]
  | none, none, some path => resolveLinkedTransition db network networkIndex index path
  | none, none, none =>
    .error ("unresolved_sfc_successor", "no adjacent step, jumpSFC or explicit link")
  | _, _, _ =>
    .error ("ambiguous_sfc_successor",
      "transition: more than one of adjacent step/jumpSFC/explicit link is present")

def resolveNode (index : Nat) : Except (Text × Text) (List SequentialEdge) :=
  match positionAt db network index with
  | none => .error ("unresolved_sfc_successor", "no grid position recorded")
  | some position =>
    let linked := (explicitLinkEdges network networkIndex).get? ⟨networkIndex, index⟩
    if kindAt network index = some .step then
      resolveStep db network networkIndex index position linked
    else resolveTransition db network networkIndex index position linked

def addNode (found : List SequentialEdge × List ConnectivityIssue) (index : Nat) :
    List SequentialEdge × List ConnectivityIssue :=
  if (kindAt network index).any isFlowKind then
    match resolveNode db network networkIndex index with
    | .ok edges => (found.1 ++ edges, found.2)
    | .error (code, detail) => (found.1, found.2 ++ [⟨⟨networkIndex, index⟩, code, detail⟩])
  else found

def resolveNetwork : List SequentialEdge × List ConnectivityIssue :=
  (indices network).foldl (addNode db network networkIndex) ([], [])

end

def resolveChart (db : CharacterDatabase) (chart : SequentialChart) :
    SequentialChart × List ConnectivityIssue :=
  let found := chart.elements.zipIdx.foldl (fun found entry =>
    if entry.1.kind = .network then
      let (edges, issues) := resolveNetwork db entry.1 entry.2
      (found.1 ++ edges, found.2 ++ issues)
    else found) (([], []) : List SequentialEdge × List ConnectivityIssue)
  ({ chart with connectivityEdges := found.1, connectivityResolved := found.2.isEmpty }, found.2)

end TwinForge.ControlExpert
