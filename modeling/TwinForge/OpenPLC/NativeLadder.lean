import TwinForge.OpenPLC.NativeGroups

/-! # Native ladder graphs

A rung of the native target is a graph of nodes and edges. The connectors of a
node follow from its type and place, and are left out.
-/

namespace TwinForge.OpenPLC

inductive NodeType where
  | powerRail (left : Bool)
  | contact
  | coil
  | parallel (openNode : Bool) (counterpart : Text)
deriving DecidableEq, Repr

inductive Variant where
  | default
  | negated
deriving DecidableEq, Repr

structure Node where
  id : Text
  type : NodeType
  variableName : Text
  variant : Variant
  x : Nat
  y : Nat
  width : Nat
deriving DecidableEq, Repr

structure Edge where
  id : Text
  source : Text
  sourceHandle : Text
  target : Text
  targetHandle : Text
deriving DecidableEq, Repr

structure RungGraph where
  id : Text
  comment : Text
  defaultBounds : Nat × Nat
  reactFlowViewport : Nat × Nat
  nodes : List Node
  edges : List Edge
deriving DecidableEq, Repr

def leftRailNode (identifier : Text) : Node :=
  ⟨identifier, .powerRail true, [], .default, 0, 30, 3⟩

def rightRailNode (identifier : Text) (x : Nat) : Node :=
  ⟨identifier, .powerRail false, [], .default, x, 30, 3⟩

def instructionNode (identifier : Text) (type : NodeType) (variableName : Text) (x width : Nat)
    (y : Nat := 38) (variant : Variant := .default) : Node :=
  ⟨identifier, type, variableName, variant, x, y, width⟩

def parallelNode (identifier counterpart : Text) (openNode : Bool) (x : Nat) : Node :=
  ⟨identifier, .parallel openNode counterpart, [], .default, x, 49, 4⟩

def edge (source sourceHandle target targetHandle : Text) : Edge where
  id := ("e_" : Text) ++ source ++ ("_" : Text) ++ target ++ ("__" : Text) ++ sourceHandle ++
    ("_" : Text) ++ targetHandle
  source := source
  sourceHandle := sourceHandle
  target := target
  targetHandle := targetHandle

/-! ## Power -/

/-- Does a node pass the power at its input on? A contact reads its variable, a
negated contact the negation of it. -/
def Node.conducts (valuation : Text → Bool) (node : Node) : Bool :=
  match node.type, node.variant with
  | .contact, .default => valuation node.variableName
  | .contact, .negated => !valuation node.variableName
  | _, _ => true

/-- The identifiers of the nodes whose input has power. Edges in a row are a
conjunction, edges that meet in one node a disjunction. -/
inductive Powered (graph : RungGraph) (valuation : Text → Bool) : Text → Prop
  | rail {node} : node ∈ graph.nodes → node.type = .powerRail true →
      Powered graph valuation node.id
  | wire {wire node} : wire ∈ graph.edges → node ∈ graph.nodes → node.id = wire.source →
      node.conducts valuation = true → Powered graph valuation wire.source →
      Powered graph valuation wire.target

def Energises (graph : RungGraph) (valuation : Text → Bool) : Prop :=
  ∃ node ∈ graph.nodes, node.type = .coil ∧ Powered graph valuation node.id

/-- What holds of the left rail and passes along every conducting edge holds of
every powered node. -/
theorem powered_induction {graph : RungGraph} {valuation : Text → Bool} {P : Text → Prop}
    (hrail : ∀ node ∈ graph.nodes, node.type = .powerRail true → P node.id)
    (hwire : ∀ wire ∈ graph.edges, ∀ node ∈ graph.nodes, node.id = wire.source →
      node.conducts valuation = true → P wire.source → P wire.target)
    {identifier : Text} (h : Powered graph valuation identifier) : P identifier := by
  induction h with
  | rail hnode htype => exact hrail _ hnode htype
  | wire hwires hnode hid hconducts _ ih => exact hwire _ hwires _ hnode hid hconducts ih

/-! ## Boolean rungs of the native target

Admission of a program, and the lowering of one admitted rung outside the timer
and counter groups. The UUID of a graph path is a parameter.
-/

open Model Plcopen

/-! ### Admission -/

/-- Serial contacts, or two single-contact paths with at most one contact after
them, driving one coil. -/
def isSupportedBoolean (rung : ParsedBooleanRung) : Bool :=
  let serial := rung.branches.isEmpty && !rung.tailConditions.isEmpty &&
    rung.tailConditions.all (fun condition => condition.opcode == .XIC)
  let parallel := rung.branches.length == 2 &&
    rung.branches.all (fun branch =>
      branch.length == 1 && branch.all (fun contact => contact.opcode == .XIC)) &&
    (rung.tailConditions.isEmpty || (rung.tailConditions.length == 1 &&
      rung.tailConditions.all (fun condition => condition.opcode.isContact)))
  (serial || parallel) && rung.outputs.length == 1 &&
    rung.outputs.all (fun output => output.opcode == .OTE)

section

variable (db : CharacterDatabase)

/-- The number of rungs of the group at an index; none outside a group. -/
def groupSize (timers : List (Text × Int)) (program : Program) (index : Nat) :
    Except Text (Option Nat) :=
  match matchTimerGroup db timers program index with
  | some group => .ok (some group.sourceRungCount)
  | none => (matchCounterGroup db program index).map
      (Option.map OpenPLCCounterGroup.sourceRungCount)

def validateRungs (timers : List (Text × Int)) (program : Program) : Nat → Nat → Except Text Unit
  | 0, _ => .ok ()
  | fuel + 1, index =>
    match program.mainRungs[index]? with
    | none => .ok ()
    | some rung =>
      match parseSupportedRung db rung.text with
      | none => .error (("rung " : Text) ++ reprNumber rung.number ++
          (" is outside the evidenced XIC-to-OTE subset" : Text))
      | some parsed => do
        match ← groupSize db timers program index with
        | some count => validateRungs timers program fuel (index + count)
        | none =>
          if isSupportedBoolean parsed then validateRungs timers program fuel (index + 1)
          else .error (("rung " : Text) ++ reprNumber rung.number ++
            (" is outside the evidenced serial/parallel-XIC-to-OTE subset" : Text))

/-- Reject source constructs outside the runtime-evidenced native subset. -/
def validateProgram (controller : Controller) (program : Program)
    (timers : List (Text × Int)) : Except Text Unit :=
  if !controller.tags.isEmpty then
    .error "native OpenPLC global-variable representation is not yet evidenced"
  else if program.routines.length ≠ 1 then
    .error "the evidenced native subset requires exactly one routine"
  else
    let unsupported := (program.tags.map (·.2)).filter (fun tag =>
      db.casefoldText (tag.dataType.getD []) ∉ ([("bool" : Text), "timer", "counter"] : List Text))
    if !unsupported.isEmpty then
      .error (("only local BOOL variables are evidenced: " : Text) ++
        joinText ", " (unsupported.map (·.name)))
    else validateRungs db timers program program.mainRungs.length 0

/-- The indices at which the admission loop stops. -/
inductive Reaches (timers : List (Text × Int)) (program : Program) : Nat → Prop
  | start : Reaches timers program 0
  | group {index count} : Reaches timers program index →
      groupSize db timers program index = .ok (some count) →
      Reaches timers program (index + count)
  | single {index} : Reaches timers program index →
      groupSize db timers program index = .ok none → Reaches timers program (index + 1)

end

/-! ### Lowering -/

section

variable (stableUuid : Text → Text)

def rungIdentifier (programName : Text) (index : Nat) : Text :=
  ("rung_" : Text) ++ programName ++ ("_" : Text) ++
    stableUuid (programName ++ ("/rung/" : Text) ++ decimal index)

def leftRailIdentifier (rungId : Text) : Text := ("left-rail-" : Text) ++ rungId

def rightRailIdentifier (rungId : Text) : Text := ("right-rail-" : Text) ++ rungId

def contactIdentifier (path : Text) : Text := ("CONTACT_" : Text) ++ stableUuid path

def coilIdentifier (rungId : Text) : Text :=
  ("COIL_" : Text) ++ stableUuid (rungId ++ ("/coil" : Text))

def openIdentifier (rungId : Text) : Text :=
  ("PARALLEL_OPEN_" : Text) ++ stableUuid (rungId ++ ("/parallel/open" : Text))

def closeIdentifier (rungId : Text) : Text :=
  ("PARALLEL_CLOSE_" : Text) ++ stableUuid (rungId ++ ("/parallel/close" : Text))

def serialContactPath (rungId : Text) (index : Nat) : Text :=
  rungId ++ ("/contact/" : Text) ++ decimal index

def branchContactPath (rungId : Text) (index : Nat) : Text :=
  rungId ++ ("/branch/" : Text) ++ decimal index ++ ("/contact" : Text)

def tailContactPath (rungId : Text) : Text := rungId ++ ("/tail/stop" : Text)

def instructionEdges : List Text → List Edge
  | source :: target :: rest =>
    edge source "output" target "input" :: instructionEdges (target :: rest)
  | _ => []

def serialContactNodes (rungId : Text) (names : List Text) : List Node :=
  names.mapIdx (fun index name =>
    instructionNode (contactIdentifier stableUuid (serialContactPath rungId index)) .contact name
      (68 + index * 114) 24)

def serialRung (rungId comment : Text) (names : List Text) (coilName : Text) : RungGraph :=
  let leftId := leftRailIdentifier rungId
  let coilId := coilIdentifier stableUuid rungId
  let rightId := rightRailIdentifier rungId
  let contacts := serialContactNodes stableUuid rungId names
  let coilX := 68 + names.length * 114
  let instructionIds := contacts.map (·.id) ++ [coilId]
  { id := rungId, comment, defaultBounds := (300, 100), reactFlowViewport := (323, 120)
    nodes := [leftRailNode leftId] ++ contacts ++
      [instructionNode coilId .coil coilName coilX 28, rightRailNode rightId (coilX + 138)]
    edges := [edge leftId "left-rail" (instructionIds.headD coilId) "input"] ++
      instructionEdges instructionIds ++ [edge coilId "output" rightId "right-rail"] }

/-- The two-path disjunction, behind the contact that follows it in the source. -/
def parallelRung (rungId comment : Text) (first second : Text) (tail : Option Instruction)
    (coilName : Text) : RungGraph :=
  let leftId := leftRailIdentifier rungId
  let openId := openIdentifier stableUuid rungId
  let closeId := closeIdentifier stableUuid rungId
  let firstId := contactIdentifier stableUuid (branchContactPath rungId 0)
  let secondId := contactIdentifier stableUuid (branchContactPath rungId 1)
  let stopId := contactIdentifier stableUuid (tailContactPath rungId)
  let coilId := coilIdentifier stableUuid rungId
  let rightId := rightRailIdentifier rungId
  let offset := if tail.isSome then 114 else 0
  let stopNodes := tail.toList.map (fun condition =>
    instructionNode stopId .contact condition.operand 68 24 38
      (if condition.opcode = Opcode.XIO then .negated else .default))
  { id := rungId, comment, defaultBounds := (300, 100), reactFlowViewport := (331, 212)
    nodes := [leftRailNode leftId] ++ stopNodes ++
      [parallelNode openId closeId true (23 + offset),
       instructionNode firstId .contact first (72 + offset) 24,
       instructionNode secondId .contact second (72 + offset) 24 130,
       parallelNode closeId openId false (141 + offset),
       instructionNode coilId .coil coilName (190 + offset) 28,
       rightRailNode rightId (328 + offset)]
    edges := [edge leftId "left-rail" (if tail.isSome then stopId else openId) "input"] ++
      (if tail.isSome then [edge stopId "output" openId "input"] else []) ++
      [edge openId "output-right" firstId "input", edge firstId "output" closeId "input",
       edge openId "output-down" secondId "input", edge secondId "output" closeId "input-down",
       edge closeId "output-right" coilId "input", edge coilId "output" rightId "right-rail"] }

/-- Lower one already-validated serial or parallel Boolean rung; none where the
source fails on a rung that was not validated. -/
def lowerBooleanRung (db : CharacterDatabase) (programName : Text) (index : Nat)
    (text comment : Text) : Option RungGraph := do
  let parsed ← parseSupportedRung db (some text)
  let coil ← parsed.outputs.head?
  let rungId := rungIdentifier stableUuid programName index
  if parsed.branches.isEmpty then
    return serialRung stableUuid rungId comment (parsed.tailConditions.map (·.operand)) coil.operand
  else
    let contacts ← parsed.branches.mapM List.head?
    let first ← contacts[0]?
    let second ← contacts[1]?
    return parallelRung stableUuid rungId comment first.operand second.operand
      parsed.tailConditions.head? coil.operand

end

end TwinForge.OpenPLC
