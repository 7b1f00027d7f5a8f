import Mathlib.Algebra.Group.Int.Defs
import Mathlib.Algebra.Group.Nat.Defs
import TwinForge.OpenPLC.LadderRefinement

/-! # Networks around one function block

A timer or counter group lowers to one rung: a contact that feeds a pin of a block,
variables on its other pins and a coil on its output. Connectors and the metadata of the
block's interface are left out.
-/

namespace TwinForge.OpenPLC

open Model Plcopen List

/-- What a variable node names: a variable, or a literal of the type of its pin. -/
inductive PinOperand where
  | variable_ (name : Text)
  | bool (value : Bool)
  | dint (value : Int)
  | time (milliseconds : Int)
  deriving DecidableEq, Repr

structure PinNode where
  id : Text
  blockId : Text
  handle : Text
  operand : PinOperand
  dataType : Text
  isInput : Bool
  x : Nat
  y : Nat
  deriving DecidableEq, Repr

inductive BlockNode where
  | ladder (node : Node)
  | pin (node : PinNode)
  | block (id typeName instanceName : Text) (inputs outputs : List Text)
  deriving DecidableEq, Repr

def BlockNode.id : BlockNode → Text
  | .ladder node => node.id
  | .pin node => node.id
  | .block id _ _ _ _ => id

def BlockNode.typeName? : BlockNode → Option Text
  | .block _ typeName _ _ _ => some typeName
  | _ => none

structure BlockRung where
  id : Text
  comment : Text
  defaultBounds : Nat × Nat
  reactFlowViewport : Nat × Nat
  nodes : List BlockNode
  edges : List Edge
  deriving DecidableEq, Repr

/-- A `DINT` holds an integer modulo 2^32. -/
def dintValue (value : Int) : Int := value.bmod (2 ^ 32)

theorem dintValue_range (value : Int) : -(2 ^ 31) ≤ dintValue value ∧ dintValue value < 2 ^ 31 := by
  unfold dintValue
  have hlow := @Int.le_bmod value (2 ^ 32) (by decide)
  have hhigh := @Int.bmod_lt value (2 ^ 32) (by decide)
  constructor <;> omega

theorem dintValue_eq {value : Int} (h : -(2 ^ 31) ≤ value ∧ value < 2 ^ 31) :
    dintValue value = value := by
  apply Int.bmod_eq_of_le <;> omega

namespace PinOperand

def boolValue (valuation : Text → Bool) : PinOperand → Bool
  | .variable_ name => valuation name
  | .bool value => value
  | _ => false

/-- The number a pin is given. The lowered groups put literals on their numeric pins. -/
def number : PinOperand → Int
  | .dint value => dintValue value
  | .time milliseconds => milliseconds
  | _ => 0

end PinOperand

/-! ## Reading a network -/

namespace BlockRung

variable (rung : BlockRung)

def wireInto (target handle : Text) : Option (BlockNode × Text) :=
  match rung.edges.find? fun wire => wire.target = target ∧ wire.targetHandle = handle with
  | none => none
  | some wire =>
    (rung.nodes.find? fun node => node.id = wire.source).map fun node =>
      (node, wire.sourceHandle)

def railFed (target : Text) : Bool :=
  match rung.wireInto target "input" with
  | some (.ladder node, _) => decide (node.type = .powerRail true)
  | _ => false

/-- The value of a Boolean pin: a contact's power, or a variable node's operand. -/
def boolPin (valuation : Text → Bool) (block handle : Text) : Bool :=
  match rung.wireInto block handle with
  | some (.ladder node, _) => rung.railFed node.id && node.conducts valuation
  | some (.pin node, _) => node.operand.boolValue valuation
  | _ => false

def numberPin (block handle : Text) : Int :=
  match rung.wireInto block handle with
  | some (.pin node, _) => node.operand.number
  | _ => 0

def blockId? : Option Text := rung.nodes.findSome? fun node =>
  match node with
  | .block id _ _ _ _ => some id
  | _ => none

def blockType? : Option Text := rung.nodes.findSome? BlockNode.typeName?

def coil? : Option Node := rung.nodes.findSome? fun node =>
  match node with
  | .ladder node => if node.type = .coil then some node else none
  | _ => none

def coilWritten (outputs : Text → Bool) : Option (Text × Bool) :=
  match rung.coil? with
  | none => none
  | some coil =>
    match rung.wireInto coil.id "input" with
    | some (.block _ _ _ _ _, handle) => some (coil.variableName, outputs handle)
    | _ => none

/-- Identifiers tell nodes apart, and no handle has two wires. -/
structure WellWired : Prop where
  ids : (rung.nodes.map BlockNode.id).Nodup
  targets : (rung.edges.map fun wire => (wire.target, wire.targetHandle)).Nodup

variable {rung}

theorem find_of_nodup {A Key : Type} [DecidableEq Key] {key : A → Key} {items : List A} {item : A}
    (hnodup : (items.map key).Nodup) (h : item ∈ items) :
    items.find? (fun other => key other = key item) = some item := by
  induction items with
  | nil => cases h
  | cons first items ih =>
    rw [map_cons, nodup_cons] at hnodup
    cases h with
    | head => simp
    | tail _ hmem =>
      have hapart : key first ≠ key item := by
        intro hkey
        exact hnodup.1 (hkey ▸ mem_map_of_mem hmem)
      rw [List.find?_cons_of_neg (by simpa using hapart)]
      exact ih hnodup.2 hmem

theorem WellWired.wireInto_eq (h : rung.WellWired) {node : BlockNode} {sourceHandle target
    targetHandle : Text} (hnode : node ∈ rung.nodes)
    (hwire : edge node.id sourceHandle target targetHandle ∈ rung.edges) :
    rung.wireInto target targetHandle = some (node, sourceHandle) := by
  have hfound : rung.edges.find? (fun wire => decide (wire.target = target ∧
      wire.targetHandle = targetHandle)) = some (edge node.id sourceHandle target targetHandle) := by
    have hkey := find_of_nodup h.targets hwire
    simpa [edge] using hkey
  have hsource : rung.nodes.find? (fun other => decide (other.id = node.id)) = some node :=
    find_of_nodup h.ids hnode
  unfold wireInto
  rw [hfound]
  simp [edge, hsource]

end BlockRung

/-! ## The nodes and wires of a group -/

section

variable (contact : Node) (primary : Text) (inputs outputs : List PinNode) (block : BlockNode)
  (leftId : Text) (coil : Node) (rightId : Text)

/-- The rail, the contact, the inputs, the block, the outputs, the coil and the rail. -/
def groupNodes (rightX : Nat) : List BlockNode :=
  [.ladder (leftRailNode leftId), .ladder contact] ++ inputs.map .pin ++ [block] ++
    outputs.map .pin ++ [.ladder coil, .ladder (rightRailNode rightId rightX)]

def inputEdges : List Edge :=
  [edge leftId "left-rail" contact.id "input", edge contact.id "output" block.id primary] ++
    inputs.map fun node => edge node.id "output" block.id node.handle

def outputEdges : List Edge :=
  outputs.map fun node => edge block.id node.handle node.id "input"

def coilEdges : List Edge :=
  [edge block.id "Q" coil.id "input", edge coil.id "output" rightId "right-rail"]

variable {contact primary inputs outputs block leftId coil rightId}

theorem group_wellWired {rung : BlockRung} {rightX : Nat}
    (hnodes : rung.nodes = groupNodes contact inputs outputs block leftId coil rightId rightX)
    (hedges : rung.edges.Perm (inputEdges contact primary inputs block leftId ++
      outputEdges outputs block ++ coilEdges block coil rightId))
    (hids : (leftId :: contact.id :: inputs.map PinNode.id ++ block.id ::
      outputs.map PinNode.id ++ [coil.id, rightId]).Nodup)
    (hhandles : (primary :: inputs.map PinNode.handle).Nodup) : rung.WellWired := by
  constructor
  · rw [hnodes]
    simpa [groupNodes, BlockNode.id, Function.comp_def, leftRailNode, rightRailNode] using hids
  · rw [(hedges.map _).nodup_iff]
    have hpins : ((primary :: inputs.map PinNode.handle).map fun handle =>
        (block.id, handle)).Nodup :=
      hhandles.map fun first second h => (Prod.mk.inj h).2
    have houts : (outputs.map fun node => (node.id, Text.of "input")).Nodup := by
      have hmapped : ((outputs.map PinNode.id).map fun id => (id, Text.of "input")).Nodup := by
        apply List.Nodup.map fun first second h => (Prod.mk.inj h).1
        simp only [nodup_append, nodup_cons] at hids
        tauto
      simpa [Function.comp_def] using hmapped
    simp only [inputEdges, outputEdges, coilEdges, edge, map_append, map_cons,
      map_map, map_nil, Function.comp_def] at hpins ⊢
    simp [nodup_append] at hids hpins ⊢
    grind

structure GroupReads (rung : BlockRung) (contact : Node) (primary : Text) (inputs : List PinNode)
    (block : BlockNode) (coil : Node) : Prop where
  blockFound : rung.blockId? = some block.id
  typeFound : rung.blockType? = block.typeName?
  coilFound : rung.coil? = some coil
  coilWire : rung.wireInto coil.id "input" = some (block, ("Q" : Text))
  contactRead : ∀ valuation, rung.boolPin valuation block.id primary = valuation contact.variableName
  boolean : ∀ node ∈ inputs, ∀ valuation,
    rung.boolPin valuation block.id node.handle = node.operand.boolValue valuation
  number : ∀ node ∈ inputs, rung.numberPin block.id node.handle = node.operand.number

theorem findSome?_pins {A : Type} {f : BlockNode → Option A} (hpin : ∀ node, f (.pin node) = none)
    (nodes : List PinNode) : (nodes.map BlockNode.pin).findSome? f = none := by
  rw [List.findSome?_eq_none_iff]
  intro node hnode
  have ⟨pin, _, hpinned⟩ := mem_map.mp hnode
  rw [← hpinned]
  exact hpin pin

theorem group_reads {rung : BlockRung} {rightX : Nat} {blockId typeName instanceName : Text}
    {blockInputs blockOutputs : List Text}
    (hblock : block = .block blockId typeName instanceName blockInputs blockOutputs)
    (hnodes : rung.nodes = groupNodes contact inputs outputs block leftId coil rightId rightX)
    (hedges : rung.edges.Perm (inputEdges contact primary inputs block leftId ++
      outputEdges outputs block ++ coilEdges block coil rightId))
    (hcontact : contact.type = .contact) (hvariant : contact.variant = .default)
    (hcoil : coil.type = .coil)
    (hids : (leftId :: contact.id :: inputs.map PinNode.id ++ block.id ::
      outputs.map PinNode.id ++ [coil.id, rightId]).Nodup)
    (hhandles : (primary :: inputs.map PinNode.handle).Nodup) :
    GroupReads rung contact primary inputs block coil := by
  have hwired := group_wellWired hnodes hedges hids hhandles
  have hwire : ∀ wire, wire ∈ inputEdges contact primary inputs block leftId ++
      outputEdges outputs block ++ coilEdges block coil rightId → wire ∈ rung.edges :=
    fun wire hwire => hedges.mem_iff.mpr hwire
  have hpin : ∀ node ∈ inputs, rung.wireInto block.id node.handle =
      some (.pin node, ("output" : Text)) := by
    intro node hnode
    apply hwired.wireInto_eq
    · simp [hnodes, groupNodes, hnode]
    · apply hwire
      simp only [inputEdges, mem_append, mem_map]
      exact .inl (.inl (.inr ⟨node, hnode, rfl⟩))
  have hprimary : rung.wireInto block.id primary = some (.ladder contact, ("output" : Text)) := by
    apply hwired.wireInto_eq
    · simp [hnodes, groupNodes]
    · apply hwire
      simp [inputEdges, BlockNode.id]
  have hrail : rung.wireInto contact.id "input" =
      some (.ladder (leftRailNode leftId), ("left-rail" : Text)) := by
    apply hwired.wireInto_eq
    · simp [hnodes, groupNodes]
    · apply hwire
      simp [inputEdges, BlockNode.id, leftRailNode]
  constructor
  case blockFound => simp [BlockRung.blockId?, hnodes, groupNodes, findSome?_pins, hblock, BlockNode.id]
  case typeFound =>
    have hpins : (inputs.map BlockNode.pin).findSome? BlockNode.typeName? = none :=
      findSome?_pins (fun _ => rfl) inputs
    rw [BlockRung.blockType?, hnodes, hblock, groupNodes]
    simp only [append_assoc, cons_append, nil_append, List.findSome?_cons,
      List.findSome?_append, hpins]
    rfl
  case coilFound =>
    simp [BlockRung.coil?, hnodes, groupNodes, findSome?_pins, hblock, hcontact, hcoil,
      leftRailNode]
  case coilWire =>
    apply hwired.wireInto_eq
    · simp [hnodes, groupNodes]
    · apply hwire
      simp [coilEdges]
  case contactRead =>
    intro valuation
    simp [BlockRung.boolPin, hprimary, BlockRung.railFed, hrail, leftRailNode, Node.conducts,
      hcontact, hvariant]
  case boolean =>
    intro node hnode valuation
    simp [BlockRung.boolPin, hpin node hnode]
  case number =>
    intro node hnode
    simp [BlockRung.numberPin, hpin node hnode]

/-- The coil of a group writes the `Q` output of its block. -/
theorem GroupReads.coilWritten {rung : BlockRung} {blockId typeName instanceName : Text}
    {blockInputs blockOutputs : List Text} (h : GroupReads rung contact primary inputs block coil)
    (hblock : block = .block blockId typeName instanceName blockInputs blockOutputs)
    (values : Text → Bool) : rung.coilWritten values = some (coil.variableName, values "Q") := by
  simp [BlockRung.coilWritten, h.coilFound, h.coilWire, hblock]

end

/-! ## Identifiers -/

section

variable (stableUuid : Text → Text)

def blockIdentifier (path : Text) : Text := ("BLOCK_" : Text) ++ stableUuid path

def variableIdentifier (path : Text) : Text := ("VARIABLE_" : Text) ++ stableUuid path

def pinNode (path blockId handle : Text) (operand : PinOperand) (dataType : Text)
    (isInput : Bool) (x y : Nat) : PinNode :=
  ⟨variableIdentifier stableUuid path, blockId, handle, operand, dataType, isInput, x, y⟩

variable {stableUuid}

theorem variable_apart (rungId contactPath blockPath path : Text) :
    variableIdentifier stableUuid path ∉
      [leftRailIdentifier rungId, contactIdentifier stableUuid contactPath,
        blockIdentifier stableUuid blockPath, coilIdentifier stableUuid rungId,
        rightRailIdentifier rungId] := by
  have hleft : variableIdentifier stableUuid path ≠ leftRailIdentifier rungId :=
    ne_of_take 1 (by decide) (by decide) (by decide)
  have hcontact : variableIdentifier stableUuid path ≠ contactIdentifier stableUuid contactPath :=
    ne_of_take 1 (by decide) (by decide) (by decide)
  have hblock : variableIdentifier stableUuid path ≠ blockIdentifier stableUuid blockPath :=
    ne_of_take 1 (by decide) (by decide) (by decide)
  have hcoil : variableIdentifier stableUuid path ≠ coilIdentifier stableUuid rungId :=
    ne_of_take 1 (by decide) (by decide) (by decide)
  have hright : variableIdentifier stableUuid path ≠ rightRailIdentifier rungId :=
    ne_of_take 1 (by decide) (by decide) (by decide)
  simp [hleft, hcontact, hblock, hcoil, hright]

theorem skeleton_nodup (stableUuid : Text → Text) (rungId contactPath blockPath : Text) :
    [leftRailIdentifier rungId, contactIdentifier stableUuid contactPath,
      blockIdentifier stableUuid blockPath, coilIdentifier stableUuid rungId,
      rightRailIdentifier rungId].Nodup := by
  have h₁ : leftRailIdentifier rungId ≠ contactIdentifier stableUuid contactPath :=
    ne_of_take 1 (by decide) (by decide) (by decide)
  have h₂ : leftRailIdentifier rungId ≠ blockIdentifier stableUuid blockPath :=
    ne_of_take 1 (by decide) (by decide) (by decide)
  have h₃ : leftRailIdentifier rungId ≠ coilIdentifier stableUuid rungId :=
    ne_of_take 1 (by decide) (by decide) (by decide)
  have h₄ : leftRailIdentifier rungId ≠ rightRailIdentifier rungId :=
    ne_of_take 1 (by decide) (by decide) (by decide)
  have h₅ : contactIdentifier stableUuid contactPath ≠ blockIdentifier stableUuid blockPath :=
    ne_of_take 1 (by decide) (by decide) (by decide)
  have h₆ : contactIdentifier stableUuid contactPath ≠ coilIdentifier stableUuid rungId :=
    ne_of_take 3 (by decide) (by decide) (by decide)
  have h₇ : contactIdentifier stableUuid contactPath ≠ rightRailIdentifier rungId :=
    ne_of_take 1 (by decide) (by decide) (by decide)
  have h₈ : blockIdentifier stableUuid blockPath ≠ coilIdentifier stableUuid rungId :=
    ne_of_take 1 (by decide) (by decide) (by decide)
  have h₉ : blockIdentifier stableUuid blockPath ≠ rightRailIdentifier rungId :=
    ne_of_take 1 (by decide) (by decide) (by decide)
  have h₁₀ : coilIdentifier stableUuid rungId ≠ rightRailIdentifier rungId :=
    ne_of_take 1 (by decide) (by decide) (by decide)
  simp [h₁, h₂, h₃, h₄, h₅, h₆, h₇, h₈, h₉, h₁₀]

theorem groupIds_nodup {rungId contactPath blockPath : Text} {inputPaths outputPaths paths : List Text}
    (hfree : CollisionFree stableUuid paths) (hpaths : paths.Nodup)
    (hsublist : (inputPaths ++ outputPaths).Sublist paths) :
    (leftRailIdentifier rungId :: contactIdentifier stableUuid contactPath ::
      inputPaths.map (variableIdentifier stableUuid) ++ blockIdentifier stableUuid blockPath ::
      outputPaths.map (variableIdentifier stableUuid) ++
        [coilIdentifier stableUuid rungId, rightRailIdentifier rungId]).Nodup := by
  have hvariables : ((inputPaths ++ outputPaths).map (variableIdentifier stableUuid)).Nodup := by
    apply (hpaths.sublist hsublist).map_on
    intro first hfirst second hsecond hsame
    apply hfree first (hsublist.subset hfirst) second (hsublist.subset hsecond)
    exact append_cancel_left hsame
  have hskeleton := skeleton_nodup stableUuid rungId contactPath blockPath
  have hapart := @variable_apart stableUuid rungId contactPath blockPath
  simp [nodup_append] at hvariables hskeleton hapart ⊢
  grind

end

end TwinForge.OpenPLC
