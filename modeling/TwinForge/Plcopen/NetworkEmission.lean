import TwinForge.Model.Ladder
import TwinForge.Plcopen.LadderEmission

/-! # Encodings of ladder networks

Every supported operation has a direct encoding as a contact or a coil. Block pins are
supported for convertible function block instances only, and only on their own pins;
a network with anything else, or with no output, is not emitted as executable ladder.
-/

namespace TwinForge.Plcopen

open Model

/-! ## Elements -/

inductive Edge where
  | rising | falling
deriving DecidableEq, Repr

inductive ElementKind where
  | contact | coil
deriving DecidableEq, Repr

structure ElementEncoding where
  element : ElementKind
  negated : Bool := false
  edge : Option Edge := none
  storage : Option Storage := none
deriving DecidableEq, Repr

def encoding : LadderOperation → Option ElementEncoding
  | .NORMALLY_OPEN_CONTACT => some { element := .contact }
  | .NORMALLY_CLOSED_CONTACT => some { element := .contact, negated := true }
  | .POSITIVE_TRANSITION_CONTACT => some { element := .contact, edge := some .rising }
  | .NEGATIVE_TRANSITION_CONTACT => some { element := .contact, edge := some .falling }
  | .COIL => some { element := .coil }
  | .SET_COIL => some { element := .coil, storage := some .set }
  | .RESET_COIL => some { element := .coil, storage := some .reset }
  | .NEGATED_COIL => some { element := .coil, negated := true }
  | _ => none

/-- Expression instructions are emitted as standard functions over these types. -/
def expressionTypes : List DataType := [.INT, .DINT, .REAL, .BOOL]

def isOutputOperation (operation : LadderOperation) : Bool :=
  operation ∈ [LadderOperation.COIL, .SET_COIL, .RESET_COIL, .NEGATED_COIL, .FUNCTION_BLOCK_INPUT,
    .ASSIGNMENT]

def bitStringType : DataType → Option Text
  | .INT => some "WORD"
  | .DINT => some "DWORD"
  | _ => none

def networkFunction : Operator → Option Text
  | .add => some "ADD"
  | .sub => some "SUB"
  | .mul => some "MUL"
  | .div => some "DIV"
  | .eq => some "EQ"
  | .ne => some "NE"
  | .lt => some "LT"
  | .gt => some "GT"
  | .le => some "LE"
  | .ge => some "GE"
  | .assign => none

/-! ## Function block instances -/

/-- How one convertible function block instance appears in ladder. -/
structure BlockInterface where
  typeName : Text
  inputs : List Text
  outputs : List Text
  boolOutputs : List Text
  constants : List (Text × Text) := []
  inOuts : List (Text × Text) := []
  sourcePins : List (Text × Text) := []
deriving DecidableEq, Repr

namespace BlockInterface

/-- The block parameter for a pin named as the source names it. -/
def parameter (interface : BlockInterface) (pin : Text) : Text :=
  (interface.sourcePins.reverse.lookup pin).getD pin

def wiredInputs (interface : BlockInterface) : List Text :=
  interface.inputs.filter fun pin => decide (pin ∉ interface.constants.map Prod.fst)

end BlockInterface

/-- The text in front of the last point and the text behind it. -/
def splitLastPoint (text : Text) : Option (Text × Text) :=
  match text.reverse.dropWhile (· != '.') with
  | [] => none
  | _ :: root => some (root.reverse, (text.reverse.takeWhile (· != '.')).reverse)

/-- `str.rpartition(".")`, without the separator. -/
def partitionPin (operand : Text) : Text × Text := (splitLastPoint operand).getD ([], operand)

section

variable (db : CharacterDatabase)

/-- The root and the member of a member read whose root is not an IEC identifier. -/
def splitMember (operand : Text) : Option (Text × Text) :=
  (splitLastPoint operand).filter fun (root, member) =>
    !root.isEmpty && root.all (· != '\n') && isIecIdentifier db member && !isIecIdentifier db root

/-! ## Supported networks -/

/-- Why a network cannot be emitted as executable ladder. -/
inductive UnsupportedReason where
  | noInstructions
  | noExpression (mnemonic : Text)
  | untypedParts (mnemonic : Text) (parts : List Expression)
  | noOperand (mnemonic : Text)
  | notConvertible (mnemonic : Text) («instance» : Text)
  | noPin (mnemonic pin typeName : Text)
  | noEncoding (mnemonic : Text) (operation : LadderOperation)
  | notAnInstance (operand root : Text)
  | notBoolean (operand typeName : Text)
  | noOutput
deriving DecidableEq, Repr

def reprPart (part : Expression) : Text :=
  if part.text ≠ [] then db.reprText part.text
  else match part.operatorSpelling? with
    | some operator => db.reprText operator
    | none => "None"

def UnsupportedReason.message : UnsupportedReason → Text
  | noInstructions => "network has no instructions"
  | noExpression mnemonic => mnemonic ++ (" has no expression" : Text)
  | untypedParts mnemonic parts => mnemonic ++ (" expression has untyped parts [" : Text) ++
      joinText ", " (parts.map (reprPart db)) ++ [']']
  | noOperand mnemonic => mnemonic ++ (" has no operand" : Text)
  | notConvertible mnemonic name => mnemonic ++ ' ' :: name ++
      (" is not a convertible function block instance" : Text)
  | noPin mnemonic pin typeName => mnemonic ++ (" pin " : Text) ++ pin ++ (" has no " : Text) ++
      typeName ++ (" equivalent" : Text)
  | noEncoding mnemonic operation => mnemonic ++ (" (" : Text) ++ operation.value ++
      (") has no PLCopen LD encoding" : Text)
  | notAnInstance operand root => operand ++ (" reads a member of " : Text) ++ root ++
      (", which is not a convertible function block instance" : Text)
  | notBoolean operand typeName => operand ++ (" is not a BOOL output of " : Text) ++ typeName
  | noOutput => "network has no output"

def untypedParts (expression : Expression) : List Expression :=
  expression.iterNodes.filter fun node => decide (node.dataType ∉ expressionTypes)

def usablePins (interface : BlockInterface) (operation : LadderOperation) : List Text :=
  if operation = .FUNCTION_BLOCK_INPUT then interface.wiredInputs else interface.outputs

def blockPinReason (blocks : List (Text × BlockInterface)) (instruction : LadderInstruction)
    (operand : Text) : Option UnsupportedReason :=
  let (name, pin) := partitionPin operand
  match blocks.lookup name with
  | none => some (.notConvertible instruction.sourceMnemonic name)
  | some interface =>
    if interface.parameter pin ∈ usablePins interface instruction.operation then none
    else some (.noPin instruction.sourceMnemonic pin interface.typeName)

def elementReason (blocks : List (Text × BlockInterface)) (instruction : LadderInstruction)
    (operand : Text) : Option UnsupportedReason :=
  if encoding instruction.operation = none then
    some (.noEncoding instruction.sourceMnemonic instruction.operation)
  else
    match splitMember db operand with
    | none => none
    | some (root, member) =>
      match blocks.lookup root with
      | none => some (.notAnInstance operand root)
      | some interface =>
        -- Contacts and coils are BOOL; only a block's BOOL outputs can be read.
        if interface.parameter member ∈ interface.boolOutputs then none
        else some (.notBoolean operand interface.typeName)

def instructionReason (blocks : List (Text × BlockInterface)) (instruction : LadderInstruction) :
    Option UnsupportedReason :=
  if instruction.operation.isExpression then
    match instruction.expression with
    | none => some (.noExpression instruction.sourceMnemonic)
    | some expression =>
      let untyped := untypedParts expression
      if untyped = [] then none else some (.untypedParts instruction.sourceMnemonic untyped)
  else
    match instruction.operand.getD [] with
    | [] => some (.noOperand instruction.sourceMnemonic)
    | operand =>
      if instruction.operation ∈ [LadderOperation.FUNCTION_BLOCK_INPUT, .BLOCK_OUTPUT_REFERENCE] then
        blockPinReason blocks instruction operand
      else elementReason db blocks instruction operand

/-- Why this network cannot be emitted as executable ladder, if it cannot. -/
def unsupportedReason (blocks : List (Text × BlockInterface)) (series : LadderSeries) :
    Option UnsupportedReason :=
  let found := instructions series
  if found = [] then some .noInstructions
  else
    match found.findSome? (instructionReason db blocks) with
    | some reason => some reason
    | none =>
      if found.any fun instruction => isOutputOperation instruction.operation then none
      else some .noOutput

end

/-! ## Emission of ladder networks

A network becomes a connection graph: each element lists the outputs that feed it, and
several of them mean a wired OR. A function block instance is drawn once per rung, on its
first use; its input pins collect connections as the rung goes on.
-/

/-! ### The graph -/

inductive NetworkElement where
  | leftPowerRail (localId : Nat)
  | rightPowerRail (localId : Nat)
  | comment (localId : Nat) (text : Text)
  | inVariable (localId : Nat) (expression : Text)
  | contact (localId : Nat) (negated : Bool) (edge : Option Edge) (sources : List Connection)
      (symbol : Text)
  | coil (localId : Nat) (negated : Bool) (storage : Option Storage) (sources : List Connection)
      (symbol : Text)
  | functionCall (localId : Nat) (typeName : Text) (enable inputs : List Connection)
      (destination : Text)
  | functionBlock (localId : Nat) («instance» instanceName typeName : Text)
      (inputs inOuts : List (Text × List Connection)) (outputs : List Text)
deriving DecidableEq, Repr

def NetworkElement.localId : NetworkElement → Nat
  | leftPowerRail localId => localId
  | rightPowerRail localId => localId
  | comment localId _ => localId
  | inVariable localId _ => localId
  | contact localId _ _ _ _ => localId
  | coil localId _ _ _ _ => localId
  | functionCall localId _ _ _ _ => localId
  | functionBlock localId _ _ _ _ _ _ => localId

/-- A connection into an input pin of a function block instance. -/
structure PinConnection where
  «instance» : Text
  parameter : Text
  source : Connection
deriving DecidableEq, Repr

/-- What has been drawn of a rung: its elements, the connections into block pins, and the
block of each instance. -/
structure NetworkSketch where
  nextLocalId : Nat
  elements : List NetworkElement := []
  pinConnections : List PinConnection := []
  blocks : List (Text × Nat) := []
deriving DecidableEq, Repr

/-- The connections written to one pin. -/
def NetworkSketch.wiresOf (sketch : NetworkSketch) (name parameter : Text) : List Connection :=
  (sketch.pinConnections.filter fun pin =>
    pin.instance == name && pin.parameter == parameter).map (·.source)

/-- An element with the connections written to its pins. -/
def NetworkSketch.wired (sketch : NetworkSketch) : NetworkElement → NetworkElement
  | .functionBlock localId name instanceName typeName inputs inOuts outputs =>
    .functionBlock localId name instanceName typeName
      (inputs.map fun (parameter, constant) =>
        (parameter, constant ++ sketch.wiresOf name parameter)) inOuts outputs
  | element => element

def NetworkSketch.graph (sketch : NetworkSketch) : List NetworkElement :=
  sketch.elements.map sketch.wired

/-! ### Sketching -/

inductive NetworkFault where
  | keyError
  | assertionError
deriving DecidableEq, Repr

abbrev Sketching := StateT NetworkSketch (Except NetworkFault)

namespace Sketching

def draw (element : Nat → NetworkElement) : Sketching Nat := fun sketch =>
  .ok (sketch.nextLocalId, { sketch with
    nextLocalId := sketch.nextLocalId + 1
    elements := sketch.elements ++ [element sketch.nextLocalId] })

def connect (pins : List PinConnection) : Sketching Unit := fun sketch =>
  .ok ((), { sketch with pinConnections := sketch.pinConnections ++ pins })

def recordBlock (name : Text) (blockId : Nat) : Sketching Unit := fun sketch =>
  .ok ((), { sketch with blocks := (name, blockId) :: sketch.blocks })

def raise {A : Type} (fault : NetworkFault) : Sketching A := fun _ => .error fault

def entry {A : Type} (found : Option A) : Sketching A := fun sketch =>
  match found with
  | some value => .ok (value, sketch)
  | none => .error .keyError

end Sketching

open Sketching

/-! ### Symbols of a network -/

/-- The prepared symbols that networks are emitted with. -/
structure NetworkPlan where
  operandNames : List (Text × Text)
  functionBlockInstances : List (Text × BlockInterface)
  tagNames : List (Text × Text)
  expressionTemps : List (Nat × Text)
  expressionBitTemps : List (Nat × Text × Text)

namespace NetworkPlan

def portableOperand (plan : NetworkPlan) (operand : Text) : Text :=
  (plan.operandNames.lookup operand).getD operand

def instanceName (plan : NetworkPlan) (name : Text) : Text := (plan.tagNames.lookup name).getD name

/-- The block parameter of a pin, by the interface of its instance. -/
def parameter (plan : NetworkPlan) (name pin : Text) : Text :=
  ((plan.functionBlockInstances.lookup name).map fun interface => interface.parameter pin).getD pin

end NetworkPlan

/-! ### Contacts, coils and blocks -/

section

variable (plan : NetworkPlan)

def drawContact (negated : Bool) (edge : Option Edge) (operand : Text) (sources : List Connection) :
    Sketching (List Connection) := do
  let localId ← draw fun localId =>
    .contact localId negated edge sources (plan.portableOperand operand)
  return [⟨localId, none⟩]

def drawCoil (negated : Bool) (storage : Option Storage) (operand : Text)
    (sources : List Connection) : Sketching (List Connection) := do
  let localId ← draw fun localId =>
    .coil localId negated storage sources (plan.portableOperand operand)
  return [⟨localId, none⟩]

def drawInVariables : List Text → Sketching (List Nat)
  | [] => return []
  | expression :: expressions => do
    let localId ← draw fun localId => .inVariable localId expression
    let localIds ← drawInVariables expressions
    return localId :: localIds

/-- The constant of each pin that has one; the last one of a pin is connected. -/
def constantInputs (interface : BlockInterface) (constantIds : List Nat) :
    List (Text × List Connection) :=
  let constants := ((interface.constants.map Prod.fst).zip constantIds).reverse
  interface.inputs.map fun parameter =>
    (parameter, (constants.lookup parameter).toList.map fun constantId => ⟨constantId, none⟩)

/-- The variables passed to the in-out parameters are drawn behind the block. -/
def boundInOuts (interface : BlockInterface) (blockId : Nat) : List (Text × List Connection) :=
  interface.inOuts.zipIdx.map fun ((parameter, _), index) =>
    (parameter, [⟨blockId + 1 + index, none⟩])

/-- The rung's block for a function block instance, drawn on first use. -/
def networkBlock (name : Text) : Sketching Nat := fun sketch =>
  match sketch.blocks.lookup name with
  | some blockId => .ok (blockId, sketch)
  | none =>
    (do
      let interface ← entry (plan.functionBlockInstances.lookup name)
      let constantIds ← drawInVariables (interface.constants.map Prod.snd)
      let blockId ← draw fun localId =>
        .functionBlock localId name (plan.instanceName name) interface.typeName
          (constantInputs interface constantIds) (boundInOuts interface localId) interface.outputs
      let _ ← drawInVariables (interface.inOuts.map fun bound => plan.portableOperand bound.2)
      recordBlock name blockId
      return blockId : Sketching Nat) sketch

/-! ### Expressions -/

def functionCall (typeName : Text) (inputs : List Text) (destination : Text)
    (chain : List Connection) : Sketching Connection := do
  let inputIds ← drawInVariables inputs
  let blockId ← draw fun localId =>
    .functionCall localId typeName chain (inputIds.map fun inputId => ⟨inputId, none⟩) destination
  return ⟨blockId, some "ENO"⟩

def expressionLeaf : Expression → Text
  | .literal _ text => text
  | node => plan.portableOperand node.text

/-- A shift: convert to the bit string, shift, convert back into the destination. -/
def shiftCalls (identity : Nat) (dataType : DataType) (operator : ShiftFunction)
    (value count destination : Text) (chain : List Connection) : Sketching Connection := do
  let bits ← entry (bitStringType dataType)
  let (converted, shifted) ← entry (plan.expressionBitTemps.lookup identity)
  let enabled ← functionCall (dataType.spelling ++ ("_TO_" : Text) ++ bits) [value] converted chain
  let enabled ← functionCall operator.spelling [converted, count] shifted [enabled]
  functionCall (bits ++ ("_TO_" : Text) ++ dataType.spelling) [shifted] destination [enabled]

/-- The text an input reads for a node, its functions emitted first if needed. -/
def expressionValue : Expression → List Connection → Sketching (Text × List Connection)
  | .call identity dataType operator left right, chain => do
    let result ← entry (plan.expressionTemps.lookup identity)
    let (value, chain) ← expressionValue left chain
    let enabled ← shiftCalls plan identity dataType operator value right.text result chain
    return (result, [enabled])
  | .binary identity _ operator left right, chain => do
    let (first, chain) ← expressionValue left chain
    let (second, chain) ← expressionValue right chain
    let result ← entry (plan.expressionTemps.lookup identity)
    let function ← entry (networkFunction operator)
    let enabled ← functionCall function [first, second] result chain
    return (result, [enabled])
  | node, chain => return (expressionLeaf plan node, chain)

def assignValue (target : Text) (chain : List Connection) :
    Expression → Sketching (List Connection)
  | .call identity dataType operator left right => do
    let (value, chain) ← expressionValue plan left chain
    let enabled ← shiftCalls plan identity dataType operator value right.text target chain
    return [enabled]
  | .binary _ _ operator left right => do
    let (first, chain) ← expressionValue plan left chain
    let (second, chain) ← expressionValue plan right chain
    let function ← entry (networkFunction operator)
    let enabled ← functionCall function [first, second] target chain
    return [enabled]
  | node => do
    let enabled ← functionCall "MOVE" [expressionLeaf plan node] target chain
    return [enabled]

/-- A comparison writes its result, and goes on through a contact on it, wired from its ENO. -/
def compareValues (identity : Nat) (operator : Operator) (left right : Expression)
    (chain : List Connection) : Sketching (List Connection) := do
  let (first, chain) ← expressionValue plan left chain
  let (second, chain) ← expressionValue plan right chain
  let result ← entry (plan.expressionTemps.lookup identity)
  let function ← entry (networkFunction operator)
  let enabled ← functionCall function [first, second] result chain
  drawContact plan false none result [enabled]

/-- A comparison or an assignment as functions chained by EN and ENO. -/
def emitExpression (expression : Expression) (chain : List Connection) :
    Sketching (List Connection) :=
  match expression with
  | .binary identity _ operator left right =>
    if operator = .assign then
      assignValue plan (plan.portableOperand left.text) chain right
    else compareValues plan identity operator left right chain
  | .call .. => raise .keyError
  | _ => raise .assertionError

/-! ### Series -/

def pinParameter (operand : Text) : Sketching (Text × BlockInterface × Text) := do
  let (name, pin) := partitionPin operand
  let interface ← entry (plan.functionBlockInstances.lookup name)
  return (name, interface, interface.parameter pin)

def emitInstruction (instruction : LadderInstruction) (current : List Connection) :
    Sketching (List Connection) :=
  match instruction.expression with
  | some expression => emitExpression plan expression current
  | none =>
    let operand := instruction.operand.getD []
    if instruction.operation = .FUNCTION_BLOCK_INPUT then do
      let _ ← networkBlock plan (partitionPin operand).1
      let (name, interface, parameter) ← pinParameter plan operand
      if parameter ∈ interface.inputs ∨ current = [] then
        connect (current.map fun source => ⟨name, parameter, source⟩)
        return []
      else raise .keyError
    else if instruction.operation = .BLOCK_OUTPUT_REFERENCE then do
      let blockId ← networkBlock plan (partitionPin operand).1
      let (_, _, parameter) ← pinParameter plan operand
      return [⟨blockId, some parameter⟩]
    else
      match encoding instruction.operation with
      | none => raise .keyError
      | some encoding =>
        match encoding.element with
        | .contact => drawContact plan encoding.negated encoding.edge operand current
        | .coil => drawCoil plan encoding.negated encoding.storage operand current

def joinSources (joined sources : List Connection) : List Connection :=
  sources.foldl (fun joined source => if source ∈ joined then joined else joined ++ [source]) joined

mutual

/-- Emit one series left to right; the result is what its end is wired from. -/
def emitSeries : LadderSeries → List Connection → Sketching (List Connection)
  | [], current => return current
  | node :: rest, current => do
    let current ← emitNode node current
    emitSeries rest current

def emitNode : LadderNode → List Connection → Sketching (List Connection)
  | .instruction instruction, current => emitInstruction plan instruction current
  | .parallel branches, current => emitParallel branches current []

/-- Every branch starts from the same sources; their ends are joined. -/
def emitParallel : List LadderSeries → List Connection → List Connection →
    Sketching (List Connection)
  | [], _, joined => return joined
  | branch :: rest, current, joined => do
    let sources ← emitSeries branch current
    emitParallel rest current (joinSources joined sources)

end

def drawComment (comment : Text) : Sketching Unit :=
  if comment.isEmpty then return ()
  else do
    let _ ← draw fun localId => .comment localId comment
    return ()

def networkRung (comment : Text) (network : LadderSeries) : Sketching Unit := do
  let railId ← draw .leftPowerRail
  drawComment comment
  let _ ← emitSeries plan network [⟨railId, none⟩]
  let _ ← draw .rightPowerRail
  return ()

def sketchNetwork (comment : Text) (network : LadderSeries) (nextLocalId : Nat) :
    Except NetworkFault NetworkSketch :=
  (networkRung plan comment network { nextLocalId }).map Prod.snd

end

end TwinForge.Plcopen
