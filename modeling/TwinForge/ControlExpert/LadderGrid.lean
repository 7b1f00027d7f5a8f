import TwinForge.Foundation.Dictionary
import TwinForge.Model.Ladder

/-! # The grid of a ladder network

Every `typeLine` of a network is a grid row, and a cell stands at the width of what is left
of it. One reader lays out every cell, the other takes the pure series rows for rungs.
-/

namespace TwinForge.ControlExpert

open Model

/-! ## Captured sections -/

inductive LadderTag where
  | networkLD | typeLine | emptyLine | emptyCell | hLink | vLink | contact | coil | ffbBlock
  | shortCircuit | textBox | objPosition | descriptionFFB | inputVariable | outputVariable
  | other (name : Text)
  deriving DecidableEq, Repr

inductive CapturedSection where
  | mk (tag : LadderTag) (source : Text) (rawAttributes : Dictionary Text Text)
      (orderedChildren : List CapturedSection)

namespace CapturedSection

def tag : CapturedSection → LadderTag
  | mk tag .. => tag

/-- Where the section stands in its document. -/
def source : CapturedSection → Text
  | mk _ source .. => source

def rawAttributes : CapturedSection → Dictionary Text Text
  | mk _ _ attributes _ => attributes

def orderedChildren : CapturedSection → List CapturedSection
  | mk _ _ _ children => children

def rawAttribute (node : CapturedSection) (name : Text) : Option Text :=
  node.rawAttributes.get? name

end CapturedSection

structure LadderDiagnostic where
  code : Text
  message : Text
  source : Text
  deriving DecidableEq, Repr

/-- `int(value)` of a text of ASCII digits. -/
def plainNumber (value : Text) : Option Nat :=
  if value ≠ [] ∧ value.all Char.isDigit then
    some (value.foldl (fun number c => 10 * number + (c.toNat - 48)) 0)
  else none

/-- A line of a network, and a cell of that line: which source cell something was read from. -/
structure CellPlace where
  line : Nat
  cell : Nat
  deriving DecidableEq, Repr

structure LadderPosition where
  column : Nat
  row : Nat
  deriving DecidableEq, Repr

/-! ## The layout -/

def ffbBlockWidth : Nat := 2

def isGraphicalObject (tag : LadderTag) : Bool :=
  tag = .contact ∨ tag = .coil ∨ tag = .ffbBlock ∨ tag = .textBox

mutual

def countObjects : CapturedSection → Nat
  | .mk tag _ _ children =>
    (if isGraphicalObject tag then 1 else 0) +
      if tag = .typeLine ∨ tag = .shortCircuit then countObjectsIn children else 0

def countObjectsIn : List CapturedSection → Nat
  | [] => 0
  | child :: rest => countObjects child + countObjectsIn rest

end

inductive GridCellKind where
  | contact | coil | block | hlink | vlink | shortCircuit
  deriving DecidableEq, Repr

/-- One occupied cell of the grid, and the source cell it shows. -/
structure LadderGridCell where
  column : Nat
  kind : GridCellKind
  width : Nat := 1
  objectIndex : Option Nat := none
  wraps : Option GridCellKind := none
  wrappedWidth : Option Nat := none
  wrappedObjectIndex : Option Nat := none
  origin : CellPlace
  deriving DecidableEq, Repr

structure LadderGridRow where
  row : Nat
  cells : List LadderGridCell
  deriving DecidableEq, Repr

/-- The count of an `emptyCell`; without a number it takes no column. -/
def emptyWidth (cell : CapturedSection) : Nat :=
  (plainNumber ((cell.rawAttribute "nbCells").getD [])).getD 0

/-- The count of an `HLink`; without a number it takes one column. -/
def linkWidth (cell : CapturedSection) : Nat :=
  (plainNumber ((cell.rawAttribute "nbCells").getD [])).getD 1

structure GridLine where
  column : Nat := 0
  objectIndex : Nat
  cells : List LadderGridCell := []
  deriving DecidableEq, Repr

/-- A vertical link in one cell with what it wraps. -/
def placeShortCircuit (state : GridLine) (place : CellPlace) (cell : CapturedSection) : GridLine :=
  let vlinks := cell.orderedChildren.filter fun child => child.tag = .vLink
  let others := cell.orderedChildren.filter fun child => child.tag ≠ .vLink
  let unwrapped : LadderGridCell :=
    { column := state.column, kind := .shortCircuit, origin := place }
  let otherwise : GridLine :=
    { column := state.column + 1
      objectIndex := state.objectIndex + countObjectsIn cell.orderedChildren
      cells := state.cells ++ [unwrapped] }
  match others with
  | [other] =>
    if vlinks.length ≠ 1 then otherwise
    else
      match other.tag with
      | .contact =>
        { column := state.column + 1
          objectIndex := state.objectIndex + 1
          cells := state.cells ++ [{ unwrapped with
            wraps := some .contact, wrappedWidth := some 1
            wrappedObjectIndex := some state.objectIndex }] }
      | .hLink =>
        { column := state.column + linkWidth other
          objectIndex := state.objectIndex
          cells := state.cells ++ [{ unwrapped with
            wraps := some .hlink, wrappedWidth := some (linkWidth other)
            width := linkWidth other }] }
      | .ffbBlock =>
        { column := state.column + ffbBlockWidth
          objectIndex := state.objectIndex + 1
          cells := state.cells ++ [{ unwrapped with
            wraps := some .block, wrappedWidth := some ffbBlockWidth
            wrappedObjectIndex := some state.objectIndex, width := ffbBlockWidth }] }
      | _ => otherwise
  | _ => otherwise

def placeCell (line : Nat) (state : GridLine) (entry : CapturedSection × Nat) : GridLine :=
  let cell := entry.1
  let place : CellPlace := ⟨line, entry.2⟩
  match cell.tag with
  | .emptyCell => { state with column := state.column + emptyWidth cell }
  | .hLink =>
    { state with
      column := state.column + linkWidth cell
      cells := state.cells ++
        [{ column := state.column, kind := .hlink, width := linkWidth cell, origin := place }] }
  | .vLink =>
    { state with
      column := state.column + 1
      cells := state.cells ++ [{ column := state.column, kind := .vlink, origin := place }] }
  | .contact =>
    { column := state.column + 1
      objectIndex := state.objectIndex + 1
      cells := state.cells ++ [{ column := state.column, kind := .contact, origin := place
                                 objectIndex := some state.objectIndex }] }
  | .coil =>
    { column := state.column + 1
      objectIndex := state.objectIndex + 1
      cells := state.cells ++ [{ column := state.column, kind := .coil, origin := place
                                 objectIndex := some state.objectIndex }] }
  | .ffbBlock =>
    { column := state.column + ffbBlockWidth
      objectIndex := state.objectIndex + 1
      cells := state.cells ++ [{ column := state.column, kind := .block, width := ffbBlockWidth
                                 origin := place, objectIndex := some state.objectIndex }] }
  | .shortCircuit => placeShortCircuit state place cell
  | .textBox => { state with objectIndex := state.objectIndex + 1 }
  | _ => state

/-- The one `emptyLine` of a line that holds nothing else. -/
def emptyLineOf (line : CapturedSection) : Option CapturedSection :=
  match line.orderedChildren with
  | [child] => if child.tag = .emptyLine then some child else none
  | _ => none

def skippedRows (emptyLine : CapturedSection) : Option Nat :=
  plainNumber ((emptyLine.rawAttribute "nbRows").getD [])

structure GridState where
  rows : List LadderGridRow := []
  row : Nat := 0
  objectIndex : Nat := 0
  deriving DecidableEq, Repr

def placeLine (state : GridState) (entry : CapturedSection × Nat) : GridState :=
  match entry.1.tag with
  | .textBox => { state with objectIndex := state.objectIndex + 1 }
  | .typeLine =>
    match emptyLineOf entry.1 with
    | some emptyLine => { state with row := state.row + (skippedRows emptyLine).getD 0 }
    | none =>
      let line := entry.1.orderedChildren.zipIdx.foldl (placeCell entry.2)
        { objectIndex := state.objectIndex }
      { rows := state.rows ++ [{ row := state.row, cells := line.cells }]
        row := state.row + 1
        objectIndex := line.objectIndex }
  | _ => state

def computeLdGrid (network : CapturedSection) : List LadderGridRow :=
  (network.orderedChildren.zipIdx.foldl placeLine {}).rows

/-! ## The rungs -/

def contactOperation (mnemonic : Text) : Option LadderOperation :=
  if mnemonic = "openContact" then some .NORMALLY_OPEN_CONTACT
  else if mnemonic = "closedContact" then some .NORMALLY_CLOSED_CONTACT
  else if mnemonic = "PContact" then some .POSITIVE_TRANSITION_CONTACT
  else none

def coilOperation (mnemonic : Text) : Option LadderOperation :=
  if mnemonic = "coil" then some .COIL
  else if mnemonic = "resetCoil" then some .RESET_COIL
  else if mnemonic = "setCoil" then some .SET_COIL
  else none

/-- An instruction at its place, and the source cell it was read from. -/
structure PlacedLadderInstruction where
  operation : LadderOperation
  sourceMnemonic : Text
  operand : Option Text
  position : LadderPosition
  origin : Option CellPlace := none
  deriving DecidableEq, Repr

structure LadderRung where
  number : Nat
  position : LadderPosition
  network : List PlacedLadderInstruction
  source : Text
  deriving DecidableEq, Repr

def firstChild (node : CapturedSection) (tag : LadderTag) : Option CapturedSection :=
  node.orderedChildren.find? fun child => child.tag = tag

/-- The wires that leave the outputs of a block behind the first one. -/
def blockOutputs (block : CapturedSection) : List ((Nat × Nat) × (Text × Text × Text)) :=
  if block.tag ≠ .ffbBlock ∨ block.rawAttribute "enEnO" ≠ some (Text.of "true") then []
  else
    let positionNode := firstChild block .objPosition
    match (positionNode.bind fun node => node.rawAttribute "posX").bind plainNumber,
        (positionNode.bind fun node => node.rawAttribute "posY").bind plainNumber,
        firstChild block .descriptionFFB with
    | some column, some row, some description =>
      let inputs := description.orderedChildren.filter fun child => child.tag = .inputVariable
      let outputs := description.orderedChildren.filter fun child => child.tag = .outputVariable
      if outputs.length < inputs.length ∨ outputs.length < 2 then []
      else if (outputs.head?.bind fun output => output.rawAttribute "formalParameter") ≠
          some (Text.of "ENO") then []
      else
        (outputs.zipIdx.drop 1).filterMap fun entry =>
          (entry.1.rawAttribute "formalParameter").map fun pin =>
            ((row + 1 + entry.2, column + ffbBlockWidth),
              ((block.rawAttribute "typeName").getD [], (block.rawAttribute "instanceName").getD [], pin))
    | _, _, _ => []

def blockOutputOrigins (network : CapturedSection) :
    Dictionary (Nat × Nat) (Text × Text × Text) :=
  Dictionary.ofItems Prod.fst Prod.snd
    ((network.orderedChildren.filter fun line => line.tag = .typeLine).flatMap fun line =>
      line.orderedChildren.flatMap blockOutputs)

section

variable (db : CharacterDatabase)

/-- The count of an empty cell or a link: none given is none taken. -/
def rowWidth (cell : CapturedSection) : Except LadderDiagnostic Nat :=
  match cell.rawAttribute "nbCells" with
  | none => .ok 0
  | some value =>
    match plainNumber value with
    | some width => .ok width
    | none =>
      .error ⟨"invalid_ladder_number", ("nbCells=" : Text) ++ db.reprText value ++
        (" is not a nonnegative integer" : Text), cell.source⟩

/-- A contact or a coil with its place and its column. -/
structure RowElement where
  cell : CapturedSection
  place : CellPlace
  column : Nat

structure RowState where
  column : Nat := 0
  elements : List RowElement := []
  hlinkStarts : List Nat := []
  resolvable : Bool := true
  seenContact : Bool := false
  discardedSegments : Nat := 0
  diagnostics : List LadderDiagnostic := []

def readCell (line : Nat) (state : RowState) (entry : CapturedSection × Nat) : RowState :=
  let cell := entry.1
  let place : CellPlace := ⟨line, entry.2⟩
  match cell.tag with
  | .emptyCell =>
    match rowWidth db cell with
    | .error diagnostic =>
      { state with resolvable := false, diagnostics := state.diagnostics ++ [diagnostic] }
    | .ok width =>
      if state.seenContact then
        { state with
          column := state.column + width
          elements := []
          hlinkStarts := []
          seenContact := false
          discardedSegments :=
            state.discardedSegments + if state.elements.isEmpty then 0 else 1 }
      else { state with column := state.column + width }
  | .hLink =>
    match rowWidth db cell with
    | .error diagnostic =>
      { state with resolvable := false, diagnostics := state.diagnostics ++ [diagnostic] }
    | .ok width =>
      { state with
        hlinkStarts := state.hlinkStarts ++ [state.column]
        column := state.column + width }
  | .contact =>
    { state with
      elements := state.elements ++ [⟨cell, place, state.column⟩]
      seenContact := true
      column := state.column + 1 }
  | .coil =>
    { state with
      elements := state.elements ++ [⟨cell, place, state.column⟩]
      column := state.column + 1 }
  | _ => { state with resolvable := false }

def readRow (line : Nat) (children : List CapturedSection) : RowState :=
  children.zipIdx.foldl (readCell db line) {}

/-- The instruction of a contact or a coil, and what is to be said about it. -/
def elementInstruction (row : Nat) (element : RowElement) :
    PlacedLadderInstruction × List LadderDiagnostic :=
  let mnemonic := (element.cell.rawAttribute
    (if element.cell.tag = .contact then "typeContact" else "typeCoil")).getD []
  let operand := element.cell.rawAttribute
    (if element.cell.tag = .contact then "contactVariableName" else "coilVariableName")
  let operation :=
    if element.cell.tag = .contact then contactOperation mnemonic else coilOperation mnemonic
  let instruction : PlacedLadderInstruction :=
    { operation := operation.getD .UNSUPPORTED
      sourceMnemonic := mnemonic
      operand
      position := ⟨element.column, row⟩
      origin := some element.place }
  match operation with
  | some _ => (instruction, [])
  | none =>
    (instruction, [⟨"unresolved_ladder_instruction",
      (if element.cell.tag = .contact then ("contact" : Text) else ("coil" : Text)) ++
        (" type " : Text) ++ db.reprText mnemonic ++
        (" has no portable meaning; retained as evidence" : Text), element.cell.source⟩])

/-- A coil on its own may stand behind the output of a block. -/
def blockOutputInstruction (origins : Dictionary (Nat × Nat) (Text × Text × Text)) (row : Nat)
    (columns : List Nat) : List PlacedLadderInstruction :=
  match columns.findSome? fun column => (origins.get? (row, column)).map fun origin =>
      (column, origin) with
  | none => []
  | some (column, typeName, instanceName, pinName) =>
    [{ operation := .BLOCK_OUTPUT_REFERENCE
       sourceMnemonic := typeName
       operand := some (instanceName ++ ("." : Text) ++ pinName)
       position := ⟨column, row⟩ }]

def rowRung (origins : Dictionary (Nat × Nat) (Text × Text × Text)) (row : Nat)
    (line : CapturedSection) (state : RowState) : Option LadderRung × List LadderDiagnostic :=
  if !state.resolvable then
    (none, [⟨"unresolved_ladder_row",
      "Row involves branch/link/block wiring; connectivity not evidenced", line.source⟩])
  else if state.elements.isEmpty then (none, [])
  else
    let coils := (state.elements.zipIdx.filter fun entry => entry.1.cell.tag = .coil).map Prod.snd
    if coils.isEmpty then
      (none, [⟨"ladder_series_missing_coil",
        "Series row has no coil; not a complete rung", line.source⟩])
    else if coils ≠ [state.elements.length - 1] then
      (none, [⟨"ladder_series_unexpected_coil_position",
        "Row must have exactly one coil, as its last element", line.source⟩])
    else
      let leading :=
        if state.elements.length = 1 then
          blockOutputInstruction origins row
            (state.hlinkStarts ++ state.elements.map RowElement.column)
        else []
      let read := state.elements.map (elementInstruction db row)
      (some
        { number := row
          position := ⟨0, row⟩
          network := leading ++ read.map Prod.fst
          source := line.source },
        List.replicate state.discardedSegments ⟨"ladder_disconnected_segment_discarded",
          ("A contact segment is separated from what follows by a real " : Text) ++
            ("gap; excluded from the coil's condition, not guessed at" : Text), line.source⟩ ++
          read.flatMap Prod.snd)

structure RungState where
  row : Nat := 0
  rungs : List LadderRung := []
  diagnostics : List LadderDiagnostic := []

def readLine (origins : Dictionary (Nat × Nat) (Text × Text × Text)) (state : RungState)
    (entry : CapturedSection × Nat) : RungState :=
  let line := entry.1
  match line.tag with
  | .textBox => state
  | .typeLine =>
    match emptyLineOf line with
    | some emptyLine =>
      match skippedRows emptyLine with
      | some skipped => { state with row := state.row + skipped }
      | none =>
        { state with diagnostics := state.diagnostics ++ [⟨"invalid_ladder_number",
          ("nbRows=" : Text) ++ db.reprText ((emptyLine.rawAttribute "nbRows").getD []) ++
            (" is not a nonnegative integer" : Text), emptyLine.source⟩] }
    | none =>
      let read := readRow db entry.2 line.orderedChildren
      let (rung, diagnostics) := rowRung db origins state.row line read
      { row := state.row + 1
        rungs := state.rungs ++ rung.toList
        diagnostics := state.diagnostics ++ read.diagnostics ++ diagnostics }
  | _ =>
    { state with diagnostics := state.diagnostics ++ [⟨"unclassified_ladder_content",
      "Unknown network content retained", line.source⟩] }

def networkRungs (network : CapturedSection) : RungState :=
  network.orderedChildren.zipIdx.foldl (readLine db (blockOutputOrigins network)) {}

def parseLadderRungs (source : CapturedSection) : List LadderRung × List LadderDiagnostic :=
  let networks := (source.orderedChildren.filter fun child => child.tag = .networkLD).map
    (networkRungs db)
  (networks.flatMap RungState.rungs, networks.flatMap RungState.diagnostics)

end

end TwinForge.ControlExpert
