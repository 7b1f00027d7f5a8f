import Mathlib.Data.List.TakeWhile
import TwinForge.Foundation.Text

/-! # The supported subset of rung text

Rungs are parsed only when their complete structure is supported: serial
instructions, at most one group of parallel branches, and outputs.
-/

namespace TwinForge.Plcopen

inductive Opcode where
  | XIC | XIO | OTE | OTL | OTU
  | EQU | NEQ | GRT | GEQ | LES | LEQ
  | TON | TOF | RTO | CTU | CTD | RES
  | MOV | ADD | SUB | MUL | DIV | ONS
deriving DecidableEq, Repr

namespace Opcode

/-- The spellings, in the order of the instruction pattern. -/
def spellings : List (Text × Opcode) :=
  [("XIC", XIC), ("XIO", XIO), ("OTE", OTE), ("OTL", OTL), ("OTU", OTU), ("EQU", EQU),
   ("NEQ", NEQ), ("GRT", GRT), ("GEQ", GEQ), ("LES", LES), ("LEQ", LEQ), ("TON", TON),
   ("TOF", TOF), ("RTO", RTO), ("CTU", CTU), ("CTD", CTD), ("RES", RES), ("MOV", MOV),
   ("ADD", ADD), ("SUB", SUB), ("MUL", MUL), ("DIV", DIV), ("ONS", ONS)]

def ofText (spelling : Text) : Option Opcode := spellings.lookup spelling

def isContact (opcode : Opcode) : Bool := opcode ∈ [XIC, XIO]

def isComparison (opcode : Opcode) : Bool := opcode ∈ [EQU, NEQ, GRT, GEQ, LES, LEQ]

def isValueBlock (opcode : Opcode) : Bool := opcode ∈ [MOV, ADD, SUB, MUL, DIV]

def isOutput (opcode : Opcode) : Bool :=
  opcode ∈ [OTE, OTL, OTU, TON, TOF, RTO, CTU, CTD, RES] || opcode.isValueBlock

end Opcode

structure Instruction where
  opcode : Opcode
  operand : Text
deriving DecidableEq, Repr

/-- A normalized serial and parallel rung. -/
structure ParsedBooleanRung where
  prefixConditions : List Instruction
  branches : List (List Instruction)
  tailConditions : List Instruction
  outputs : List Instruction
deriving DecidableEq, Repr

def ParsedBooleanRung.instructions (rung : ParsedBooleanRung) : List Instruction :=
  rung.prefixConditions ++ rung.branches.flatten ++ rung.tailConditions ++ rung.outputs

/-! ## Splitting -/

/-- `str.split` at a one-character separator. -/
def splitAt (separator : Char) : Text → List Text
  | [] => [[]]
  | character :: rest =>
    if character = separator then [] :: splitAt separator rest
    else match splitAt separator rest with
      | [] => [[character]]
      | part :: parts => (character :: part) :: parts

section

variable (db : CharacterDatabase)

/-- Stripped arguments between commas; none when one of them is empty. -/
def splitArguments (text : Text) : List Text :=
  let arguments := (splitAt ',' text).map db.strip
  if arguments.all (fun argument => !argument.isEmpty) then arguments else []

def depthAfter (depth : Int) (character : Char) : Int :=
  if character = '(' then depth + 1 else if character = ')' then depth - 1 else depth

/-- The text before the first `[` outside parentheses, and the text after it. -/
def splitBranchOpening : Int → Text → Option (Text × Text)
  | _, [] => none
  | depth, character :: rest =>
    if character = '[' ∧ depth = 0 then some ([], rest)
    else (splitBranchOpening (depthAfter depth character) rest).map
      (fun split => (character :: split.1, split.2))

/-- The text before the first `]` outside parentheses, and the text after it; a
further `[` outside parentheses makes the group unsupported. -/
def splitBranchClosing : Int → Text → Option (Text × Text)
  | _, [] => none
  | depth, character :: rest =>
    if character = '[' ∧ depth = 0 then none
    else if character = ']' ∧ depth = 0 then some ([], rest)
    else (splitBranchClosing (depthAfter depth character) rest).map
      (fun split => (character :: split.1, split.2))

/-- Branch texts between the commas outside parentheses, not yet stripped. -/
def splitBranchPaths : Int → Text → List Text
  | _, [] => [[]]
  | depth, character :: rest =>
    if character = ',' ∧ depth = 0 then [] :: splitBranchPaths depth rest
    else match splitBranchPaths (depthAfter depth character) rest with
      | [] => [[character]]
      | part :: parts => (character :: part) :: parts

/-! ## Instructions -/

def isParenthesis (character : Char) : Bool := character == '(' || character == ')'

/-- One instruction at the start of the text: its opcode, the text between its
parentheses, and the text after it. -/
def matchInstruction (text : Text) : Option (Opcode × Text × Text) := do
  let word := text.dropWhile db.isSpace
  let opcode ← Opcode.ofText (word.take 3)
  match (word.drop 3).dropWhile db.isSpace with
  | '(' :: body =>
    match body.dropWhile (fun character => !isParenthesis character) with
    | ')' :: rest =>
      some (opcode, body.takeWhile (fun character => !isParenthesis character), rest)
    | _ => none
  | _ => none

/-- The argument count an opcode asks for, where it asks for one. -/
def hasSupportedOperand (opcode : Opcode) (operand : Text) : Bool :=
  !operand.isEmpty &&
    (if opcode.isComparison || opcode == .MOV then (splitArguments db operand).length == 2
     else if opcode ∈ [Opcode.TON, .TOF, .RTO, .CTU, .CTD, .ADD, .SUB, .MUL, .DIV] then
       (splitArguments db operand).length == 3
     else if opcode ∈ [Opcode.RES, .ONS] then !operand.contains ','
     else true)

/-- The loop of the instruction sequence; the fuel bounds its iterations. -/
def parseInstructionLoop : Nat → Text → Option (List Instruction)
  | _, [] => some []
  | 0, _ :: _ => none
  | fuel + 1, text@(_ :: _) => do
    let (opcode, body, rest) ← matchInstruction db text
    let operand := db.strip body
    if hasSupportedOperand db opcode operand then
      let instructions ← parseInstructionLoop fuel rest
      return ⟨opcode, operand⟩ :: instructions
    else none

def parseInstructionSequence (text : Text) : Option (List Instruction) :=
  parseInstructionLoop db text.length text

/-! ## Rungs -/

/-- A non-empty serial path of contacts. -/
def parseBranch (part : Text) : Option (List Instruction) := do
  let branch ← parseInstructionSequence db (db.strip part)
  if branch.isEmpty || branch.any (fun instruction => !instruction.opcode.isContact) then none
  else some branch

/-- Sort a sequence into conditions and outputs; a contact after an output is
rejected. -/
def sortInstructions : Bool → List Instruction → Option (List Instruction × List Instruction)
  | _, [] => some ([], [])
  | outputSeen, instruction :: instructions =>
    if instruction.opcode.isContact && outputSeen then none
    else if instruction.opcode.isOutput then
      (sortInstructions true instructions).map
        (fun sorted => (sorted.1, instruction :: sorted.2))
    else
      (sortInstructions outputSeen instructions).map
        (fun sorted => (instruction :: sorted.1, sorted.2))

/-- The prefix, the branches and the text after the group, for a text split at the
opening of a parallel group. -/
def parseBranchGroup (before inside : Text) :
    Option (List Instruction × List (List Instruction) × Text) := do
  let prefixConditions ← parseInstructionSequence db before
  if prefixConditions.any (fun instruction => !instruction.opcode.isContact) then none
  else
    let (paths, after) ← splitBranchClosing 0 inside
    let parts := splitBranchPaths 0 paths
    if parts.length < 2 then none
    else
      let branches ← parts.mapM (parseBranch db)
      return (prefixConditions, branches, db.strip after)

/-- The conditions in front of the serial sequence, and the text of that sequence. -/
def parseConditions (source : Text) :
    Option (List Instruction × List (List Instruction) × Text) :=
  match splitBranchOpening 0 source with
  | none => some ([], [], source)
  | some (before, inside) => parseBranchGroup db before inside

/-- Parse a rung only when its complete structure is currently supported. -/
def parseSupportedRung (text : Option Text) : Option ParsedBooleanRung := do
  let source := db.strip (text.getD [])
  if source.getLast? ≠ some ';' then none
  else
    let (prefixConditions, branches, source) ← parseConditions db (db.strip source.dropLast)
    let instructions ← parseInstructionSequence db source
    let (tailConditions, outputs) ← sortInstructions false instructions
    if outputs.isEmpty then none
    else return ⟨prefixConditions, branches, tailConditions, outputs⟩

/-- A literal, after the white space before it. -/
def matchSymbol (symbol : Char) (text : Text) : Option Text :=
  match text.dropWhile db.isSpace with
  | character :: rest => if character = symbol then some rest else none
  | [] => none

/-- The target routine of the supported `JSR(routine,0)` form. -/
def parseJsr (text : Option Text) : Option Text := do
  let word := (text.getD []).dropWhile db.isSpace
  if word.take 3 ≠ ("JSR" : Text) then none
  else
    let body ← matchSymbol db '(' (word.drop 3)
    let isRoutine := fun character => !isParenthesis character && character != ','
    let routine := body.takeWhile isRoutine
    if routine.isEmpty then none
    else
      let rest ← matchSymbol db ',' (body.dropWhile isRoutine)
      let rest ← matchSymbol db '0' rest
      let rest ← matchSymbol db ')' rest
      let rest ← matchSymbol db ';' rest
      if rest.all db.isSpace then return db.strip routine else none

end

end TwinForge.Plcopen
