import TwinForge.Model.Controller
import TwinForge.Plcopen.Rll

/-! # Canonical timer and counter groups

A group of neighbouring rungs that share one timer or counter is recognised at the
index of its first rung and lowered as a whole.
-/

namespace TwinForge.OpenPLC

open Model Plcopen

variable (db : CharacterDatabase)

def memberOperand (instance_ member : Text) : Text := instance_ ++ ['.'] ++ member

def parseRung (rungs : List LadderRung) (index : Nat) : Option ParsedBooleanRung :=
  rungs[index]?.bind (fun rung => parseSupportedRung db rung.text)

/-- The operand of a rung of the form `XIC(condition)output`. -/
def singleContact (rung : ParsedBooleanRung) : Option Text :=
  match rung.branches, rung.tailConditions with
  | [], [⟨.XIC, operand⟩] => some operand
  | _, _ => none

/-! ## Timers -/

structure NativeTimerGroup where
  instruction : Opcode
  enableName : Text
  timerName : Text
  presetMs : Int
  outputName : Text
  comment : Text
  resetName : Option Text
  sourceRungCount : Nat
deriving DecidableEq, Repr

/-- A comment that is there and not empty. -/
def presentComment (rung : LadderRung) : Option Text :=
  rung.comment.filter (fun comment => !comment.isEmpty)

/-- The reset operand of a rung of the form `XIC(reset)RES(owner)`. -/
def matchReset (owner : Text) (rung : ParsedBooleanRung) : Option Text := do
  let reset ← singleContact rung
  if rung.outputs = [⟨.RES, owner⟩] then return reset else none

/-- Recognise canonical TON and TOF pairs or RTO triples; `timers` gives the preset
of each exported timer. -/
def matchTimerGroup (timers : List (Text × Int)) (program : Program) (index : Nat) :
    Option NativeTimerGroup := do
  let rungs := program.mainRungs
  let timerRung ← rungs[index]?
  let doneRung ← rungs[index + 1]?
  let timer ← parseSupportedRung db timerRung.text
  let done ← parseSupportedRung db doneRung.text
  let enable ← singleContact timer
  match timer.outputs, done.outputs with
  | [⟨opcode, operand⟩], [⟨.OTE, outputName⟩] =>
    if opcode ∉ [Opcode.TON, .TOF, .RTO] ∨ !done.branches.isEmpty then none
    else
      match splitArguments db operand with
      | [timerName, _, _] =>
        if done.tailConditions ≠ [⟨.XIC, memberOperand timerName "DN"⟩] then none
        else
          let preset ← timers.lookup timerName
          let comment := ((presentComment timerRung).or doneRung.comment).getD []
          if opcode = .RTO then
            let resetRung ← parseRung db rungs (index + 2)
            let reset ← matchReset timerName resetRung
            return ⟨opcode, enable, timerName, preset, outputName, comment, some reset, 3⟩
          else
            return ⟨opcode, enable, timerName, preset, outputName, comment, none, 2⟩
      | _ => none
  | _, _ => none

/-! ## Counters -/

/-- Source execution order when both counter directions occur. -/
inductive CounterOrder where
  | upOnly
  | downOnly
  | upThenDown
  | downThenUp
deriving DecidableEq, Repr

structure OpenPLCCounterGroup where
  counterName : Text
  countUpName : Option Text
  countDownName : Option Text
  resetName : Text
  outputName : Text
  order : CounterOrder
  preset : Int
  initialAccumulator : Int
  initialDone : Bool
  initialOverflow : Bool
  initialUnderflow : Bool
  comment : Text
  sourceRungCount : Nat
deriving DecidableEq, Repr

/-- One counting rung: its opcode, its condition and its counter. -/
structure CountInstruction where
  opcode : Opcode
  condition : Text
  counter : Text
deriving DecidableEq, Repr

def countInstruction (rungs : List LadderRung) (index : Nat) : Option CountInstruction := do
  let parsed ← parseRung db rungs index
  let condition ← singleContact parsed
  match parsed.outputs with
  | [⟨opcode, operand⟩] =>
    if opcode ∉ [Opcode.CTU, .CTD] then none
    else
      match splitArguments db operand with
      | [counter, _, _] => some ⟨opcode, condition, counter⟩
      | _ => none
  | _ => none

def counterOrder (first : CountInstruction) (second : Option CountInstruction) : CounterOrder :=
  match first.opcode, second with
  | .CTU, none => .upOnly
  | .CTU, some _ => .upThenDown
  | _, none => .downOnly
  | _, some _ => .downThenUp

def requiredMember (tag : Tag) (member : Text) : Except Text Int :=
  match decoratedMemberInteger tag member with
  | some value => .ok value
  | none => .error (("COUNTER " : Text) ++ db.reprText tag.name ++
      (" has no readable decorated " : Text) ++ member)

def memberOrDefault (tag : Tag) (member : Text) (default : Int) : Int :=
  (decoratedMemberInteger tag member).getD default

/-- The counting rungs at an index: one, or two of different directions on one
counter; none when the second counts another counter. -/
def matchCounts (rungs : List LadderRung) (index : Nat) :
    Option (CountInstruction × Option CountInstruction) := do
  let first ← countInstruction db rungs index
  match countInstruction db rungs (index + 1) with
  | none => return (first, none)
  | some second =>
    if second.opcode = first.opcode then return (first, none)
    else if second.counter ≠ first.counter then none
    else return (first, some second)

def matchCounterRungs (program : Program) (counterName : Text) (doneIndex : Nat) :
    Option (Tag × Text × Text) := do
  let rungs := program.mainRungs
  let done ← parseRung db rungs doneIndex
  let reset ← parseRung db rungs (doneIndex + 1)
  match done.outputs with
  | [⟨.OTE, outputName⟩] =>
    if done.branches ≠ [] ∨
        done.tailConditions ≠ [⟨.XIC, memberOperand counterName "DN"⟩] then none
    else
      let resetName ← matchReset counterName reset
      let tag ← program.tags.lookup counterName
      if db.upperText (tag.dataType.getD []) ≠ ("COUNTER" : Text) then none
      else return (tag, outputName, resetName)
  | _ => none

/-- Match a canonical standalone or paired counter group at `index`. -/
def matchCounterGroup (program : Program) (index : Nat) :
    Except Text (Option OpenPLCCounterGroup) :=
  let rungs := program.mainRungs
  match matchCounts db rungs index with
  | none => .ok none
  | some (first, second) =>
    let counts := [first] ++ second.toList
    match matchCounterRungs db program first.counter (index + counts.length) with
    | none => .ok none
    | some (tag, outputName, resetName) => do
      let preset ← requiredMember db tag "PRE"
      return some
        { counterName := first.counter
          countUpName := (counts.find? (·.opcode == .CTU)).map (·.condition)
          countDownName := (counts.find? (·.opcode == .CTD)).map (·.condition)
          resetName, outputName
          order := counterOrder first second
          preset
          initialAccumulator := memberOrDefault tag "ACC" 0
          initialDone := memberOrDefault tag "DN" 0 != 0
          initialOverflow := memberOrDefault tag "OV" 0 != 0
          initialUnderflow := memberOrDefault tag "UN" 0 != 0
          comment := (((rungs.drop index).take (counts.length + 2)).findSome?
            presentComment).getD []
          sourceRungCount := counts.length + 2 }

end TwinForge.OpenPLC
