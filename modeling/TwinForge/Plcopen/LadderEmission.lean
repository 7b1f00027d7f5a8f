import TwinForge.Plcopen.Operands

/-! # Emission of rungs as ladder elements

Each rung becomes a run of elements of its routine's LD body. Elements take the
next local id as they are written; connections name the local ids they come from.
-/

namespace TwinForge.Plcopen

open Model

/-! ## Elements -/

structure Connection where
  refLocalId : Nat
  formalParameter : Option Text := none
deriving DecidableEq, Repr

inductive Storage where
  | set | reset
deriving DecidableEq, Repr

inductive LadderElement where
  | leftPowerRail (localId : Nat)
  | rightPowerRail (localId : Nat)
  | comment (localId : Nat) (text : Text) (rawRll : Option Text)
  | contact (localId : Nat) (negated : Bool) (connections : List Connection) (symbol : Text)
  | coil (localId : Nat) (storage : Option Storage) (connections : List Connection)
      (symbol : Text)
  | inVariable (localId : Nat) (expression : Text)
  | block (localId : Nat) (typeName : Text) (instanceName : Option Text)
      (inputs : List (Text × List Connection)) (outputs : List (Text × Option Text))
      (callType : Option Text)
deriving DecidableEq, Repr

namespace LadderElement

def localId : LadderElement → Nat
  | leftPowerRail localId => localId
  | rightPowerRail localId => localId
  | comment localId _ _ => localId
  | contact localId _ _ _ => localId
  | coil localId _ _ _ => localId
  | inVariable localId _ => localId
  | block localId _ _ _ _ _ => localId

def inputs : LadderElement → List (List Connection)
  | contact _ _ connections _ => [connections]
  | coil _ _ connections _ => [connections]
  | block _ _ _ inputs _ _ => inputs.map Prod.snd
  | _ => []

end LadderElement

/-! ## Drawing -/

structure Drawn (Value : Type) where
  value : Value
  elements : List LadderElement
  diagnostics : List ConversionDiagnostic
  nextLocalId : Nat

def Drawing (Value : Type) := Nat → Except Raised (Drawn Value)

namespace Drawing

variable {A B : Type}

instance : Monad Drawing where
  pure value := fun nextLocalId => .ok ⟨value, [], [], nextLocalId⟩
  bind first next := fun nextLocalId =>
    match first nextLocalId with
    | .error raised => .error raised
    | .ok drawn =>
      match next drawn.value drawn.nextLocalId with
      | .error raised => .error raised
      | .ok rest => .ok ⟨rest.value, drawn.elements ++ rest.elements,
          drawn.diagnostics ++ rest.diagnostics, rest.nextLocalId⟩

/-- Write the element of the next local id. -/
def draw (element : Nat → LadderElement) : Drawing Nat := fun nextLocalId =>
  .ok ⟨nextLocalId, [element nextLocalId], [], nextLocalId + 1⟩

def diagnose (diagnostic : ConversionDiagnostic) : Drawing Unit := fun nextLocalId =>
  .ok ⟨(), [], [diagnostic], nextLocalId⟩

def raise (raised : Raised) : Drawing A := fun _ => .error raised

def ofExcept (result : Except Raised A) : Drawing A := fun nextLocalId =>
  result.map (fun value => ⟨value, [], [], nextLocalId⟩)

end Drawing

open Drawing

/-! ## Operands of the plan -/

/-- The deterministic IEC-safe symbol for one operand. -/
def PLCopenOperandPlan.portableOperand (plan : PLCopenOperandPlan) (operand : Text) : Text :=
  (plan.operandNames.lookup operand).getD operand

def isAccumulator (operand : Text) : Bool := (".ACC" : Text).isSuffixOf operand

def Opcode.spelling (opcode : Opcode) : Text :=
  ((Opcode.spellings.find? (fun entry => entry.2 == opcode)).map Prod.fst).getD []

def comparisonType : Opcode → Text
  | .EQU => "EQ"
  | .NEQ => "NE"
  | .GRT => "GT"
  | .GEQ => "GE"
  | .LES => "LT"
  | .LEQ => "LE"
  | _ => []

def valueBlockType : Opcode → Text
  | .MOV => "MOVE"
  | .ADD => "ADD"
  | .SUB => "SUB"
  | .MUL => "MUL"
  | .DIV => "DIV"
  | _ => []

section

variable (db : CharacterDatabase)

def timeOperand (plan : PLCopenOperandPlan) (operand : Text) : Except Raised Text :=
  if isAccumulator operand then
    match plan.timers.lookup (operand.take (operand.length - 4)) with
    | some timer => .ok timer.elapsedName
    | none => .ok operand
  else match numericParts db operand with
    | some literal =>
      match literalInteger db literal with
      | some milliseconds => .ok (millisecondsTimeLiteral milliseconds)
      | none => .error (.overflowError "cannot convert float infinity to integer")
    | none => .ok (("DINT_TO_TIME(" : Text) ++ plan.portableOperand operand ++ [')'])

/-- Map comparison operands, including the time conversion of an accumulator. -/
def comparisonOperands (plan : PLCopenOperandPlan) (operands : List Text) :
    Except Raised (List Text) :=
  if operands.any isAccumulator then operands.mapM (timeOperand db plan)
  else .ok (operands.map plan.portableOperand)

/-! ## Instruction emitters -/

def wires (conditionIds : List Nat) (formalParameter : Option Text) : List Connection :=
  conditionIds.map (fun conditionId => ⟨conditionId, formalParameter⟩)

/-- The name of the output a chain that comes from a block continues at. -/
def enableOutput (inputFromBlock : Bool) : Option Text := if inputFromBlock then some "ENO" else none

def emitContact (plan : PLCopenOperandPlan) (opcode : Opcode) (operand : Text)
    (conditionIds : List Nat) : Drawing Nat :=
  draw (fun localId => .contact localId (opcode == Opcode.XIO) (wires conditionIds none)
    (plan.portableOperand operand))

def coilStorage : Opcode → Option Storage
  | .OTL => some .set
  | .OTU => some .reset
  | _ => none

def emitCoil (plan : PLCopenOperandPlan) (opcode : Opcode) (operand : Text)
    (conditionIds : List Nat) (formalParameter : Option Text) : Drawing Nat :=
  draw (fun localId => .coil localId (coilStorage opcode) (wires conditionIds formalParameter)
    (plan.portableOperand operand))

def emitInVariables : List Text → Drawing (List Nat)
  | [] => pure []
  | expression :: expressions => do
    let localId ← draw (fun localId => .inVariable localId expression)
    let localIds ← emitInVariables expressions
    return localId :: localIds

def emitComparison (plan : PLCopenOperandPlan) (opcode : Opcode) (operandText : Text)
    (conditionIds : List Nat) (resultName : Text) : Drawing Nat := do
  let operands := splitArguments db operandText
  if operands.length ≠ 2 then
    raise (.valueError (("comparison " : Text) ++ opcode.spelling ++
      (" requires two operands" : Text)))
  else
    let converted ← ofExcept (comparisonOperands db plan operands)
    let inputIds ← emitInVariables (converted.map plan.portableOperand)
    let _ ← draw (fun localId => .block localId (comparisonType opcode) none
      (("EN", wires conditionIds none) :: inputIds.map (fun inputId => ([], wires [inputId] none)))
      [("ENO", none), ([], some resultName)] none)
    emitContact plan .XIC resultName conditionIds

/-- The call type extension, written for one target only. -/
def callType (codesys : Bool) (name : Text) : Option Text := if codesys then some name else none

def emitTimerBlock (codesys : Bool) (plan : PLCopenOperandPlan) (operandText : Text)
    (conditionIds : List Nat) : Drawing Nat := do
  match (splitArguments db operandText).head? with
  | none => raise .indexError
  | some timerName =>
    match plan.timers.lookup timerName with
    | none => raise .keyError
    | some timer =>
      let _ ← emitCoil plan .OTE timer.inputName conditionIds none
      let _ ← draw .rightPowerRail
      let railId ← draw .leftPowerRail
      let inputId ← draw (fun localId => .inVariable localId timer.inputName)
      let presetId ← draw (fun localId =>
        .inVariable localId (millisecondsTimeLiteral timer.presetMs))
      let blockId ← draw (fun localId => .block localId "TON" (some timerName)
        [("EN", wires [railId] none), ("IN", wires [inputId] none),
         ("PT", wires [presetId] none)]
        [("ENO", none), ("Q", some timer.doneName), ("ET", some timer.elapsedName)]
        (callType codesys "functionblock"))
      emitCoil plan .OTE timer.executedName [blockId] (some "ENO")

def emitTimerResetBlock (codesys : Bool) (plan : PLCopenOperandPlan) (timerName : Text)
    (conditionIds : List Nat) (inputFromBlock : Bool) : Drawing Nat := do
  match plan.timers.lookup timerName with
  | none => raise .keyError
  | some timer =>
    let inputId ← draw (fun localId => .inVariable localId "FALSE")
    let presetId ← draw (fun localId =>
      .inVariable localId (millisecondsTimeLiteral timer.presetMs))
    draw (fun localId => .block localId "TON" (some timerName)
      [("EN", wires conditionIds (enableOutput inputFromBlock)), ("IN", wires [inputId] none),
       ("PT", wires [presetId] none)]
      [("ENO", none), ("Q", some timer.doneName), ("ET", some timer.elapsedName)]
      (callType codesys "functionblock"))

def emitOneShotBlock (codesys : Bool) (plan : PLCopenOperandPlan) (oneshot : PLCopenOneShotExport)
    (conditionIds : List Nat) : Drawing Nat := do
  let _ ← emitCoil plan .OTE oneshot.inputName conditionIds none
  let _ ← draw .rightPowerRail
  let railId ← draw .leftPowerRail
  let inputId ← draw (fun localId => .inVariable localId oneshot.inputName)
  let blockId ← draw (fun localId => .block localId "R_TRIG" (some oneshot.instanceName)
    [("EN", wires [railId] none), ("CLK", wires [inputId] none)]
    [("ENO", none), ("Q", some oneshot.pulseName)] (callType codesys "functionblock"))
  let _ ← emitCoil plan .OTE oneshot.executedName [blockId] (some "ENO")
  let _ ← draw .rightPowerRail
  let continuationId ← draw .leftPowerRail
  emitContact plan .XIC oneshot.pulseName [continuationId]

def emitValueBlock (plan : PLCopenOperandPlan) (opcode : Opcode) (operandText : Text)
    (conditionIds : List Nat) (inputFromBlock : Bool) : Drawing Nat := do
  let operands := splitArguments db operandText
  match operands.getLast? with
  | none => raise .indexError
  | some destination =>
    let sourceIds ← emitInVariables (operands.dropLast.map plan.portableOperand)
    draw (fun localId => .block localId (valueBlockType opcode) none
      (("EN", wires conditionIds (enableOutput inputFromBlock)) ::
        sourceIds.map (fun sourceId => ([], wires [sourceId] none)))
      [("ENO", none), ([], some (plan.portableOperand destination))] none)

/-! ## The registry -/

inductive Auxiliary where
  | none
  | resultVariable (name : Text)
  | oneshot (state : PLCopenOneShotExport)

def emitCondition (codesys : Bool) (plan : PLCopenOperandPlan) (condition : Instruction)
    (conditionIds : List Nat) (auxiliary : Auxiliary) : Drawing Nat :=
  if condition.opcode.isContact then
    emitContact plan condition.opcode condition.operand conditionIds
  else if condition.opcode = .ONS then
    match auxiliary with
    | .oneshot state => emitOneShotBlock codesys plan state conditionIds
    | _ => raise (.valueError "ONS emission requires prepared one-shot state")
  else if condition.opcode.isComparison then
    match auxiliary with
    | .resultVariable name =>
      emitComparison db plan condition.opcode condition.operand conditionIds name
    | _ => raise (.valueError "comparison emission requires a result variable")
  else raise (.valueError (("no PLCopen condition emitter for " : Text) ++
    condition.opcode.spelling))

def Opcode.isCoil (opcode : Opcode) : Bool := opcode ∈ [Opcode.OTE, .OTL, .OTU]

def Opcode.hasOutputEmitter (opcode : Opcode) : Bool :=
  opcode.isCoil || opcode ∈ [Opcode.TON, .RES] || opcode.isValueBlock

def emitOutput (codesys : Bool) (plan : PLCopenOperandPlan) (output : Instruction)
    (executionIds : List Nat) (inputFromBlock : Bool) : Drawing (List Nat × Bool) := do
  if output.opcode.isCoil then
    let _ ← emitCoil plan output.opcode output.operand executionIds (enableOutput inputFromBlock)
    return (executionIds, inputFromBlock)
  else if output.opcode = .TON then
    let _ ← emitTimerBlock db codesys plan output.operand executionIds
    return (executionIds, inputFromBlock)
  else if output.opcode = .RES then
    let localId ← emitTimerResetBlock codesys plan output.operand executionIds inputFromBlock
    return ([localId], true)
  else if output.opcode.isValueBlock then
    let localId ← emitValueBlock db plan output.opcode output.operand executionIds inputFromBlock
    return ([localId], true)
  else raise (.valueError (("no PLCopen output emitter for " : Text) ++
    output.opcode.spelling))

/-! ## Rungs -/

def emitPrefix (codesys : Bool) (plan : PLCopenOperandPlan) :
    List Nat → List Instruction → Drawing (List Nat)
  | conditionIds, [] => pure conditionIds
  | conditionIds, condition :: conditions => do
    let localId ← emitCondition db codesys plan condition conditionIds .none
    emitPrefix codesys plan [localId] conditions

def emitBranch (codesys : Bool) (plan : PLCopenOperandPlan) :
    Nat → List Instruction → Drawing Nat
  | conditionId, [] => pure conditionId
  | conditionId, condition :: conditions => do
    let localId ← emitCondition db codesys plan condition [conditionId] .none
    emitBranch codesys plan localId conditions

/-- One end for each branch; every branch starts at the same element. -/
def emitBranches (codesys : Bool) (plan : PLCopenOperandPlan) (startId : Nat) :
    List (List Instruction) → Drawing (List Nat)
  | [] => pure []
  | branch :: branches => do
    let localId ← emitBranch db codesys plan startId branch
    let localIds ← emitBranches codesys plan startId branches
    return localId :: localIds

/-- The parallel group of a rung, where it has one, behind the first end of the prefix. -/
def emitGroup (codesys : Bool) (plan : PLCopenOperandPlan) (railId : Nat)
    (conditionIds : List Nat) (branches : List (List Instruction)) : Drawing (List Nat) :=
  if branches.isEmpty then pure conditionIds
  else emitBranches db codesys plan (conditionIds.headD railId) branches

def tailAuxiliary (plan : PLCopenOperandPlan) (id : RungId) (comparisonIndex : Nat)
    (condition : Instruction) : Except Raised Auxiliary :=
  if condition.opcode = .ONS then
    match plan.oneshots.lookup id with
    | some state => .ok (.oneshot state)
    | none => .error .keyError
  else if condition.opcode.isComparison then
    match plan.comparisonTemps.lookup id with
    | some temps =>
      match temps[comparisonIndex]? with
      | some name => .ok (.resultVariable name)
      | none => .error .indexError
    | none => .error .keyError
  else .ok .none

def emitTailCondition (codesys : Bool) (plan : PLCopenOperandPlan) (id : RungId)
    (comparisonIndex : Nat) (condition : Instruction) (conditionIds : List Nat) :
    Drawing Nat := do
  let auxiliary ← ofExcept (tailAuxiliary plan id comparisonIndex condition)
  emitCondition db codesys plan condition conditionIds auxiliary

def emitTail (codesys : Bool) (plan : PLCopenOperandPlan) (id : RungId) :
    Nat → List Nat → List Instruction → Drawing (List Nat)
  | _, conditionIds, [] => pure conditionIds
  | comparisonIndex, conditionIds, condition :: conditions => do
    let localId ← emitTailCondition db codesys plan id comparisonIndex condition conditionIds
    emitTail codesys plan id
      (if condition.opcode.isComparison then comparisonIndex + 1 else comparisonIndex)
      [localId] conditions

def emitOutputs (codesys : Bool) (plan : PLCopenOperandPlan) :
    List Nat → Bool → List Instruction → Drawing Unit
  | _, _, [] => pure ()
  | executionIds, inputFromBlock, output :: outputs => do
    let (executionIds, inputFromBlock) ←
      emitOutput db codesys plan output executionIds inputFromBlock
    emitOutputs codesys plan executionIds inputFromBlock outputs

/-- The comment element of a rung; an empty text leaves no raw data. -/
def emitComment (text : Text) (rawRll : Option Text) : Drawing Unit := do
  let _ ← draw (fun localId => .comment localId text (rawRll.filter (fun raw => !raw.isEmpty)))
  return ()

/-- The rung's own comment, where it has one. -/
def emitRungComment (rung : LadderRung) : Drawing Unit :=
  if (rung.comment.getD []).isEmpty then pure () else emitComment (rung.comment.getD []) none

def emitParsedRung (codesys : Bool) (plan : PLCopenOperandPlan) (site : RungSite)
    (parsed : ParsedBooleanRung) : Drawing Unit := do
  let railId ← draw .leftPowerRail
  emitRungComment site.rung
  let conditionIds ← emitPrefix db codesys plan [railId] parsed.prefixConditions
  let conditionIds ← emitGroup db codesys plan railId conditionIds parsed.branches
  let executionIds ← emitTail db codesys plan site.id 0 conditionIds parsed.tailConditions
  emitOutputs db codesys plan executionIds false parsed.outputs
  let _ ← draw .rightPowerRail
  return ()

def emitActionCall (codesys : Bool) (rung : LadderRung) (actionName : Text) : Drawing Unit := do
  let railId ← draw .leftPowerRail
  emitRungComment rung
  let _ ← draw (fun localId => .block localId actionName none [("EN", wires [railId] none)]
    [("ENO", none)] (callType codesys "action"))
  let _ ← draw .rightPowerRail
  return ()

/-- `NOP();`, up to white space. -/
def isNoOperation (text : Text) : Bool :=
  let word := text.dropWhile db.isSpace
  word.take 3 = ("NOP" : Text) &&
    match ((matchSymbol db '(' (word.drop 3)).bind (matchSymbol db ')')).bind
        (matchSymbol db ';') with
    | some rest => rest.all db.isSpace
    | none => false

/-- A comment that keeps a rung the export does not execute, with its diagnostic. -/
def emitUnsupported (site : RungSite) (code message : Text) (label : Text) (rawValue : Text) :
    Drawing Unit := do
  let raw := site.rung.text.getD []
  diagnose ⟨code, message, some site.program.name, some rawValue⟩
  emitComment (label ++ raw) (some raw)

def timerOperands (parsed : ParsedBooleanRung) : List Text :=
  (parsed.outputs.filter (fun output => output.opcode ∈ [Opcode.TON, .RES])).flatMap (fun output =>
    if output.opcode = .TON then (splitArguments db output.operand).take 1 else [output.operand])

/-- A rung without rung text: its Instruction List, or a note that there is no logic. -/
def emitWithoutText (site : RungSite) : Drawing Unit :=
  if site.rung.instructionList.isEmpty then do
    diagnose ⟨"rung_without_exportable_logic",
      "rung has neither Logix RLL text nor a ladder network; kept as a comment",
      some site.program.name, none⟩
    emitComment (if (site.rung.comment.getD []).isEmpty then "Rung with no exportable logic"
      else site.rung.comment.getD []) none
  else do
    let lines := (site.rung.instructionList.map db.strip).filter (fun line => !line.isEmpty)
    let ilText := joinText "; " lines
    diagnose ⟨"instruction_list_rung_not_converted",
      "Instruction List rung has no ladder-expressible network; its IL is kept as a comment",
      some site.program.name, some ilText⟩
    emitComment (("Instruction List: " : Text) ++ ilText) none

def emitRung (codesys : Bool) (plan : PLCopenOperandPlan) (actionNames : List Text)
    (site : RungSite) : Drawing Unit :=
  match site.rung.text with
  | none => emitWithoutText db site
  | some text =>
    if isNoOperation db text then
      emitComment (if (site.rung.comment.getD []).isEmpty then
        "Rockwell NOP (intentional no operation)" else site.rung.comment.getD []) (some text)
    else if site.id ∈ plan.unsupportedComparisonRungs then
      emitUnsupported site "unsupported_comparison_operand_type"
        "comparison references a structured variable type that is not exported yet"
        "Unsupported Rockwell RLL: " text
    else match parseJsr db (some text) with
      | some jsrTarget =>
        if jsrTarget ∈ actionNames then emitActionCall codesys site.rung jsrTarget
        else emitUnsupported site "unresolved_jsr_target"
          "JSR target does not resolve to a routine in the program"
          "Unresolved Rockwell RLL: " jsrTarget
      | none =>
        match parseSupportedRung db (some text) with
        | none => emitUnsupported site "unsupported_rll_rung"
            ("rung was emitted as a non-executable comment because it contains unsupported " ++
              "RLL" : String)
            "Unsupported Rockwell RLL: " text
        | some parsed =>
          if (timerOperands db parsed).all (fun operand =>
              (plan.timers.lookup operand).isSome) then
            emitParsedRung db codesys plan site parsed
          else emitUnsupported site "unsupported_timer_operand"
            "TON or RES references a tag that is not an exported TIMER"
            "Unsupported Rockwell RLL: " text

/-! ## Programs -/

/-- An ASCII letter or underscore, then ASCII letters, digits and underscores. -/
def isIecProgramName : Text → Bool
  | [] => false
  | first :: rest =>
    (first.isAlpha || first == '_') && rest.all (fun c => c.isAlphanum || c == '_')

/-- Each maximal run of underscores replaced by one. -/
def collapseUnderscores : Bool → Text → Text
  | _, [] => []
  | collapsing, character :: rest =>
    if character ≠ '_' then character :: collapseUnderscores false rest
    else if collapsing then collapseUnderscores true rest
    else '_' :: collapseUnderscores true rest

/-- The identifier a program name is spelled as, before it is made unique. -/
def portableProgramBase (name : Text) : Text :=
  let spelled := name.map (fun c => if c.isAlphanum || c == '_' then c else '_')
  match stripUnderscores (collapseUnderscores false spelled) with
  | [] => "Program"
  | first :: rest => if first.isDigit then 'P' :: '_' :: first :: rest else first :: rest

/-- An IEC identifier for each program whose source name is not one, and the names
taken so far. -/
def portableProgramName (renamed : List (Text × Text) × List Text) (program : Program) :
    List (Text × Text) × List Text :=
  let (names, taken) := renamed
  if isIecProgramName program.name then (names, taken)
  else
    let portable := uniqueName taken (portableProgramBase program.name)
    ((program.name, portable) :: names, portable :: taken)

def portableProgramNames (programs : List Program) : List (Text × Text) :=
  (programs.foldl portableProgramName ([], programs.map (·.name))).1

def programNameDiagnostics (programNames : List (Text × Text)) : List ConversionDiagnostic :=
  programNames.reverse.map (fun (name, portable) =>
    ⟨"program_name_rewritten",
      "source program name is not an IEC identifier and was exported under an IEC-safe name",
      some portable, some name⟩)

structure RungExport where
  site : RungSite
  elements : List LadderElement
  diagnostics : List ConversionDiagnostic

/-- One item after the other, each from the next local id of the one before. -/
def emitAll {Item Output : Type} (emit : Item → Nat → Except Raised (Output × Nat)) :
    List Item → Nat → Except Raised (List Output × Nat)
  | [], nextLocalId => .ok ([], nextLocalId)
  | item :: items, nextLocalId => do
    let (output, nextLocalId) ← emit item nextLocalId
    let (outputs, nextLocalId) ← emitAll emit items nextLocalId
    return (output :: outputs, nextLocalId)

def exportRung (codesys : Bool) (plan : PLCopenOperandPlan) (actionNames : List Text)
    (site : RungSite) (nextLocalId : Nat) : Except Raised (RungExport × Nat) :=
  (emitRung db codesys plan actionNames site nextLocalId).map (fun drawn =>
    (⟨site, drawn.elements, drawn.diagnostics⟩, drawn.nextLocalId))

def emitRoutineBody (codesys : Bool) (plan : PLCopenOperandPlan) (actionNames : List Text)
    (program : Program) (routine : Routine) : Nat → Except Raised (List RungExport × Nat) :=
  emitAll (exportRung db codesys plan actionNames) (routineSites program routine)

def emitAction (codesys : Bool) (plan : PLCopenOperandPlan) (actionNames : List Text)
    (program : Program) (routine : Routine) (nextLocalId : Nat) :
    Except Raised ((Text × List RungExport) × Nat) :=
  (emitRoutineBody db codesys plan actionNames program routine nextLocalId).map
    (fun (exports, nextLocalId) => ((routine.name, exports), nextLocalId))

structure Pou where
  name : Text
  actions : List (Text × List RungExport)
  body : Option (List RungExport)
  diagnostics : List ConversionDiagnostic

/-- The rungs of a unit, action by action, then those of its body. -/
def Pou.exports (pou : Pou) : List RungExport :=
  pou.actions.flatMap Prod.snd ++ pou.body.getD []

/-- The routines of a program other than its main routine; a routine is known by its
name. -/
def actionRoutines (program : Program) (main : Routine) : List Routine :=
  (program.routines.map Prod.snd).filter (fun candidate => candidate.name ≠ main.name)

def callableNames (program : Program) (main : Routine) : List Text :=
  (actionRoutines program main).map (·.name)

def emitProgram (codesys : Bool) (plan : PLCopenOperandPlan) (programNames : List (Text × Text))
    (program : Program) (nextLocalId : Nat) : Except Raised (Pou × Nat) :=
  let name := (programNames.lookup program.name).getD program.name
  match program.mainRoutine with
  | none => .ok (⟨name, [], none,
      [⟨"program_without_main_routine", "program has no main routine", some program.name, none⟩]⟩,
      nextLocalId)
  | some main => do
    let actionNames := callableNames program main
    let (actions, nextLocalId) ← emitAll (emitAction db codesys plan actionNames program)
      (actionRoutines program main) nextLocalId
    let (body, nextLocalId) ←
      emitRoutineBody db codesys plan actionNames program main nextLocalId
    return (⟨name, actions, some body, []⟩, nextLocalId)

/-- The program units of the exported project, with the diagnostics that belong to no
rung and no unit. -/
structure ProjectLogic where
  pous : List Pou
  diagnostics : List ConversionDiagnostic

def ProjectLogic.exports (project : ProjectLogic) : List RungExport :=
  project.pous.flatMap Pou.exports

def exportPlan (codesys : Bool) (controller : Controller) : PLCopenOperandPlan :=
  prepare db (if codesys then "Standard.R_TRIG" else "R_TRIG") controller

def build (codesys : Bool) (controller : Controller) : Except Raised ProjectLogic := do
  let plan := exportPlan db codesys controller
  let programs := controller.programs.map Prod.snd
  let programNames := portableProgramNames programs
  let (pous, _) ← emitAll (emitProgram db codesys plan programNames) programs 1
  return ⟨pous, plan.diagnostics ++ programNameDiagnostics programNames⟩

end

end TwinForge.Plcopen
