import Mathlib.Algebra.Group.Nat.Defs
import Mathlib.Data.List.Duplicate
import Mathlib.Data.List.Perm.Subperm
import TwinForge.Model.Controller
import TwinForge.Plcopen.Rll

/-! # Portable names and literals

IEC-safe names that do not collide with the names already in use, and the literal
forms of the export. The loop that tries suffixes runs on fuel; one candidate more
than there are names in use is always enough.
-/

namespace TwinForge.Plcopen

def integerText : Int → Text
  | .ofNat n => decimal n
  | .negSucc n => '-' :: decimal (n + 1)

/-- An IEC `TIME` literal of milliseconds. -/
def millisecondsTimeLiteral (milliseconds : Int) : Text :=
  ("TIME#" : Text) ++ integerText milliseconds ++ ("ms" : Text)

/-! ## Free candidates -/

/-- The candidate with a number behind it. -/
def numbered (base : Text) (suffix : Nat) : Text := base ++ '_' :: decimal suffix

theorem numbered_injective (base : Text) : Function.Injective (numbered base) := by
  intro m n h
  have htail := List.append_cancel_left h
  exact decimal_injective (List.cons.inj htail).2

/-- Try the candidate, then the base with the suffix and the numbers after it. -/
def firstFree (existing : List Text) (base : Text) : Nat → Nat → Text → Option Text
  | 0, _, _ => none
  | fuel + 1, suffix, candidate =>
    if candidate ∈ existing then
      firstFree existing base fuel (suffix + 1) (numbered base suffix)
    else some candidate

theorem firstFree_not_mem {existing : List Text} {base : Text} {fuel suffix : Nat}
    {candidate name : Text} (h : firstFree existing base fuel suffix candidate = some name) :
    name ∉ existing := by
  induction fuel generalizing suffix candidate with
  | zero => cases h
  | succ fuel ih =>
    unfold firstFree at h
    split at h
    · exact ih h
    · next hfree =>
        cases h
        exact hfree

theorem firstFree_none {existing : List Text} {base : Text} {fuel suffix : Nat} {candidate : Text}
    (h : firstFree existing base (fuel + 1) suffix candidate = none) :
    ∀ tried < fuel, numbered base (suffix + tried) ∈ existing := by
  induction fuel generalizing suffix candidate with
  | zero => intro tried htried; omega
  | succ fuel ih =>
    unfold firstFree at h
    split at h
    · intro tried htried
      cases tried with
      | zero =>
        unfold firstFree at h
        split at h
        · assumption
        · cases h
      | succ tried =>
        have hlater := ih h tried (by omega)
        rwa [Nat.add_right_comm] at hlater
    · cases h

theorem firstFree_isSome (existing : List Text) (base candidate : Text) (suffix : Nat) :
    (firstFree existing base (existing.length + 2) suffix candidate).isSome := by
  by_contra hnone
  rw [Option.not_isSome_iff_eq_none] at hnone
  have htaken := firstFree_none hnone
  let candidates := (List.range (existing.length + 1)).map (fun tried => numbered base (suffix + tried))
  have hdistinct : candidates.Nodup := by
    refine List.Nodup.map ?_ List.nodup_range
    intro m n h
    have := numbered_injective base h
    omega
  have hcovered : candidates ⊆ existing := by
    intro name hname
    obtain ⟨tried, htried, rfl⟩ := List.mem_map.mp hname
    exact htaken tried (List.mem_range.mp htried)
  have hlength := (hdistinct.subperm hcovered).length_le
  simp only [candidates, List.length_map, List.length_range] at hlength
  omega

/-- The base itself, or the base with the first number that makes it free. -/
def uniqueName (existing : List Text) (base : Text) : Text :=
  (firstFree existing base (existing.length + 2) 2 base).getD base

theorem uniqueName_not_mem (existing : List Text) (base : Text) :
    uniqueName existing base ∉ existing := by
  have hsome := firstFree_isSome existing base base 2
  obtain ⟨name, hname⟩ := Option.isSome_iff_exists.mp hsome
  unfold uniqueName
  rw [hname]
  exact firstFree_not_mem hname

section

variable (db : CharacterDatabase)

def isWordCharacter (character : Char) : Bool := db.isAlnum character || character == '_'

/-- Each maximal run of other characters replaced by one underscore. -/
def collapseNonWord : Bool → Text → Text
  | _, [] => []
  | collapsing, character :: rest =>
    if isWordCharacter db character then character :: collapseNonWord false rest
    else if collapsing then collapseNonWord true rest
    else '_' :: collapseNonWord true rest

/-- `str.strip("_")`. -/
def stripUnderscores (text : Text) : Text :=
  ((text.dropWhile (· == '_')).reverse.dropWhile (· == '_')).reverse

/-- Create a deterministic IEC-safe name that does not collide. -/
def uniquePortableName (operand : Text) (existing : List Text) : Text :=
  let word := stripUnderscores (collapseNonWord db false operand)
  uniqueName existing (if word = [] then "TF_Operand" else ("TF_" : Text) ++ word)

theorem uniquePortableName_not_mem (operand : Text) (existing : List Text) :
    uniquePortableName db operand existing ∉ existing :=
  uniqueName_not_mem existing _

/-! ## Lexical forms -/

/-- An ASCII letter or underscore, then word characters. -/
def isIecIdentifier : Text → Bool
  | [] => false
  | first :: rest => (first.isAlpha || first == '_') && rest.all (isWordCharacter db)

def isIecOperand (operand : Text) : Bool := (splitAt '.' operand).all (isIecIdentifier db)

def isDecimalDigit (character : Char) : Bool := (db.decimalDigit character).isSome

/-- The sign, the digits in front of the point and the digits behind it. -/
def numericParts (text : Text) : Option (Bool × Text × Text) :=
  let (negative, unsigned) : Bool × Text := match text with
    | '-' :: rest => (true, rest)
    | '+' :: rest => (false, rest)
    | _ => (false, text)
  match splitAt '.' unsigned with
  | [whole] =>
    if !whole.isEmpty && whole.all (isDecimalDigit db) then some (negative, whole, []) else none
  | [whole, fraction] =>
    if (!whole.isEmpty || !fraction.isEmpty) && whole.all (isDecimalDigit db) &&
        fraction.all (isDecimalDigit db) then some (negative, whole, fraction)
    else none
  | _ => none

def isNumericLiteral (text : Text) : Bool := (numericParts db text).isSome

/-- The number a run of decimal digits spells. -/
def digitsValue (digits : Text) : Nat :=
  digits.foldl (fun value digit => 10 * value + (db.decimalDigit digit).getD 0) 0

/-- The nearest integer to a quotient, the even one when two are equally near. -/
def roundHalfEven (numerator denominator : Nat) : Nat :=
  let quotient := numerator / denominator
  let twice := 2 * (numerator % denominator)
  if twice < denominator then quotient
  else if denominator < twice then quotient + 1
  else quotient + quotient % 2

/-- The integer part of the binary64 number nearest to a quotient; none when that
number is infinite. -/
def truncatedFloat (numerator denominator : Nat) : Option Nat :=
  let whole := numerator / denominator
  if whole = 0 then some (roundHalfEven (numerator * 2 ^ 53) denominator / 2 ^ 53)
  else
    -- a significand of 53 bits, scaled by 2 ^ (exponent - 52)
    let exponent := whole.log2
    let significand := roundHalfEven (numerator * 2 ^ 52) (denominator * 2 ^ exponent)
    if significand * 2 ^ exponent < 2 ^ (1024 + 52) then some (significand * 2 ^ exponent / 2 ^ 52)
    else none

/-- `int(float(literal))` of the parts of a literal; none when the number is infinite. -/
def literalInteger (literal : Bool × Text × Text) : Option Int :=
  let (negative, whole, fraction) := literal
  (truncatedFloat (digitsValue db (whole ++ fraction)) (10 ^ fraction.length)).map
    (fun magnitude => if negative then -(magnitude : Int) else magnitude)

end

/-! ## Symbols prepared before the export

The names, temporaries and function-block instances of a controller whose logic is
rung text, discovered in source order before any rung is emitted. A rung is keyed
by where it stands: its program, its routine and its position.
-/

open Model

structure ConversionDiagnostic where
  code : Text
  message : Text
  objectName : Option Text
  rawValue : Option Text := none
deriving DecidableEq, Repr

/-- Failures the export raises. -/
inductive Raised where
  | valueError (message : Text)
  | keyError
  | indexError
  | overflowError (message : Text)
deriving DecidableEq, Repr

/-! ### Rungs and their places -/

structure RungId where
  program : Text
  routine : Text
  position : Nat
deriving DecidableEq, Repr

/-- One rung with the program and the routine it stands in. -/
structure RungSite where
  program : Program
  routine : Routine
  position : Nat
  rung : LadderRung

def RungSite.id (site : RungSite) : RungId := ⟨site.program.name, site.routine.name, site.position⟩

def routineSites (program : Program) (routine : Routine) : List RungSite :=
  routine.ladderRungs.zipIdx.map (fun (rung, position) => ⟨program, routine, position, rung⟩)

def programSites (program : Program) : List RungSite :=
  program.routines.flatMap (fun (_, routine) => routineSites program routine)

def rungSites (controller : Controller) : List RungSite :=
  controller.programs.flatMap (fun (_, program) => programSites program)

def allTags (controller : Controller) : List Tag :=
  controller.tags.map Prod.snd ++
    controller.programs.flatMap (fun (_, program) => program.tags.map Prod.snd)

/-! ### The plan -/

/-- Generated state for one timer tag. -/
structure PLCopenTimerExport where
  presetMs : Int
  inputName : Text
  doneName : Text
  elapsedName : Text
  executedName : Text
deriving DecidableEq, Repr

/-- Generated state for the one-shot of a rung. -/
structure PLCopenOneShotExport where
  instanceName : Text
  inputName : Text
  pulseName : Text
  executedName : Text
deriving DecidableEq, Repr

/-- All symbols and diagnostics discovered before the export. In the dictionaries the
newest entry comes first. -/
structure PLCopenOperandPlan where
  operandNames : List (Text × Text)
  booleanOperands : List Text
  generatedTags : List Tag
  comparisonTags : List (Text × Tag)
  comparisonTemps : List (RungId × List Text)
  unsupportedComparisonRungs : List RungId
  timers : List (Text × PLCopenTimerExport)
  oneshots : List (RungId × PLCopenOneShotExport)
  oneshotTags : List (Text × Tag)
  diagnostics : List ConversionDiagnostic
  tagNames : List (Text × Text)

def primitiveTypes : List Text :=
  ["BOOL", "BYTE", "WORD", "DWORD", "LWORD", "SINT", "INT", "DINT", "LINT", "USINT", "UINT",
   "UDINT", "ULINT", "REAL", "LREAL", "STRING", "WSTRING", "TIME", "DATE", "TIME_OF_DAY",
   "DATE_AND_TIME"]

/-- The operand takes an argument list of which only the first names a symbol. -/
def Opcode.isTimerOrCounter (opcode : Opcode) : Bool :=
  opcode ∈ [Opcode.TON, .TOF, .RTO, .CTU, .CTD]

def Opcode.isBoolean (opcode : Opcode) : Bool := opcode ∈ [Opcode.XIC, Opcode.XIO, .OTE, .OTL, .OTU]

section

variable (db : CharacterDatabase)

def tagExportType (booleanOperands : List Text) (tag : Tag) : Text :=
  match tag.dataType with
  | some (first :: rest) => db.upperText (first :: rest)
  | _ =>
    if (tag.aliasFor.getD []).isEmpty then []
    else if tag.name ∈ booleanOperands then "BOOL"
    else if (tag.radix.getD []).map Char.toLower = ("float" : Text) then "REAL"
    else "BOOL"

def rootName (operand : Text) : Text := operand.takeWhile (fun character => character != '.')

def comparisonUsesUnsupportedType (booleanOperands : List Text) (tagsByName : List (Text × Tag))
    (operandText : Text) : Bool :=
  (splitArguments db operandText).any (fun operand =>
    match tagsByName.lookup (rootName operand) with
    | none => false
    | some tag =>
      let exportType := tagExportType db booleanOperands tag
      if exportType = ("TIMER" : Text) ∧ operand = rootName operand ++ (".ACC" : Text) then false
      else exportType ∉ primitiveTypes)

/-- Declare one portable name for each base, in order. -/
def declareNames : List Text → List Text → List Text × List Text
  | [], names => ([], names)
  | base :: bases, names =>
    let name := uniquePortableName db base names
    let (generated, names) := declareNames bases (name :: names)
    (name :: generated, names)

@[simp] theorem declareNames_length (bases names : List Text) :
    (declareNames db bases names).1.length = bases.length := by
  induction bases generalizing names with
  | nil => rfl
  | cons base bases ih => simp [declareNames, ih]

/-! ### Operands -/

/-- The symbols that the operands of one rung after another add. -/
structure Symbols where
  names : List Text
  operandNames : List (Text × Text)
  booleanOperands : List Text
  generatedTags : List Tag
  diagnostics : List ConversionDiagnostic

/-- Record the portable spelling of one operand, with a surrogate where it has none. -/
def prepareOperand (aliases : List (Text × Text)) (opcode : Opcode) (symbols : Symbols)
    (operand : Text) : Symbols :=
  let symbols := if opcode.isBoolean then
    { symbols with booleanOperands := operand :: symbols.booleanOperands } else symbols
  if isIecOperand db operand || isNumericLiteral db operand then symbols
  else match aliases.lookup operand with
    | some portable => { symbols with operandNames := (operand, portable) :: symbols.operandNames }
    | none =>
      let portable := uniquePortableName db operand symbols.names
      { symbols with
        names := portable :: symbols.names
        operandNames := (operand, portable) :: symbols.operandNames
        generatedTags := symbols.generatedTags ++
          [{ name := portable
             dataType := some (if opcode.isBoolean then "BOOL" else "REAL")
             description := some (("Portable surrogate for Rockwell operand " : Text) ++ operand)
             metadata := [("plcopen_source_operand", operand)] }]
        diagnostics := symbols.diagnostics ++
          [⟨"raw_operand_rewritten",
            "raw Rockwell operand was replaced by an IEC-safe surrogate variable",
            some portable, some operand⟩] }

/-- The operands of one instruction that name symbols. The parser has counted the
arguments, so a timer or counter has a first one. -/
def symbolOperands (instruction : Instruction) : List Text :=
  if instruction.opcode.isTimerOrCounter then (splitArguments db instruction.operand).take 1
  else if instruction.opcode.isComparison || instruction.opcode.isValueBlock then
    splitArguments db instruction.operand
  else [instruction.operand]

def prepareInstruction (aliases : List (Text × Text)) (symbols : Symbols)
    (instruction : Instruction) : Symbols :=
  (symbolOperands db instruction).foldl (prepareOperand db aliases instruction.opcode) symbols

def ParsedBooleanRung.comparisons (parsed : ParsedBooleanRung) : List Instruction :=
  parsed.tailConditions.filter (fun condition => condition.opcode.isComparison)

/-- What the operands of the rungs so far have given. -/
structure OperandStage where
  symbols : Symbols
  comparisonTags : List (Text × Tag)
  comparisonTemps : List (RungId × List Text)
  unsupportedComparisonRungs : List RungId

/-- `N` for a rung without a number. -/
def rungLabel (number : Option Nat) : Text := (number.map decimal).getD "N"

def comparisonBases (site : RungSite) (count : Nat) : List Text :=
  (List.range count).map (fun index => ("Cmp_" : Text) ++ site.program.name ++ '_' ::
    site.routine.name ++ '_' :: rungLabel site.rung.number ++ '_' :: decimal (index + 1))

def prepareComparisons (site : RungSite) (count : Nat) (stage : OperandStage) : OperandStage :=
  if count = 0 then stage
  else
    let (temps, names) := declareNames db (comparisonBases site count) stage.symbols.names
    { stage with
      symbols := { stage.symbols with names }
      comparisonTags := stage.comparisonTags ++ temps.map (fun temp =>
        (site.program.name,
          { name := temp
            dataType := some "BOOL"
            description := some (("TwinForge comparison result for " : Text) ++ site.routine.name ++
              (" rung " : Text) ++ reprNumber site.rung.number) }))
      comparisonTemps := (site.id, temps) :: stage.comparisonTemps }

/-- The tags a rung of the program sees by name, those of the program first. -/
def tagsByName (controller : Controller) (program : Program) : List (Text × Tag) :=
  program.tags ++ controller.tags

def prepareRung (controller : Controller) (aliases : List (Text × Text)) (stage : OperandStage)
    (site : RungSite) : OperandStage :=
  match parseSupportedRung db site.rung.text with
  | none => stage
  | some parsed =>
    if parsed.comparisons.any (fun comparison =>
        comparisonUsesUnsupportedType db stage.symbols.booleanOperands
          (tagsByName controller site.program) comparison.operand) then
      { stage with
        unsupportedComparisonRungs := site.id :: stage.unsupportedComparisonRungs }
    else
      let stage := prepareComparisons db site parsed.comparisons.length stage
      { stage with
        symbols := parsed.instructions.foldl (prepareInstruction db aliases) stage.symbols }

/-- An IEC-safe name for a tag whose source name is not an identifier. -/
def renameTag (renamed : Symbols × List (Text × Text)) (tag : Tag) : Symbols × List (Text × Text) :=
  let (symbols, tagNames) := renamed
  if isIecIdentifier db tag.name then (symbols, tagNames)
  else
    let portable := uniquePortableName db tag.name symbols.names
    ({ symbols with
       names := portable :: symbols.names
       operandNames := (tag.name, portable) :: symbols.operandNames
       diagnostics := symbols.diagnostics ++
         [⟨"tag_name_rewritten",
           "source tag name is not an IEC identifier and was declared under an IEC-safe name",
           some portable, some tag.name⟩] },
     (tag.name, portable) :: tagNames)

/-- The tag that stands for each aliased operand; the last tag wins. -/
def aliasesByTarget (tags : List Tag) : List (Text × Text) :=
  (tags.filterMap (fun tag => match tag.aliasFor with
    | some (first :: rest) => some (first :: rest, tag.name)
    | _ => none)).reverse

def prepareOperands (controller : Controller) : OperandStage × List (Text × Text) :=
  let tags := allTags controller
  let (symbols, tagNames) := tags.foldl (renameTag db) (⟨tags.map (·.name), [], [], [], []⟩, [])
  ((rungSites controller).foldl (prepareRung db controller (aliasesByTarget tags))
    ⟨symbols, [], [], []⟩, tagNames)

/-! ### Timers and one-shots -/

def isTimerTag (tag : Tag) : Bool := db.upperText (tag.dataType.getD []) = ("TIMER" : Text)

structure TimerStage where
  names : List Text
  generatedTags : List Tag
  timers : List (Text × PLCopenTimerExport)
  diagnostics : List ConversionDiagnostic

/-- The generated state of one timer tag; a preset that cannot be read is zero. -/
def prepareTimer (stage : TimerStage) (tag : Tag) : TimerStage :=
  if !isTimerTag db tag then stage
  else
    let preset := decoratedMemberInteger tag "PRE"
    let suffixes : List (Text × Text) :=
      [("_IN", "BOOL"), ("_DN", "BOOL"), ("_ET", "TIME"), ("_Executed", "BOOL")]
    let (generated, names) :=
      declareNames db (suffixes.map (fun (suffix, _) => tag.name ++ suffix)) stage.names
    { names
      generatedTags := stage.generatedTags ++
        (generated.zip suffixes).map (fun (name, suffix, dataType) =>
          { name
            dataType := some dataType
            description := some (("TwinForge IEC timer " : Text) ++ suffix.drop 1 ++
              (" for " : Text) ++ tag.name) })
      timers := (tag.name, ⟨preset.getD 0, generated.getD 0 [], generated.getD 1 [],
        generated.getD 2 [], generated.getD 3 []⟩) :: stage.timers
      diagnostics := if preset.isSome then stage.diagnostics else stage.diagnostics ++
        [⟨"timer_preset_missing",
          "TIMER has no readable decorated PRE value; zero milliseconds was used",
          some tag.name, none⟩] }

structure OneShotStage where
  names : List Text
  oneshots : List (RungId × PLCopenOneShotExport)
  oneshotTags : List (Text × Tag)

def ParsedBooleanRung.oneShotStorage (parsed : ParsedBooleanRung) : Option Text :=
  (parsed.tailConditions.find? (fun condition => condition.opcode == .ONS)).map (·.operand)

def prepareOneShot (risingTriggerType : Text) (stage : OneShotStage) (site : RungSite) :
    OneShotStage :=
  match (parseSupportedRung db site.rung.text).bind ParsedBooleanRung.oneShotStorage with
  | none => stage
  | some storage =>
    let base := ("ONS_" : Text) ++ site.program.name ++ '_' :: site.routine.name ++ '_' ::
      rungLabel site.rung.number
    let suffixes : List Text := ["_FB", "_IN", "_Pulse", "_Executed"]
    let (generated, names) := declareNames db (suffixes.map (base ++ ·)) stage.names
    let trigger : Tag :=
      { name := generated.getD 0 []
        dataType := some "R_TRIG"
        description := some
          (("TwinForge rising-edge instance for Rockwell ONS storage operand " : Text) ++ storage)
        metadata := [("plcopen_derived_type", risingTriggerType),
          ("rockwell_ons_storage", storage)] }
    let states : List Tag :=
      ((generated.drop 1).zip (["input", "one-scan pulse", "execution"] : List Text)).map
        (fun (name, description) =>
          { name
            dataType := some "BOOL"
            description := some (("TwinForge ONS " : Text) ++ description ++ (" for " : Text) ++
              storage) })
    { names
      oneshots := (site.id, ⟨generated.getD 0 [], generated.getD 1 [], generated.getD 2 [],
        generated.getD 3 []⟩) :: stage.oneshots
      oneshotTags := stage.oneshotTags ++
        (trigger :: states).map (fun tag => (site.program.name, tag)) }

def programNames (comparisonTags : List (Text × Tag)) (program : Program) : List Text :=
  program.tags.map Prod.fst ++
    (comparisonTags.filter (fun entry => entry.1 = program.name)).map (fun entry => entry.2.name)

def prepareOneShots (risingTriggerType : Text) (comparisonTags : List (Text × Tag))
    (stage : OneShotStage) (program : Program) : OneShotStage :=
  (programSites program).foldl (prepareOneShot db risingTriggerType)
    { stage with names := programNames comparisonTags program ++ stage.names }

/-- Discover all required symbols in deterministic source order. -/
def prepare (risingTriggerType : Text) (controller : Controller) : PLCopenOperandPlan :=
  let tags := allTags controller
  let (stage, tagNames) := prepareOperands db controller
  let timing := tags.foldl (prepareTimer db)
    ⟨tags.map (·.name) ++ stage.symbols.generatedTags.map (·.name), stage.symbols.generatedTags, [],
      stage.symbols.diagnostics⟩
  let edges := (controller.programs.map Prod.snd).foldl
    (prepareOneShots db risingTriggerType stage.comparisonTags)
    ⟨controller.tags.map Prod.fst ++ timing.generatedTags.map (·.name), [], []⟩
  { operandNames := stage.symbols.operandNames
    booleanOperands := stage.symbols.booleanOperands
    generatedTags := timing.generatedTags
    comparisonTags := stage.comparisonTags
    comparisonTemps := stage.comparisonTemps
    unsupportedComparisonRungs := stage.unsupportedComparisonRungs
    timers := timing.timers
    oneshots := edges.oneshots
    oneshotTags := edges.oneshotTags
    diagnostics := timing.diagnostics
    tagNames }

end

end TwinForge.Plcopen
