import TwinForge.Foundation.Dictionary
import TwinForge.Model.Controller
import TwinForge.Model.SoftwareCall
import TwinForge.StructuredText.Parser

/-! # Calls in routine bodies

Calls are collected from the syntax tree of a structured text body and from the texts of ladder
rungs. A call in structured text is reported with the number of a captured line.
-/

namespace TwinForge.SoftwareCalls

open StructuredText
open Model (LadderRung Routine Program SoftwareCallSite)

structure StructuredTextLine where
  number : Option Nat := none
  text : Text := []
deriving DecidableEq, Repr

structure Routine where
  name : Text
  structuredTextLines : List StructuredTextLine := []
  ladderRungs : List LadderRung := []
deriving DecidableEq, Repr

structure Program where
  name : Text
  routines : Dictionary Text Routine := {}

/-- `routine.structured_text`. -/
def Routine.structuredText (routine : Routine) : Text :=
  joinText "\n" (routine.structuredTextLines.map (·.text))

/-! ## Syntax nodes -/

/-- A dataclass instance of a syntax tree. -/
inductive SyntaxNode where
  | span (span : SourceSpan)
  | expression (expression : Expression)
  | argument (argument : CallArgument Expression)
  | branch (branch : IfBranch Statement)
  | statement (statement : Statement)

def SyntaxNode.fields : SyntaxNode → List SyntaxNode
  | .span _ => []
  | .expression (.missing range) => [.span range]
  | .expression (.name range _) => [.span range]
  | .expression (.directAddress range _) => [.span range]
  | .expression (.literal range _) => [.span range]
  | .expression (.unary range _ operand) => [.span range, .expression operand]
  | .expression (.binary range left _ right) => [.span range, .expression left, .expression right]
  | .expression (.member range target _) => [.span range, .expression target]
  | .expression (.index range target indices _) =>
    .span range :: .expression target :: indices.map .expression
  | .expression (.call range callee arguments) =>
    .span range :: .expression callee :: arguments.map .argument
  | .expression (.parenthesized range inner) => [.span range, .expression inner]
  | .argument operand => [.span operand.span, .expression operand.value]
  | .branch taken =>
    .span taken.span :: .expression taken.condition :: taken.statements.map .statement
  | .statement (.assignment range target _ value) =>
    [.span range, .expression target, .expression value]
  | .statement (.expression range inner) => [.span range, .expression inner]
  | .statement (.exit range) => [.span range]
  | .statement (.label range _) => [.span range]
  | .statement (.jump range _) => [.span range]
  | .statement (.ifThen range branches elseStatements) =>
    .span range :: (branches.map .branch ++ elseStatements.map .statement)
  | .statement (.whileDo range condition statements) =>
    .span range :: .expression condition :: statements.map .statement
  | .statement (.unsupported range _) => [.span range]

/-! `_walk`. -/

mutual

def walkExpression : Expression → List SyntaxNode
  | .missing span => [.expression (.missing span), .span span]
  | .name span name => [.expression (.name span name), .span span]
  | .directAddress span address => [.expression (.directAddress span address), .span span]
  | .literal span value => [.expression (.literal span value), .span span]
  | .unary span operator operand =>
    .expression (.unary span operator operand) :: .span span :: walkExpression operand
  | .binary span left operator right =>
    .expression (.binary span left operator right) :: .span span ::
      (walkExpression left ++ walkExpression right)
  | .member span target member =>
    .expression (.member span target member) :: .span span :: walkExpression target
  | .index span target indices operator =>
    .expression (.index span target indices operator) :: .span span ::
      (walkExpression target ++ walkExpressions indices)
  | .call span callee arguments =>
    .expression (.call span callee arguments) :: .span span ::
      (walkExpression callee ++ walkArguments arguments)
  | .parenthesized span inner =>
    .expression (.parenthesized span inner) :: .span span :: walkExpression inner

def walkExpressions : List Expression → List SyntaxNode
  | [] => []
  | expression :: rest => walkExpression expression ++ walkExpressions rest

def walkArguments : List (CallArgument Expression) → List SyntaxNode
  | [] => []
  | argument :: rest => walkArgument argument ++ walkArguments rest

def walkArgument : CallArgument Expression → List SyntaxNode
  | ⟨span, value, name, direction⟩ =>
    .argument ⟨span, value, name, direction⟩ :: .span span :: walkExpression value

end

mutual

def walkStatement : Statement → List SyntaxNode
  | .assignment span target operator value =>
    .statement (.assignment span target operator value) :: .span span ::
      (walkExpression target ++ walkExpression value)
  | .expression span expression =>
    .statement (.expression span expression) :: .span span :: walkExpression expression
  | .exit span => [.statement (.exit span), .span span]
  | .label span name => [.statement (.label span name), .span span]
  | .jump span label => [.statement (.jump span label), .span span]
  | .ifThen span branches elseStatements =>
    .statement (.ifThen span branches elseStatements) :: .span span ::
      (walkBranches branches ++ walkStatements elseStatements)
  | .whileDo span condition statements =>
    .statement (.whileDo span condition statements) :: .span span ::
      (walkExpression condition ++ walkStatements statements)
  | .unsupported span text => [.statement (.unsupported span text), .span span]

def walkStatements : List Statement → List SyntaxNode
  | [] => []
  | statement :: rest => walkStatement statement ++ walkStatements rest

def walkBranches : List (IfBranch Statement) → List SyntaxNode
  | [] => []
  | branch :: rest => walkBranch branch ++ walkBranches rest

def walkBranch : IfBranch Statement → List SyntaxNode
  | ⟨span, condition, statements⟩ =>
    .branch ⟨span, condition, statements⟩ :: .span span ::
      (walkExpression condition ++ walkStatements statements)

end

structure CallNode where
  span : SourceSpan
  callee : Expression
  arguments : List (CallArgument Expression)

/-- `isinstance(node, CallExpression)`. -/
def SyntaxNode.call? : SyntaxNode → Option CallNode
  | .expression (.call range callee arguments) => some ⟨range, callee, arguments⟩
  | _ => none

def statementCalls (statements : List Statement) : List CallNode :=
  (walkStatements statements).filterMap SyntaxNode.call?

/-! ## Structured text -/

inductive IndexError where
  | outOfRange
deriving DecidableEq, Repr

/-- `source[span.start : span.end]`. -/
def sliceOf (source : Text) (span : SourceSpan) : Text :=
  (source.drop span.start).take (span.stop - span.start)

/-- `source.count("\n", 0, start)`. -/
def physicalLine (source : Text) (start : Nat) : Nat := (source.take start).count '\n'

def siteOn (program : Program) (routine : Routine) (call : CallNode) (number : Option Nat) :
    SoftwareCallSite where
  callee := sliceOf routine.structuredText call.callee.span
  arguments := call.arguments.mapIdx fun index argument =>
    { position := index
      source := sliceOf routine.structuredText argument.value.span
      name := argument.name
      direction := argument.direction }
  programName := program.name
  routineName := routine.name
  language := .structuredText
  sourceText := sliceOf routine.structuredText call.span
  lineNumber := number

def callSite (program : Program) (routine : Routine) (call : CallNode) :
    Except IndexError SoftwareCallSite :=
  match routine.structuredTextLines[physicalLine routine.structuredText call.span.start]? with
  | none => .error .outOfRange
  | some capturedLine => .ok (siteOn program routine call capturedLine.number)

/-! ## Ladder -/

/-- The text up to the parenthesis that closes the open ones, and the text behind it. -/
def splitClose (quote : Option Char) (depth : Nat) : Text → Option (Text × Text)
  | [] => none
  | c :: rest =>
    let keep := Option.map fun (found : Text × Text) => (c :: found.1, found.2)
    match quote with
    | some mark => keep (splitClose (if c = mark then none else quote) depth rest)
    | none =>
      if c = '"' ∨ c = '\'' then keep (splitClose (some c) depth rest)
      else if c = '(' then keep (splitClose none (depth + 1) rest)
      else if c = ')' then
        if depth = 1 then some ([], rest) else keep (splitClose none (depth - 1) rest)
      else keep (splitClose none depth rest)

structure BracketDepths where
  round : Nat := 0
  square : Nat := 0
  curly : Nat := 0
deriving DecidableEq, Repr

def BracketDepths.after (depths : BracketDepths) (c : Char) : BracketDepths :=
  if c = '(' then { depths with round := depths.round + 1 }
  else if c = '[' then { depths with square := depths.square + 1 }
  else if c = '\x7b' then { depths with curly := depths.curly + 1 }
  else if c = ')' then { depths with round := depths.round - 1 }
  else if c = ']' then { depths with square := depths.square - 1 }
  else if c = '\x7d' then { depths with curly := depths.curly - 1 }
  else depths

section

variable (db : CharacterDatabase)

/-- The loop of `_split_operands`. -/
def splitOperandsFrom (quote : Option Char) (depths : BracketDepths) (current : Text) :
    Text → List Text
  | [] => [db.strip current]
  | c :: rest =>
    match quote with
    | some mark =>
      splitOperandsFrom (if c = mark then none else quote) depths (current ++ [c]) rest
    | none =>
      if c = '"' ∨ c = '\'' then splitOperandsFrom (some c) depths (current ++ [c]) rest
      else if c = ',' ∧ depths = {} then
        db.strip current :: splitOperandsFrom none depths [] rest
      else splitOperandsFrom none (depths.after c) (current ++ [c]) rest

def splitOperands (source : Text) : List Text :=
  if db.strip source = [] then [] else splitOperandsFrom db none {} [] source

def isCalleeCharacter (c : Char) : Bool := db.isAlnum c || c ∈ ['_', '.', '$', ':']

structure ScannedCall where
  callee : Text
  arguments : List Text
  sourceText : Text
deriving DecidableEq, Repr

/-- `_scan_calls`, with fuel for the characters of the source. -/
def scanCalls : Nat → Text → List ScannedCall
  | 0, _ => []
  | _ + 1, [] => []
  | fuel + 1, c :: rest =>
    if !(db.isAlpha c || c == '_') then scanCalls fuel rest
    else
      let callee := c :: rest.takeWhile (isCalleeCharacter db)
      let behind := rest.dropWhile (isCalleeCharacter db)
      let blanks := behind.takeWhile db.isSpace
      match behind.dropWhile db.isSpace with
      | '(' :: inside =>
        match splitClose none 1 inside with
        | none => scanCalls fuel inside
        | some (operands, after) =>
          { callee
            arguments := splitOperands db operands
            sourceText := callee ++ blanks ++ ['('] ++ operands ++ [')'] } ::
            scanCalls fuel after
      | _ => scanCalls fuel behind

def ladderCalls (program : Program) (routine : Routine) : List SoftwareCallSite :=
  routine.ladderRungs.flatMap fun rung =>
    (scanCalls db (rung.text.getD []).length (rung.text.getD [])).map fun call =>
      { callee := call.callee
        arguments := call.arguments.mapIdx fun index argument =>
          { position := index, source := argument }
        programName := program.name
        routineName := routine.name
        language := .ladder
        sourceText := call.sourceText
        rungNumber := rung.number }

/-! ## Programs -/

def syntaxCalls (fuel : Nat) (routine : Routine) : Option (List CallNode) :=
  if routine.structuredText = [] then some []
  else (parseStructuredText db fuel routine.structuredText).map fun document =>
    statementCalls document.statements

/-- `_structured_text_calls` and `_ladder_calls` of one routine. -/
def routineCalls (fuel : Nat) (program : Program) (routine : Routine) :
    Option (Except IndexError (List SoftwareCallSite)) :=
  (syntaxCalls db fuel routine).map fun calls =>
    (calls.mapM (callSite program routine)).map (· ++ ladderCalls db program routine)

/-- `replace(call, source_path=source_path)`. -/
def withPath (sourcePath : Option Text) (call : SoftwareCallSite) : SoftwareCallSite :=
  match sourcePath with
  | some path => { call with sourcePath := some path }
  | none => call

def extractProgramCalls (fuel : Nat) (program : Program) (sourcePath : Option Text) :
    Option (Except IndexError (List SoftwareCallSite)) :=
  (program.routines.values.mapM (routineCalls db fuel program)).map fun found =>
    (found.mapM id).map fun calls => calls.flatten.map (withPath sourcePath)

end

/-! ## Captured lines -/

/-- The loop of `_captured_line`. -/
def capturedFrom (start offset : Nat) : List StructuredTextLine → Option StructuredTextLine
  | [] => none
  | line :: lines =>
    let stop := start + line.text.length
    if offset ≤ stop then some line else capturedFrom (stop + 1) offset lines

def capturedLine (routine : Routine) (offset : Nat) : Option StructuredTextLine :=
  capturedFrom 0 offset routine.structuredTextLines

end TwinForge.SoftwareCalls
