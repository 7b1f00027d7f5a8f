import TwinForge.Foundation.Lines

/-! # Statements of an EDS section

Statements are collected line by line: a statement starts on a line with an equals sign and
ends on a line that ends with a semicolon. The fields of its value are separated by the
commas outside quotes.
-/

namespace TwinForge.Eds

open Lines

structure EdsAssignment where
  name : Text
  value : Text
  rawStatement : Text
deriving DecidableEq, Repr

structure EdsSection where
  name : Text
  assignments : List EdsAssignment := []
  rawLines : List Text := []
deriving DecidableEq, Repr

/-- `_without_comment`: a line up to the first dollar sign outside quotes. -/
def withoutComment (quoted : Bool) : Text → Text
  | [] => []
  | c :: rest =>
    let quoted := if c = '"' then !quoted else quoted
    if c = '$' ∧ quoted = false then [] else c :: withoutComment quoted rest

/-- `value.removesuffix(";")`. -/
def removeSemicolon (value : Text) : Text :=
  if value.getLast? = some ';' then value.dropLast else value

section

variable (db : CharacterDatabase)

/-- `text.rstrip()`. -/
def stripRight (text : Text) : Text := (text.reverse.dropWhile db.isSpace).reverse

def hasTerminator (line : Text) : Bool :=
  (stripRight db (withoutComment false line)).getLast? = some ';'

def assignment (rawStatement : Text) : Option EdsAssignment :=
  match cutAt '=' (joinText "\n" ((splitLines rawStatement).map (withoutComment false))) with
  | none => none
  | some (name, value) => some {
      name := db.strip name
      value := db.strip (removeSemicolon (db.strip value))
      rawStatement }

/-- The statement under way and the assignments before it. -/
structure SectionState where
  assignments : List EdsAssignment := []
  statement : List Text := []

/-- The statement under way becomes an assignment, where it is one. -/
def SectionState.flush (state : SectionState) : SectionState where
  assignments := state.assignments ++ (assignment db (joinText "\n" state.statement)).toList
  statement := []

def sectionLine (state : SectionState) (line : Text) : SectionState :=
  let semantic := withoutComment false line
  if state.statement = [] ∧ (db.strip semantic = [] ∨ '=' ∉ semantic) then state
  else
    let state := { state with statement := state.statement ++ [line] }
    if hasTerminator db semantic then state.flush db else state

def buildSection (name : Text) (lines : List Text) : EdsSection :=
  let state := lines.foldl (sectionLine db) {}
  let state := if state.statement = [] then state else state.flush db
  { name, assignments := state.assignments, rawLines := lines }

/-- The loop of `_fields`. -/
def fieldsFrom (quoted : Bool) (current : Text) : Text → List Text
  | [] => [db.strip current]
  | '"' :: next@('"' :: rest) =>
    if quoted then fieldsFrom quoted (current ++ ['"', '"']) rest
    else fieldsFrom true (current ++ ['"']) next
  | c :: rest =>
    let quoted := if c = '"' then !quoted else quoted
    if c = ',' ∧ quoted = false then db.strip current :: fieldsFrom quoted [] rest
    else fieldsFrom quoted (current ++ [c]) rest

def fields (value : Text) : List Text := fieldsFrom db false [] value

end

end TwinForge.Eds
