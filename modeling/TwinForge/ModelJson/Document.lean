import TwinForge.Foundation.CodePoints
import TwinForge.Foundation.Integers
import TwinForge.Foundation.Sorting

/-! # Model evidence documents

JSON values as the reader loads them, the pointers that name their nodes, and what is
checked of a document before it is read.
-/

namespace TwinForge.ModelJson

/-- A float; the two zeros are one. -/
inductive FloatValue where
  | finite (value : Rat)
  | infinity
  | negativeInfinity
  | nan
deriving DecidableEq

inductive Value where
  | null
  | bool (value : Bool)
  | int (value : Int)
  | float (value : FloatValue)
  | str (value : Points)
  | arr (items : List Value)
  | obj (members : List (Points × Value))

abbrev Members := List (Points × Value)

def keys (members : Members) : List Points := members.map Prod.fst

def bytesKey : Points := Points.of "$bytes_hex"
def mapKey : Points := Points.of "$map"
def refKey : Points := Points.of "$ref"
def typeKey : Points := Points.of "$type"
def entryKey : Points := Points.of "key"
def entryValue : Points := Points.of "value"

def reservedKeys : List Points := [bytesKey, mapKey, refKey, typeKey]

/-- `set(value) == {...}`. -/
def keysAre (members : Members) (wanted : List Points) : Bool :=
  (keys members).all (· ∈ wanted) && wanted.all (· ∈ keys members)

/-! ## Nodes and pointers -/

/-- From a node to one of its children: a member of an object or an item of an array. -/
inductive Step where
  | key (key : Points)
  | index (index : Nat)
deriving DecidableEq

abbrev Position := List Step

def Value.child? : Value → Step → Option Value
  | .obj members, .key key => members.lookup key
  | .arr items, .index index => items[index]?
  | _, _ => none

def Value.at? (value : Value) : Position → Option Value
  | [] => some value
  | step :: rest => (value.child? step).bind fun child => child.at? rest

/-- `str.replace` of one character. -/
def replaceChar (old : Char) (new : Points) (value : Points) : Points :=
  value.flatMap fun point => if point = .scalar old then new else [point]

def pointerToken (value : Points) : Points :=
  replaceChar '/' (Points.of "~1") (replaceChar '~' (Points.of "~0") value)

/-- `f"{path}/{_pointer_token(key)}"`. -/
def keyPath (path key : Points) : Points := path ++ .scalar '/' :: pointerToken key

/-- `f"{path}/{index}"`. -/
def indexPath (path : Points) (index : Nat) : Points :=
  path ++ .scalar '/' :: Points.ofText (decimal index)

def Step.token : Step → Points
  | .key name => pointerToken name
  | .index place => Points.ofText (decimal place)

def pointer (position : Position) : Points :=
  Points.of "#" ++ position.flatMap fun step => .scalar '/' :: step.token

theorem pointer_key (position : Position) (key : Points) :
    keyPath (pointer position) key = pointer (position ++ [.key key]) := by
  simp [keyPath, pointer, Step.token]

theorem pointer_index (position : Position) (index : Nat) :
    indexPath (pointer position) index = pointer (position ++ [.index index]) := by
  simp [indexPath, pointer, Step.token]

/-! ## Validation -/

inductive ValidationError where
  | notObject
  | wrongMembers
  | wrongVersion
  | wrongFormat
  | notDocumentRecord
  | nonFiniteNumber (path : Points)
  | invalidReference (path : Points)
  | unresolvedReference (path reference : Points)
  | invalidBytes (path : Points)
  | invalidMap (path : Points)
  | invalidMapEntry (path : Points)
  | blankType (path : Points)
  | invalidReservedKeys (path : Points)
deriving DecidableEq

/-- What `bytes.fromhex` reads: digit pairs, with white space between them. -/
def isHexText : Points → Bool
  | [] => true
  | first :: rest =>
    if first ∈ [.scalar ' ', .scalar '\t', .scalar '\n', .scalar '\r', .scalar '\x0b',
        .scalar '\x0c'] then isHexText rest
    else
      match rest with
      | [] => false
      | second :: rest =>
        Points.isHexDigit first && Points.isHexDigit second && isHexText rest

def validateReference (reference : Option Value) (path : Points) (paths : List Points) :
    Except ValidationError (List Points) :=
  match reference with
  | some (.str reference) =>
    if ¬ (Points.of "#/").isPrefixOf reference then .error (.invalidReference path)
    else if reference ∉ paths then .error (.unresolvedReference path reference)
    else .ok paths
  | _ => .error (.invalidReference path)

def validateBytes (encoded : Option Value) (path : Points) (paths : List Points) :
    Except ValidationError (List Points) :=
  match encoded with
  | some (.str encoded) => if isHexText encoded then .ok paths else .error (.invalidBytes path)
  | _ => .error (.invalidBytes path)

mutual

/-- Validate one node; `paths` are those a reference may name. -/
def validateNode (value : Value) (path : Points) (paths : List Points) :
    Except ValidationError (List Points) :=
  match value with
  | .null | .bool _ | .int _ | .str _ => .ok paths
  | .float number =>
    match number with
    | .finite _ => .ok paths
    | _ => .error (.nonFiniteNumber path)
  | .arr items => validateItems items 0 path (paths ++ [path])
  | .obj members =>
    let reserved := reservedKeys.filter (· ∈ keys members)
    if reserved = [] then validateMembers [] members path (paths ++ [path])
    else if reserved = [refKey] ∧ keysAre members [refKey] then
      validateReference (members.lookup refKey) path paths
    else if reserved = [bytesKey] ∧ keysAre members [bytesKey] then
      validateBytes (members.lookup bytesKey) path paths
    else if reserved = [mapKey] ∧ keysAre members [mapKey] then
      validateMap members path (paths ++ [path])
    else
      match members.lookup typeKey with
      | some (.str name) =>
        if reserved ≠ [typeKey] then .error (.invalidReservedKeys path)
        else if name = [] then .error (.blankType path)
        else validateMembers [typeKey] members path (paths ++ [path])
      | _ => .error (.invalidReservedKeys path)

def validateItems (items : List Value) (index : Nat) (path : Points) (paths : List Points) :
    Except ValidationError (List Points) :=
  match items with
  | [] => .ok paths
  | item :: items => do
    let paths ← validateNode item (indexPath path index) paths
    validateItems items (index + 1) path paths

def validateMembers (skipped : List Points) (members : Members) (path : Points)
    (paths : List Points) : Except ValidationError (List Points) :=
  match members with
  | [] => .ok paths
  | (key, item) :: members =>
    if key ∈ skipped then validateMembers skipped members path paths
    else do
      let paths ← validateNode item (keyPath path key) paths
      validateMembers skipped members path paths

def validateMap (members : Members) (path : Points) (paths : List Points) :
    Except ValidationError (List Points) :=
  match members with
  | [] => .error (.invalidMap path)
  | (key, item) :: members =>
    if key = mapKey then
      match item with
      | .arr entries => validateEntries entries 0 (keyPath path mapKey) paths
      | _ => .error (.invalidMap path)
    else validateMap members path paths

def validateEntries (entries : List Value) (index : Nat) (path : Points) (paths : List Points) :
    Except ValidationError (List Points) :=
  match entries with
  | [] => .ok paths
  | entry :: entries =>
    match entry with
    | .obj members =>
      if keysAre members [entryKey, entryValue] then do
        let paths ← validateMember entryKey members (indexPath path index) paths
        let paths ← validateMember entryValue members (indexPath path index) paths
        validateEntries entries (index + 1) path paths
      else .error (.invalidMapEntry (indexPath path index))
    | _ => .error (.invalidMapEntry (indexPath path index))

/-- `entry[name]`. -/
def validateMember (name : Points) (members : Members) (path : Points) (paths : List Points) :
    Except ValidationError (List Points) :=
  match members with
  | [] => .ok paths
  | (key, item) :: members =>
    if key = name then validateNode item (keyPath path name) paths
    else validateMember name members path paths

end

def schemaVersionKey : Points := Points.of "schema_version"
def sourceFormatKey : Points := Points.of "source_format"
def documentKey : Points := Points.of "document"

/-- `str(root.get("$type", "")).endswith(".L5XDocument")` of a record. -/
def isDocumentRecord (root : Value) : Bool :=
  match root with
  | .obj members =>
    match members.lookup typeKey with
    | some (.str name) => (Points.of ".L5XDocument").isSuffixOf name
    | _ => false
  | _ => false

def isText (value : Option Value) (text : Points) : Bool :=
  match value with
  | some (.str found) => found = text
  | _ => false

def validateModelJson (document : Value) : Except ValidationError Unit :=
  match document with
  | .obj members =>
    if ¬ keysAre members [schemaVersionKey, sourceFormatKey, documentKey] then
      .error .wrongMembers
    else if ¬ isText (members.lookup schemaVersionKey) (Points.of "1.0") then
      .error .wrongVersion
    else if ¬ isText (members.lookup sourceFormatKey) (Points.of "l5x") then
      .error .wrongFormat
    else
      match members.lookup documentKey with
      | none => .error .wrongMembers
      | some root =>
        match validateNode root (keyPath (Points.of "#") documentKey) [] with
        | .error error => .error error
        | .ok _ => if isDocumentRecord root then .ok () else .error .notDocumentRecord
  | _ => .error .notObject

end TwinForge.ModelJson
