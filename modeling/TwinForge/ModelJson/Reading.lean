import TwinForge.ModelJson.Document

/-! # Reading model evidence

What is published of a document with a pointer: its typed records, its references, and the
changes between two documents. Each carries the position of the node it was made for, which
the source does not keep. A pointer is resolved token by token.
-/

namespace TwinForge.ModelJson

/-! ## Records -/

structure ModelRecord where
  pointer : Points
  type : Points
  name : Option Points
  /-- The position of the record. -/
  node : Position
deriving DecidableEq

def asText : Option Value → Option Points
  | some (.str text) => some text
  | _ => none

def shortName (type : Points) : Points :=
  (type.reverse.takeWhile (· ≠ .scalar '.')).reverse

/-- The requested type is a full name or the exact short one. -/
def recordTypeMatches (encoded : Points) : Option Points → Bool
  | none => true
  | some requested =>
    if CodePoint.scalar '.' ∈ requested then encoded = requested
    else shortName encoded = requested

/-- `record["name"]`: the name of the node, or else of its target, where it is a text. -/
def recordName (members : Members) : Option Points :=
  let name :=
    match members.lookup (Points.of "name") with
    | some name => some name
    | none => members.lookup (Points.of "target_name")
  (asText name).filter (· ≠ [])

def recordOf (requested : Option Points) (members : Members) (path : Points)
    (position : Position) : List ModelRecord :=
  match asText (members.lookup typeKey) with
  | some type =>
    if recordTypeMatches type requested then [⟨path, type, recordName members, position⟩]
    else []
  | none => []

mutual

def collectRecords (requested : Option Points) (value : Value) (path : Points)
    (position : Position) : List ModelRecord :=
  match value with
  | .arr items => collectItems requested items 0 path position
  | .obj members =>
    if keysAre members [refKey] || keysAre members [bytesKey] then []
    else if keysAre members [mapKey] then collectMap requested members path position
    else
      recordOf requested members path position ++
        collectMembers requested members path position
  | _ => []

def collectItems (requested : Option Points) (items : List Value) (index : Nat) (path : Points)
    (position : Position) : List ModelRecord :=
  match items with
  | [] => []
  | item :: items =>
    collectRecords requested item (indexPath path index) (position ++ [.index index]) ++
      collectItems requested items (index + 1) path position

def collectMembers (requested : Option Points) (members : Members) (path : Points)
    (position : Position) : List ModelRecord :=
  match members with
  | [] => []
  | (key, item) :: members =>
    (if key = typeKey then []
      else collectRecords requested item (keyPath path key) (position ++ [.key key])) ++
      collectMembers requested members path position

def collectMap (requested : Option Points) (members : Members) (path : Points)
    (position : Position) : List ModelRecord :=
  match members with
  | [] => []
  | (key, item) :: members =>
    if key = mapKey then
      match item with
      | .arr entries =>
        collectEntries requested entries 0 (keyPath path mapKey) (position ++ [.key mapKey])
      | _ => []
    else collectMap requested members path position

def collectEntries (requested : Option Points) (entries : List Value) (index : Nat)
    (path : Points) (position : Position) : List ModelRecord :=
  match entries with
  | [] => []
  | entry :: entries =>
    (match entry with
      | .obj members =>
        collectMember requested entryKey members (indexPath path index)
            (position ++ [.index index]) ++
          collectMember requested entryValue members (indexPath path index)
            (position ++ [.index index])
      | _ => []) ++
      collectEntries requested entries (index + 1) path position

def collectMember (requested : Option Points) (name : Points) (members : Members)
    (path : Points) (position : Position) : List ModelRecord :=
  match members with
  | [] => []
  | (key, item) :: members =>
    if key = name then
      collectRecords requested item (keyPath path name) (position ++ [.key name])
    else collectMember requested name members path position

end

/-- The evidence of a document: its `document` member. -/
def evidence (document : Value) : Option Value := document.child? (.key documentKey)

def modelJsonRecords (document : Value) (requested : Option Points) : List ModelRecord :=
  match evidence document with
  | some root =>
    collectRecords requested root (keyPath (Points.of "#") documentKey) [.key documentKey]
  | none => []

/-! ## Changes -/

inductive Operation where
  | remove
  | add
  | replace
deriving DecidableEq, Repr

structure Change where
  operation : Operation
  pointer : Points
  before : Option Value
  after : Option Value
  /-- The position of the node that changed. -/
  node : Position

def pointsOrder (first second : Points) : Ordering :=
  compare (first.map CodePoint.value) (second.map CodePoint.value)

/-- `sorted(keys)`. -/
def sortedKeys (keys : List Points) : List Points := sortedBy pointsOrder keys

def differentTypes : Value → Value → Bool
  | .null, .null => false
  | .bool _, .bool _ => false
  | .int _, .int _ => false
  | .float _, .float _ => false
  | .str _, .str _ => false
  | .arr _, .arr _ => false
  | .obj _, .obj _ => false
  | _, _ => true

/-- Two scalars of one type are not equal; validation leaves no NaN, which differs from itself. -/
def differentScalars : Value → Value → Bool
  | .bool before, .bool after => before ≠ after
  | .int before, .int after => before ≠ after
  | .float before, .float after => before ≠ after
  | .str before, .str after => before ≠ after
  | _, _ => false

def removedMembers (before after : Members) (path : Points) (position : Position) :
    List Change :=
  (sortedKeys ((keys before).filter (· ∉ keys after))).map fun key =>
    ⟨.remove, keyPath path key, before.lookup key, none, position ++ [.key key]⟩

def addedMembers (before after : Members) (path : Points) (position : Position) : List Change :=
  (sortedKeys ((keys after).filter (· ∉ keys before))).map fun key =>
    ⟨.add, keyPath path key, none, after.lookup key, position ++ [.key key]⟩

def removedItems (items : List Value) (start : Nat) (path : Points) (position : Position) :
    List Change :=
  (items.zipIdx start).map fun entry =>
    ⟨.remove, indexPath path entry.2, some entry.1, none, position ++ [.index entry.2]⟩

def addedItems (items : List Value) (start : Nat) (path : Points) (position : Position) :
    List Change :=
  (items.zipIdx start).map fun entry =>
    ⟨.add, indexPath path entry.2, none, some entry.1, position ++ [.index entry.2]⟩

mutual

def compareNode (before after : Value) (path : Points) (position : Position) : List Change :=
  if differentTypes before after then
    [⟨.replace, path, some before, some after, position⟩]
  else
    match before, after with
    | .obj before, .obj after =>
      removedMembers before after path position ++ addedMembers before after path position ++
        (sortedBy (fun first second => pointsOrder first.1 second.1)
          (compareMembers before after path position)).flatMap Prod.snd
    | .arr before, .arr after => compareItems before after 0 path position
    | before, after =>
      if differentScalars before after then
        [⟨.replace, path, some before, some after, position⟩]
      else []

def compareMembers (before after : Members) (path : Points) (position : Position) :
    List (Points × List Change) :=
  match before with
  | [] => []
  | (key, item) :: before =>
    match after.lookup key with
    | some other =>
      (key, compareNode item other (keyPath path key) (position ++ [.key key])) ::
        compareMembers before after path position
    | none => compareMembers before after path position

def compareItems (before after : List Value) (index : Nat) (path : Points)
    (position : Position) : List Change :=
  match before, after with
  | [], after => addedItems after index path position
  | before :: rest, [] => removedItems (before :: rest) index path position
  | item :: before, other :: after =>
    compareNode item other (indexPath path index) (position ++ [.index index]) ++
      compareItems before after (index + 1) path position

end

def compareModelJson (before after : Value) : List Change :=
  compareNode before after (Points.of "#") []

/-! ## Resolving pointers -/

inductive PointerError where
  | noFragment
  | missing
  | invalidIndex
  | indexOutOfRange
  | traversesScalar
  | invalidPercentEscape
  | invalidUtf8Escape
  | invalidEscape
  /-- A lone surrogate has no UTF-8 encoding. -/
  | unicodeEncodeError
  /-- A digit that is no decimal digit. -/
  | integerError
deriving DecidableEq, Repr

/-- Replace `~0` and `~1`. -/
def unescape : Text → Option Text
  | [] => some []
  | '~' :: '0' :: rest => (unescape rest).map ('~' :: ·)
  | '~' :: '1' :: rest => (unescape rest).map ('/' :: ·)
  | '~' :: _ => none
  | c :: rest => (unescape rest).map (c :: ·)

/-- Decode one token while rejecting malformed escapes. -/
def decodePointerToken (token : Points) : Except PointerError Text :=
  if ¬ Points.percentEscapesValid token then .error .invalidPercentEscape
  else
    match Points.unquoteToBytes token with
    | none => .error .unicodeEncodeError
    | some bytes =>
      match Points.decodeUtf8 bytes with
      | none => .error .invalidUtf8Escape
      | some text =>
        match unescape text with
        | none => .error .invalidEscape
        | some decoded => .ok decoded

structure Node where
  position : Position
  value : Value

section

variable (db : CharacterDatabase)

def selectChild (node : Node) (encoded : Points) : Except PointerError Node :=
  match decodePointerToken encoded with
  | .error error => .error error
  | .ok token =>
    match node.value with
    | .obj members =>
      match members.lookup (Points.ofText token) with
      | none => .error .missing
      | some child => .ok ⟨node.position ++ [.key (Points.ofText token)], child⟩
    | .arr items =>
      if ¬ db.isDigitText token ∨ (1 < token.length ∧ token.head? = some '0') then
        .error .invalidIndex
      else
        match readInt db token with
        | none => .error .integerError
        | some index =>
          match items[index.toNat]? with
          | none => .error .indexOutOfRange
          | some child => .ok ⟨node.position ++ [.index index.toNat], child⟩
    | _ => .error .traversesScalar

def resolveJsonPointer (document : Value) (pointer : Points) : Except PointerError Node :=
  if pointer = Points.of "#" then .ok ⟨[], document⟩
  else if ¬ (Points.of "#/").isPrefixOf pointer then .error .noFragment
  else ((pointer.drop 2).splitOn (.scalar '/')).foldlM (selectChild db) ⟨[], document⟩

def resolveModelJsonPointer (document : Value) (pointer : Points) (resolveReference : Bool) :
    Except PointerError Node :=
  match resolveJsonPointer db document pointer with
  | .error error => .error error
  | .ok selected =>
    match selected.value with
    | .obj members =>
      if resolveReference ∧ keysAre members [refKey] then
        match asText (members.lookup refKey) with
        | some reference => resolveJsonPointer db document reference
        | none => .ok selected
      else .ok selected
    | _ => .ok selected

end

end TwinForge.ModelJson
