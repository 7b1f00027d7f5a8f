import TwinForge.Foundation.Dictionary
import TwinForge.ModelJson.Reading

/-! # The evidence encoder

An object graph is written depth first; an object that has been met before is written as a
reference to the path of its first occurrence. Element trees are not modelled.
-/

namespace TwinForge.ModelJson

/-! ## Object graphs -/

inductive Scalar where
  | null
  | bool (value : Bool)
  | int (value : Int)
  | float (value : Rat)
  | str (value : Points)
deriving DecidableEq

def Scalar.value : Scalar → Value
  | .null => .null
  | .bool value => .bool value
  | .int value => .int value
  | .float value => .float (.finite value)
  | .str value => .str value

inductive MapKey where
  | scalar (value : Scalar)
  /-- An enumeration member, by its value. -/
  | member (value : Scalar)
deriving DecidableEq

def MapKey.encoded : MapKey → Scalar
  | .scalar value => value
  | .member value => value

inductive Operand where
  | scalar (value : Scalar)
  /-- An enumeration member, by its value. -/
  | member (value : Scalar)
  | path (posix : Points)
  | bytes (bytes : List UInt8)
  /-- A dataclass instance, a dictionary, a list or a tuple, by its identity. -/
  | object (identity : Nat)
deriving DecidableEq

inductive HeapObject where
  | record (type : Points) (isAsset : Bool) (fields : List (Points × Operand))
  | mapping (entries : List (MapKey × Operand))
  | sequence (items : List Operand)
deriving DecidableEq

def parentField : Points := Points.of "parent"
def idField : Points := Points.of "id"

/-- The fields that are encoded: neither a parent link nor the id of an asset. -/
def keptFields (isAsset : Bool) (fields : List (Points × Operand)) : List (Points × Operand) :=
  fields.filter fun field =>
    decide (field.1 ≠ parentField) && !(isAsset && decide (field.1 = idField))

def HeapObject.operands : HeapObject → List Operand
  | .record _ _ fields => fields.map Prod.snd
  | .mapping entries => entries.map Prod.snd
  | .sequence items => items

/-- What the language promises of an object: named fields and distinct keys. -/
def HeapObject.WellFormed : HeapObject → Prop
  | .record type _ fields =>
    type ≠ [] ∧ (fields.map Prod.fst).Nodup ∧ ∀ field ∈ fields, field.1 ∉ reservedKeys
  | .mapping entries => (entries.map Prod.fst).Nodup
  | .sequence _ => True

/-- The type of an `L5XDocument`. -/
def isDocumentType (type : Points) : Bool := (Points.of ".L5XDocument").isSuffixOf type

/-- Objects by their identities, rooted at a document record. Sharing and cycles are free. -/
structure DocumentGraph where
  objects : List HeapObject
  root : Nat
  wellFormed : ∀ object ∈ objects, object.WellFormed
  closed : ∀ object ∈ objects, ∀ identity, .object identity ∈ object.operands →
    identity < objects.length
  rootDocument : ∃ type isAsset fields, objects[root]? = some (.record type isAsset fields) ∧
    isDocumentType type = true

/-! ## Encoding -/

/-- `self._paths`: the path of the first occurrence, by identity. -/
abbrev Seen := Dictionary Nat Points

/-- Encode one value at its path; `none` where the fuel runs out. -/
abbrev Encode := Operand → Points → Seen → Option (Value × Seen)

def hexOf (byte : UInt8) : Points := Points.ofText (Ascii.hexByte byte.toNat)

def bytesValue (bytes : List UInt8) : Value := .obj [(bytesKey, .str (bytes.flatMap hexOf))]

def refValue (path : Points) : Value := .obj [(refKey, .str path)]

def encodeList (encode : Encode) : List (Operand × Points) → Seen → Option (List Value × Seen)
  | [], seen => some ([], seen)
  | (operand, path) :: rest, seen =>
    match encode operand path seen with
    | none => none
    | some (value, seen) =>
      match encodeList encode rest seen with
      | none => none
      | some (values, seen) => some (value :: values, seen)

def encodeDataclass (encode : Encode) (type : Points) (isAsset : Bool)
    (fields : List (Points × Operand)) (path : Points) (seen : Seen) : Option (Value × Seen) :=
  let kept := keptFields isAsset fields
  (encodeList encode (kept.map fun field => (field.2, keyPath path field.1)) seen).map
    fun (values, seen) =>
      (.obj ((typeKey, .str type) :: (kept.map Prod.fst).zip values), seen)

/-- The entries by their string keys, where all keys are strings and none is reserved. -/
def stringEntries (entries : List (MapKey × Operand)) : Option (List (Points × Operand)) :=
  entries.mapM fun entry =>
    match entry.1 with
    | .scalar (.str key) => if key ∈ reservedKeys then none else some (key, entry.2)
    | _ => none

section

/- The JSON text of a key, by which the entries of a typed map are ordered. -/
variable (mappingKey : MapKey → Points)

def orderedEntries (entries : List (MapKey × Operand)) : List (MapKey × Operand) :=
  sortedBy (fun first second => pointsOrder (mappingKey first.1) (mappingKey second.1)) entries

def orderedStrings (entries : List (Points × Operand)) : List (Points × Operand) :=
  sortedBy (fun first second => pointsOrder first.1 second.1) entries

def entryObject (key : MapKey) (value : Value) : Value :=
  .obj [(entryKey, key.encoded.value), (entryValue, value)]

def encodeMapping (encode : Encode) (entries : List (MapKey × Operand)) (path : Points)
    (seen : Seen) : Option (Value × Seen) :=
  match stringEntries entries with
  | some named =>
    let ordered := orderedStrings named
    (encodeList encode (ordered.map fun entry => (entry.2, keyPath path entry.1)) seen).map
      fun (values, seen) => (.obj ((ordered.map Prod.fst).zip values), seen)
  | none =>
    let ordered := orderedEntries mappingKey entries
    (encodeList encode (ordered.zipIdx.map fun entry =>
        (entry.1.2, keyPath (indexPath (keyPath path mapKey) entry.2) entryValue)) seen).map
      fun (values, seen) =>
        (.obj [(mapKey, .arr (List.zipWith (fun entry value => entryObject entry.1 value)
          ordered values))], seen)

def encodeSequence (encode : Encode) (items : List Operand) (path : Points) (seen : Seen) :
    Option (Value × Seen) :=
  (encodeList encode (items.zipIdx.map fun entry => (entry.1, indexPath path entry.2)) seen).map
    fun (values, seen) => (.arr values, seen)

def encodeObject (encode : Encode) (object : HeapObject) (path : Points) (seen : Seen) :
    Option (Value × Seen) :=
  match object with
  | .record type isAsset fields => encodeDataclass encode type isAsset fields path seen
  | .mapping entries => encodeMapping mappingKey encode entries path seen
  | .sequence items => encodeSequence encode items path seen

/-- Encode one value; every object that is entered takes one unit of fuel. -/
def encode (objects : List HeapObject) (fuel : Nat) : Encode := fun operand path seen =>
  match operand with
  | .scalar value => some (value.value, seen)
  | .member value => some (value.value, seen)
  | .path posix => some (.str posix, seen)
  | .bytes bytes => some (bytesValue bytes, seen)
  | .object identity =>
    match seen.get? identity with
    | some first => some (refValue first, seen)
    | none =>
      match fuel, objects[identity]? with
      | fuel + 1, some object =>
        encodeObject mappingKey (encode objects fuel) object path
          (seen.set identity path)
      | _, _ => none

def documentWith (root : Value) : Value :=
  .obj [
    (schemaVersionKey, .str (Points.of "1.0")), (sourceFormatKey, .str (Points.of "l5x")),
    (documentKey, root)]

/-- Export a document graph: no more objects are entered than there are. -/
def export? (graph : DocumentGraph) : Option Value :=
  (encode mappingKey graph.objects graph.objects.length (.object graph.root)
    (keyPath (Points.of "#") documentKey) {}).map fun result => documentWith result.1

/-! ## Unfolding -/

inductive Tree where
  | cut
  | scalar (value : Scalar)
  | bytes (bytes : List UInt8)
  | record (type : Points) (fields : List (Points × Tree))
  | mapping (entries : List (Scalar × Tree))
  | sequence (items : List Tree)

/-- The tree of an object graph. Dictionaries are read in the order they are written in. -/
def unfoldOperand (objects : List HeapObject) : Nat → Operand → Tree
  | 0, _ => .cut
  | depth + 1, operand =>
    match operand with
    | .scalar value => .scalar value
    | .member value => .scalar value
    | .path posix => .scalar (.str posix)
    | .bytes bytes => .bytes bytes
    | .object identity =>
      match objects[identity]? with
      | none => .cut
      | some (.record type isAsset fields) =>
        .record type ((keptFields isAsset fields).map fun field =>
          (field.1, unfoldOperand objects depth field.2))
      | some (.mapping entries) =>
        match stringEntries entries with
        | some named =>
          .mapping ((orderedStrings named).map fun entry =>
            (.str entry.1, unfoldOperand objects depth entry.2))
        | none =>
          .mapping ((orderedEntries mappingKey entries).map fun entry =>
            (entry.1.encoded, unfoldOperand objects depth entry.2))
      | some (.sequence items) => .sequence (items.map (unfoldOperand objects depth))

end

mutual

/-- All nodes of a document below a position, in the order they are written in. -/
def nodes (value : Value) (position : Position) : List (Position × Value) :=
  (position, value) ::
    match value with
    | .arr items => itemNodes items 0 position
    | .obj members => memberNodes members position
    | _ => []

def itemNodes (items : List Value) (index : Nat) (position : Position) :
    List (Position × Value) :=
  match items with
  | [] => []
  | item :: items =>
    nodes item (position ++ [.index index]) ++ itemNodes items (index + 1) position

def memberNodes (members : Members) (position : Position) : List (Position × Value) :=
  match members with
  | [] => []
  | (key, item) :: members =>
    nodes item (position ++ [.key key]) ++ memberNodes members position

end

def nodeNamed (document : Value) (path : Points) : Option Value :=
  ((nodes document []).find? fun entry => pointer entry.1 = path).map Prod.snd

/-- A reference stands for the node it names. -/
def dereference (document value : Value) : Value :=
  match value with
  | .obj members =>
    if keysAre members [refKey] then
      match members.lookup refKey with
      | some (.str path) => (nodeNamed document path).getD value
      | _ => value
    else value
  | _ => value

def hexPair : Points → Option (List UInt8)
  | [] => some []
  | .scalar high :: .scalar low :: rest =>
    match Points.hexByteValue (UInt8.ofNat high.toNat),
        Points.hexByteValue (UInt8.ofNat low.toNat), hexPair rest with
    | some high, some low, some bytes => some (UInt8.ofNat (16 * high + low) :: bytes)
    | _, _, _ => none
  | _ => none

def scalarOf : Value → Option Scalar
  | .null => some .null
  | .bool value => some (.bool value)
  | .int value => some (.int value)
  | .float (.finite value) => some (.float value)
  | .str value => some (.str value)
  | _ => none

def readEntry (entry : Value) : Option (Scalar × Value) :=
  match entry with
  | .obj members =>
    match (members.lookup entryKey).bind scalarOf, members.lookup entryValue with
    | some key, some value => some (key, value)
    | _, _ => none
  | _ => none

def unfoldNode (document : Value) : Nat → Value → Tree
  | 0, _ => .cut
  | depth + 1, value =>
    match dereference document value with
    | .null => .scalar .null
    | .bool value => .scalar (.bool value)
    | .int value => .scalar (.int value)
    | .float (.finite value) => .scalar (.float value)
    | .float _ => .cut
    | .str value => .scalar (.str value)
    | .arr items => .sequence (items.map (unfoldNode document depth))
    | .obj members =>
      if keysAre members [bytesKey] then
        match (asText (members.lookup bytesKey)).bind hexPair with
        | some bytes => .bytes bytes
        | none => .cut
      else if keysAre members [mapKey] then
        match members.lookup mapKey with
        | some (.arr entries) =>
          .mapping ((entries.filterMap readEntry).map fun entry =>
            (entry.1, unfoldNode document depth entry.2))
        | _ => .cut
      else
        match members.lookup typeKey with
        | some (.str type) =>
          .record type ((members.filter fun member => member.1 ≠ typeKey).map fun member =>
            (member.1, unfoldNode document depth member.2))
        | _ =>
          .mapping (members.map fun member =>
            (.str member.1, unfoldNode document depth member.2))

end TwinForge.ModelJson
