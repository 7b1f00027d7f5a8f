import TwinForge.Foundation.Sorting

/-! # JSON documents

Values, the text a layout writes of them, and a reader of texts. Numbers are integers: a
number with a fraction or an exponent is not read.
-/

namespace TwinForge

inductive Json where
  | null
  | bool (value : Bool)
  | int (value : Int)
  | str (value : Text)
  | arr (items : List Json)
  | obj (members : List (Text × Json))

namespace Json

/-! ## Writing -/

/-- How a document is laid out: whether other characters than ASCII are escaped, and the
width of an indentation step where items stand on lines of their own. -/
structure Layout where
  asciiOnly : Bool
  indent : Option Nat

def hexUnit (n : Nat) : Text :=
  [Nat.digitChar (n / 4096 % 16), Nat.digitChar (n / 256 % 16), Nat.digitChar (n / 16 % 16),
    Nat.digitChar (n % 16)]

/-- The escape of a code point, as a surrogate pair beyond the basic plane. -/
def unicodeEscape (n : Nat) : Text :=
  if n < 65536 then '\\' :: 'u' :: hexUnit n
  else '\\' :: 'u' :: hexUnit (55296 + (n - 65536) / 1024) ++
    '\\' :: 'u' :: hexUnit (56320 + (n - 65536) % 1024)

def escapeChar (asciiOnly : Bool) (c : Char) : Text :=
  if c = '"' then ['\\', '"']
  else if c = '\\' then ['\\', '\\']
  else if c = '\n' then ['\\', 'n']
  else if c = '\r' then ['\\', 'r']
  else if c = '\t' then ['\\', 't']
  else if c.toNat = 8 then ['\\', 'b']
  else if c.toNat = 12 then ['\\', 'f']
  else if c.toNat < 32 ∨ (asciiOnly = true ∧ 126 < c.toNat) then unicodeEscape c.toNat
  else [c]

def writeString (layout : Layout) (s : Text) : Text :=
  '"' :: s.flatMap (escapeChar layout.asciiOnly) ++ ['"']

def writeInt (n : Int) : Text :=
  if n < 0 then '-' :: decimal n.natAbs else decimal n.natAbs

namespace Layout

variable (layout : Layout)

def newline (level : Nat) : Text :=
  match layout.indent with
  | none => []
  | some width => '\n' :: List.replicate (width * level) ' '

def separator (level : Nat) : Text :=
  match layout.indent with
  | none => [',', ' ']
  | some _ => ',' :: layout.newline level

end Layout

mutual

def write (layout : Layout) (level : Nat) : Json → Text
  | .null => "null"
  | .bool true => "true"
  | .bool false => "false"
  | .int n => writeInt n
  | .str s => writeString layout s
  | .arr [] => "[]"
  | .arr (item :: items) =>
    '[' :: layout.newline (level + 1) ++ write layout (level + 1) item ++
      writeItems layout (level + 1) items ++ layout.newline level ++ [']']
  | .obj [] => "{}"
  | .obj ((key, value) :: members) =>
    '{' :: layout.newline (level + 1) ++ writeString layout key ++ [':', ' '] ++
      write layout (level + 1) value ++ writeMembers layout (level + 1) members ++
        layout.newline level ++ ['}']

def writeItems (layout : Layout) (level : Nat) : List Json → Text
  | [] => []
  | item :: items =>
    layout.separator level ++ write layout level item ++ writeItems layout level items

def writeMembers (layout : Layout) (level : Nat) : List (Text × Json) → Text
  | [] => []
  | (key, value) :: members =>
    layout.separator level ++ writeString layout key ++ [':', ' '] ++
      write layout level value ++ writeMembers layout level members

end

/-! ## Reading -/

def isSpace (c : Char) : Bool := c = ' ' || c = '\t' || c = '\n' || c = '\r'

def skipSpace (text : Text) : Text := text.dropWhile isSpace

def hexValue (c : Char) : Option Nat :=
  if c.isDigit then some (c.toNat - 48)
  else if 'a' ≤ c ∧ c ≤ 'f' then some (c.toNat - 87)
  else if 'A' ≤ c ∧ c ≤ 'F' then some (c.toNat - 55)
  else none

def readUnit : Text → Option (Nat × Text)
  | a :: b :: c :: d :: rest => do
    let a ← hexValue a
    let b ← hexValue b
    let c ← hexValue c
    let d ← hexValue d
    some (((a * 16 + b) * 16 + c) * 16 + d, rest)
  | _ => none

def readLow : Text → Option (Nat × Text)
  | '\\' :: 'u' :: rest => readUnit rest
  | _ => none

/-- What follows `\u`. A surrogate is no code point, so it is read in a pair only. -/
def readUnicode (text : Text) : Option (Char × Text) := do
  let (unit, rest) ← readUnit text
  if unit < 55296 ∨ 57343 < unit then some (Char.ofNat unit, rest)
  else if unit < 56320 then do
    let (low, rest) ← readLow rest
    if 56320 ≤ low ∧ low ≤ 57343 then
      some (Char.ofNat (65536 + (unit - 55296) * 1024 + (low - 56320)), rest)
    else none
  else none

def readEscape : Text → Option (Char × Text)
  | '"' :: rest => some ('"', rest)
  | '\\' :: rest => some ('\\', rest)
  | '/' :: rest => some ('/', rest)
  | 'b' :: rest => some (Char.ofNat 8, rest)
  | 'f' :: rest => some (Char.ofNat 12, rest)
  | 'n' :: rest => some ('\n', rest)
  | 'r' :: rest => some ('\r', rest)
  | 't' :: rest => some ('\t', rest)
  | 'u' :: rest => readUnicode rest
  | _ => none

def readString : Nat → Text → Option (Text × Text)
  | 0, _ => none
  | _ + 1, [] => none
  | fuel + 1, c :: rest =>
    if c = '"' then some ([], rest)
    else if c = '\\' then do
      let (c, rest) ← readEscape rest
      let (s, rest) ← readString fuel rest
      some (c :: s, rest)
    else if c.toNat < 32 then none
    else do
      let (s, rest) ← readString fuel rest
      some (c :: s, rest)

/-- Does a character go on with a number that is no integer? -/
def continuesNumber (c : Char) : Bool := c = '.' || c = 'e' || c = 'E'

def readNat (text : Text) : Option (Nat × Text) :=
  let digits := text.takeWhile Char.isDigit
  let rest := text.dropWhile Char.isDigit
  if digits = [] ∨ (digits.head? = some '0' ∧ digits.length ≠ 1) ∨
      rest.head?.any continuesNumber = true then none
  else some (Nat.ofDigitChars 10 digits 0, rest)

def readInt : Text → Option (Json × Text)
  | '-' :: rest => (readNat rest).map fun (n, rest) => (.int (-(n : Int)), rest)
  | text => (readNat text).map fun (n, rest) => (.int n, rest)

def expectChar (c : Char) : Text → Option Text
  | [] => none
  | first :: rest => if first = c then some rest else none

def expectWord (word : Text) (value : Json) (text : Text) : Option (Json × Text) :=
  if text.take word.length = word then some (value, text.drop word.length) else none

mutual

def readValue : Nat → Text → Option (Json × Text)
  | 0, _ => none
  | _ + 1, [] => none
  | fuel + 1, c :: rest =>
    if c = '"' then (readString rest.length rest).map fun (s, rest) => (.str s, rest)
    else if c = '[' then
      let rest := skipSpace rest
      if rest.head? = some ']' then some (.arr [], rest.tail)
      else (readItems fuel rest).map fun (items, rest) => (.arr items, rest)
    else if c = '{' then
      let rest := skipSpace rest
      if rest.head? = some '}' then some (.obj [], rest.tail)
      else (readMembers fuel rest).map fun (members, rest) => (.obj members, rest)
    else if c = 'n' then expectWord "ull" .null rest
    else if c = 't' then expectWord "rue" (.bool true) rest
    else if c = 'f' then expectWord "alse" (.bool false) rest
    else readInt (c :: rest)

def readItems : Nat → Text → Option (List Json × Text)
  | 0, _ => none
  | fuel + 1, text => do
    let (item, text) ← readValue fuel text
    match skipSpace text with
    | ',' :: text => do
      let (items, text) ← readItems fuel (skipSpace text)
      some (item :: items, text)
    | ']' :: text => some ([item], text)
    | _ => none

def readMembers : Nat → Text → Option (List (Text × Json) × Text)
  | 0, _ => none
  | fuel + 1, text => do
    let text ← expectChar '"' text
    let (key, text) ← readString text.length text
    let text ← expectChar ':' (skipSpace text)
    let (value, text) ← readValue fuel (skipSpace text)
    match skipSpace text with
    | ',' :: text => do
      let (members, text) ← readMembers fuel (skipSpace text)
      some ((key, value) :: members, text)
    | '}' :: text => some ([(key, value)], text)
    | _ => none

end

/-- `json.loads`. -/
def loads (text : Text) : Option Json := do
  let (value, rest) ← readValue text.length (skipSpace text)
  if skipSpace rest = [] then some value else none

/-- `json.dumps`. -/
def dumps (layout : Layout) (value : Json) : Text := write layout 0 value

mutual

/-- The document `sort_keys=True` writes: the members of every object by their names. -/
def sortKeys : Json → Json
  | .arr items => .arr (sortItems items)
  | .obj members => .obj (sortedBy (fun first second => compare first.1 second.1)
      (sortMembers members))
  | value => value

def sortItems : List Json → List Json
  | [] => []
  | item :: items => sortKeys item :: sortItems items

def sortMembers : List (Text × Json) → List (Text × Json)
  | [] => []
  | (key, value) :: members => (key, sortKeys value) :: sortMembers members

end

/-! ## Members -/

/-- The value of a member: of several of one name the last. -/
def member (name : Text) : Json → Option Json
  | .obj members => (members.reverse.find? fun entry => entry.1 = name).map (·.2)
  | _ => none

def memberNames : Json → List Text
  | .obj members => members.map Prod.fst
  | _ => []

def asText : Json → Option Text
  | .str s => some s
  | _ => none

def asInt : Json → Option Int
  | .int n => some n
  | _ => none

def asBool : Json → Option Bool
  | .bool value => some value
  | _ => none

def asOptional {Value : Type} (read : Json → Option Value) : Json → Option (Option Value)
  | .null => some none
  | value => (read value).map some

def asList {Value : Type} (read : Json → Option Value) : Json → Option (List Value)
  | .arr items => items.mapM read
  | _ => none

def field {Value : Type} (read : Json → Option Value) (name : Text) (data : Json) :
    Option Value :=
  (member name data).bind read

def ofOptional : Option Text → Json
  | none => .null
  | some s => .str s

end Json

end TwinForge
