import TwinForge.Foundation.Integers
import TwinForge.Foundation.Lines

/-! # Integers of other bases

`int(text, 16)` and `int(text, 0)`: decimal digits of all scripts count, a prefix may name the
base, and single underscores may stand between the digits and behind the prefix.
-/

namespace TwinForge

def digitValue (c : Char) : Option Nat :=
  if c.isDigit then some (c.toNat - 48)
  else if 'a' ≤ c ∧ c ≤ 'f' then some (c.toNat - 87)
  else if 'A' ≤ c ∧ c ≤ 'F' then some (c.toNat - 55)
  else none

def readBase (base value : Nat) (afterDigit : Bool) : Text → Option Nat
  | [] => if afterDigit then some value else none
  | '_' :: rest => if afterDigit then readBase base value false rest else none
  | c :: rest =>
    match digitValue c with
    | none => none
    | some digit =>
      if digit < base then readBase base (base * value + digit) true rest else none

/-- The digits behind a prefix, an underscore between them. -/
def readPrefixed (base : Nat) : Text → Option Nat
  | '_' :: rest => readBase base 0 false rest
  | rest => readBase base 0 false rest

/-- The magnitude of `int(text, 16)`. -/
def readHex : Text → Option Nat
  | '0' :: 'x' :: rest => readPrefixed 16 rest
  | '0' :: 'X' :: rest => readPrefixed 16 rest
  | rest => readBase 16 0 false rest

/-- The magnitude of `int(text, 0)`: without a prefix, a decimal number with leading zeros
is zero or none. -/
def readLiteral : Text → Option Nat
  | '0' :: 'x' :: rest => readPrefixed 16 rest
  | '0' :: 'X' :: rest => readPrefixed 16 rest
  | '0' :: 'o' :: rest => readPrefixed 8 rest
  | '0' :: 'O' :: rest => readPrefixed 8 rest
  | '0' :: 'b' :: rest => readPrefixed 2 rest
  | '0' :: 'B' :: rest => readPrefixed 2 rest
  | '0' :: rest => (readBase 10 0 true rest).filter (· = 0)
  | rest => readBase 10 0 false rest

section

variable (db : CharacterDatabase)

/-- Decimal digits of all scripts as those below code point 128. -/
def asciiDigits (text : Text) : Text :=
  text.map (fun c =>
    match db.decimalDigit c with
    | some digit => Nat.digitChar digit
    | none => c)

/-- A sign before a magnitude, without the white space around. -/
def readSigned (magnitude : Text → Option Nat) (text : Text) : Option Int :=
  match asciiDigits db (db.strip text) with
  | '-' :: rest => (magnitude rest).map (fun value => -Int.ofNat value)
  | '+' :: rest => (magnitude rest).map Int.ofNat
  | rest => (magnitude rest).map Int.ofNat

/-- `text.split()`. -/
def splitWhite (text : Text) : List Text :=
  (Lines.pieces db.isSpace text).filter (fun piece => !piece.isEmpty)

end

end TwinForge
