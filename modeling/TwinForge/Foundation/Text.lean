import Mathlib.Data.List.Basic

/-! # Text as code points

A string of the modelled language is the list of its code points. The character
predicates and case mappings are those of a Unicode database; a database is a
parameter of everything that classifies characters, constrained only by its
values on the ASCII range and by the closure facts a scanner relies on.
-/

namespace TwinForge

/-- A string, as the sequence of its code points. -/
abbrev Text := List Char

/-- The code points of a string literal. -/
def Text.of (s : String) : Text := s.toList

instance : Coe String Text := ⟨Text.of⟩

instance : LawfulBEq Text := inferInstance

/-- A property of all characters of a text is decided on the text, not on all characters. -/
instance (priority := high) Text.decidableAll (p : Char → Prop) [DecidablePred p] (text : Text) :
    Decidable (∀ c, c ∈ text → p c) :=
  List.decidableBAll p text

instance (priority := high) Text.decidableSome (p : Char → Prop) [DecidablePred p] (text : Text) :
    Decidable (∃ c, c ∈ text ∧ p c) :=
  List.decidableBEx p text

def decimal (n : Nat) : Text := Nat.toDigits 10 n

theorem decimal_injective {m n : Nat} (h : decimal m = decimal n) : m = n := by
  have hread := congrArg (fun digits => Nat.ofDigitChars 10 digits 0) h
  simpa [decimal] using hread

/-- `separator.join(parts)`. -/
def joinText (separator : Text) (parts : List Text) : Text := List.intercalate separator parts

namespace Ascii

/-- White space below code point 128: tab to carriage return, the four
information separators and the blank. -/
def isSpace (c : Char) : Bool :=
  (9 ≤ c.toNat && c.toNat ≤ 13) || (28 ≤ c.toNat && c.toNat ≤ 32)

def decimalDigit (c : Char) : Option Nat := if c.isDigit then some (c.toNat - 48) else none

def hexByte (n : Nat) : Text := [Nat.digitChar (n / 16), Nat.digitChar (n % 16)]

/-- `repr` of a one-character string, control characters escaped. -/
def repr (c : Char) : Text :=
  if c = '\'' then ['"', c, '"']
  else if c = '\\' then ['\'', c, c, '\'']
  else if c = '\n' then ("'\\n'" : Text)
  else if c = '\t' then ("'\\t'" : Text)
  else if c = '\r' then ("'\\r'" : Text)
  else if c.toNat < 32 ∨ c.toNat = 127 then ("'\\x" : Text) ++ hexByte c.toNat ++ ['\'']
  else ['\'', c, '\'']

theorem toUpper_eq_equals {c : Char} (h : c.toUpper = '=') : c = '=' := by
  unfold Char.toUpper at h
  split at h
  · rename_i hc
    have hv := congrArg (fun d : Char => d.val.toNat) h
    simp only [UInt32.toNat_add, UInt32.le_iff_toNat_le] at hc hv
    have h97 : 'a'.val.toNat = 97 := rfl
    have h122 : 'z'.val.toNat = 122 := rfl
    have h61 : '='.val.toNat = 61 := rfl
    have hshift : ('A'.val - 'a'.val).toNat = 4294967264 := rfl
    omega
  · exact h

end Ascii

/-- The Unicode character database as the string methods consult it. -/
structure CharacterDatabase where
  isSpace : Char → Bool
  isAlpha : Char → Bool
  isDigit : Char → Bool
  isAlnum : Char → Bool
  /-- The value of a decimal digit. -/
  decimalDigit : Char → Option Nat
  /-- Full upper-case mapping of one character; it may be longer than one. -/
  upper : Char → Text
  /-- Full case folding of one character. -/
  casefold : Char → Text
  /-- Printable representation of a one-character string. -/
  repr : Char → Text
  alnum_of_alpha : ∀ c, isAlpha c = true → isAlnum c = true
  alnum_of_digit : ∀ c, isDigit c = true → isAlnum c = true
  space_ascii : ∀ c, c.toNat < 128 → isSpace c = Ascii.isSpace c
  alpha_ascii : ∀ c, c.toNat < 128 → isAlpha c = c.isAlpha
  digit_ascii : ∀ c, c.toNat < 128 → isDigit c = c.isDigit
  alnum_ascii : ∀ c, c.toNat < 128 → isAlnum c = c.isAlphanum
  decimalDigit_ascii : ∀ c, c.toNat < 128 → decimalDigit c = Ascii.decimalDigit c
  upper_ascii : ∀ c, c.toNat < 128 → upper c = [c.toUpper]
  casefold_ascii : ∀ c, c.toNat < 128 → casefold c = [c.toLower]
  /-- No expanding or non-ASCII mapping yields the spelling `REF=` from fewer
  than four characters or from another final character. -/
  upper_reference : ∀ s : Text, s.flatMap upper = ("REF=" : Text) →
    ∃ r e f : Char, s = [r, e, f, '=']

namespace CharacterDatabase

variable (db : CharacterDatabase)

/-- `str.upper` of a whole string. -/
def upperText (s : Text) : Text := s.flatMap db.upper

/-- `str.casefold` of a whole string. -/
def casefoldText (s : Text) : Text := s.flatMap db.casefold

/-- `str.isdigit`: non-empty and all digits. -/
def isDigitText (s : Text) : Bool := !s.isEmpty && s.all db.isDigit

/-- `str.strip()`. -/
def strip (s : Text) : Text :=
  ((s.dropWhile db.isSpace).reverse.dropWhile db.isSpace).reverse

/-- `repr` of a whole string: double quotes only around a text with single quotes
and no double ones. -/
def reprText (s : Text) : Text :=
  let quote := if s.contains '\'' && !s.contains '"' then '"' else '\''
  [quote] ++ s.flatMap (fun character =>
      if character = '\'' && quote = '\'' then ['\\', '\'']
      else ((db.repr character).drop 1).dropLast) ++ [quote]

end CharacterDatabase

namespace Ascii

/-- The database of a world with no characters beyond ASCII: it agrees with every
other database on ASCII text, and evaluates. -/
def database : CharacterDatabase where
  isSpace := isSpace
  isAlpha := Char.isAlpha
  isDigit := Char.isDigit
  isAlnum := Char.isAlphanum
  decimalDigit := decimalDigit
  upper c := [c.toUpper]
  casefold c := [c.toLower]
  repr := repr
  alnum_of_alpha c h := by simp [Char.isAlphanum, h]
  alnum_of_digit c h := by simp [Char.isAlphanum, h]
  space_ascii _ _ := rfl
  alpha_ascii _ _ := rfl
  digit_ascii _ _ := rfl
  alnum_ascii _ _ := rfl
  decimalDigit_ascii _ _ := rfl
  upper_ascii _ _ := rfl
  casefold_ascii _ _ := rfl
  upper_reference s h := by
    have hs : s.map Char.toUpper = ['R', 'E', 'F', '='] := by
      rw [List.map_eq_flatMap]
      exact h
    obtain ⟨r, s, rfl, -, hs⟩ := List.map_eq_cons_iff.mp hs
    obtain ⟨e, s, rfl, -, hs⟩ := List.map_eq_cons_iff.mp hs
    obtain ⟨f, s, rfl, -, hs⟩ := List.map_eq_cons_iff.mp hs
    obtain ⟨g, s, rfl, hg, hs⟩ := List.map_eq_cons_iff.mp hs
    have hnil : s = [] := List.map_eq_nil_iff.mp hs
    exact ⟨r, e, f, by rw [hnil, toUpper_eq_equals hg]⟩

end Ascii

end TwinForge
