import TwinForge.Foundation.Text

/-! # Strings of code points and their bytes

A string may hold lone surrogates, which have no UTF-8 encoding. Percent decoding reads
a string as its bytes and each escape as one byte.
-/

namespace TwinForge

open List

/-- A code point of a string: a Unicode scalar value or a lone surrogate. -/
inductive CodePoint where
  | scalar (c : Char)
  | surrogate (unit : Fin 2048)
deriving DecidableEq, Repr

abbrev Points := List CodePoint

instance : LawfulBEq Points := inferInstance

namespace CodePoint

def value : CodePoint → Nat
  | .scalar c => c.toNat
  | .surrogate unit => 55296 + unit

def char? : CodePoint → Option Char
  | .scalar c => some c
  | .surrogate _ => none

end CodePoint

namespace Points

def ofText (s : Text) : Points := s.map .scalar

def of (s : String) : Points := ofText s.toList

@[simp] theorem ofText_append (first second : Text) :
    ofText (first ++ second) = ofText first ++ ofText second := map_append

theorem ofText_injective {first second : Text} (h : ofText first = ofText second) :
    first = second :=
  map_injective_iff.mpr (fun _ _ => CodePoint.scalar.inj) h

/-! ## UTF-8 -/

/-- `str.encode("utf-8")`; `none` where a lone surrogate has no encoding. -/
def encodeUtf8 : Points → Option (List UInt8)
  | [] => some []
  | .scalar c :: rest => (encodeUtf8 rest).map (String.utf8EncodeChar c ++ ·)
  | .surrogate _ :: _ => none

/-- `bytes.decode("utf-8")`. -/
def decodeUtf8 (bytes : List UInt8) : Option Text :=
  (ByteArray.utf8Decode? bytes.toByteArray).map Array.toList

def utf8Bytes (s : Text) : List UInt8 := s.flatMap String.utf8EncodeChar

theorem encodeUtf8_ofText (s : Text) : encodeUtf8 (ofText s) = some (utf8Bytes s) := by
  induction s with
  | nil => rfl
  | cons c s ih =>
    show (encodeUtf8 (ofText s)).map (String.utf8EncodeChar c ++ ·) = _
    rw [ih]
    rfl

theorem decodeUtf8_utf8Bytes (s : Text) : decodeUtf8 (utf8Bytes s) = some s := by
  have hdecode := @List.utf8Decode?_utf8Encode s
  have hbytes : s.utf8Encode = (utf8Bytes s).toByteArray := rfl
  rw [hbytes] at hdecode
  rw [decodeUtf8, hdecode]
  simp

theorem decodeUtf8_eq_some {bytes : List UInt8} {s : Text} (h : decodeUtf8 bytes = some s) :
    bytes = utf8Bytes s := by
  obtain ⟨decoded, hdecoded, rfl⟩ := Option.map_eq_some_iff.mp h
  have hencode := @ByteArray.utf8Encode_get_utf8Decode? bytes.toByteArray
    (Option.isSome_iff_exists.mpr ⟨decoded, hdecoded⟩)
  simp only [hdecoded, Option.get_some] at hencode
  have hlists := congrArg (fun array => array.data.toList) hencode
  rw [toList_data_toByteArray] at hlists
  rw [← hlists]
  exact toList_data_toByteArray

variable {c : Char}

theorem utf8EncodeChar_ascii (h : c.toNat < 128) :
    String.utf8EncodeChar c = [UInt8.ofNat c.toNat] := by
  have hle : c.val.toNat ≤ 127 := by
    have hvalue : c.toNat = c.val.toNat := rfl
    omega
  exact if_pos hle

theorem utf8EncodeChar_high (h : ¬ c.toNat < 128) {byte : UInt8}
    (hbyte : byte ∈ String.utf8EncodeChar c) : 128 ≤ byte.toNat := by
  have hgt : ¬ c.val.toNat ≤ 127 := by
    have hvalue : c.toNat = c.val.toNat := rfl
    omega
  unfold String.utf8EncodeChar at hbyte
  simp only [] at hbyte
  rw [if_neg hgt] at hbyte
  split at hbyte
  · simp only [mem_cons, not_mem_nil, or_false] at hbyte
    rcases hbyte with rfl | rfl <;> rw [UInt8.toNat_ofNat'] <;> omega
  · split at hbyte
    · simp only [mem_cons, not_mem_nil, or_false] at hbyte
      rcases hbyte with rfl | rfl | rfl <;> rw [UInt8.toNat_ofNat'] <;> omega
    · simp only [mem_cons, not_mem_nil, or_false] at hbyte
      rcases hbyte with rfl | rfl | rfl | rfl <;> rw [UInt8.toNat_ofNat'] <;> omega

/-! ## Percent decoding -/

def isHexDigit (point : CodePoint) : Bool :=
  match point with
  | .scalar c => c.isDigit || ('a' ≤ c && c ≤ 'f') || ('A' ≤ c && c ≤ 'F')
  | .surrogate _ => false

/-- Every percent sign starts an escape of two hexadecimal digits. -/
def percentEscapesValid : Points → Bool
  | [] => true
  | first :: rest =>
    if first = .scalar '%' then
      match rest with
      | high :: low :: rest => isHexDigit high && isHexDigit low && percentEscapesValid rest
      | _ => false
    else percentEscapesValid rest

def hexByteValue (byte : UInt8) : Option Nat :=
  let n := byte.toNat
  if 48 ≤ n ∧ n ≤ 57 then some (n - 48)
  else if 97 ≤ n ∧ n ≤ 102 then some (n - 87)
  else if 65 ≤ n ∧ n ≤ 70 then some (n - 55)
  else none

/-- `unquote_to_bytes` past the encoding: a percent sign without two digits stays. -/
def unquoteBytes : List UInt8 → List UInt8
  | 37 :: high :: low :: rest =>
    match hexByteValue high, hexByteValue low with
    | some high', some low' => UInt8.ofNat (16 * high' + low') :: unquoteBytes rest
    | _, _ => 37 :: unquoteBytes (high :: low :: rest)
  | byte :: rest => byte :: unquoteBytes rest
  | [] => []

/-- `unquote_to_bytes(string)`. -/
def unquoteToBytes (points : Points) : Option (List UInt8) :=
  (encodeUtf8 points).map unquoteBytes

theorem unquoteBytes_cons {byte : UInt8} (h : byte ≠ 37) (rest : List UInt8) :
    unquoteBytes (byte :: rest) = byte :: unquoteBytes rest := by
  rw [unquoteBytes]
  intro high low tail hbyte
  exact absurd hbyte h

theorem percentEscapesValid_cons {first : CodePoint} (h : first ≠ .scalar '%') (rest : Points) :
    percentEscapesValid (first :: rest) = percentEscapesValid rest := by
  rw [percentEscapesValid.eq_def]
  exact if_neg h

theorem percentEscapesValid_escape (high low : CodePoint) (rest : Points) :
    percentEscapesValid (.scalar '%' :: high :: low :: rest) =
      (isHexDigit high && isHexDigit low && percentEscapesValid rest) := by
  rw [percentEscapesValid.eq_def]
  exact if_pos rfl

theorem percentEscapesValid_plain {points : Points} (h : .scalar '%' ∉ points) :
    percentEscapesValid points = true := by
  induction points with
  | nil => rfl
  | cons first points ih =>
    rw [percentEscapesValid_cons fun hsame => h (hsame ▸ mem_cons_self)]
    exact ih fun hmember => h (mem_cons_of_mem _ hmember)

theorem unquoteBytes_plain {bytes : List UInt8} (h : 37 ∉ bytes) : unquoteBytes bytes = bytes := by
  induction bytes with
  | nil => rfl
  | cons byte bytes ih =>
    have hbyte : byte ≠ 37 := fun hsame => h (hsame ▸ mem_cons_self)
    rw [unquoteBytes_cons hbyte, ih fun hmember => h (mem_cons_of_mem _ hmember)]

/-! ## Counting bytes -/

/-- How many bytes other than `mark` there are. -/
def unmarked (mark : UInt8) (bytes : List UInt8) : Nat := (bytes.filter (· ≠ mark)).length

theorem unmarked_append (mark : UInt8) (first second : List UInt8) :
    unmarked mark (first ++ second) = unmarked mark first + unmarked mark second := by
  simp [unmarked]

theorem unmarked_cons (mark byte : UInt8) (bytes : List UInt8) :
    unmarked mark (byte :: bytes) = (if byte = mark then 0 else 1) + unmarked mark bytes := by
  by_cases h : byte = mark
  · simp [unmarked, h]
  · simp [unmarked, h]
    omega

theorem unmarked_utf8EncodeChar {mark : Char} (hmark : mark.toNat < 128) (c : Char) :
    unmarked (UInt8.ofNat mark.toNat) (String.utf8EncodeChar c) =
      if c = mark then 0 else (String.utf8EncodeChar c).length := by
  have hvalue : (UInt8.ofNat mark.toNat).toNat = mark.toNat := by
    rw [UInt8.toNat_ofNat']
    omega
  by_cases hascii : c.toNat < 128
  · rw [utf8EncodeChar_ascii hascii, unmarked_cons]
    have hsame : UInt8.ofNat c.toNat = UInt8.ofNat mark.toNat ↔ c = mark := by
      constructor
      · intro h
        have hnat := congrArg UInt8.toNat h
        rw [hvalue, UInt8.toNat_ofNat'] at hnat
        exact Char.ext (UInt32.toNat_inj.mp (by
          show c.toNat = mark.toNat
          omega))
      · intro h
        rw [h]
    simp [hsame, unmarked]
  · have hne : c ≠ mark := fun h => hascii (h ▸ hmark)
    rw [if_neg hne, unmarked, filter_eq_self.mpr]
    intro byte hbyte
    have hhigh := utf8EncodeChar_high hascii hbyte
    simp only [ne_eq, decide_eq_true_iff]
    intro hsame
    rw [hsame, hvalue] at hhigh
    omega

theorem mem_utf8Bytes_ascii {mark : Char} (hmark : mark.toNat < 128) {s : Text} :
    UInt8.ofNat mark.toNat ∈ utf8Bytes s ↔ mark ∈ s := by
  have hchar : ∀ c : Char, UInt8.ofNat mark.toNat ∈ String.utf8EncodeChar c ↔ mark = c := by
    intro c
    have hcount := unmarked_utf8EncodeChar hmark c
    by_cases hsame : c = mark
    · subst hsame
      rw [utf8EncodeChar_ascii hmark]
      simp
    · rw [if_neg hsame, unmarked] at hcount
      have hall := filter_eq_self.mp
        (List.Sublist.eq_of_length filter_sublist hcount)
      constructor
      · intro hmember
        have hne := hall _ hmember
        simp at hne
      · intro heq
        exact absurd heq.symm hsame
  simp [utf8Bytes, hchar]

theorem hexDigit_byte (h : isHexDigit (.scalar c) = true) :
    c.toNat < 128 ∧ ∃ value, hexByteValue (UInt8.ofNat c.toNat) = some value := by
  have hrange : 48 ≤ c.toNat ∧ c.toNat ≤ 57 ∨ 97 ≤ c.toNat ∧ c.toNat ≤ 102 ∨
      65 ≤ c.toNat ∧ c.toNat ≤ 70 := by
    simp only [isHexDigit, Char.isDigit, Bool.or_eq_true, Bool.and_eq_true,
      decide_eq_true_eq] at h
    rcases h with (⟨hlow, hhigh⟩ | ⟨hlow, hhigh⟩) | ⟨hlow, hhigh⟩
    · exact Or.inl ⟨UInt32.le_iff_toNat_le.mp hlow, UInt32.le_iff_toNat_le.mp hhigh⟩
    · exact Or.inr (Or.inl ⟨UInt32.le_iff_toNat_le.mp hlow, UInt32.le_iff_toNat_le.mp hhigh⟩)
    · exact Or.inr (Or.inr ⟨UInt32.le_iff_toNat_le.mp hlow, UInt32.le_iff_toNat_le.mp hhigh⟩)
  have hascii : c.toNat < 128 := by omega
  have hvalue : (UInt8.ofNat c.toNat).toNat = c.toNat := by
    rw [UInt8.toNat_ofNat']
    omega
  refine ⟨hascii, ?_⟩
  simp only [hexByteValue, hvalue]
  rcases hrange with hdigit | hlower | hupper
  · exact ⟨_, if_pos hdigit⟩
  · exact ⟨_, (if_neg (by omega)).trans (if_pos hlower)⟩
  · exact ⟨_, (if_neg (by omega)).trans ((if_neg (by omega)).trans (if_pos hupper))⟩

theorem unquoteBytes_append {front : List UInt8} (h : 37 ∉ front) (rest : List UInt8) :
    unquoteBytes (front ++ rest) = front ++ unquoteBytes rest := by
  induction front with
  | nil => rfl
  | cons byte front ih =>
    have hbyte : byte ≠ 37 := fun hsame => h (hsame ▸ mem_cons_self)
    rw [cons_append, unquoteBytes_cons hbyte,
      ih fun hmember => h (mem_cons_of_mem _ hmember), cons_append]

/-- Decoding an escape shortens the text: two bytes are lost to every percent sign, and a
mark that an escape gives counts for nothing. -/
theorem unmarked_unquoteBytes {mark : UInt8} (hmark : mark ≠ 37) (hdigit : hexByteValue mark = none)
    (s : Text) (h : percentEscapesValid (ofText s) = true) :
    unmarked mark (unquoteBytes (utf8Bytes s)) + 2 * s.count '%' ≤
      unmarked mark (utf8Bytes s) := by
  match s with
  | [] => exact Nat.le_refl _
  | c :: rest =>
    have hcons : utf8Bytes (c :: rest) = String.utf8EncodeChar c ++ utf8Bytes rest := rfl
    have hpoints : ofText (c :: rest) = .scalar c :: ofText rest := rfl
    rw [hpoints] at h
    by_cases hpercent : c = '%'
    · subst hpercent
      match rest with
      | [] => cases h
      | [_] => cases h
      | high :: low :: rest =>
        have hrest : ofText (high :: low :: rest) =
            .scalar high :: .scalar low :: ofText rest := rfl
        rw [hrest, percentEscapesValid_escape, Bool.and_eq_true, Bool.and_eq_true] at h
        have ⟨hhigh, high', hhighValue⟩ := hexDigit_byte h.1.1
        have ⟨hlow, low', hlowValue⟩ := hexDigit_byte h.1.2
        have ih := unmarked_unquoteBytes hmark hdigit rest h.2
        have hbytes : utf8Bytes ('%' :: high :: low :: rest) =
            37 :: UInt8.ofNat high.toNat :: UInt8.ofNat low.toNat :: utf8Bytes rest := by
          show String.utf8EncodeChar '%' ++ (String.utf8EncodeChar high ++
            (String.utf8EncodeChar low ++ utf8Bytes rest)) = _
          rw [utf8EncodeChar_ascii hhigh, utf8EncodeChar_ascii hlow]
          rfl
        -- Neither digit is the mark, and the digits are no percent signs.
        have hneMark : ∀ {byte : UInt8} {value : Nat}, hexByteValue byte = some value →
            byte ≠ mark := by
          intro byte value hvalue hsame
          rw [hsame, hdigit] at hvalue
          cases hvalue
        have hnePercent : ∀ {d : Char}, isHexDigit (.scalar d) = true → d ≠ '%' := by
          intro d hd hsame
          rw [hsame] at hd
          revert hd
          decide
        have hcount : ('%' :: high :: low :: rest).count '%' = 1 + rest.count '%' := by
          rw [count_cons_self, count_cons_of_ne (hnePercent h.1.1),
            count_cons_of_ne (hnePercent h.1.2)]
          omega
        rw [hbytes, unquoteBytes, hhighValue, hlowValue, hcount]
        simp only [unmarked_cons, if_neg hmark.symm, if_neg (hneMark hhighValue),
          if_neg (hneMark hlowValue)]
        split <;> omega
    · rw [percentEscapesValid_cons fun hsame => hpercent (CodePoint.scalar.inj hsame)] at h
      have ih := unmarked_unquoteBytes hmark hdigit rest h
      have hplain : 37 ∉ String.utf8EncodeChar c := by
        have hmember := @mem_utf8Bytes_ascii '%' (by decide) [c]
        intro h37
        have hsame := hmember.mp (by simpa [utf8Bytes] using h37)
        exact hpercent (mem_singleton.mp hsame).symm
      rw [hcons, unquoteBytes_append hplain, unmarked_append, unmarked_append,
        count_cons_of_ne hpercent]
      omega

end Points

end TwinForge
