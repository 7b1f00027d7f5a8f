import Mathlib.Tactic.IntervalCases
import TwinForge.Foundation.Json

/-! # Reading what was written

Whatever its layout, the text of a document is read back to the value it was written of.
-/

namespace TwinForge.Json

open List

/-! ## Strings -/

theorem hexValue_digitChar {digit : Nat} (h : digit < 16) :
    hexValue (Nat.digitChar digit) = some digit := by
  interval_cases digit <;> decide

variable {n : Nat}

theorem readUnit_hexUnit (h : n < 65536) (rest : Text) :
    readUnit (hexUnit n ++ rest) = some (n, rest) := by
  have hfirst := hexValue_digitChar (Nat.mod_lt (n / 4096) (show 0 < 16 by omega))
  have hsecond := hexValue_digitChar (Nat.mod_lt (n / 256) (show 0 < 16 by omega))
  have hthird := hexValue_digitChar (Nat.mod_lt (n / 16) (show 0 < 16 by omega))
  have hfourth := hexValue_digitChar (Nat.mod_lt n (show 0 < 16 by omega))
  simp only [hexUnit, cons_append, nil_append, readUnit, hfirst, hsecond, hthird,
    hfourth, Option.bind_eq_bind, Option.bind_some, Option.some.injEq, Prod.mk.injEq, and_true]
  omega

theorem char_range (c : Char) :
    c.toNat < 55296 ∨ (57343 < c.toNat ∧ c.toNat < 1114112) := by
  have hvalid : c.toNat.isValidChar := c.valid
  exact hvalid

theorem readUnicode_plain (h : n < 55296 ∨ (57343 < n ∧ n < 65536)) (rest : Text) :
    readUnicode (hexUnit n ++ rest) = some (Char.ofNat n, rest) := by
  unfold readUnicode
  rw [readUnit_hexUnit (by omega)]
  simp only [Option.bind_eq_bind, Option.bind_some]
  rw [if_pos (by omega)]

theorem readUnicode_pair {high low : Nat} (hhigh : 55296 ≤ high ∧ high < 56320)
    (hlow : 56320 ≤ low ∧ low ≤ 57343) (rest : Text) :
    readUnicode (hexUnit high ++ '\\' :: 'u' :: (hexUnit low ++ rest)) =
      some (Char.ofNat (65536 + (high - 55296) * 1024 + (low - 56320)), rest) := by
  have hpair : readLow ('\\' :: 'u' :: (hexUnit low ++ rest)) = some (low, rest) :=
    readUnit_hexUnit (by omega) rest
  unfold readUnicode
  rw [readUnit_hexUnit (by omega)]
  simp only [Option.bind_eq_bind, Option.bind_some, hpair]
  rw [if_neg (by omega), if_pos hhigh.2, if_pos hlow]

theorem readEscape_unicodeEscape (c : Char) (rest : Text) :
    readEscape ((unicodeEscape c.toNat).tail ++ rest) = some (c, rest) := by
  have hrange := char_range c
  unfold unicodeEscape
  by_cases hplane : c.toNat < 65536
  · rw [if_pos hplane]
    show readUnicode (hexUnit c.toNat ++ rest) = _
    rw [readUnicode_plain (by omega), Char.ofNat_toNat]
  · have ⟨high, hhigh⟩ : ∃ high, high = 55296 + (c.toNat - 65536) / 1024 := ⟨_, rfl⟩
    have ⟨low, hlow⟩ : ∃ low, low = 56320 + (c.toNat - 65536) % 1024 := ⟨_, rfl⟩
    have hcode : 65536 + (high - 55296) * 1024 + (low - 56320) = c.toNat := by omega
    rw [if_neg hplane, ← hhigh, ← hlow]
    show readUnicode (hexUnit high ++ '\\' :: 'u' :: (hexUnit low ++ rest)) = _
    rw [readUnicode_pair (by omega) (by omega), hcode, Char.ofNat_toNat]

theorem unicodeEscape_cons (n : Nat) :
    unicodeEscape n = '\\' :: (unicodeEscape n).tail := by
  unfold unicodeEscape
  split <;> rfl

theorem readString_backslash (fuel : Nat) (text : Text) :
    readString (fuel + 1) ('\\' :: text) = (readEscape text).bind fun (c, rest) =>
      (readString fuel rest).map fun (s, rest) => (c :: s, rest) := by
  rw [readString, if_neg (by decide), if_pos rfl]
  cases readEscape text with
  | none => rfl
  | some read => cases h : readString fuel read.2 <;> simp [h]

theorem readString_escapeChar (asciiOnly : Bool) (c : Char) (fuel : Nat) (rest : Text) :
    readString (fuel + 1) (escapeChar asciiOnly c ++ rest) =
      (readString fuel rest).map fun (s, rest) => (c :: s, rest) := by
  unfold escapeChar
  by_cases hquote : c = '"'
  · rw [if_pos hquote, hquote]
    exact readString_backslash ..
  rw [if_neg hquote]
  by_cases hbackslash : c = '\\'
  · rw [if_pos hbackslash, hbackslash]
    exact readString_backslash ..
  rw [if_neg hbackslash]
  by_cases hnewline : c = '\n'
  · rw [if_pos hnewline, hnewline]
    exact readString_backslash ..
  rw [if_neg hnewline]
  by_cases hreturn : c = '\r'
  · rw [if_pos hreturn, hreturn]
    exact readString_backslash ..
  rw [if_neg hreturn]
  by_cases htab : c = '\t'
  · rw [if_pos htab, htab]
    exact readString_backslash ..
  rw [if_neg htab]
  by_cases hback : c.toNat = 8
  · have hc : c = Char.ofNat 8 := by rw [← hback, Char.ofNat_toNat]
    rw [if_pos hback, hc]
    exact readString_backslash ..
  rw [if_neg hback]
  by_cases hfeed : c.toNat = 12
  · have hc : c = Char.ofNat 12 := by rw [← hfeed, Char.ofNat_toNat]
    rw [if_pos hfeed, hc]
    exact readString_backslash ..
  rw [if_neg hfeed]
  by_cases hescaped : c.toNat < 32 ∨ (asciiOnly = true ∧ 126 < c.toNat)
  · rw [if_pos hescaped, unicodeEscape_cons, cons_append, readString_backslash,
      readEscape_unicodeEscape]
    rfl
  · rw [if_neg hescaped, cons_append, nil_append, readString, if_neg hquote,
      if_neg hbackslash, if_neg (by omega)]
    cases readString fuel rest <;> rfl

variable {fuel : Nat}

theorem readString_escaped (asciiOnly : Bool) (s : Text) (h : s.length < fuel) (rest : Text) :
    readString fuel (s.flatMap (escapeChar asciiOnly) ++ '"' :: rest) = some (s, rest) := by
  induction s generalizing fuel with
  | nil =>
    cases fuel with
    | zero => exact absurd h (Nat.not_lt_zero _)
    | succ fuel => simp [readString]
  | cons c s ih =>
    cases fuel with
    | zero => exact absurd h (Nat.not_lt_zero _)
    | succ fuel =>
      have hlength : s.length < fuel := by
        rw [length_cons] at h
        omega
      rw [flatMap_cons, append_assoc, readString_escapeChar, ih hlength]
      rfl

theorem escapeChar_ne_nil (asciiOnly : Bool) (c : Char) : 1 ≤ (escapeChar asciiOnly c).length := by
  unfold escapeChar unicodeEscape
  split_ifs <;> simp

theorem length_escaped (asciiOnly : Bool) (s : Text) :
    s.length ≤ (s.flatMap (escapeChar asciiOnly)).length := by
  induction s with
  | nil => simp
  | cons c s ih =>
    have hc := escapeChar_ne_nil asciiOnly c
    simp only [flatMap_cons, length_append, length_cons]
    omega

/-- A written string, behind its opening quote, is read with the fuel of what follows it. -/
theorem readString_writeString (layout : Layout) (s rest : Text) :
    let text := (writeString layout s ++ rest).tail
    readString text.length text = some (s, rest) := by
  have htext : (writeString layout s ++ rest).tail =
      s.flatMap (escapeChar layout.asciiOnly) ++ '"' :: rest := by
    simp [writeString]
  simp only [htext]
  apply readString_escaped
  have hlength := length_escaped layout.asciiOnly s
  simp only [length_append, length_cons]
  omega

/-! ## Numbers -/

/-- What may follow a number. -/
def Delimited (rest : Text) : Prop :=
  ∀ c, rest.head? = some c → c.isDigit = false ∧ continuesNumber c = false

variable {c : Char}

theorem decimal_isDigit (h : c ∈ decimal n) : c.isDigit = true :=
  Nat.isDigit_of_mem_toDigits (by omega) (by omega) h

theorem decimal_head (n : Nat) :
    (decimal n).head? = some '0' → (decimal n).length = 1 := by
  induction n using Nat.strongRecOn with
  | _ n ih =>
    intro hzero
    unfold decimal at hzero ih ⊢
    rw [Nat.toDigits_eq_if (by omega)] at hzero ⊢
    by_cases hsmall : n < 10
    · rw [if_pos hsmall]
      rfl
    · rw [if_neg hsmall] at hzero
      have hne : Nat.toDigits 10 (n / 10) ≠ [] := Nat.toDigits_ne_nil
      rw [List.head?_append_of_ne_nil _ hne] at hzero
      have hlength := ih (n / 10) (by omega) hzero
      have hdigit : n / 10 < 10 := by
        have hbound := (Nat.length_toDigits_le_iff (by omega) (by omega)).mp
          (Nat.le_of_eq hlength)
        simpa using hbound
      rw [Nat.toDigits_of_lt_base hdigit] at hzero
      have hchar : Nat.digitChar (n / 10) = '0' := by simpa using hzero
      have hquotient : n / 10 = 0 := by
        generalize n / 10 = digit at hchar hdigit
        interval_cases digit <;> revert hchar <;> decide
      omega

variable {rest : Text}

theorem readNat_decimal (n : Nat) (h : Delimited rest) :
    readNat (decimal n ++ rest) = some (n, rest) := by
  have hall : ∀ c ∈ decimal n, c.isDigit = true := fun _ hc => decimal_isDigit hc
  have htake : (decimal n ++ rest).takeWhile Char.isDigit = decimal n := by
    rw [takeWhile_append_of_pos hall]
    cases rest with
    | nil => simp
    | cons c rest => simp [(h c rfl).1]
  have hdrop : (decimal n ++ rest).dropWhile Char.isDigit = rest := by
    rw [dropWhile_append_of_pos hall]
    cases rest with
    | nil => rfl
    | cons c rest => simp [(h c rfl).1]
  have hnil : decimal n ≠ [] := Nat.toDigits_ne_nil
  have hnumber : ¬ (decimal n = [] ∨ ((decimal n).head? = some '0' ∧ (decimal n).length ≠ 1) ∨
      rest.head?.any continuesNumber = true) := by
    intro hbad
    rcases hbad with hempty | ⟨hzero, hlength⟩ | hcontinues
    · exact hnil hempty
    · exact hlength (decimal_head n hzero)
    · cases hhead : rest.head? with
      | none => simp [hhead] at hcontinues
      | some c => simp [hhead, (h c hhead).2] at hcontinues
  unfold readNat
  simp only [htake, hdrop]
  rw [if_neg hnumber]
  simp [decimal]

theorem readInt_writeInt (n : Int) (h : Delimited rest) :
    readInt (writeInt n ++ rest) = some (.int n, rest) := by
  unfold writeInt
  by_cases hnegative : n < 0
  · rw [if_pos hnegative, cons_append, readInt, readNat_decimal _ h]
    simp only [Option.map_some, Option.some.injEq, Prod.mk.injEq, Json.int.injEq, and_true]
    omega
  · rw [if_neg hnegative]
    have hhead : ∃ c digits, decimal n.natAbs = c :: digits ∧ c.isDigit = true := by
      cases hdecimal : decimal n.natAbs with
      | nil => exact absurd hdecimal Nat.toDigits_ne_nil
      | cons c digits => exact ⟨c, digits, rfl, decimal_isDigit (hdecimal ▸ mem_cons_self ..)⟩
    have ⟨c, digits, hdecimal, hdigit⟩ := hhead
    have hread := readNat_decimal n.natAbs h
    rw [hdecimal, cons_append] at hread ⊢
    unfold readInt
    split
    · rename_i heq
      rw [(List.cons.inj heq).1] at hdigit
      exact absurd hdigit (by decide)
    · rw [hread]
      simp only [Option.map_some, Option.some.injEq, Prod.mk.injEq, Json.int.injEq, and_true]
      omega

/-! ## Spaces -/

theorem skipSpace_append {spaces : Text} (h : ∀ c ∈ spaces, isSpace c = true) (text : Text) :
    skipSpace (spaces ++ text) = skipSpace text :=
  dropWhile_append_of_pos h

theorem skipSpace_cons (h : isSpace c = false) (text : Text) :
    skipSpace (c :: text) = c :: text := by
  simp [skipSpace, h]

theorem newline_isSpace (layout : Layout) (level : Nat) :
    ∀ c ∈ layout.newline level, isSpace c = true := by
  intro c hc
  unfold Layout.newline at hc
  cases hindent : layout.indent with
  | none => simp [hindent] at hc
  | some width =>
    simp only [hindent, mem_cons, mem_replicate] at hc
    cases hc with
    | inl hline => simp [hline, isSpace]
    | inr hblank => simp [hblank.2, isSpace]

theorem separator_cons (layout : Layout) (level : Nat) :
    ∃ spaces, layout.separator level = ',' :: spaces ∧ ∀ c ∈ spaces, isSpace c = true := by
  unfold Layout.separator
  cases layout.indent with
  | none => exact ⟨[' '], rfl, by simp [isSpace]⟩
  | some width => exact ⟨layout.newline level, rfl, newline_isSpace layout level⟩

theorem write_head (layout : Layout) (level : Nat) (value : Json) :
    ∃ c text, write layout level value = c :: text ∧ isSpace c = false ∧ c ≠ ']' := by
  cases value with
  | null => exact ⟨'n', _, rfl, by decide, by decide⟩
  | bool value =>
    cases value with
    | true => exact ⟨'t', _, rfl, by decide, by decide⟩
    | false => exact ⟨'f', _, rfl, by decide, by decide⟩
  | int n =>
    rw [write, writeInt]
    by_cases hnegative : n < 0
    · rw [if_pos hnegative]
      exact ⟨'-', _, rfl, by decide, by decide⟩
    · rw [if_neg hnegative]
      cases hdecimal : decimal n.natAbs with
      | nil => exact absurd hdecimal Nat.toDigits_ne_nil
      | cons c digits =>
        have hdigit := decimal_isDigit (hdecimal ▸ mem_cons_self .. : c ∈ decimal n.natAbs)
        refine ⟨c, digits, rfl, ?_, ?_⟩
        · simp only [isSpace, Bool.or_eq_false_iff, decide_eq_false_iff_not]
          refine ⟨⟨⟨?_, ?_⟩, ?_⟩, ?_⟩ <;>
            exact fun h => absurd (h ▸ hdigit) (by decide)
        · exact fun h => absurd (h ▸ hdigit) (by decide)
  | str s => exact ⟨'"', _, rfl, by decide, by decide⟩
  | arr items =>
    cases items with
    | nil => exact ⟨'[', _, rfl, by decide, by decide⟩
    | cons item items => exact ⟨'[', _, rfl, by decide, by decide⟩
  | obj members =>
    cases members with
    | nil => exact ⟨'\x7b', _, rfl, by decide, by decide⟩
    | cons entry members =>
      have ⟨key, value⟩ := entry
      exact ⟨'\x7b', _, rfl, by decide, by decide⟩

/-! ## Values -/

mutual

def cost : Json → Nat
  | .arr items => 1 + costItems items
  | .obj members => 1 + costMembers members
  | _ => 1

def costItems : List Json → Nat
  | [] => 0
  | item :: items => 1 + cost item + costItems items

def costMembers : List (Text × Json) → Nat
  | [] => 0
  | (_, value) :: members => 1 + cost value + costMembers members

end

theorem delimited_cons (hdigit : c.isDigit = false)
    (hnumber : continuesNumber c = false) (text : Text) : Delimited (c :: text) := by
  intro first hfirst
  rw [← Option.some.inj hfirst]
  exact ⟨hdigit, hnumber⟩

variable {spaces text : Text}

theorem delimited_space (h : ∀ c ∈ spaces, isSpace c = true)
    (htext : Delimited text) : Delimited (spaces ++ text) := by
  cases spaces with
  | nil => exact htext
  | cons c spaces =>
    have hspace := h c (mem_cons_self ..)
    apply delimited_cons
    · simp only [isSpace, Bool.or_eq_true, decide_eq_true_eq] at hspace
      rcases hspace with ((hc | hc) | hc) | hc <;> rw [hc] <;> decide
    · simp only [isSpace, Bool.or_eq_true, decide_eq_true_eq] at hspace
      rcases hspace with ((hc | hc) | hc) | hc <;> rw [hc] <;> decide

theorem skipSpace_write (layout : Layout) (level : Nat) (value : Json) (rest : Text) :
    skipSpace (write layout level value ++ rest) = write layout level value ++ rest := by
  have ⟨c, text, hwrite, hspace, _⟩ := write_head layout level value
  rw [hwrite, cons_append, skipSpace_cons hspace]

theorem skipSpace_writeString (layout : Layout) (s rest : Text) :
    skipSpace (writeString layout s ++ rest) = writeString layout s ++ rest :=
  skipSpace_cons (by decide) _

theorem readValue_string (layout : Layout) (s rest : Text) (fuel : Nat) :
    readValue (fuel + 1) (writeString layout s ++ rest) = some (.str s, rest) := by
  have hread := readString_writeString layout s rest
  unfold writeString at hread ⊢
  simp only [cons_append, List.tail_cons] at hread ⊢
  rw [readValue, if_pos rfl, hread]
  rfl

theorem readValue_int {n : Int} (h : Delimited rest) (fuel : Nat) :
    readValue (fuel + 1) (writeInt n ++ rest) = some (.int n, rest) := by
  have ⟨c, text, hwrite⟩ : ∃ c text, writeInt n = c :: text ∧
      (c = '-' ∨ c.isDigit = true) := by
    unfold writeInt
    by_cases hnegative : n < 0
    · rw [if_pos hnegative]
      exact ⟨'-', _, rfl, .inl rfl⟩
    · rw [if_neg hnegative]
      cases hdecimal : decimal n.natAbs with
      | nil => exact absurd hdecimal Nat.toDigits_ne_nil
      | cons c digits =>
        exact ⟨c, digits, rfl, .inr (decimal_isDigit (hdecimal ▸ mem_cons_self ..))⟩
  have hread := readInt_writeInt n h
  rw [hwrite.1, cons_append] at hread ⊢
  have hother : ∀ d : Char, d ≠ '-' → d.isDigit = false → c ≠ d := by
    intro d hminus hdigit heq
    cases hwrite.2 with
    | inl hc => exact hminus (heq ▸ hc)
    | inr hc => rw [heq, hdigit] at hc; cases hc
  rw [readValue, if_neg (hother '"' (by decide) (by decide)),
    if_neg (hother '[' (by decide) (by decide)), if_neg (hother '\x7b' (by decide) (by decide)),
    if_neg (hother 'n' (by decide) (by decide)), if_neg (hother 't' (by decide) (by decide)),
    if_neg (hother 'f' (by decide) (by decide)), hread]

theorem cost_pos (value : Json) : 0 < cost value := by
  cases value <;> simp only [cost] <;> omega

theorem readValue_array (fuel : Nat) (text : Text) :
    readValue (fuel + 1) ('[' :: text) =
      if (skipSpace text).head? = some ']' then some (.arr [], (skipSpace text).tail)
      else (readItems fuel (skipSpace text)).map fun (items, rest) => (.arr items, rest) := by
  rw [readValue, if_neg (by decide), if_pos rfl]

theorem readValue_object (fuel : Nat) (text : Text) :
    readValue (fuel + 1) ('\x7b' :: text) =
      if (skipSpace text).head? = some '\x7d' then some (.obj [], (skipSpace text).tail)
      else (readMembers fuel (skipSpace text)).map fun (members, rest) => (.obj members, rest) := by
  rw [readValue, if_neg (by decide), if_neg (by decide), if_pos rfl]

theorem readItems_last {fuel : Nat} {item : Json} {text closing rest : Text}
    (hitem : readValue fuel text = some (item, closing ++ ']' :: rest))
    (hclosing : ∀ c ∈ closing, isSpace c = true) :
    readItems (fuel + 1) text = some ([item], rest) := by
  have hskip : skipSpace (closing ++ ']' :: rest) = ']' :: rest := by
    rw [skipSpace_append hclosing, skipSpace_cons (by decide)]
  rw [readItems, hitem]
  simp only [Option.bind_eq_bind, Option.bind_some, hskip]

theorem readItems_next {item : Json} {items : List Json} {more : Text}
    (hitem : readValue fuel text = some (item, ',' :: (spaces ++ more)))
    (hspaces : ∀ c ∈ spaces, isSpace c = true)
    (hitems : readItems fuel (skipSpace more) = some (items, rest)) :
    readItems (fuel + 1) text = some (item :: items, rest) := by
  have hskip : skipSpace (',' :: (spaces ++ more)) = ',' :: (spaces ++ more) :=
    skipSpace_cons (by decide) _
  rw [readItems, hitem]
  simp only [Option.bind_eq_bind, Option.bind_some, hskip]
  rw [skipSpace_append hspaces, hitems]
  rfl

theorem readMembers_key (layout : Layout) (key : Text) (fuel : Nat) (text : Text) :
    readMembers (fuel + 1) (writeString layout key ++ ':' :: ' ' :: text) =
      (readValue fuel (skipSpace text)).bind fun (value, text) =>
        match skipSpace text with
        | ',' :: text => (readMembers fuel (skipSpace text)).bind fun (members, text) =>
          some ((key, value) :: members, text)
        | '\x7d' :: text => some ([(key, value)], text)
        | _ => none := by
  have hquote : expectChar '"' (writeString layout key ++ ':' :: ' ' :: text) =
      some (writeString layout key ++ ':' :: ' ' :: text).tail := rfl
  have hkey := readString_writeString layout key (':' :: ' ' :: text)
  have hcolon : expectChar ':' (skipSpace (':' :: ' ' :: text)) = some (' ' :: text) := by
    rw [skipSpace_cons (by decide)]
    rfl
  have hblank : skipSpace (' ' :: text) = skipSpace text :=
    @skipSpace_append [' '] (by simp [isSpace]) text
  simp only at hkey
  rw [readMembers, hquote]
  simp only [Option.bind_eq_bind, Option.bind_some, hkey, hcolon]
  exact congrArg (fun text => (readValue fuel text).bind _) hblank

theorem readMembers_last {layout : Layout} {key : Text} {value : Json} {closing : Text}
    (hvalue : readValue fuel (skipSpace text) = some (value, closing ++ '\x7d' :: rest))
    (hclosing : ∀ c ∈ closing, isSpace c = true) :
    readMembers (fuel + 1) (writeString layout key ++ ':' :: ' ' :: text) =
      some ([(key, value)], rest) := by
  have hskip : skipSpace (closing ++ '\x7d' :: rest) = '\x7d' :: rest := by
    rw [skipSpace_append hclosing, skipSpace_cons (by decide)]
  rw [readMembers_key, hvalue, Option.bind_some]
  simp only [hskip]

theorem readMembers_next {layout : Layout} {key : Text} {value : Json}
    {members : List (Text × Json)} {more : Text}
    (hvalue : readValue fuel (skipSpace text) = some (value, ',' :: (spaces ++ more)))
    (hspaces : ∀ c ∈ spaces, isSpace c = true)
    (hmembers : readMembers fuel (skipSpace more) = some (members, rest)) :
    readMembers (fuel + 1) (writeString layout key ++ ':' :: ' ' :: text) =
      some ((key, value) :: members, rest) := by
  have hskip : skipSpace (',' :: (spaces ++ more)) = ',' :: (spaces ++ more) :=
    skipSpace_cons (by decide) _
  rw [readMembers_key, hvalue, Option.bind_some]
  simp only [hskip]
  rw [skipSpace_append hspaces, hmembers]
  rfl

theorem separator_delimited (layout : Layout) (level : Nat) (text : Text) :
    Delimited (layout.separator level ++ text) := by
  have ⟨spaces, hseparator, _⟩ := separator_cons layout level
  rw [hseparator]
  exact delimited_cons (by decide) (by decide) _

mutual

theorem readValue_write (layout : Layout) (level : Nat) :
    ∀ (value : Json) (fuel : Nat) (rest : Text), cost value ≤ fuel → Delimited rest →
      readValue fuel (write layout level value ++ rest) = some (value, rest)
  | value, 0, _, hfuel, _ => by
    have hpos := cost_pos value
    omega
  | .null, fuel + 1, rest, _, _ => by
    rw [write]
    rfl
  | .bool true, fuel + 1, rest, _, _ => by
    rw [write]
    rfl
  | .bool false, fuel + 1, rest, _, _ => by
    rw [write]
    rfl
  | .int n, fuel + 1, rest, _, hrest => readValue_int hrest fuel
  | .str s, fuel + 1, rest, _, _ => readValue_string layout s rest fuel
  | .arr [], fuel + 1, rest, _, _ => by
    rw [write]
    rfl
  | .arr (item :: items), fuel + 1, rest, hfuel, _ => by
    have hcost : costItems (item :: items) ≤ fuel := by
      rw [cost] at hfuel
      omega
    have hitems := readItems_write layout (level + 1) item items fuel (layout.newline level) rest
      hcost (newline_isSpace layout level)
    have ⟨c, text, hhead, _, hother⟩ := write_head layout (level + 1) item
    rw [write]
    simp only [cons_append, append_assoc, nil_append]
    rw [readValue_array, skipSpace_append (newline_isSpace layout (level + 1)), skipSpace_write,
      hitems, if_neg]
    · rfl
    · rw [hhead]
      simpa using hother
  | .obj [], fuel + 1, rest, _, _ => by
    rw [write]
    rfl
  | .obj ((key, value) :: members), fuel + 1, rest, hfuel, _ => by
    have hcost : costMembers ((key, value) :: members) ≤ fuel := by
      rw [cost] at hfuel
      omega
    have hmembers := readMembers_write layout (level + 1) key value members fuel
      (layout.newline level) rest hcost (newline_isSpace layout level)
    rw [write]
    simp only [cons_append, append_assoc, nil_append]
    rw [readValue_object, skipSpace_append (newline_isSpace layout (level + 1)),
      skipSpace_writeString, hmembers, if_neg]
    · rfl
    · simp [writeString]

theorem readItems_write (layout : Layout) (level : Nat) :
    ∀ (item : Json) (items : List Json) (fuel : Nat) (closing rest : Text),
      costItems (item :: items) ≤ fuel → (∀ c ∈ closing, isSpace c = true) →
      readItems fuel (write layout level item ++ (writeItems layout level items ++
        (closing ++ ']' :: rest))) = some (item :: items, rest)
  | item, items, 0, _, _, hfuel, _ => by
    rw [costItems] at hfuel
    omega
  | item, [], fuel + 1, closing, rest, hfuel, hclosing => by
    have hcost : cost item ≤ fuel := by
      rw [costItems] at hfuel
      omega
    have hdelimited : Delimited (closing ++ ']' :: rest) :=
      delimited_space hclosing (delimited_cons (by decide) (by decide) rest)
    have hitem := readValue_write layout level item fuel _ hcost hdelimited
    rw [writeItems, nil_append]
    exact readItems_last hitem hclosing
  | item, next :: items, fuel + 1, closing, rest, hfuel, hclosing => by
    have hcosts : cost item ≤ fuel ∧ costItems (next :: items) ≤ fuel := by
      rw [costItems] at hfuel
      omega
    have ⟨spaces, hseparator, hspaces⟩ := separator_cons layout level
    have hitem := readValue_write layout level item fuel _ hcosts.1
      (separator_delimited layout level (write layout level next ++
        (writeItems layout level items ++ (closing ++ ']' :: rest))))
    have hitems := readItems_write layout level next items fuel closing rest hcosts.2 hclosing
    rw [hseparator, cons_append] at hitem
    rw [writeItems, hseparator]
    simp only [cons_append, append_assoc]
    apply readItems_next hitem hspaces
    rw [skipSpace_write, hitems]

theorem readMembers_write (layout : Layout) (level : Nat) :
    ∀ (key : Text) (value : Json) (members : List (Text × Json)) (fuel : Nat)
      (closing rest : Text), costMembers ((key, value) :: members) ≤ fuel →
      (∀ c ∈ closing, isSpace c = true) →
      readMembers fuel (writeString layout key ++ (':' :: ' ' :: (write layout level value ++
        (writeMembers layout level members ++ (closing ++ '\x7d' :: rest))))) =
          some ((key, value) :: members, rest)
  | _, _, _, 0, _, _, hfuel, _ => by
    rw [costMembers] at hfuel
    omega
  | key, value, [], fuel + 1, closing, rest, hfuel, hclosing => by
    have hcost : cost value ≤ fuel := by
      rw [costMembers] at hfuel
      omega
    have hdelimited : Delimited (closing ++ '\x7d' :: rest) :=
      delimited_space hclosing (delimited_cons (by decide) (by decide) rest)
    have hvalue := readValue_write layout level value fuel _ hcost hdelimited
    rw [writeMembers, nil_append]
    apply readMembers_last _ hclosing
    rw [skipSpace_write, hvalue]
  | key, value, (next, other) :: members, fuel + 1, closing, rest, hfuel, hclosing => by
    have hcosts : cost value ≤ fuel ∧ costMembers ((next, other) :: members) ≤ fuel := by
      rw [costMembers] at hfuel
      omega
    have ⟨spaces, hseparator, hspaces⟩ := separator_cons layout level
    have hvalue := readValue_write layout level value fuel _ hcosts.1
      (separator_delimited layout level (writeString layout next ++ (':' :: ' ' ::
        (write layout level other ++
          (writeMembers layout level members ++ (closing ++ '\x7d' :: rest))))))
    have hmembers := readMembers_write layout level next other members fuel closing rest
      hcosts.2 hclosing
    rw [hseparator, cons_append] at hvalue
    rw [writeMembers, hseparator]
    simp only [cons_append, append_assoc, nil_append]
    rw [← skipSpace_write] at hvalue
    rw [← skipSpace_writeString] at hmembers
    exact readMembers_next hvalue hspaces hmembers

end

/-! ## Documents -/

theorem decimal_length_pos (n : Nat) : 0 < (decimal n).length :=
  length_pos_of_ne_nil Nat.toDigits_ne_nil

theorem separator_length_pos (layout : Layout) (level : Nat) :
    0 < (layout.separator level).length := by
  have ⟨spaces, hseparator, _⟩ := separator_cons layout level
  rw [hseparator, length_cons]
  omega

mutual

theorem cost_le_length (layout : Layout) (level : Nat) :
    ∀ value : Json, cost value ≤ (write layout level value).length
  | .null => by simp [cost, write, Text.of]
  | .bool true => by simp [cost, write, Text.of]
  | .bool false => by simp [cost, write, Text.of]
  | .int n => by
    have hdigits := decimal_length_pos n.natAbs
    simp only [cost, write, writeInt]
    split
    · rw [length_cons]
      omega
    · omega
  | .str s => by
    simp only [cost, write, writeString, cons_append, length_cons]
    omega
  | .arr [] => by simp [cost, costItems, write, Text.of]
  | .arr (item :: items) => by
    have hitem := cost_le_length layout (level + 1) item
    have hitems := costItems_le_length layout (level + 1) items
    rw [cost, costItems, write]
    simp only [cons_append, length_cons, length_append, length_nil]
    omega
  | .obj [] => by simp [cost, costMembers, write, Text.of]
  | .obj ((key, value) :: members) => by
    have hvalue := cost_le_length layout (level + 1) value
    have hmembers := costMembers_le_length layout (level + 1) members
    rw [cost, costMembers, write]
    simp only [cons_append, length_cons, length_append, length_nil]
    omega

theorem costItems_le_length (layout : Layout) (level : Nat) :
    ∀ items : List Json, costItems items ≤ (writeItems layout level items).length
  | [] => Nat.zero_le _
  | item :: items => by
    have hitem := cost_le_length layout level item
    have hitems := costItems_le_length layout level items
    have hseparator := separator_length_pos layout level
    rw [costItems, writeItems]
    simp only [length_append]
    omega

theorem costMembers_le_length (layout : Layout) (level : Nat) :
    ∀ members : List (Text × Json), costMembers members ≤ (writeMembers layout level members).length
  | [] => Nat.zero_le _
  | (key, value) :: members => by
    have hvalue := cost_le_length layout level value
    have hmembers := costMembers_le_length layout level members
    rw [costMembers, writeMembers]
    simp only [length_append, length_cons, length_nil]
    omega

end

theorem loads_dumps (layout : Layout) (value : Json) (h : ∀ c ∈ spaces, isSpace c = true) :
    loads (dumps layout value ++ spaces) = some value := by
  have hcost : cost value ≤ (dumps layout value ++ spaces).length := by
    have hlength := cost_le_length layout 0 value
    rw [dumps, length_append]
    omega
  have hdelimited : Delimited spaces := by
    rw [← append_nil spaces]
    exact delimited_space h (fun c hc => nomatch hc)
  have hread := readValue_write layout 0 value _ spaces hcost hdelimited
  have hend : skipSpace spaces = [] := by
    rw [← append_nil spaces, skipSpace_append h]
    rfl
  unfold loads
  rw [dumps, skipSpace_write] at *
  rw [hread]
  simp only [Option.bind_eq_bind, Option.bind_some, hend, if_true]

end TwinForge.Json
