import TwinForge.Foundation.Text

/-! # UTF-16 text, least significant byte first -/

namespace TwinForge.Utf16

open List

/-- The code units of a character: one, or a surrogate pair beyond the basic plane. -/
def unitsOf (c : Char) : List Nat :=
  if c.toNat < 65536 then [c.toNat]
  else [55296 + (c.toNat - 65536) / 1024, 56320 + (c.toNat - 65536) % 1024]

def units (s : Text) : List Nat := s.flatMap unitsOf

def unitBytes (unit : Nat) : List UInt8 := [UInt8.ofNat (unit % 256), UInt8.ofNat (unit / 256)]

/-- `str.encode("utf-16-le")`. -/
def encode (s : Text) : List UInt8 := (units s).flatMap unitBytes

def readUnits : List UInt8 → Option (List Nat)
  | [] => some []
  | [_] => none
  | low :: high :: rest => (readUnits rest).map ((low.toNat + 256 * high.toNat) :: ·)

/-- A surrogate is read in a pair only. -/
def readText : List Nat → Option Text
  | [] => some []
  | [unit] =>
    if unit < 55296 ∨ 57344 ≤ unit then some [Char.ofNat unit] else none
  | unit :: low :: rest =>
    if unit < 55296 ∨ 57344 ≤ unit then (readText (low :: rest)).map (Char.ofNat unit :: ·)
    else if unit < 56320 ∧ 56320 ≤ low ∧ low < 57344 then
      (readText rest).map (Char.ofNat (65536 + (unit - 55296) * 1024 + (low - 56320)) :: ·)
    else none

/-- `bytes.decode("utf-16-le")`; `none` for a decoding error. -/
def decode (bytes : List UInt8) : Option Text := (readUnits bytes).bind readText

/-! ## Code units -/

theorem unit_of_bytes {unit : Nat} (h : unit < 65536) :
    (UInt8.ofNat (unit % 256)).toNat + 256 * (UInt8.ofNat (unit / 256)).toNat = unit := by
  rw [UInt8.toNat_ofNat', UInt8.toNat_ofNat']
  omega

variable {us : List Nat}

theorem readUnits_bytes (h : ∀ unit ∈ us, unit < 65536) :
    readUnits (us.flatMap unitBytes) = some us := by
  induction us with
  | nil => rfl
  | cons unit us ih =>
    have hrest := ih fun other hmem => h other (mem_cons_of_mem _ hmem)
    show (readUnits (us.flatMap unitBytes)).map
      (((UInt8.ofNat (unit % 256)).toNat + 256 * (UInt8.ofNat (unit / 256)).toNat) :: ·) = _
    rw [hrest, unit_of_bytes (h unit mem_cons_self)]
    rfl

theorem bytes_of_readUnits {bytes : List UInt8} (h : readUnits bytes = some us) :
    us.flatMap unitBytes = bytes ∧ ∀ unit ∈ us, unit < 65536 := by
  induction bytes using readUnits.induct generalizing us with
  | case1 =>
    cases h
    simp
  | case2 byte => cases h
  | case3 low high rest ih =>
    have ⟨us', hrest, hus⟩ := Option.map_eq_some_iff.mp h
    have ⟨hbytes, hsmall⟩ := ih hrest
    have hlow := low.toNat_lt
    have hhigh := high.toNat_lt
    subst hus
    constructor
    · have hfirst : (low.toNat + 256 * high.toNat) % 256 = low.toNat := by omega
      have hsecond : (low.toNat + 256 * high.toNat) / 256 = high.toNat := by omega
      simp [unitBytes, hfirst, hsecond, hbytes]
    · intro unit hmem
      cases hmem with
      | head => omega
      | tail _ hlater => exact hsmall unit hlater

/-! ## Characters -/

theorem char_bounds (c : Char) : c.toNat < 55296 ∨ (57343 < c.toNat ∧ c.toNat < 1114112) := c.valid

theorem units_small (s : Text) : ∀ unit ∈ units s, unit < 65536 := by
  intro unit hmem
  have ⟨c, _, hunit⟩ := mem_flatMap.mp hmem
  have hbounds := char_bounds c
  unfold unitsOf at hunit
  split at hunit
  · have hsame := mem_singleton.mp hunit
    omega
  · simp only [mem_cons, not_mem_nil, or_false] at hunit
    omega

theorem readText_single {unit : Nat} (h : unit < 55296 ∨ 57344 ≤ unit) (us : List Nat) :
    readText (unit :: us) = (readText us).map (Char.ofNat unit :: ·) := by
  cases us with
  | nil => simp [readText, h]
  | cons low us => rw [readText, if_pos h]

theorem readText_unitsOf (c : Char) (us : List Nat) :
    readText (unitsOf c ++ us) = (readText us).map (c :: ·) := by
  have hbounds := char_bounds c
  unfold unitsOf
  split
  · have hplain : c.toNat < 55296 ∨ 57344 ≤ c.toNat := by omega
    rw [singleton_append, readText_single hplain, Char.ofNat_toNat]
  · have hvalue : 65536 + (55296 + (c.toNat - 65536) / 1024 - 55296) * 1024 +
        (56320 + (c.toNat - 65536) % 1024 - 56320) = c.toNat := by omega
    rw [cons_append, singleton_append, readText, if_neg (by omega), if_pos (by omega),
      hvalue, Char.ofNat_toNat]

theorem readText_units (s : Text) : readText (units s) = some s := by
  induction s with
  | nil => rfl
  | cons c s ih =>
    show readText (unitsOf c ++ units s) = _
    rw [readText_unitsOf, ih]
    rfl

theorem toNat_ofNat {n : Nat} (h : n < 55296 ∨ (57343 < n ∧ n < 1114112)) :
    (Char.ofNat n).toNat = n := by
  have hvalid : n.isValidChar := h
  rw [Char.ofNat, dif_pos hvalid]
  rfl

theorem units_of_readText {s : Text} (h : readText us = some s)
    (hsmall : ∀ unit ∈ us, unit < 65536) : units s = us := by
  induction us using readText.induct generalizing s with
  | case1 =>
    cases h
    rfl
  | case2 unit hplain =>
    have hlt := hsmall unit mem_cons_self
    rw [readText, if_pos hplain] at h
    cases h
    have hvalue : (Char.ofNat unit).toNat = unit := toNat_ofNat (by omega)
    simp [units, unitsOf, hvalue, hlt]
  | case3 unit hpair =>
    rw [readText, if_neg hpair] at h
    cases h
  | case4 unit low rest hplain ih =>
    have hlt := hsmall unit mem_cons_self
    rw [readText, if_pos hplain] at h
    have ⟨s', hrest, hs⟩ := Option.map_eq_some_iff.mp h
    have hunits := ih hrest fun other hmem => hsmall other (mem_cons_of_mem _ hmem)
    have hvalue : (Char.ofNat unit).toNat = unit := toNat_ofNat (by omega)
    subst hs
    show unitsOf (Char.ofNat unit) ++ units s' = _
    rw [hunits, unitsOf, hvalue, if_pos hlt]
    rfl
  | case5 unit low rest hpair hlow ih =>
    rw [readText, if_neg hpair, if_pos hlow] at h
    have ⟨s', hrest, hs⟩ := Option.map_eq_some_iff.mp h
    have hunits := ih hrest fun other hmem =>
      hsmall other (mem_cons_of_mem _ (mem_cons_of_mem _ hmem))
    have hvalue := @toNat_ofNat (65536 + (unit - 55296) * 1024 + (low - 56320)) (by omega)
    have hhigh : 55296 + (65536 + (unit - 55296) * 1024 + (low - 56320) - 65536) / 1024 = unit := by
      omega
    have hsecond : 56320 + (65536 + (unit - 55296) * 1024 + (low - 56320) - 65536) % 1024 = low := by
      omega
    subst hs
    show unitsOf (Char.ofNat _) ++ units s' = _
    rw [hunits, unitsOf, hvalue, if_neg (by omega), hhigh, hsecond]
    rfl
  | case6 unit low rest hpair hlow =>
    rw [readText, if_neg hpair, if_neg hlow] at h
    cases h

/-! ## Bytes -/

theorem decode_encode (s : Text) : decode (encode s) = some s := by
  rw [decode, encode, readUnits_bytes (units_small s)]
  exact readText_units s

theorem encode_of_decode {bytes : List UInt8} {s : Text} (h : decode bytes = some s) :
    encode s = bytes := by
  have ⟨us, hunits, htext⟩ := Option.bind_eq_some_iff.mp h
  have ⟨hbytes, hsmall⟩ := bytes_of_readUnits hunits
  rw [encode, units_of_readText htext hsmall, hbytes]

theorem encode_length (s : Text) : (encode s).length = 2 * (units s).length := by
  unfold encode
  induction units s with
  | nil => rfl
  | cons unit us ih =>
    rw [flatMap_cons, length_append, ih, length_cons]
    show 2 + _ = _
    omega

end TwinForge.Utf16
