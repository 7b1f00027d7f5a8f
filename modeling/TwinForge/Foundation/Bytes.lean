import Mathlib.Data.Int.Bitwise
import Mathlib.Data.List.Induction
import Mathlib.Data.Nat.Bitwise
import Mathlib.Tactic.Ring

/-! # Integers in byte images

Unsigned integers as a fixed number of bytes in either order, two's complement over them,
and an image in which a stretch of bytes is replaced.
-/

namespace TwinForge.Bytes

open List

inductive ByteOrder where
  | little | big
  deriving DecidableEq, Repr

/-- The given number of bytes, least significant first. -/
def lowBytes : Nat → Nat → List UInt8
  | 0, _ => []
  | size + 1, n => UInt8.ofNat (n % 256) :: lowBytes size (n / 256)

def ofLowBytes (bytes : List UInt8) : Nat := bytes.foldr (fun byte n => byte.toNat + 256 * n) 0

def ByteOrder.toBytes (order : ByteOrder) (size n : Nat) : List UInt8 :=
  match order with
  | .little => lowBytes size n
  | .big => (lowBytes size n).reverse

def ByteOrder.ofBytes (order : ByteOrder) (bytes : List UInt8) : Nat :=
  match order with
  | .little => ofLowBytes bytes
  | .big => ofLowBytes bytes.reverse

@[simp] theorem lowBytes_length (size n : Nat) : (lowBytes size n).length = size := by
  induction size generalizing n with
  | zero => rfl
  | succ size ih => simp [lowBytes, ih]

theorem ofLowBytes_lowBytes (size n : Nat) : ofLowBytes (lowBytes size n) = n % 256 ^ size := by
  induction size generalizing n with
  | zero => simp [lowBytes, ofLowBytes, Nat.mod_one]
  | succ size ih =>
    have hbyte : (UInt8.ofNat (n % 256)).toNat = n % 256 := by
      simp [UInt8.toNat_ofNat']
    have hrest := ih (n / 256)
    simp only [ofLowBytes] at hrest
    simp only [lowBytes, ofLowBytes, foldr_cons, hbyte, hrest]
    rw [Nat.pow_succ', Nat.mod_mul]

theorem ofLowBytes_lt (bytes : List UInt8) : ofLowBytes bytes < 256 ^ bytes.length := by
  induction bytes with
  | nil => simp [ofLowBytes]
  | cons byte bytes ih =>
    have hbyte := byte.toNat_lt
    simp only [ofLowBytes] at ih
    simp only [ofLowBytes, foldr_cons, length_cons, Nat.pow_succ]
    omega

theorem lowBytes_ofLowBytes (bytes : List UInt8) :
    lowBytes bytes.length (ofLowBytes bytes) = bytes := by
  induction bytes with
  | nil => rfl
  | cons byte bytes ih =>
    have hbyte := byte.toNat_lt
    have hlow : (ofLowBytes (byte :: bytes)) % 256 = byte.toNat := by
      simp only [ofLowBytes, foldr_cons]
      omega
    have hhigh : (ofLowBytes (byte :: bytes)) / 256 = ofLowBytes bytes := by
      simp only [ofLowBytes, foldr_cons]
      omega
    rw [length_cons, lowBytes, hlow, hhigh, ih, UInt8.ofNat_toNat]

section

variable (order : ByteOrder)

@[simp] theorem toBytes_length (size n : Nat) : (order.toBytes size n).length = size := by
  cases order <;> simp [ByteOrder.toBytes]

theorem ofBytes_toBytes {size n : Nat} (h : n < 256 ^ size) :
    order.ofBytes (order.toBytes size n) = n := by
  have hlow : ofLowBytes (lowBytes size n) = n := by
    rw [ofLowBytes_lowBytes, Nat.mod_eq_of_lt h]
  cases order <;> simpa [ByteOrder.ofBytes, ByteOrder.toBytes] using hlow

theorem ofBytes_lt (bytes : List UInt8) : order.ofBytes bytes < 256 ^ bytes.length := by
  cases order with
  | little => exact ofLowBytes_lt bytes
  | big => simpa [ByteOrder.ofBytes] using ofLowBytes_lt bytes.reverse

theorem toBytes_ofBytes (bytes : List UInt8) :
    order.toBytes bytes.length (order.ofBytes bytes) = bytes := by
  cases order with
  | little => exact lowBytes_ofLowBytes bytes
  | big =>
    have hlow := lowBytes_ofLowBytes bytes.reverse
    rw [length_reverse] at hlow
    simp [ByteOrder.toBytes, ByteOrder.ofBytes, hlow]

end

/-! ## Two's complement -/

/-- The integer that a pattern of `size` bytes stands for. -/
def unpackInt (signed : Bool) (size pattern : Nat) : Int :=
  if signed ∧ 256 ^ size ≤ 2 * pattern then (pattern : Int) - 256 ^ size else pattern

/-- The pattern of an integer, where it is in range. -/
def packInt (signed : Bool) (size : Nat) (value : Int) : Option Nat :=
  if signed then
    if -(256 ^ size) ≤ 2 * value ∧ 2 * value < 256 ^ size then
      some (if value < 0 then (value + 256 ^ size).toNat else value.toNat)
    else none
  else if 0 ≤ value ∧ value < 256 ^ size then some value.toNat else none

variable {signed : Bool} {pattern : Nat}

theorem packInt_eq_some {size : Nat} {value : Int} (h : packInt signed size value = some pattern) :
    pattern < 256 ^ size ∧ unpackInt signed size pattern = value := by
  have hcast : ((256 ^ size : Nat) : Int) = 256 ^ size := by push_cast; rfl
  have hpos : 0 < 256 ^ size := Nat.pow_pos (by decide)
  unfold packInt at h
  cases signed with
  | true =>
    simp only [if_true] at h
    split at h
    · next hrange =>
        by_cases hneg : value < 0
        · rw [if_pos hneg, Option.some.injEq] at h
          constructor
          · omega
          · have hhigh : 256 ^ size ≤ 2 * pattern := by omega
            rw [unpackInt, if_pos ⟨rfl, hhigh⟩]
            omega
        · rw [if_neg hneg, Option.some.injEq] at h
          constructor
          · omega
          · have hlow : ¬ 256 ^ size ≤ 2 * pattern := by omega
            rw [unpackInt, if_neg fun hboth => hlow hboth.2]
            omega
    · simp at h
  | false =>
    simp only [Bool.false_eq_true, if_false] at h
    split at h
    · next hrange =>
        rw [Option.some.injEq] at h
        constructor
        · omega
        · simp only [unpackInt, Bool.false_eq_true, false_and, if_false]
          omega
    · simp at h

theorem packInt_unpackInt {size : Nat} (h : pattern < 256 ^ size) :
    packInt signed size (unpackInt signed size pattern) = some pattern := by
  have hcast : ((256 ^ size : Nat) : Int) = 256 ^ size := by push_cast; rfl
  unfold packInt unpackInt
  cases signed with
  | true =>
    by_cases hhigh : 256 ^ size ≤ 2 * pattern
    · simp only [hhigh, and_self, if_true]
      rw [if_pos (by omega), if_pos (by omega)]
      congr 1
      omega
    · simp only [hhigh, and_false, if_false, if_true]
      rw [if_pos (by omega), if_neg (by omega)]
      congr 1
  | false =>
    simp only [Bool.false_eq_true, false_and, if_false]
    rw [if_pos (by omega)]
    congr 1

theorem two_pow_bytes (size : Nat) : 256 ^ size = 2 ^ (8 * size) := by
  rw [show 256 = 2 ^ 8 from rfl, ← Nat.pow_mul]

theorem unpackInt_testBit {size : Nat} (h : pattern < 256 ^ size)
    {bit : Nat} (hbit : bit < 8 * size) :
    (unpackInt signed size pattern).testBit bit = pattern.testBit bit := by
  unfold unpackInt
  split
  · have hneg : (pattern : Int) - 256 ^ size =
        Int.negSucc (2 ^ (8 * size) - (pattern + 1)) := by
      have hcast : ((256 ^ size : Nat) : Int) = 256 ^ size := by push_cast; rfl
      rw [two_pow_bytes] at h hcast
      rw [Int.negSucc_eq]
      omega
    rw [hneg, Int.testBit, Nat.testBit_two_pow_sub_succ (two_pow_bytes size ▸ h)]
    simp [hbit]
  · rfl

theorem masked_bit (value : Int) (bit : Nat) :
    Int.land (Int.land value 0xFFFFFFFF) ((2 ^ bit : Nat) : Int) ≠ 0 ↔
      bit < 32 ∧ value.testBit bit = true := by
  have hcut : ∃ n : Nat, Int.land value 0xFFFFFFFF = n ∧
      n.testBit bit = (decide (bit < 32) && value.testBit bit) := by
    have hmask : (0xFFFFFFFF : Nat) = 2 ^ 32 - 1 := by norm_num
    cases value with
    | ofNat n =>
      refine ⟨n &&& 0xFFFFFFFF, rfl, ?_⟩
      rw [Nat.testBit_and, hmask, Nat.testBit_two_pow_sub_one, Bool.and_comm]
      rfl
    | negSucc n =>
      refine ⟨Nat.ldiff 0xFFFFFFFF n, rfl, ?_⟩
      rw [Nat.testBit_ldiff, hmask, Nat.testBit_two_pow_sub_one]
      rfl
  have ⟨n, hn, hbit⟩ := hcut
  rw [hn]
  show ((n &&& 2 ^ bit : Nat) : Int) ≠ 0 ↔ _
  rw [Nat.and_two_pow, hbit]
  by_cases hlow : bit < 32
  · cases htest : value.testBit bit <;> simp [hlow]
  · simp [hlow]

/-- One bit of an integer set or cleared, through a mask. -/
def setBit (n bit : Nat) (value : Bool) : Nat :=
  let mask := 2 ^ bit
  if value then n ||| mask else Nat.ldiff n mask

theorem setBit_testBit (n bit : Nat) (value : Bool) (other : Nat) :
    (setBit n bit value).testBit other = if other = bit then value else n.testBit other := by
  have hmask : (2 ^ bit).testBit other = decide (bit = other) := Nat.testBit_two_pow
  cases value with
  | true =>
    by_cases hsame : other = bit
    · simp [setBit, Nat.testBit_or, hsame]
    · have hapart : bit ≠ other := fun h => hsame h.symm
      simp [setBit, Nat.testBit_or, hmask, hsame, hapart]
  | false =>
    by_cases hsame : other = bit
    · simp [setBit, Nat.testBit_ldiff, hsame]
    · have hapart : bit ≠ other := fun h => hsame h.symm
      simp [setBit, Nat.testBit_ldiff, hmask, hsame, hapart]

theorem packInt_natCast {size n : Nat} (h : packInt false size n = some pattern) :
    pattern = n := by
  have hvalue := (packInt_eq_some h).2
  simpa [unpackInt] using hvalue

/-! ## Stretches of an image -/

def slice (image : List UInt8) (offset size : Nat) : List UInt8 := (image.drop offset).take size

def splice (image : List UInt8) (offset : Nat) (bytes : List UInt8) : List UInt8 :=
  image.take offset ++ bytes ++ image.drop (offset + bytes.length)

section

variable {image bytes : List UInt8} {offset size : Nat}

theorem slice_length (h : offset + size ≤ image.length) :
    (slice image offset size).length = size := by
  simp only [slice, length_take, length_drop]
  omega

theorem slice_getElem? {i : Nat} :
    (slice image offset size)[i]? = if i < size then image[offset + i]? else none := by
  rw [slice, List.getElem?_take, List.getElem?_drop]

theorem splice_length (h : offset + bytes.length ≤ image.length) :
    (splice image offset bytes).length = image.length := by
  simp only [splice, length_append, length_take, length_drop]
  omega

theorem splice_getElem? (h : offset + bytes.length ≤ image.length) (i : Nat) :
    (splice image offset bytes)[i]? =
      if offset ≤ i ∧ i < offset + bytes.length then bytes[i - offset]? else image[i]? := by
  have htake : (image.take offset).length = offset := by
    rw [length_take]
    omega
  rw [splice, append_assoc]
  by_cases hbefore : i < offset
  · rw [if_neg (by omega), List.getElem?_append_left (by omega), List.getElem?_take,
      if_pos hbefore]
  · rw [List.getElem?_append_right (by omega), htake]
    by_cases hinside : i < offset + bytes.length
    · rw [if_pos (by omega), List.getElem?_append_left (by omega)]
    · rw [if_neg (by omega), List.getElem?_append_right (by omega), List.getElem?_drop]
      congr 1
      omega

theorem slice_splice (h : offset + bytes.length ≤ image.length) :
    slice (splice image offset bytes) offset bytes.length = bytes := by
  apply ext_getElem?
  intro i
  rw [slice_getElem?]
  by_cases hin : i < bytes.length
  · rw [if_pos hin, splice_getElem? h, if_pos (by omega)]
    congr 1
    omega
  · rw [if_neg hin, List.getElem?_eq_none (by omega)]

theorem slice_splice_of_disjoint (h : offset + bytes.length ≤ image.length)
    {other : Nat} (hdisjoint : other + size ≤ offset ∨ offset + bytes.length ≤ other) :
    slice (splice image offset bytes) other size = slice image other size := by
  apply ext_getElem?
  intro i
  rw [slice_getElem?, slice_getElem?]
  by_cases hin : i < size
  · rw [if_pos hin, if_pos hin, splice_getElem? h, if_neg (by omega)]
  · rw [if_neg hin, if_neg hin]

end

end TwinForge.Bytes
