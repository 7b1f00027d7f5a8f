import Mathlib.Tactic.IntervalCases
import TwinForge.Foundation.Text

/-! # Timestamps

A calendar time, naive or with the offset of its zone, its ISO 8601 spelling, and the
reading of that spelling. Two aware times are ordered by the instant they name.
-/

namespace TwinForge

/-! ## Digits of a fixed width -/

/-- The last `width` decimal digits of a number. -/
def padded : Nat → Nat → Text
  | 0, _ => []
  | width + 1, n => padded width (n / 10) ++ [Nat.digitChar (n % 10)]

def digitsValue (digits : Text) : Option Nat :=
  digits.foldlM (fun value digit => (Ascii.decimalDigit digit).map (value * 10 + ·)) 0

/-- Read a number of `width` digits off the front of a text. -/
def readPadded (width : Nat) (text : Text) : Option (Nat × Text) :=
  if text.length < width then none
  else (digitsValue (text.take width)).map fun value => (value, text.drop width)

@[simp] theorem length_padded (width n : Nat) : (padded width n).length = width := by
  induction width generalizing n with
  | zero => rfl
  | succ width ih => simp [padded, ih]

theorem decimalDigit_digitChar {digit : Nat} (h : digit < 10) :
    Ascii.decimalDigit (Nat.digitChar digit) = some digit := by
  interval_cases digit <;> decide

theorem digitsValue_padded {width n : Nat} (h : n < 10 ^ width) :
    digitsValue (padded width n) = some n := by
  induction width generalizing n with
  | zero =>
    have hzero : n = 0 := by omega
    rw [hzero]
    rfl
  | succ width ih =>
    have hhigh : n / 10 < 10 ^ width := by omega
    have hprior := ih hhigh
    unfold digitsValue at hprior ⊢
    have hlast := decimalDigit_digitChar (Nat.mod_lt n (show 0 < 10 by omega))
    rw [padded, List.foldlM_append, hprior]
    simp [hlast]
    omega

theorem readPadded_padded {width n : Nat} (h : n < 10 ^ width) (rest : Text) :
    readPadded width (padded width n ++ rest) = some (n, rest) := by
  have htake : (padded width n ++ rest).take width = padded width n :=
    List.take_left' (length_padded width n)
  have hdrop : (padded width n ++ rest).drop width = rest :=
    List.drop_left' (length_padded width n)
  unfold readPadded
  rw [if_neg (by simp), htake, hdrop, digitsValue_padded h]
  rfl

/-! ## Calendar times -/

def isLeap (year : Nat) : Bool := year % 4 = 0 && (year % 100 ≠ 0 || year % 400 = 0)

def daysInMonth (year month : Nat) : Nat :=
  if month = 2 then (if isLeap year then 29 else 28)
  else if month = 4 ∨ month = 6 ∨ month = 9 ∨ month = 11 then 30 else 31

def dayLength : Int := 86400000000

structure DateTime where
  year : Nat
  month : Nat
  day : Nat
  hour : Nat := 0
  minute : Nat := 0
  second : Nat := 0
  microsecond : Nat := 0
  /-- The offset of the zone from UTC, in microseconds. A naive time has none. -/
  offset : Option Int
  year_valid : 1 ≤ year ∧ year ≤ 9999 := by decide
  month_valid : 1 ≤ month ∧ month ≤ 12 := by decide
  day_valid : 1 ≤ day ∧ day ≤ daysInMonth year month := by decide
  time_valid : hour < 24 ∧ minute < 60 ∧ second < 60 ∧ microsecond < 1000000 := by decide
  offset_valid : ∀ zone ∈ offset, -dayLength < zone ∧ zone < dayLength := by decide
  deriving DecidableEq, Repr

namespace DateTime

/-- The first instant of POSIX clocks. -/
def epoch : DateTime := { year := 1970, month := 1, day := 1, offset := some 0 }

def isAware (time : DateTime) : Bool := time.offset.isSome

/-- Days from the start of the calendar. -/
def ordinal (time : DateTime) : Nat :=
  let years := time.year - 1
  years * 365 + years / 4 - years / 100 + years / 400
    + ((List.range (time.month - 1)).map fun i => daysInMonth time.year (i + 1)).sum + time.day

/-- The instant in microseconds, that of a naive time read as universal time. -/
def instant (time : DateTime) : Int :=
  time.ordinal * dayLength
    + (((time.hour * 60 + time.minute) * 60 + time.second) * 1000000 + time.microsecond : Nat)
    - time.offset.getD 0

/-- `max(times)`, the first of the latest ones. -/
def latest : List DateTime → Option DateTime
  | [] => none
  | first :: rest =>
    some (rest.foldl (fun best time => if best.instant < time.instant then time else best) first)

/-! ## The ISO 8601 spelling -/

def fractionText (microsecond : Nat) : Text :=
  if microsecond = 0 then [] else '.' :: padded 6 microsecond

/-- An offset as sign, hours and minutes, and what it has of a finer part. -/
def offsetText (zone : Int) : Text :=
  let size := zone.natAbs
  let seconds := size / 1000000
  (if zone < 0 then '-' else '+') :: padded 2 (seconds / 3600) ++
    ':' :: padded 2 (seconds / 60 % 60) ++
      (if size % 60000000 = 0 then []
      else ':' :: padded 2 (seconds % 60) ++ fractionText (size % 1000000))

def isoformat (time : DateTime) : Text :=
  padded 4 time.year ++ '-' :: padded 2 time.month ++ '-' :: padded 2 time.day ++
    'T' :: padded 2 time.hour ++ ':' :: padded 2 time.minute ++ ':' :: padded 2 time.second ++
      fractionText time.microsecond ++ (time.offset.map offsetText).getD []

def expect (character : Char) : Text → Option Text
  | [] => none
  | first :: rest => if first = character then some rest else none

def readFraction : Text → Option (Nat × Text)
  | '.' :: rest => readPadded 6 rest
  | rest => some (0, rest)

def readSeconds : Text → Option (Nat × Text)
  | ':' :: rest => readPadded 2 rest
  | rest => some (0, rest)

def readSign (character : Char) : Option Bool :=
  if character = '-' then some true else if character = '+' then some false else none

def readOffset : Text → Option (Option Int)
  | [] => some none
  | sign :: text => do
    let negative ← readSign sign
    let (hours, text) ← readPadded 2 text
    let text ← expect ':' text
    let (minutes, text) ← readPadded 2 text
    let (seconds, text) ← readSeconds text
    let (microseconds, text) ← readFraction text
    let size := ((hours * 60 + minutes) * 60 + seconds) * 1000000 + microseconds
    if text = [] then some (some (if negative then -(size : Int) else size)) else none

/-- The time of the given fields, if they are in range. -/
def ofFields (year month day hour minute second microsecond : Nat) (offset : Option Int) :
    Option DateTime :=
  if hvalid : (1 ≤ year ∧ year ≤ 9999) ∧ (1 ≤ month ∧ month ≤ 12) ∧
      (1 ≤ day ∧ day ≤ daysInMonth year month) ∧
      (hour < 24 ∧ minute < 60 ∧ second < 60 ∧ microsecond < 1000000) ∧
      ∀ zone ∈ offset, -dayLength < zone ∧ zone < dayLength then
    some { year, month, day, hour, minute, second, microsecond, offset
           year_valid := hvalid.1, month_valid := hvalid.2.1, day_valid := hvalid.2.2.1
           time_valid := hvalid.2.2.2.1, offset_valid := hvalid.2.2.2.2 }
  else none

/-- `datetime.fromisoformat`, on the spellings `isoformat` writes. -/
def fromisoformat (text : Text) : Option DateTime := do
  let (year, text) ← readPadded 4 text
  let text ← expect '-' text
  let (month, text) ← readPadded 2 text
  let text ← expect '-' text
  let (day, text) ← readPadded 2 text
  let text ← expect 'T' text
  let (hour, text) ← readPadded 2 text
  let text ← expect ':' text
  let (minute, text) ← readPadded 2 text
  let text ← expect ':' text
  let (second, text) ← readPadded 2 text
  let (microsecond, text) ← readFraction text
  let offset ← readOffset text
  ofFields year month day hour minute second microsecond offset

@[simp] theorem expect_cons (character : Char) (rest : Text) :
    expect character (character :: rest) = some rest := by
  simp [expect]

theorem ofFields_self (time : DateTime) :
    ofFields time.year time.month time.day time.hour time.minute time.second time.microsecond
      time.offset = some time := by
  unfold ofFields
  rw [dif_pos ⟨time.year_valid, time.month_valid, time.day_valid, time.time_valid,
    time.offset_valid⟩]

theorem readFraction_fractionText {microsecond : Nat} (h : microsecond < 1000000) {rest : Text}
    (hrest : ∀ text, rest ≠ '.' :: text) :
    readFraction (fractionText microsecond ++ rest) = some (microsecond, rest) := by
  unfold fractionText
  by_cases hzero : microsecond = 0
  · rw [if_pos hzero, List.nil_append, hzero]
    unfold readFraction
    split
    · rename_i text
      exact absurd rfl (hrest text)
    · rfl
  · rw [if_neg hzero, List.cons_append]
    exact readPadded_padded (by omega) rest

theorem clock_seconds (seconds : Nat) :
    (seconds / 3600 * 60 + seconds / 60 % 60) * 60 + seconds % 60 = seconds := by
  have hhours : seconds / 60 / 60 = seconds / 3600 := Nat.div_div_eq_div_mul ..
  omega

theorem readOffset_offsetText {zone : Int} (h : -dayLength < zone ∧ zone < dayLength) :
    readOffset (offsetText zone) = some (some zone) := by
  have hbound : zone.natAbs < 86400000000 := by
    unfold dayLength at h
    omega
  have hhours := @readPadded_padded 2 (zone.natAbs / 1000000 / 3600) (by omega)
  have hminutes := @readPadded_padded 2 (zone.natAbs / 1000000 / 60 % 60) (by omega)
  have hseconds := @readPadded_padded 2 (zone.natAbs / 1000000 % 60) (by omega)
  have hclock := clock_seconds (zone.natAbs / 1000000)
  have hsign : readSign (if zone < 0 then '-' else '+') = some (decide (zone < 0)) := by
    split <;> simp [readSign, *]
  unfold offsetText readOffset
  simp only [List.cons_append, List.append_assoc, hsign, hhours, expect_cons, hminutes,
    Option.bind_eq_bind, Option.bind_some]
  by_cases hminute : zone.natAbs % 60000000 = 0
  · have hnone : readSeconds [] = some (0, []) := rfl
    have hzero : readFraction [] = some (0, []) := rfl
    have hsize : ((zone.natAbs / 1000000 / 3600 * 60 + zone.natAbs / 1000000 / 60 % 60) * 60 + 0)
        * 1000000 + 0 = zone.natAbs := by omega
    simp only [if_pos hminute, hnone, hzero, Option.bind_some, if_true, Option.some.injEq, hsize,
      decide_eq_true_eq]
    split <;> omega
  · have hfraction := @readFraction_fractionText (zone.natAbs % 1000000) (by omega) [] (by simp)
    rw [List.append_nil] at hfraction
    have hsize : ((zone.natAbs / 1000000 / 3600 * 60 + zone.natAbs / 1000000 / 60 % 60) * 60
        + zone.natAbs / 1000000 % 60) * 1000000 + zone.natAbs % 1000000 = zone.natAbs := by omega
    simp only [if_neg hminute, readSeconds, hseconds, hfraction, Option.bind_some, if_true,
      Option.some.injEq, hsize, decide_eq_true_eq]
    split <;> omega

theorem fromisoformat_isoformat (time : DateTime) :
    fromisoformat time.isoformat = some time := by
  have ⟨hhour, hminute, hsecond, hmicrosecond⟩ := time.time_valid
  have ⟨_, hyear⟩ := time.year_valid
  have ⟨_, hmonth⟩ := time.month_valid
  have hday : time.day ≤ 31 := by
    have hbound : daysInMonth time.year time.month ≤ 31 := by
      unfold daysInMonth
      split_ifs <;> omega
    exact Nat.le_trans time.day_valid.2 hbound
  have hzone : readOffset ((time.offset.map offsetText).getD []) = some time.offset := by
    cases hoffset : time.offset with
    | none => rfl
    | some zone => exact readOffset_offsetText (time.offset_valid zone hoffset)
  have hrest : ∀ text, (time.offset.map offsetText).getD [] ≠ '.' :: text := by
    intro text heq
    cases hoffset : time.offset with
    | none => simp [hoffset] at heq
    | some zone =>
      simp only [hoffset, Option.map_some, Option.getD_some, offsetText, List.cons_append,
        List.cons.injEq] at heq
      have hfirst := heq.1
      split at hfirst <;> cases hfirst
  unfold fromisoformat isoformat
  simp only [List.append_assoc, List.cons_append, Option.bind_eq_bind, expect_cons,
    @readPadded_padded 4 time.year (by omega), @readPadded_padded 2 time.month (by omega),
    @readPadded_padded 2 time.day (by omega), @readPadded_padded 2 time.hour (by omega),
    @readPadded_padded 2 time.minute (by omega), @readPadded_padded 2 time.second (by omega),
    readFraction_fractionText hmicrosecond hrest, hzone, Option.bind_some, ofFields_self]

end DateTime

end TwinForge
