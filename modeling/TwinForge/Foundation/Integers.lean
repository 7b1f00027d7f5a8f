import Mathlib.Data.List.TakeWhile
import TwinForge.Foundation.Text

/-! # Integers read from text -/

namespace TwinForge

/-- The digits of an integer literal, single underscores between them. -/
def readDigits (db : CharacterDatabase) (value : Nat) (afterDigit : Bool) : Text → Option Nat
  | [] => if afterDigit then some value else none
  | '_' :: rest => if afterDigit then readDigits db value false rest else none
  | c :: rest =>
    match db.decimalDigit c with
    | some digit => readDigits db (10 * value + digit) true rest
    | none => none

/-- `int(text)`. -/
def readInt (db : CharacterDatabase) (text : Text) : Option Int :=
  match db.strip text with
  | '-' :: rest => (readDigits db 0 false rest).map fun value => -(value : Int)
  | '+' :: rest => (readDigits db 0 false rest).map fun value => (value : Int)
  | rest => (readDigits db 0 false rest).map fun value => (value : Int)

/-! ## Decimal texts -/

variable {c : Char}

theorem digit_range (h : c.isDigit = true) : 48 ≤ c.toNat ∧ c.toNat ≤ 57 := by
  simp only [Char.isDigit, Bool.and_eq_true, decide_eq_true_eq] at h
  exact ⟨UInt32.le_iff_toNat_le.mp h.1, UInt32.le_iff_toNat_le.mp h.2⟩

theorem decimal_digits {n : Nat} (h : c ∈ decimal n) : c.isDigit = true :=
  Nat.isDigit_of_mem_toDigits (by omega) (by omega) h

variable {db : CharacterDatabase} {text : Text}

theorem strip_solid (h : ∀ c ∈ text, db.isSpace c = false) :
    db.strip text = text := by
  have hdrop : ∀ solid : Text, (∀ c ∈ solid, db.isSpace c = false) →
      solid.dropWhile db.isSpace = solid := by
    intro solid hsolid
    cases solid with
    | nil => rfl
    | cons c solid => rw [List.dropWhile_cons_of_neg (by simp [hsolid c])]
  rw [CharacterDatabase.strip, hdrop text h, hdrop text.reverse (by simpa using h),
    List.reverse_reverse]

theorem strip_edges (hfirst : ∃ c ∈ text.head?, db.isSpace c = false)
    (hlast : ∃ c ∈ text.getLast?, db.isSpace c = false) : db.strip text = text := by
  have hdrop : ∀ other : Text, (∃ c ∈ other.head?, db.isSpace c = false) →
      other.dropWhile db.isSpace = other := by
    intro other hother
    have ⟨c, hhead, hc⟩ := hother
    cases other with
    | nil => cases hhead
    | cons d other =>
      cases hhead
      rw [List.dropWhile_cons_of_neg (by simp [hc])]
  have hreverse : ∃ c ∈ text.reverse.head?, db.isSpace c = false := by
    rw [List.head?_reverse]
    exact hlast
  rw [CharacterDatabase.strip, hdrop text hfirst, hdrop text.reverse hreverse, List.reverse_reverse]

theorem strip_ne_nil (h : db.isSpace c = false) :
    db.strip (c :: text) ≠ [] := by
  rw [CharacterDatabase.strip, List.dropWhile_cons_of_neg (by simp [h]), ne_eq,
    List.reverse_eq_nil_iff, List.dropWhile_eq_nil_iff]
  intro hblank
  have hspace := hblank c (by simp)
  rw [h] at hspace
  cases hspace

theorem decimal_solid (n : Nat) : ∀ c ∈ decimal n, db.isSpace c = false := by
  intro c hc
  have hrange := digit_range (decimal_digits hc)
  rw [db.space_ascii c (by omega), Ascii.isSpace]
  simp
  omega

theorem readDigits_run (digits : Text) (value : Nat) (afterDigit : Bool)
    (hsome : digits ≠ [] ∨ afterDigit = true) (hdigits : ∀ c ∈ digits, c.isDigit = true) :
    readDigits db value afterDigit digits = some (Nat.ofDigitChars 10 digits value) := by
  induction digits generalizing value afterDigit with
  | nil =>
    have hafter := hsome.resolve_left (by simp)
    simp [readDigits, hafter]
  | cons c digits ih =>
    have hc := hdigits c List.mem_cons_self
    have hrange := digit_range hc
    have hdigit : db.decimalDigit c = some (c.toNat - 48) := by
      rw [db.decimalDigit_ascii c (by omega), Ascii.decimalDigit, if_pos hc]
    have hplain : c ≠ '_' := by
      rintro rfl
      simp at hc
    have hstep : readDigits db value afterDigit (c :: digits) =
        readDigits db (10 * value + (c.toNat - 48)) true digits := by
      rw [readDigits]
      · simp only [hdigit]
      · exact hplain
    rw [hstep, ih _ _ (.inr rfl) fun d hd => hdigits d (List.mem_cons_of_mem c hd),
      Nat.ofDigitChars_cons]
    rfl

theorem readInt_decimal (n : Nat) : readInt db (decimal n) = some (n : Int) := by
  have hdigits : ∀ c ∈ decimal n, c.isDigit = true := fun _ hc => decimal_digits hc
  have hrun := @readDigits_run db (decimal n) 0 false (.inl Nat.toDigits_ne_nil) hdigits
  have hvalue : Nat.ofDigitChars 10 (decimal n) 0 = n := by simp [decimal]
  rw [hvalue] at hrun
  rw [readInt, strip_solid (decimal_solid n)]
  split
  · rename_i rest hminus
    have hbad := hdigits '-' (by rw [hminus]; exact List.mem_cons_self)
    simp at hbad
  · rename_i rest hplus
    have hbad := hdigits '+' (by rw [hplus]; exact List.mem_cons_self)
    simp at hbad
  · rw [hrun]
    rfl

end TwinForge
