import TwinForge.Plcopen.Operands

/-! # Candidates of portable names

A portable name is the first of its candidates that is not in use: the base, then the base with
the numbers from two on. Only an operand that is no identifier needs one.
-/

namespace TwinForge.Plcopen

/-! ## Candidates -/

def candidateOf (base : Text) (suffix : Nat) (candidate : Text) : Nat → Text
  | 0 => candidate
  | index + 1 => numbered base (suffix + index)

theorem firstFree_first {existing : List Text} {base : Text} {fuel suffix : Nat}
    {candidate name : Text} (h : firstFree existing base fuel suffix candidate = some name) :
    ∃ index, name = candidateOf base suffix candidate index ∧ name ∉ existing ∧
      ∀ earlier < index, candidateOf base suffix candidate earlier ∈ existing := by
  induction fuel generalizing suffix candidate with
  | zero => cases h
  | succ fuel ih =>
    unfold firstFree at h
    split at h
    · next htaken =>
        rcases ih h with ⟨index, hname, hfree, hearlier⟩
        refine ⟨index + 1, ?_, hfree, ?_⟩
        · cases index with
          | zero => exact hname
          | succ index =>
            rw [hname]
            show numbered base (suffix + 1 + index) = numbered base (suffix + (index + 1))
            rw [Nat.add_assoc, Nat.add_comm 1 index]
        · intro earlier hlt
          cases earlier with
          | zero => exact htaken
          | succ earlier =>
            have hbefore := hearlier earlier (by omega)
            cases earlier with
            | zero => exact hbefore
            | succ earlier =>
              have hsame : suffix + 1 + earlier = suffix + (earlier + 1) := by omega
              show numbered base (suffix + (earlier + 1)) ∈ existing
              exact hsame ▸ hbefore
    · next hfree =>
        cases h
        exact ⟨0, rfl, hfree, fun earlier hlt => absurd hlt (Nat.not_lt_zero earlier)⟩

theorem uniqueName_first (existing : List Text) (base : Text) :
    ∃ index, uniqueName existing base = candidateOf base 2 base index ∧
      uniqueName existing base ∉ existing ∧
      ∀ earlier < index, candidateOf base 2 base earlier ∈ existing := by
  have ⟨name, hname⟩ := Option.isSome_iff_exists.mp (firstFree_isSome existing base base 2)
  have hunique : uniqueName existing base = name := by
    unfold uniqueName
    rw [hname]
    rfl
  rw [hunique]
  exact firstFree_first hname

section

variable (db : CharacterDatabase)

def portableBase (operand : Text) : Text :=
  let word := stripUnderscores (collapseNonWord db false operand)
  if word = [] then "TF_Operand" else ("TF_" : Text) ++ word

end

/-! ## Identifiers and points -/

section

variable {db : CharacterDatabase} {text : Text}

theorem isIecIdentifier_noPoint (h : isIecIdentifier db text = true) : '.' ∉ text := by
  have hword : isWordCharacter db '.' = false := by
    unfold isWordCharacter
    rw [db.alnum_ascii '.' (by decide)]
    decide
  cases text with
  | nil => simp
  | cons first rest =>
    simp only [isIecIdentifier, Bool.and_eq_true, List.all_eq_true] at h
    intro hmem
    cases hmem with
    | head =>
      have hfirst := h.1
      revert hfirst
      decide
    | tail _ hrest =>
      have hpoint := h.2 '.' hrest
      rw [hword] at hpoint
      cases hpoint

theorem splitAt_eq_self {separator : Char} (h : separator ∉ text) :
    splitAt separator text = [text] := by
  induction text with
  | nil => rfl
  | cons character rest ih =>
    have hne : character ≠ separator := fun hsame => h (hsame ▸ List.mem_cons_self)
    have hrest : separator ∉ rest := fun hmem => h (List.mem_cons_of_mem character hmem)
    simp only [splitAt, hne, if_false, ih hrest]

theorem isIecIdentifier_of_operand {operand : Text} (h : isIecOperand db operand = false) :
    isIecIdentifier db operand = false := by
  by_contra hidentifier
  rw [Bool.not_eq_false] at hidentifier
  have hsplit := splitAt_eq_self (isIecIdentifier_noPoint hidentifier)
  unfold isIecOperand at h
  rw [hsplit, List.all_cons, List.all_nil, hidentifier] at h
  cases h

end

end TwinForge.Plcopen
