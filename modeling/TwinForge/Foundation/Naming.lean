import Mathlib.Data.List.Basic
import Mathlib.Data.List.Nodup

/-! # Runs of namings

Names are granted one after the other: a naming is granted the first of its candidates that it
does not know to be taken. Where every naming knows the names before it, the names in use after a
run are those that its searches use up.
-/

namespace TwinForge

open List

/-- One granted name: the first candidate that is not taken. -/
structure Naming (Name : Type) where
  candidate : Nat → Name
  taken : List Name
  granted : Name
  first : ∃ index, granted = candidate index ∧ granted ∉ taken ∧
    ∀ earlier < index, candidate earlier ∈ taken

namespace Naming

variable {Name : Type}

theorem granted_eq {naming : Naming Name} {index : Nat}
    (hfree : naming.candidate index ∉ naming.taken)
    (hearlier : ∀ earlier < index, naming.candidate earlier ∈ naming.taken) :
    naming.granted = naming.candidate index := by
  obtain ⟨chosen, hgranted, hchosen, hbefore⟩ := naming.first
  rw [hgranted] at hchosen ⊢
  rcases Nat.lt_trichotomy chosen index with hlt | rfl | hlt
  · exact absurd (hearlier chosen hlt) hchosen
  · rfl
  · exact absurd (hbefore index hlt) hfree

/-! ## Informed runs -/

theorem mem_granted_cons {naming : Naming Name} {name : Name} :
    name ∈ naming.granted :: naming.taken ↔ name ∈ naming.taken ∨
      ∃ index, name = naming.candidate index ∧
        ∀ earlier < index, naming.candidate earlier ∈ naming.taken := by
  obtain ⟨chosen, hgranted, hfree, hbefore⟩ := naming.first
  rw [mem_cons]
  constructor
  · rintro (rfl | htaken)
    · exact .inr ⟨chosen, hgranted, hbefore⟩
    · exact .inl htaken
  · rintro (htaken | ⟨index, rfl, hearlier⟩)
    · exact .inr htaken
    · by_cases htaken : naming.candidate index ∈ naming.taken
      · exact .inr htaken
      · exact .inl (granted_eq htaken hearlier).symm

/-- Every naming knows the names taken at the start and those granted before it. -/
def Informed : List Name → List (Naming Name) → Prop
  | _, [] => True
  | taken, naming :: namings => naming.taken = taken ∧ Informed (naming.granted :: taken) namings

theorem Informed.fresh {taken : List Name} {namings : List (Naming Name)}
    (h : Informed taken namings) :
    (namings.map granted).Nodup ∧ ∀ name ∈ namings.map granted, name ∉ taken := by
  induction namings generalizing taken with
  | nil => simp
  | cons naming namings ih =>
    obtain ⟨htaken, hlater⟩ := h
    obtain ⟨hnodup, hnew⟩ := ih hlater
    obtain ⟨_, -, hfree, -⟩ := naming.first
    rw [htaken] at hfree
    refine ⟨nodup_cons.mpr ⟨fun hmem => hnew _ hmem mem_cons_self, hnodup⟩, ?_⟩
    intro name hname
    rcases mem_cons.mp hname with rfl | hname
    · exact hfree
    · exact fun hmem => hnew name hname (mem_cons_of_mem _ hmem)

end Naming

/-- The names used up by searches one after the other: each uses up the first of its candidates
that is not used up before, the one whose earlier candidates all are. -/
def UsedUp {Name : Type} : (Name → Prop) → List (Nat → Name) → Name → Prop
  | used, [] => used
  | used, candidate :: searches => UsedUp (fun name => used name ∨
      ∃ index, name = candidate index ∧ ∀ earlier < index, used (candidate earlier)) searches

namespace UsedUp

variable {Name : Type} {used : Name → Prop} {searches : List (Nat → Name)} {name : Name}

theorem of_used (h : used name) : UsedUp used searches name := by
  induction searches generalizing used with
  | nil => exact h
  | cons candidate searches ih => exact ih (.inl h)

theorem first {candidate : Nat → Name} (h : candidate ∈ searches) :
    UsedUp used searches (candidate 0) := by
  induction searches generalizing used with
  | nil => cases h
  | cons other searches ih =>
    rcases mem_cons.mp h with rfl | h
    · rw [UsedUp]
      exact of_used (Or.inr ⟨0, rfl, fun _ hlt => absurd hlt (Nat.not_lt_zero _)⟩)
    · exact ih h

theorem informed_iff {taken : List Name} {namings : List (Naming Name)}
    (h : Naming.Informed taken namings) :
    UsedUp (· ∈ taken) (namings.map Naming.candidate) name ↔
      name ∈ taken ∨ name ∈ namings.map Naming.granted := by
  induction namings generalizing taken with
  | nil => simp [UsedUp]
  | cons naming namings ih =>
    obtain ⟨rfl, hlater⟩ := h
    have hstep : (fun name => name ∈ naming.taken ∨ ∃ index, name = naming.candidate index ∧
        ∀ earlier < index, naming.candidate earlier ∈ naming.taken) =
          (· ∈ naming.granted :: naming.taken) :=
      funext fun _ => propext Naming.mem_granted_cons.symm
    rw [map_cons, UsedUp, hstep, ih hlater, map_cons, mem_cons, mem_cons]
    tauto

end UsedUp

/-! ## Entries registered by a fold

A fold over items that adds at most one keyed entry an item, the newest in front.
What a lookup finds afterwards was there before or comes from an item of that key.
-/

theorem mem_of_lookup {Key Value : Type} [BEq Key] [LawfulBEq Key] {entries : List (Key × Value)}
    {key : Key} {value : Value} (h : entries.lookup key = some value) : (key, value) ∈ entries := by
  have ⟨before, after, hsplit, _⟩ := lookup_eq_some_iff.mp h
  rw [hsplit]
  simp

theorem lookup_isSome_of_mem {Key Value : Type} [BEq Key] [LawfulBEq Key]
    {entries : List (Key × Value)} {key : Key} {value : Value} (h : (key, value) ∈ entries) :
    (entries.lookup key).isSome := by
  rw [Option.isSome_iff_ne_none]
  intro hnone
  rw [lookup_eq_none_iff] at hnone
  have hne := hnone _ h
  simp at hne

/-- Each step adds one fitting entry under the item's key, or leaves the entries. -/
structure Registers {State Item Key Value : Type} (step : State → Item → State)
    (entries : State → List (Key × Value)) (key : Item → Key) (adds : Item → Prop)
    (fits : Item → Value → Prop) : Prop where
  added : ∀ state item, adds item →
    ∃ value, fits item value ∧ entries (step state item) = (key item, value) :: entries state
  kept : ∀ state item, ¬ adds item → entries (step state item) = entries state

namespace Registers

variable {State Item Key Value : Type} [BEq Key] [LawfulBEq Key] {step : State → Item → State}
  {entries : State → List (Key × Value)} {key : Item → Key} {adds : Item → Prop}
  {fits : Item → Value → Prop}

theorem lookup_isSome (h : Registers step entries key adds fits) (items : List Item)
    (state : State) (wanted : Key) :
    ((entries (items.foldl step state)).lookup wanted).isSome ↔
      ((entries state).lookup wanted).isSome ∨ ∃ item ∈ items, adds item ∧ key item = wanted := by
  induction items generalizing state with
  | nil => simp
  | cons item items ih =>
    rw [foldl_cons, ih]
    by_cases hadds : adds item
    · obtain ⟨value, -, hentries⟩ := h.added state item hadds
      rw [hentries, lookup_cons]
      by_cases hkey : key item = wanted
      · simp [hkey, hadds]
      · have hne : (wanted == key item) = false := by
          simpa using fun heq => hkey heq.symm
        simp [hne, hkey]
    · rw [h.kept state item hadds]
      simp [hadds]

theorem lookup_fits (h : Registers step entries key adds fits) {items : List Item} {state : State}
    {wanted : Key} {value : Value}
    (hlookup : (entries (items.foldl step state)).lookup wanted = some value) :
    (entries state).lookup wanted = some value ∨
      ∃ item ∈ items, key item = wanted ∧ adds item ∧ fits item value := by
  induction items generalizing state with
  | nil => exact .inl hlookup
  | cons item items ih =>
    rw [foldl_cons] at hlookup
    rcases ih hlookup with hbefore | ⟨later, hlater, hrest⟩
    · by_cases hadds : adds item
      · obtain ⟨added, hfits, hentries⟩ := h.added state item hadds
        rw [hentries, lookup_cons] at hbefore
        by_cases hkey : key item = wanted
        · simp only [hkey, beq_self_eq_true, Option.some.injEq] at hbefore
          subst hbefore
          exact .inr ⟨item, by simp, hkey, hadds, hfits⟩
        · have hne : (wanted == key item) = false := by
            simpa using fun heq => hkey heq.symm
          rw [hne] at hbefore
          exact .inl hbefore
      · rw [h.kept state item hadds] at hbefore
        exact .inl hbefore
    · exact .inr ⟨later, mem_cons_of_mem item hlater, hrest⟩

end Registers

end TwinForge
