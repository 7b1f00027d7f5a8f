import Mathlib.Data.List.Induction
import Mathlib.Data.List.Perm.Basic
import TwinForge.Foundation.Dictionary

/-! # Items grouped by a key -/

namespace TwinForge.Dictionary

open List

variable {Key Item : Type} [DecidableEq Key]

/-- `for item in items: groups.setdefault(key(item), []).append(item)`. -/
def groupBy (key : Item → Key) (items : List Item) : Dictionary Key (List Item) :=
  items.foldl
    (fun groups item => groups.set (key item) ((groups.get? (key item)).getD [] ++ [item])) {}

theorem ofItems_last {Value : Type} (key : Item → Key) (value : Item → Value)
    (items : List Item) (found : Key) :
    (ofItems key value items).get? found =
      ((items.filter fun item => key item = found).map value).getLast? := by
  induction items using reverseRecOn with
  | nil => rfl
  | append_singleton items item ih =>
    have hset : ofItems key value (items ++ [item]) =
        (ofItems key value items).set (key item) (value item) := by
      simp [ofItems]
    rw [hset, get?_set, ih]
    by_cases hkey : found = key item
    · simp [hkey]
    · simp [hkey, Ne.symm hkey]

section

variable {Value : Type} {dictionary : Dictionary Key Value} {wanted : Value → Bool}

theorem values_filter_one {found : Key} {value : Value} (h : dictionary.get? found = some value)
    (hwanted : ∀ key other, dictionary.get? key = some other →
      (wanted other = true ↔ key = found)) : dictionary.values.filter wanted = [value] := by
  have hentries : dictionary.entries.filter (fun entry => wanted entry.2) = [(found, value)] := by
    have hnodup : (dictionary.entries.filter fun entry => wanted entry.2).Nodup :=
      (List.Nodup.of_map Prod.fst dictionary.nodup).filter _
    refine perm_singleton.mp ((perm_ext_iff_of_nodup hnodup (by simp)).mpr ?_)
    intro entry
    rw [mem_filter, mem_singleton, dictionary.mem_entries_iff]
    constructor
    · rintro ⟨hentry, hmarked⟩
      have hkey := (hwanted entry.1 entry.2 hentry).mp hmarked
      rw [hkey, h] at hentry
      exact Prod.ext hkey (Option.some.inj hentry).symm
    · rintro rfl
      exact ⟨h, (hwanted found value h).mpr rfl⟩
  rw [values, filter_map]
  exact congrArg (List.map Prod.snd) hentries

theorem values_filter_none
    (hwanted : ∀ key other, dictionary.get? key = some other → wanted other = false) :
    dictionary.values.filter wanted = [] := by
  rw [filter_eq_nil_iff]
  intro value hvalue
  obtain ⟨entry, hentry, rfl⟩ := mem_map.mp hvalue
  simp [hwanted entry.1 entry.2 ((dictionary.mem_entries_iff _ _).mp hentry)]

theorem mem_values_iff {value : Value} :
    value ∈ dictionary.values ↔ ∃ key, dictionary.get? key = some value := by
  constructor
  · intro hvalue
    obtain ⟨entry, hentry, rfl⟩ := mem_map.mp hvalue
    exact ⟨entry.1, (dictionary.mem_entries_iff _ _).mp hentry⟩
  · rintro ⟨key, hkey⟩
    exact mem_map.mpr ⟨(key, value), (dictionary.mem_entries_iff _ _).mpr hkey, rfl⟩

end

variable (key : Item → Key)

theorem groupBy_append (items : List Item) (item : Item) :
    groupBy key (items ++ [item]) =
      (groupBy key items).set (key item)
        (((groupBy key items).get? (key item)).getD [] ++ [item]) := by
  simp [groupBy]

theorem get?_groupBy (items : List Item) (found : Key) :
    (groupBy key items).get? found =
      if items.filter (fun item => key item = found) = [] then none
      else some (items.filter fun item => key item = found) := by
  induction items using reverseRecOn with
  | nil => rfl
  | append_singleton items item ih =>
    rw [groupBy_append, get?_set]
    by_cases hkey : found = key item
    · subst hkey
      rw [if_pos rfl, ih]
      by_cases hnone : items.filter (fun other => key other = key item) = []
      · simp [hnone]
      · simp [hnone]
    · rw [if_neg hkey, ih]
      simp [Ne.symm hkey]

theorem assign_group {entries : List (Key × List Item)} {found : Key} {item : Item} :
    ((assign found ((entries.lookup found).getD [] ++ [item]) entries).flatMap Prod.snd).Perm
      (item :: entries.flatMap Prod.snd) := by
  induction entries with
  | nil => simp [assign]
  | cons entry rest ih =>
    rw [lookup_cons_ite]
    unfold assign
    by_cases hkey : entry.1 = found
    · rw [if_pos hkey, if_pos hkey.symm]
      simp only [flatMap_cons, Option.getD_some, append_assoc]
      exact perm_middle
    · rw [if_neg hkey, if_neg (Ne.symm hkey), flatMap_cons, flatMap_cons]
      exact (ih.append_left entry.2).trans perm_middle

theorem groupBy_perm (items : List Item) :
    ((groupBy key items).entries.flatMap Prod.snd).Perm items := by
  induction items using reverseRecOn with
  | nil => exact .nil
  | append_singleton items item ih =>
    rw [groupBy_append]
    exact (assign_group.trans (ih.cons item)).trans (perm_append_singleton item items).symm

end TwinForge.Dictionary
