import Mathlib.Data.List.Nodup

/-! # Dictionaries

Entries in the order of their first assignment, one to a key. Assigning a key replaces
its value in place or appends an entry.
-/

namespace TwinForge

open List

def assign {Key Value : Type} [DecidableEq Key] (key : Key) (value : Value) :
    List (Key × Value) → List (Key × Value)
  | [] => [(key, value)]
  | entry :: rest =>
    if entry.1 = key then (key, value) :: rest else entry :: assign key value rest

theorem map_fst_assign {Key Value : Type} [DecidableEq Key] (key : Key) (value : Value)
    (entries : List (Key × Value)) :
    (assign key value entries).map Prod.fst =
      if key ∈ entries.map Prod.fst then entries.map Prod.fst
      else entries.map Prod.fst ++ [key] := by
  induction entries with
  | nil => rfl
  | cons entry rest ih =>
    unfold assign
    by_cases hkey : entry.1 = key
    · simp [hkey]
    · have hkey' : key ≠ entry.1 := fun h => hkey h.symm
      rw [if_neg hkey, map_cons, ih, map_cons]
      by_cases hrest : key ∈ rest.map Prod.fst
      · rw [if_pos hrest, if_pos (mem_cons_of_mem _ hrest)]
      · rw [if_neg hrest, if_neg (by simp [hkey', hrest]), cons_append]

theorem assign_absent {Key Value : Type} [DecidableEq Key] {key : Key} {value : Value}
    {entries : List (Key × Value)} (h : key ∉ entries.map Prod.fst) :
    assign key value entries = entries ++ [(key, value)] := by
  induction entries with
  | nil => rfl
  | cons entry rest ih =>
    have hfirst : entry.1 ≠ key := by
      intro heq
      exact h (heq ▸ mem_cons_self ..)
    have hrest : key ∉ rest.map Prod.fst := fun hmember => h (mem_cons_of_mem _ hmember)
    rw [assign, if_neg hfirst, ih hrest, cons_append]

theorem lookup_cons_ite {Key Value : Type} [DecidableEq Key] (entry : Key × Value)
    (rest : List (Key × Value)) (key : Key) :
    (entry :: rest).lookup key = if key = entry.1 then some entry.2 else rest.lookup key := by
  rcases entry with ⟨name, value⟩
  by_cases h : key = name
  · simp [h]
  · have hbeq : (key == name) = false := by simpa using h
    simp [h, List.lookup_cons, hbeq]

theorem lookup_assign {Key Value : Type} [DecidableEq Key] (key other : Key) (value : Value)
    (entries : List (Key × Value)) :
    (assign key value entries).lookup other =
      if other = key then some value else entries.lookup other := by
  induction entries with
  | nil => rw [assign, lookup_cons_ite]
  | cons entry rest ih =>
    unfold assign
    by_cases hkey : entry.1 = key
    · rw [if_pos hkey, lookup_cons_ite, lookup_cons_ite, hkey]
      split <;> rfl
    · rw [if_neg hkey, lookup_cons_ite, lookup_cons_ite, ih]
      by_cases hother : other = entry.1
      · rw [if_pos hother, if_neg (fun h => hkey (hother ▸ h)), if_pos hother]
      · rw [if_neg hother, if_neg hother]

theorem mem_iff_lookup {Key Value : Type} [DecidableEq Key] {entries : List (Key × Value)}
    (hnodup : (entries.map Prod.fst).Nodup) (key : Key) (value : Value) :
    (key, value) ∈ entries ↔ entries.lookup key = some value := by
  induction entries with
  | nil => simp
  | cons entry rest ih =>
    have ⟨hfirst, hrest⟩ := nodup_cons.mp hnodup
    rw [mem_cons, lookup_cons_ite, ih hrest]
    by_cases hkey : key = entry.1
    · have habsent : rest.lookup key ≠ some value := by
        intro hfound
        rw [← ih hrest] at hfound
        exact hfirst (mem_map.mpr ⟨(key, value), hfound, hkey⟩)
      rw [if_pos hkey, or_iff_left habsent, Option.some.injEq, Prod.ext_iff]
      exact ⟨fun h => h.2.symm, fun h => ⟨hkey, h.symm⟩⟩
    · rw [if_neg hkey, or_iff_right]
      intro hsame
      exact hkey (congrArg Prod.fst hsame)

structure Dictionary (Key Value : Type) where
  entries : List (Key × Value) := []
  nodup : (entries.map Prod.fst).Nodup := by first | exact List.nodup_nil | simp

namespace Dictionary

variable {Key Value : Type}

def keys (dictionary : Dictionary Key Value) : List Key := dictionary.entries.map Prod.fst

def values (dictionary : Dictionary Key Value) : List Value := dictionary.entries.map Prod.snd

variable [DecidableEq Key]

def get? (dictionary : Dictionary Key Value) (key : Key) : Option Value :=
  dictionary.entries.lookup key

/-- `dictionary[key] = value`. -/
def set (dictionary : Dictionary Key Value) (key : Key) (value : Value) :
    Dictionary Key Value where
  entries := assign key value dictionary.entries
  nodup := by
    rw [map_fst_assign]
    split
    · exact dictionary.nodup
    · rename_i habsent
      exact nodup_append.mpr ⟨dictionary.nodup, by simp, by grind⟩

/-- `{key(item): value(item) for item in items}`. -/
def ofItems {Item : Type} (key : Item → Key) (value : Item → Value) (items : List Item) :
    Dictionary Key Value :=
  items.foldl (fun dictionary item => dictionary.set (key item) (value item)) {}

@[simp] theorem get?_empty (key : Key) : ({} : Dictionary Key Value).get? key = none := rfl

@[simp] theorem get?_set (dictionary : Dictionary Key Value) (key other : Key) (value : Value) :
    (dictionary.set key value).get? other =
      if other = key then some value else dictionary.get? other :=
  lookup_assign key other value dictionary.entries

theorem mem_entries_iff (dictionary : Dictionary Key Value) (key : Key) (value : Value) :
    (key, value) ∈ dictionary.entries ↔ dictionary.get? key = some value :=
  mem_iff_lookup dictionary.nodup key value

theorem foldl_set_entries {Item : Type} {key : Item → Key} {value : Item → Value}
    {items : List Item} {dictionary : Dictionary Key Value}
    (h : (dictionary.keys ++ items.map key).Nodup) :
    (items.foldl (fun dictionary item => dictionary.set (key item) (value item))
      dictionary).entries = dictionary.entries ++ items.map fun item => (key item, value item) := by
  induction items generalizing dictionary with
  | nil => simp
  | cons item items ih =>
    have habsent : key item ∉ dictionary.keys := by
      intro hmember
      exact (nodup_append.mp h).2.2 _ hmember _ (mem_cons_self ..) rfl
    have hset : (dictionary.set (key item) (value item)).entries =
        dictionary.entries ++ [(key item, value item)] := assign_absent habsent
    have hnext : ((dictionary.set (key item) (value item)).keys ++ items.map key).Nodup := by
      have hkeys : (dictionary.set (key item) (value item)).keys =
          dictionary.keys ++ [key item] := by
        simp [keys, hset]
      rw [hkeys, append_assoc]
      exact h
    rw [foldl_cons, ih hnext, hset]
    simp

theorem ofItems_entries {Item : Type} {key : Item → Key} {value : Item → Value}
    {items : List Item} (h : (items.map key).Nodup) :
    (ofItems key value items).entries = items.map fun item => (key item, value item) := by
  have hkeys : (({} : Dictionary Key Value).keys ++ items.map key).Nodup := by
    simpa [keys] using h
  exact (foldl_set_entries hkeys).trans (nil_append _)

theorem foldl_set_get? {Item : Type} {key : Item → Key} {value : Item → Value}
    {items : List Item} {dictionary : Dictionary Key Value} {found : Key} {result : Value}
    (h : (items.foldl (fun dictionary item => dictionary.set (key item) (value item))
      dictionary).get? found = some result) :
    dictionary.get? found = some result ∨ ∃ item ∈ items, key item = found ∧ value item = result := by
  induction items generalizing dictionary with
  | nil => exact .inl h
  | cons item items ih =>
    cases ih h with
    | inl hset =>
      rw [get?_set] at hset
      by_cases hkey : found = key item
      · rw [if_pos hkey] at hset
        exact .inr ⟨item, mem_cons_self .., hkey.symm, Option.some.inj hset⟩
      · rw [if_neg hkey] at hset
        exact .inl hset
    | inr hlater =>
      have ⟨other, hother, hsame⟩ := hlater
      exact .inr ⟨other, mem_cons_of_mem item hother, hsame⟩

theorem ofItems_get? {Item : Type} {key : Item → Key} {value : Item → Value}
    {items : List Item} {found : Key} {result : Value}
    (h : (ofItems key value items).get? found = some result) :
    ∃ item ∈ items, key item = found ∧ value item = result :=
  (foldl_set_get? h).resolve_left (by simp)

theorem mem_keys_iff (dictionary : Dictionary Key Value) (key : Key) :
    key ∈ dictionary.keys ↔ ∃ value, dictionary.get? key = some value := by
  simp only [keys, mem_map, ← mem_entries_iff]
  grind

end Dictionary

end TwinForge
