import Mathlib.Data.List.Dedup
import TwinForge.Foundation.Grouping

/-! # Matching two lists by keys

Two lists are matched through dictionaries by a key, where they are meant to be matched by an
identity. Items of one identity have one key; that one key means one identity is what the matching
needs, and what it shows by its counts.
-/

namespace TwinForge

open List

variable {Item Key Identity : Type}

/-! ## Counting -/

variable {items : List Item}

/-- Of two conditions, one stronger, that hold as often, each holds where the other does. -/
theorem filter_length_eq {stronger weaker : Item → Bool}
    (h : ∀ item, stronger item = true → weaker item = true)
    (hlength : (items.filter stronger).length = (items.filter weaker).length)
    {item : Item} (hitem : item ∈ items) (hweaker : weaker item = true) :
    stronger item = true := by
  have hsublist := monotone_filter_right items h
  have hmember : item ∈ items.filter weaker := mem_filter.mpr ⟨hitem, hweaker⟩
  rw [← hsublist.eq_of_length hlength] at hmember
  exact (mem_filter.mp hmember).2

theorem filterMap_length_add {Result : Type} {read : Item → Option Result} :
    (items.filterMap read).length + (items.filter fun item => (read item).isNone).length =
      items.length := by
  induction items with
  | nil => rfl
  | cons item items ih =>
    cases hread : read item with
    | none =>
      rw [filterMap_cons_none hread, filter_cons_of_pos (by simp [hread]),
        length_cons, length_cons]
      omega
    | some result =>
      rw [filterMap_cons_some hread, filter_cons_of_neg (by simp [hread]),
        length_cons, length_cons]
      omega

variable {key : Item → Key}

section

variable [DecidableEq Key]

/-! ## Dictionaries by a key -/

theorem mem_ofItems_keys {found : Key} :
    found ∈ (Dictionary.ofItems key id items).keys ↔ found ∈ items.map key := by
  rw [Dictionary.mem_keys_iff]
  constructor
  · intro h
    obtain ⟨value, hvalue⟩ := h
    obtain ⟨item, hitem, hkey, _⟩ := Dictionary.ofItems_get? hvalue
    exact mem_map.mpr ⟨item, hitem, hkey⟩
  · intro h
    obtain ⟨item, hitem, hkey⟩ := mem_map.mp h
    have hmember : item ∈ (items.filter fun item => key item = found).map id := by
      simpa using ⟨hitem, hkey⟩
    rw [Dictionary.ofItems_last]
    exact ⟨_, List.getLast?_eq_some_getLast (ne_nil_of_mem hmember)⟩

theorem ofItems_keys_perm (key : Item → Key) (items : List Item) :
    (Dictionary.ofItems key id items).keys.Perm (items.map key).dedup := by
  apply (perm_ext_iff_of_nodup (Dictionary.ofItems key id items).nodup
    (nodup_dedup _)).mpr
  intro found
  rw [mem_dedup]
  exact mem_ofItems_keys

theorem ofItems_length_iff :
    (Dictionary.ofItems key id items).keys.length = items.length ↔ (items.map key).Nodup := by
  rw [(ofItems_keys_perm key items).length_eq, ← length_map key]
  constructor
  · intro hlength
    exact dedup_eq_self.mp ((dedup_sublist _).eq_of_length hlength)
  · intro hnodup
    rw [dedup_eq_self.mpr hnodup]

theorem ofItems_keys (h : (items.map key).Nodup) :
    (Dictionary.ofItems key id items).keys = items.map key := by
  rw [Dictionary.keys, Dictionary.ofItems_entries h, map_map]
  rfl

theorem ofItems_get?_key (h : (items.map key).Nodup) {item : Item} (hitem : item ∈ items) :
    (Dictionary.ofItems key id items).get? (key item) = some item := by
  rw [← Dictionary.mem_entries_iff, Dictionary.ofItems_entries h]
  exact mem_map.mpr ⟨item, hitem, rfl⟩

end

/-! ## Identities and keys -/

def KeysIdentify (key : Item → Key) (identity : Item → Identity) (items : List Item) : Prop :=
  ∀ first ∈ items, ∀ second ∈ items, key first = key second → identity first = identity second

theorem keys_nodup {identity : Item → Identity} (hkeys : KeysIdentify key identity items)
    (h : (items.map identity).Nodup) : (items.map key).Nodup := by
  rw [List.Nodup, pairwise_map] at h ⊢
  apply h.imp_of_mem
  intro first second hfirst hsecond hdifferent hsame
  exact hdifferent (hkeys first hfirst second hsecond hsame)

theorem identify_of_nodup {identity : Item → Identity} (h : (items.map key).Nodup) :
    KeysIdentify key identity items := by
  intro first hfirst second hsecond hsame
  rw [inj_on_of_nodup_map h hfirst hsecond hsame]

/-! ## Matching -/

section

variable {Result : Type} [DecidableEq Identity] (key : Item → Key) (identity : Item → Identity)
  (compare : Key → Item → Item → Result) (left right : List Item)

/-- The left items with their partners, compared in the order of the left items. -/
def partners : List Result :=
  left.filterMap fun item =>
    (right.find? fun other => identity other = identity item).map (compare (key item) item)

def unmatched : List Item := left.filter fun item => identity item ∉ right.map identity

def keyedComparisons [DecidableEq Key] (first second : Dictionary Key Item) : List Result :=
  (first.keys.filter (· ∈ second.keys)).filterMap fun found =>
    (first.get? found).bind fun item => (second.get? found).map (compare found item)

def keysApart [DecidableEq Key] (first second : Dictionary Key Item) : List Key :=
  first.keys.filter (· ∉ second.keys)

variable {key identity compare left right}

theorem partners_length :
    (partners key identity compare left right).length + (unmatched identity left right).length =
      left.length := by
  have hnone : (unmatched identity left right).length = (left.filter fun item =>
      ((right.find? fun other => identity other = identity item).map
        (compare (key item) item)).isNone).length := by
    congr 1
    apply filter_congr
    intro item _
    rw [Option.isNone_map, Bool.eq_iff_iff, decide_eq_true_iff, Option.isNone_iff_eq_none,
      List.find?_eq_none]
    simp
  rw [partners, hnone, filterMap_length_add]

variable [DecidableEq Key]

omit [DecidableEq Identity] in
theorem keyedComparisons_eq (first second : Dictionary Key Item) :
    keyedComparisons compare first second = first.keys.filterMap fun found =>
      (first.get? found).bind fun item => (second.get? found).map (compare found item) := by
  rw [keyedComparisons, filterMap_filter]
  apply filterMap_congr
  intro found _
  split
  · rfl
  · next habsent =>
    have hnone : second.get? found = none := by
      rw [Option.eq_none_iff_forall_ne_some]
      intro value hvalue
      exact habsent (by simpa using (second.mem_keys_iff found).mpr ⟨value, hvalue⟩)
    rw [hnone]
    cases first.get? found <;> rfl

omit [DecidableEq Identity] in
theorem keyedComparisons_length (first second : Dictionary Key Item) :
    (keyedComparisons compare first second).length +
      (keysApart first second).length = first.keys.length := by
  have hnone : (keysApart first second).length = (first.keys.filter fun found =>
      ((first.get? found).bind fun item =>
        (second.get? found).map (compare found item)).isNone).length := by
    congr 1
    apply filter_congr
    intro found hfound
    obtain ⟨item, hitem⟩ := (first.mem_keys_iff found).mp hfound
    rw [hitem, Option.bind_some, Option.isNone_map, Bool.eq_iff_iff, decide_eq_true_iff,
      Option.isNone_iff_eq_none, second.mem_keys_iff, Option.eq_none_iff_forall_ne_some]
    simp
  rw [keyedComparisons_eq, hnone, filterMap_length_add]

theorem unmatched_keys
    (hsame : ∀ first second, identity first = identity second → key first = key second)
    (hkeys : KeysIdentify key identity (left ++ right)) (hleft : (left.map key).Nodup)
    (hright : (right.map key).Nodup) :
    keysApart (Dictionary.ofItems key id left) (Dictionary.ofItems key id right) =
      (unmatched identity left right).map key := by
  rw [keysApart, ofItems_keys hleft, ofItems_keys hright, filter_map, unmatched]
  congr 1
  apply filter_congr
  intro item hitem
  rw [Bool.eq_iff_iff, Function.comp_apply, decide_eq_true_iff, decide_eq_true_iff, not_iff_not,
    mem_map, mem_map]
  constructor
  · intro h
    obtain ⟨other, hother, hkey⟩ := h
    exact ⟨other, hother, hkeys other (mem_append_right _ hother) item
      (mem_append_left _ hitem) hkey⟩
  · intro h
    obtain ⟨other, hother, hidentity⟩ := h
    exact ⟨other, hother, hsame other item hidentity⟩

/-- Where one key means one identity, the dictionaries match what the identities match. -/
theorem matched_of_identify
    (hsame : ∀ first second, identity first = identity second → key first = key second)
    (hleft : (left.map identity).Nodup) (hright : (right.map identity).Nodup)
    (hkeys : KeysIdentify key identity (left ++ right)) :
    keyedComparisons compare (Dictionary.ofItems key id left) (Dictionary.ofItems key id right) =
        partners key identity compare left right ∧
      keysApart (Dictionary.ofItems key id left) (Dictionary.ofItems key id right) =
        (unmatched identity left right).map key ∧
      keysApart (Dictionary.ofItems key id right) (Dictionary.ofItems key id left) =
        (unmatched identity right left).map key := by
  have hswapped : KeysIdentify key identity (right ++ left) := by
    intro first hfirst second hsecond hkey
    exact hkeys first (perm_append_comm.mem_iff.mp hfirst) second
      (perm_append_comm.mem_iff.mp hsecond) hkey
  have hleftKeys : (left.map key).Nodup :=
    keys_nodup (fun first hfirst second hsecond => hkeys first (mem_append_left _ hfirst)
      second (mem_append_left _ hsecond)) hleft
  have hrightKeys : (right.map key).Nodup :=
    keys_nodup (fun first hfirst second hsecond => hkeys first (mem_append_right _ hfirst)
      second (mem_append_right _ hsecond)) hright
  have hfound : ∀ item ∈ left, (Dictionary.ofItems key id right).get? (key item) =
      right.find? fun other => identity other = identity item := by
    intro item hitem
    cases hfind : right.find? fun other => identity other = identity item with
    | some other =>
      have hother := mem_of_find?_eq_some hfind
      have hidentity : identity other = identity item := by
        simpa using List.find?_some hfind
      rw [← hsame other item hidentity]
      exact ofItems_get?_key hrightKeys hother
    | none =>
      rw [Option.eq_none_iff_forall_ne_some]
      intro other hget
      obtain ⟨_, hother, hkey, rfl⟩ := Dictionary.ofItems_get? hget
      have hidentity := hkeys _ (mem_append_right _ hother) item
        (mem_append_left _ hitem) hkey
      exact List.find?_eq_none.mp hfind _ hother (by simpa using hidentity)
  have hcompared : keyedComparisons compare (Dictionary.ofItems key id left)
      (Dictionary.ofItems key id right) = partners key identity compare left right := by
    rw [keyedComparisons_eq, ofItems_keys hleftKeys, filterMap_map, partners]
    apply filterMap_congr
    intro item hitem
    rw [Function.comp_apply, ofItems_get?_key hleftKeys hitem, Option.bind_some,
      hfound item hitem]
  exact ⟨hcompared, unmatched_keys hsame hkeys hleftKeys hrightKeys,
    unmatched_keys hsame hswapped hrightKeys hleftKeys⟩

/-- Where the dictionaries keep every right item and match as many left items as the identities
do, one key means one identity. -/
theorem identify_of_counts
    (hsame : ∀ first second, identity first = identity second → key first = key second)
    (hright : (Dictionary.ofItems key id right).keys.length = right.length)
    (hcompared : (keyedComparisons compare (Dictionary.ofItems key id left)
      (Dictionary.ofItems key id right)).length =
        (partners key identity compare left right).length)
    (honly : (keysApart (Dictionary.ofItems key id left)
      (Dictionary.ofItems key id right)).length = (unmatched identity left right).length) :
    KeysIdentify key identity (left ++ right) := by
  have hrightKeys := ofItems_length_iff.mp hright
  have hleftKeys : (left.map key).Nodup := by
    have hkeyed := @keyedComparisons_length _ _ _ compare _ (Dictionary.ofItems key id left)
      (Dictionary.ofItems key id right)
    have hpartners := @partners_length _ _ _ _ _ key identity compare left right
    apply ofItems_length_iff.mp
    omega
  rw [keysApart, ofItems_keys hleftKeys, ofItems_keys hrightKeys, filter_map,
    length_map, unmatched] at honly
  have hstronger : ∀ item : Item, decide (key item ∉ right.map key) = true →
      decide (identity item ∉ right.map identity) = true := by
    simp only [decide_eq_true_iff]
    intro item hkey hidentity
    obtain ⟨other, hother, heq⟩ := mem_map.mp hidentity
    exact hkey (mem_map.mpr ⟨other, hother, hsame other item heq⟩)
  -- A left item whose key is met has a partner, and the key tells which.
  have hmixed : ∀ item ∈ left, ∀ other ∈ right, key item = key other →
      identity item = identity other := by
    intro item hitem other hother hkey
    have hmet : identity item ∈ right.map identity := by
      by_contra hnone
      have habsent := filter_length_eq hstronger honly hitem (by simpa using hnone)
      rw [decide_eq_true_iff] at habsent
      exact habsent (mem_map.mpr ⟨other, hother, hkey.symm⟩)
    obtain ⟨partner, hpartner, hidentity⟩ := mem_map.mp hmet
    have hone : partner = other := inj_on_of_nodup_map hrightKeys hpartner hother
      ((hsame partner item hidentity).trans hkey)
    rw [← hone, hidentity]
  intro first hfirst second hsecond hkey
  cases mem_append.mp hfirst with
  | inl hfirst =>
    cases mem_append.mp hsecond with
    | inl hsecond => exact identify_of_nodup hleftKeys first hfirst second hsecond hkey
    | inr hsecond => exact hmixed first hfirst second hsecond hkey
  | inr hfirst =>
    cases mem_append.mp hsecond with
    | inl hsecond => exact (hmixed second hsecond first hfirst hkey.symm).symm
    | inr hsecond => exact identify_of_nodup hrightKeys first hfirst second hsecond hkey

end

end TwinForge
