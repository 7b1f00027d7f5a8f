import TwinForge.Foundation.JsonRoundTrip

/-! # Members of a document

Where every name occurs once, a member is read whatever the order of the members: from a
document as it was built, and from the document with sorted names.
-/

namespace TwinForge.Json

theorem dumps_injective (layout : Layout) {first second : Json}
    (h : dumps layout first = dumps layout second) : first = second := by
  have hspaces : ∀ c ∈ ([] : Text), isSpace c = true := fun _ hc => absurd hc List.not_mem_nil
  have hfirst := loads_dumps layout first hspaces
  rw [h, loads_dumps layout second hspaces] at hfirst
  exact (Option.some.inj hfirst).symm

/-- Documents are equal where their texts are. -/
instance : DecidableEq Json := fun first second =>
  let layout : Layout := { asciiOnly := true, indent := none }
  decidable_of_iff (dumps layout first = dumps layout second)
    ⟨dumps_injective layout, congrArg (dumps layout)⟩

section

variable {members : List (Text × Json)}

theorem member_eq_some (h : (members.map Prod.fst).Nodup) (name : Text) (value : Json) :
    member name (.obj members) = some value ↔ (name, value) ∈ members := by
  rw [member]
  cases hfound : members.reverse.find? fun entry => entry.1 = name with
  | none =>
    rw [List.find?_eq_none] at hfound
    have habsent : (name, value) ∉ members := by
      intro hmember
      simpa using hfound _ (List.mem_reverse.mpr hmember)
    simp [habsent]
  | some entry =>
    have hname : entry.1 = name := by simpa using List.find?_some hfound
    have hmember := List.mem_reverse.mp (List.mem_of_find?_eq_some hfound)
    constructor
    · intro hvalue
      have hsame : entry.2 = value := by simpa using hvalue
      rw [← hname, ← hsame]
      exact hmember
    · intro hother
      have hsame := List.inj_on_of_nodup_map h hmember hother hname
      simp [hsame]

theorem member_find (h : (members.map Prod.fst).Nodup) (name : Text) :
    member name (.obj members) =
      (members.find? fun entry => entry.1 = name).map Prod.snd := by
  cases hfound : members.find? fun entry => entry.1 = name with
  | none =>
    rw [List.find?_eq_none] at hfound
    apply Option.eq_none_iff_forall_ne_some.mpr
    intro value hvalue
    rw [member_eq_some h] at hvalue
    simpa using hfound _ hvalue
  | some entry =>
    have hname : entry.1 = name := by simpa using List.find?_some hfound
    rw [Option.map_some, member_eq_some h, ← hname]
    exact List.mem_of_find?_eq_some hfound

end

/-! ## Reordered documents -/

/-- A way to look at documents that may reorder the members of their objects. -/
structure Reorders (view : Json → Json) : Prop where
  member : ∀ {members}, (members.map Prod.fst).Nodup → ∀ name,
    member name (view (.obj members)) = (Json.member name (.obj members)).map view
  names : ∀ {members name},
    name ∈ memberNames (view (.obj members)) ↔ name ∈ members.map Prod.fst
  items : ∀ items, view (.arr items) = .arr (items.map view)
  null : view .null = .null
  bool : ∀ value, view (.bool value) = .bool value
  int : ∀ value, view (.int value) = .int value
  str : ∀ value, view (.str value) = .str value

theorem reorders_id : Reorders id where
  member _ name := by simp
  names := .rfl
  items items := by simp
  null := rfl
  bool _ := rfl
  int _ := rfl
  str _ := rfl

theorem sortItems_eq_map (items : List Json) : sortItems items = items.map sortKeys := by
  induction items with
  | nil => rfl
  | cons item items ih => rw [sortItems, ih, List.map_cons]

theorem sortMembers_eq_map (members : List (Text × Json)) :
    sortMembers members = members.map fun entry => (entry.1, sortKeys entry.2) := by
  induction members with
  | nil => rfl
  | cons entry members ih => rw [sortMembers, ih, List.map_cons]

theorem member_sortKeys {members : List (Text × Json)} (h : (members.map Prod.fst).Nodup)
    (name : Text) :
    member name (sortKeys (.obj members)) = (member name (.obj members)).map sortKeys := by
  have hperm := sortedBy_perm (fun first second : Text × Json => compare first.1 second.1)
    (sortMembers members)
  have hnames : (sortMembers members).map Prod.fst = members.map Prod.fst := by
    simp [sortMembers_eq_map]
  have hsorted := ((hperm.map Prod.fst).nodup_iff).mpr (hnames ▸ h)
  rw [sortKeys]
  apply Option.ext
  intro value
  rw [member_eq_some hsorted, hperm.mem_iff, sortMembers_eq_map]
  simp only [List.mem_map, Option.map_eq_some_iff, member_eq_some h, Prod.ext_iff, Prod.exists]
  grind

theorem reorders_sortKeys : Reorders sortKeys where
  member := member_sortKeys
  names := by
    intro members name
    simp only [sortKeys, memberNames, sortMembers_eq_map, List.mem_map, mem_sortedBy]
    grind
  items items := by rw [sortKeys, sortItems_eq_map]
  null := rfl
  bool _ := rfl
  int _ := rfl
  str _ := rfl

theorem mapM_some {Item : Type} (items : List Item) : items.mapM some = some items := by
  induction items with
  | nil => rfl
  | cons item items ih => simp [ih]

namespace Reorders

variable {view : Json → Json} (h : Reorders view)
include h

theorem text (value : Text) : asText (view (.str value)) = some value := by rw [h.str]; rfl

theorem truth (value : Bool) : asBool (view (.bool value)) = some value := by rw [h.bool]; rfl

theorem optional (value : Option Text) :
    asOptional asText (view (ofOptional value)) = some value := by
  cases value with
  | none => rw [ofOptional, h.null]; rfl
  | some text => rw [ofOptional, h.str]; rfl

theorem list {Item Value : Type} {read : Json → Option Value} {item : Item → Json}
    {restore : Item → Option Value} (hread : ∀ found, read (view (item found)) = restore found)
    (items : List Item) : asList read (view (.arr (items.map item))) = items.mapM restore := by
  rw [h.items, asList, List.map_map]
  induction items with
  | nil => rfl
  | cons first items ih => simp [hread, ih]

theorem known {Item : Type} {read : Json → Option Item} {item : Item → Json}
    (hread : ∀ found, read (view (item found)) = some found) (items : List Item) :
    asList read (view (.arr (items.map item))) = some items := by
  rw [h.list hread, mapM_some]

theorem texts : ∀ values : List Text, asList asText (view (.arr (values.map .str))) = some values :=
  h.known h.text

theorem ints : ∀ values : List Int, asList asInt (view (.arr (values.map .int))) = some values :=
  h.known fun value => by rw [h.int]; rfl

section

variable {members : List (Text × Json)} (hnames : (members.map Prod.fst).Nodup) {name : Text}
  {value : Json} (hmember : members.find? (fun entry => entry.1 = name) = some (name, value))
include hnames hmember

theorem field {Value : Type} (read : Json → Option Value) :
    field read name (view (.obj members)) = read (view value) := by
  rw [Json.field, h.member hnames, member_find hnames, hmember]
  rfl

theorem next {Value Result : Type} {read : Json → Option Value} {found : Value}
    {rest : Value → Option Result} {result : Option Result}
    (hread : read (view value) = some found) (hrest : rest found = result) :
    (Json.field read name (view (.obj members))).bind rest = result := by
  rw [h.field hnames hmember, hread]
  exact hrest

theorem same {Value Result : Type} {read : Json → Option Value} {found : Option Value}
    {rest other : Value → Option Result} (hread : read (view value) = found)
    (hrest : ∀ item, rest item = other item) :
    (Json.field read name (view (.obj members))).bind rest = found.bind other := by
  rw [h.field hnames hmember, hread, funext hrest]

end

end Reorders

end TwinForge.Json
