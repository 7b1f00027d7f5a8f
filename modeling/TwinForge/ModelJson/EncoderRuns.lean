import Mathlib.Data.Finset.Card
import TwinForge.ModelJson.AssembledNodes

/-! # Runs of the encoder

A run writes plain values, references to objects met before, and objects entered for the
first time. Each object is entered once, so a run ends; what it writes is loaded as written
and passes validation, since the paths of the objects met are among those validated before.
-/

namespace TwinForge.ModelJson

open List

variable {mappingKey : MapKey → Points} {objects : List HeapObject}

/-! ## Induction over runs -/

/-- What an operand other than an object is written as. -/
inductive WrittenPlain : Operand → Value → Prop
  | scalar (value : Scalar) : WrittenPlain (.scalar value) value.value
  | member (value : Scalar) : WrittenPlain (.member value) value.value
  | path (posix : Points) : WrittenPlain (.path posix) (.str posix)
  | bytes (bytes : List UInt8) : WrittenPlain (.bytes bytes) (bytesValue bytes)

theorem plain_or_object (operand : Operand) :
    (∃ value, WrittenPlain operand value) ∨ ∃ identity, operand = .object identity := by
  cases operand with
  | scalar value => exact Or.inl ⟨_, .scalar value⟩
  | member value => exact Or.inl ⟨_, .member value⟩
  | path posix => exact Or.inl ⟨_, .path posix⟩
  | bytes bytes => exact Or.inl ⟨_, .bytes bytes⟩
  | object identity => exact Or.inr ⟨identity, rfl⟩

variable {operand : Operand} {value : Value}

theorem encode_plain (h : WrittenPlain operand value) (fuel : Nat) (path : Points) (seen : Seen) :
    encode mappingKey objects fuel operand path seen = some (value, seen) := by
  cases h <;> rw [encode]

variable {seen : Seen} {identity : Nat}

theorem encode_again {first : Points}
    (h : seen.get? identity = some first) (fuel : Nat) (path : Points) :
    encode mappingKey objects fuel (.object identity) path seen =
      some (refValue first, seen) := by
  unfold encode
  simp only [h]

variable {object : HeapObject}

theorem encode_enter
    (h : seen.get? identity = none) (hobject : objects[identity]? = some object) (fuel : Nat)
    (path : Points) :
    encode mappingKey objects (fuel + 1) (.object identity) path seen =
      encodeObject mappingKey (encode mappingKey objects fuel) object path
        (seen.set identity path) := by
  unfold encode
  simp only [h, hobject]

variable {fuel : Nat}

theorem encode_stuck (h : seen.get? identity = none)
    (hnone : fuel = 0 ∨ objects[identity]? = none) (path : Points) :
    encode mappingKey objects fuel (.object identity) path seen = none := by
  cases fuel with
  | zero =>
    unfold encode
    simp only [h]
  | succ fuel =>
    have hobject := hnone.resolve_left (by omega)
    unfold encode
    simp only [h, hobject]

def atPaths (position : Position) (children : List (Operand × Position)) :
    List (Operand × Points) :=
  children.map fun child => (child.1, pointer (position ++ child.2))

variable {position : Position} {seen' : Seen}

theorem encodeList_induct {encode : Encode}
    {motive : Operand → Position → Seen → Value → Seen → Prop}
    {motiveAll : Position → List (Operand × Position) → Seen → List Value → Seen → Prop}
    (one : ∀ operand position (seen : Seen) value seen',
      encode operand (pointer position) seen = some (value, seen') →
        motive operand position seen value seen')
    (nil : ∀ position seen, motiveAll position [] seen [] seen)
    (cons : ∀ position child children seen value seen' values seen'',
      motive child.1 (position ++ child.2) seen value seen' →
        motiveAll position children seen' values seen'' →
          motiveAll position (child :: children) seen (value :: values) seen'')
    {children : List (Operand × Position)} {values : List Value}
    (h : encodeList encode (atPaths position children) seen = some (values, seen')) :
    motiveAll position children seen values seen' := by
  induction children generalizing seen values with
  | nil =>
    cases h
    exact nil position _
  | cons child children ih =>
    rw [atPaths, map_cons, encodeList] at h
    split at h
    · cases h
    · rename_i value seen₁ hfirst
      split at h
      · cases h
      · rename_i rest seen₂ hrest
        cases h
        exact cons position child children seen value seen₁ rest seen'
          (one _ _ _ _ _ hfirst) (ih hrest)

/-- What holds of plain values and of references, and of an object when it holds of its
operands, holds of whatever is encoded. -/
theorem encode_induct (motive : Operand → Position → Seen → Value → Seen → Prop)
    (motiveAll : Position → List (Operand × Position) → Seen → List Value → Seen → Prop)
    (plain : ∀ operand value position seen, WrittenPlain operand value →
      motive operand position seen value seen)
    (again : ∀ identity path position (seen : Seen), seen.get? identity = some path →
      motive (.object identity) position seen (refValue path) seen)
    (enter : ∀ identity object position (seen : Seen) values seen', seen.get? identity = none →
      objects[identity]? = some object →
        values.length = (childrenOf mappingKey object).length →
          motiveAll position (childrenOf mappingKey object)
            (seen.set identity (pointer position)) values seen' →
              motive (.object identity) position seen (assemble mappingKey object values) seen')
    (nil : ∀ position seen, motiveAll position [] seen [] seen)
    (cons : ∀ position child children seen value seen' values seen'',
      motive child.1 (position ++ child.2) seen value seen' →
        motiveAll position children seen' values seen'' →
          motiveAll position (child :: children) seen (value :: values) seen'')
    (h : encode mappingKey objects fuel operand (pointer position) seen = some (value, seen')) :
    motive operand position seen value seen' := by
  induction fuel generalizing operand position seen value seen' with
  | zero =>
    rcases plain_or_object operand with ⟨plainValue, hplain⟩ | ⟨identity, rfl⟩
    · rw [encode_plain hplain] at h
      cases h
      exact plain _ _ _ _ hplain
    · cases hseen : seen.get? identity with
      | some path =>
        rw [encode_again hseen] at h
        cases h
        exact again identity path position _ hseen
      | none =>
        rw [encode_stuck hseen (Or.inl rfl)] at h
        cases h
  | succ fuel ih =>
    rcases plain_or_object operand with ⟨plainValue, hplain⟩ | ⟨identity, rfl⟩
    · rw [encode_plain hplain] at h
      cases h
      exact plain _ _ _ _ hplain
    · cases hseen : seen.get? identity with
      | some path =>
        rw [encode_again hseen] at h
        cases h
        exact again identity path position _ hseen
      | none =>
        cases hobject : objects[identity]? with
        | none =>
          rw [encode_stuck hseen (Or.inr hobject)] at h
          cases h
        | some object =>
          rw [encode_enter hseen hobject, encodeObject_eq] at h
          obtain ⟨⟨values, last⟩, hvalues, hassembled⟩ := Option.map_eq_some_iff.mp h
          cases hassembled
          have hlength := encodeList_length hvalues
          rw [length_map] at hlength
          refine enter identity object position seen values _ hseen hobject hlength ?_
          have hone : ∀ operand position (seen : Seen) value seen',
              encode mappingKey objects fuel operand (pointer position) seen =
                some (value, seen') → motive operand position seen value seen' :=
            fun _ _ _ _ _ hrun => ih hrun
          exact encodeList_induct hone nil cons hvalues

/-! ## Termination -/

def unseen (objects : List HeapObject) (seen : Seen) : Finset Nat :=
  (Finset.range objects.length).filter fun identity => seen.get? identity = none

/-- The operand is no dangling object. -/
def Closed (objects : List HeapObject) (operand : Operand) : Prop :=
  ∀ identity, operand = .object identity → identity < objects.length

theorem unseen_set (hbound : identity < objects.length)
    (hunseen : seen.get? identity = none) (path : Points) :
    (unseen objects (seen.set identity path)).card < (unseen objects seen).card := by
  have hmember : identity ∈ unseen objects seen := by
    simp only [unseen, Finset.mem_filter, Finset.mem_range]
    exact ⟨hbound, hunseen⟩
  have hsubset : unseen objects (seen.set identity path) ⊆ (unseen objects seen).erase identity := by
    intro other hother
    simp only [unseen, Finset.mem_filter, Dictionary.get?_set] at hother
    simp only [unseen, Finset.mem_erase, Finset.mem_filter]
    split at hother
    · cases hother.2
    · rename_i hne
      exact ⟨hne, hother.1, hother.2⟩
  calc (unseen objects (seen.set identity path)).card
      ≤ ((unseen objects seen).erase identity).card := Finset.card_le_card hsubset
    _ < (unseen objects seen).card := Finset.card_erase_lt_of_mem hmember

theorem encodeList_ends {encode : Encode}
    (one : ∀ (operand : Operand) (position : Position) (seen : Seen), Closed objects operand →
      (unseen objects seen).card ≤ fuel → ∃ value seen', encode operand (pointer position) seen =
        some (value, seen') ∧ (unseen objects seen').card ≤ (unseen objects seen).card)
    (position : Position) (children : List (Operand × Position)) (seen : Seen)
    (hclosed : ∀ child ∈ children, Closed objects child.1)
    (hfuel : (unseen objects seen).card ≤ fuel) :
    ∃ values seen', encodeList encode (atPaths position children) seen = some (values, seen') ∧
      (unseen objects seen').card ≤ (unseen objects seen).card := by
  induction children generalizing seen with
  | nil => exact ⟨[], seen, rfl, Nat.le_refl _⟩
  | cons child children ih =>
    obtain ⟨value, seen₁, hfirst, hless⟩ := one child.1 (position ++ child.2) seen
      (hclosed child mem_cons_self) hfuel
    obtain ⟨values, seen₂, hrest, hless'⟩ := ih seen₁
      (fun other hother => hclosed other (mem_cons_of_mem _ hother)) (by omega)
    refine ⟨value :: values, seen₂, ?_, by omega⟩
    rw [atPaths, map_cons, encodeList, hfirst]
    have hrest' : encodeList encode (children.map fun child =>
        (child.1, pointer (position ++ child.2))) seen₁ = some (values, seen₂) := hrest
    simp only [hrest']

theorem stringEntries_source {entries : List (MapKey × Operand)}
    {named : List (Points × Operand)} (h : stringEntries entries = some named)
    {entry : Points × Operand} (hentry : entry ∈ named) :
    (.scalar (.str entry.1), entry.2) ∈ entries := by
  obtain ⟨source, hsource, hread⟩ := Guards.exists_item (Guards.mapM_beside h) hentry
  have ⟨key, operand⟩ := source
  simp only at hread
  split at hread
  · split at hread
    · cases hread
    · cases hread
      exact hsource
  · cases hread

theorem childrenOf_operands {child : Operand × Position}
    (h : child ∈ childrenOf mappingKey object) : child.1 ∈ object.operands := by
  cases object with
  | record type isAsset fields =>
    obtain ⟨field, hfield, rfl⟩ := mem_map.mp h
    exact mem_map.mpr ⟨field, (mem_filter.mp hfield).1, rfl⟩
  | mapping entries =>
    cases hnamed : stringEntries entries with
    | some named =>
      simp only [childrenOf, hnamed] at h
      obtain ⟨entry, hentry, rfl⟩ := mem_map.mp h
      exact mem_map.mpr ⟨_, stringEntries_source hnamed (mem_sortedBy.mp hentry), rfl⟩
    | none =>
      simp only [childrenOf, hnamed] at h
      obtain ⟨entry, hentry, rfl⟩ := mem_map.mp h
      have hmember := fst_mem_of_mem_zipIdx hentry
      exact mem_map.mpr ⟨entry.1, mem_sortedBy.mp hmember, rfl⟩
  | sequence items =>
    obtain ⟨entry, hentry, rfl⟩ := mem_map.mp h
    exact fst_mem_of_mem_zipIdx hentry

theorem encode_ends
    (hclosed : ∀ object ∈ objects, ∀ operand ∈ object.operands, Closed objects operand)
    (fuel : Nat) (operand : Operand) (position : Position) (seen : Seen)
    (hoperand : Closed objects operand) (hfuel : (unseen objects seen).card ≤ fuel) :
    ∃ value seen', encode mappingKey objects fuel operand (pointer position) seen =
      some (value, seen') ∧
      (unseen objects seen').card ≤ (unseen objects seen).card := by
  induction fuel generalizing operand position seen with
  | zero =>
    rcases plain_or_object operand with ⟨plainValue, hplain⟩ | ⟨identity, rfl⟩
    · exact ⟨plainValue, seen, encode_plain hplain 0 _ seen, Nat.le_refl _⟩
    · cases hseen : seen.get? identity with
      | some first => exact ⟨_, seen, encode_again hseen 0 _, Nat.le_refl _⟩
      | none =>
        have hless := unseen_set (hoperand identity rfl) hseen (pointer position)
        omega
  | succ fuel ih =>
    rcases plain_or_object operand with ⟨plainValue, hplain⟩ | ⟨identity, rfl⟩
    · exact ⟨plainValue, seen, encode_plain hplain _ _ seen, Nat.le_refl _⟩
    · cases hseen : seen.get? identity with
      | some first => exact ⟨_, seen, encode_again hseen _ _, Nat.le_refl _⟩
      | none =>
        have hbound := hoperand identity rfl
        have hless := unseen_set hbound hseen (pointer position)
        have hobject := List.getElem?_eq_getElem hbound
        have hown := hclosed _ (List.getElem_mem hbound)
        obtain ⟨values, seen', hvalues, hrest⟩ := encodeList_ends
          ih position (childrenOf mappingKey objects[identity])
          (seen.set identity (pointer position))
          (fun child hchild => hown child.1 (childrenOf_operands hchild)) (by omega)
        refine ⟨assemble mappingKey objects[identity] values, seen', ?_, by omega⟩
        have hvalues' : encodeList (encode mappingKey objects fuel)
            ((childrenOf mappingKey objects[identity]).map fun child =>
              (child.1, pointer (position ++ child.2)))
            (seen.set identity (pointer position)) = some (values, seen') := hvalues
        rw [encode_enter hseen hobject, encodeObject_eq, hvalues']
        rfl

/-! ## What is written -/

theorem distinctItems_of_all {items : List Value} (h : ∀ item ∈ items, distinctKeys item = true) :
    distinctItems items = true := by
  induction items with
  | nil => rfl
  | cons item items ih =>
    rw [distinctItems, h item mem_cons_self,
      ih fun other hother => h other (mem_cons_of_mem _ hother)]
    rfl

theorem distinctMembers_of_all {members : Members}
    (h : ∀ member ∈ members, distinctKeys member.2 = true) : distinctMembers members = true := by
  induction members with
  | nil => rfl
  | cons member members ih =>
    have ⟨key, item⟩ := member
    have hitem : distinctKeys item = true := h (key, item) mem_cons_self
    rw [distinctMembers, hitem, ih fun other hother => h other (mem_cons_of_mem _ hother)]
    rfl

theorem distinctKeys_scalar (value : Scalar) : distinctKeys value.value = true := by
  cases value <;> simp [Scalar.value, distinctKeys]

theorem distinctKeys_entryObject (key : MapKey)
    (h : distinctKeys value = true) : distinctKeys (entryObject key value) = true := by
  have hnodup : (keys [(entryKey, key.encoded.value), (entryValue, value)]).Nodup := by
    have hnames : keys [(entryKey, key.encoded.value), (entryValue, value)] =
      [entryKey, entryValue] := rfl
    rw [hnames]
    decide
  rw [entryObject, distinctKeys, decide_eq_true hnodup, distinctMembers, distinctMembers,
    distinctKeys_scalar, h]
  rfl

theorem distinctKeys_assemble {values : List Value} (hobject : object.WellFormed)
    (hlength : values.length = (childrenOf mappingKey object).length)
    (hvalues : ∀ value ∈ values, distinctKeys value = true) :
    distinctKeys (assemble mappingKey object values) = true := by
  have hzip : ∀ names : List Points, ∀ member ∈ names.zip values,
      distinctKeys member.2 = true :=
    fun names member hmember => hvalues member.2 (of_mem_zip hmember).2
  cases hvalue : assemble mappingKey object values with
  | obj members =>
    have hnodup := (assemble_keys hobject hlength hvalue).1
    rw [distinctKeys, decide_eq_true hnodup, Bool.true_and]
    refine distinctMembers_of_all fun member hmember => ?_
    cases object with
    | record type isAsset fields =>
      cases hvalue
      rcases mem_cons.mp hmember with rfl | hlater
      · rfl
      · exact hzip _ member hlater
    | mapping entries =>
      cases hnamed : stringEntries entries with
      | some named =>
        simp only [assemble, hnamed, Value.obj.injEq] at hvalue
        subst hvalue
        exact hzip _ member hmember
      | none =>
        simp only [assemble, hnamed, Value.obj.injEq] at hvalue
        subst hvalue
        rw [mem_singleton.mp hmember, distinctKeys]
        refine distinctItems_of_all fun item hitem => ?_
        rw [← map_uncurry_zip_eq_zipWith] at hitem
        obtain ⟨entry, hentry, rfl⟩ := mem_map.mp hitem
        exact distinctKeys_entryObject _ (hvalues entry.2 (of_mem_zip hentry).2)
    | sequence items => cases hvalue
  | arr items =>
    cases object with
    | record type isAsset fields => cases hvalue
    | mapping entries =>
      simp only [assemble] at hvalue
      split at hvalue <;> cases hvalue
    | sequence list =>
      cases hvalue
      exact distinctItems_of_all hvalues
  | _ => rfl

theorem encode_distinctKeys (hobjects : ∀ object ∈ objects, object.WellFormed)
    (h : encode mappingKey objects fuel operand (pointer position) seen = some (value, seen')) :
    distinctKeys value = true := by
  refine encode_induct (fun _ _ _ value _ => distinctKeys value = true)
    (fun _ _ _ values _ => ∀ value ∈ values, distinctKeys value = true)
    ?_ ?_ ?_ ?_ ?_ h
  · intro operand value position seen hplain
    cases hplain with
    | scalar value => exact distinctKeys_scalar value
    | member value => exact distinctKeys_scalar value
    | path posix => rfl
    | bytes bytes => rfl
  · intro identity path position seen _
    rfl
  · intro identity object position seen values seen' _ hobject hlength hvalues
    exact distinctKeys_assemble (hobjects object (mem_of_getElem? hobject)) hlength hvalues
  · intro position seen value hvalue
    cases hvalue
  · intro position child children seen value seen' values seen'' hvalue hvalues other hother
    rcases mem_cons.mp hother with rfl | hlater
    · exact hvalue
    · exact hvalues other hlater

/-! ## Validation of what is written -/

/-- The paths of the objects met are among those validated. -/
def Validated (seen : Seen) (paths : List Points) : Prop :=
  ∀ identity path, seen.get? identity = some path →
    path ∈ paths ∧ (Points.of "#/").isPrefixOf path = true

variable {paths : List Points}

theorem Validated.set (h : Validated seen paths) (identity : Nat) (hsome : position ≠ []) :
    Validated (seen.set identity (pointer position)) (paths ++ [pointer position]) := by
  intro other path hpath
  rw [Dictionary.get?_set] at hpath
  split at hpath
  · cases hpath
    constructor
    · simp
    · cases position with
      | nil => exact absurd rfl hsome
      | cons step rest =>
        rw [pointer, flatMap_cons, isPrefixOf_iff_prefix]
        exact ⟨step.token ++ rest.flatMap fun step => .scalar '/' :: step.token, rfl⟩
  · rcases h other path hpath with ⟨hmember, hprefix⟩
    exact ⟨mem_append_left _ hmember, hprefix⟩

theorem validateNode_ref {path reference : Points}
    (hmember : reference ∈ paths) (hstart : (Points.of "#/").isPrefixOf reference = true) :
    validateNode (refValue reference) path paths = .ok paths := by
  have hkeys : keys [(refKey, Value.str reference)] = [refKey] := rfl
  have hreserved : reservedKeys.filter (· ∈ [refKey]) = [refKey] := by decide
  have hall : keysAre [(refKey, Value.str reference)] [refKey] = true := by simp [keysAre, hkeys]
  rw [refValue, validateNode, hkeys, hreserved]
  simp only [show ¬ [refKey] = ([] : List Points) by decide, hall, if_false, and_self, if_true,
    lookup_cons, validateReference, hstart, hmember, not_true_eq_false]

theorem encode_valid (hobjects : ∀ object ∈ objects, object.WellFormed)
    (h : encode mappingKey objects fuel operand (pointer position) seen = some (value, seen'))
    (hsome : position ≠ []) (hpaths : Validated seen paths) :
    ∃ paths', validateNode value (pointer position) paths = .ok paths' ∧
      Validated seen' paths' := by
  refine encode_induct (fun _ position seen value seen' => position ≠ [] →
      ∀ paths, Validated seen paths → ∃ paths',
        validateNode value (pointer position) paths = .ok paths' ∧ Validated seen' paths')
    (fun position children seen values seen' => position ≠ [] →
      ∀ paths, Validated seen paths → ∃ paths', validateAll ((children.zip values).map fun entry =>
        (entry.2, pointer (position ++ entry.1.2))) paths = .ok paths' ∧ Validated seen' paths')
    ?_ ?_ ?_ ?_ ?_ h hsome paths hpaths
  · intro operand value position seen hplain _ paths hpaths
    cases hplain with
    | scalar value => exact ⟨paths, validateNode_scalar value _ _, hpaths⟩
    | member value => exact ⟨paths, validateNode_scalar value _ _, hpaths⟩
    | path posix => exact ⟨paths, validateNode_scalar (.str posix) _ _, hpaths⟩
    | bytes bytes => exact ⟨paths, validateNode_bytes bytes _ _, hpaths⟩
  · intro identity path position seen hseen _ paths hpaths
    have ⟨hmember, hprefix⟩ := hpaths identity path hseen
    exact ⟨paths, validateNode_ref hmember hprefix, hpaths⟩
  · intro identity object position seen values seen' _ hobject hlength hvalues hsome paths hpaths
    rw [validateNode_assemble (hobjects object (mem_of_getElem? hobject)) hlength]
    exact hvalues hsome _ (hpaths.set identity hsome)
  · intro position seen _ paths hpaths
    exact ⟨paths, rfl, hpaths⟩
  · intro position child children seen value seen' values seen'' hvalue hvalues hsome paths hpaths
    obtain ⟨paths₁, hfirst, hpaths₁⟩ := hvalue (by simp [hsome]) paths hpaths
    obtain ⟨paths₂, hrest, hpaths₂⟩ := hvalues hsome paths₁ hpaths₁
    refine ⟨paths₂, ?_, hpaths₂⟩
    rw [List.zip_cons_cons, map_cons, validateAll, hfirst]
    exact hrest

end TwinForge.ModelJson
