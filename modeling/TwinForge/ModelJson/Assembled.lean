import TwinForge.ModelJson.Encoder
import TwinForge.ModelJson.PointerContract

/-! # Assembled values

An object is encoded by encoding the operands it holds, one after the other, and assembling
the results. What an assembled value holds, where, in which order, how it is validated and
what it unfolds to is said once for all kinds of objects.
-/

namespace TwinForge.ModelJson

open List

variable {mappingKey : MapKey → Points}

/-- The operands that are encoded, with their places below the object. -/
def childrenOf (mappingKey : MapKey → Points) : HeapObject → List (Operand × Position)
  | .record _ isAsset fields =>
    (keptFields isAsset fields).map fun field => (field.2, [.key field.1])
  | .mapping entries =>
    match stringEntries entries with
    | some named => (orderedStrings named).map fun entry => (entry.2, [.key entry.1])
    | none => (orderedEntries mappingKey entries).zipIdx.map fun entry =>
      (entry.1.2, [.key mapKey, .index entry.2, .key entryValue])
  | .sequence items => items.zipIdx.map fun entry => (entry.1, [.index entry.2])

def assemble (mappingKey : MapKey → Points) (object : HeapObject) (values : List Value) : Value :=
  match object with
  | .record type isAsset fields =>
    .obj ((typeKey, .str type) :: ((keptFields isAsset fields).map Prod.fst).zip values)
  | .mapping entries =>
    match stringEntries entries with
    | some named => .obj (((orderedStrings named).map Prod.fst).zip values)
    | none => .obj [(mapKey, .arr (List.zipWith (fun entry value => entryObject entry.1 value)
        (orderedEntries mappingKey entries) values))]
  | .sequence _ => .arr values

theorem encodeObject_eq (encode : Encode) (object : HeapObject) (position : Position)
    (seen : Seen) :
    encodeObject mappingKey encode object (pointer position) seen =
      (encodeList encode ((childrenOf mappingKey object).map fun child =>
        (child.1, pointer (position ++ child.2))) seen).map fun result =>
          (assemble mappingKey object result.1, result.2) := by
  cases object with
  | record type isAsset fields =>
    simp only [encodeObject, encodeDataclass, childrenOf, assemble, map_map,
      Function.comp_def, pointer_key]
  | mapping entries =>
    cases hnamed : stringEntries entries with
    | some named =>
      simp only [encodeObject, encodeMapping, childrenOf, assemble, hnamed, map_map,
        Function.comp_def, pointer_key]
    | none =>
      simp only [encodeObject, encodeMapping, childrenOf, assemble, hnamed, map_map,
        Function.comp_def, pointer_key, pointer_index, append_assoc, cons_append,
        nil_append]
  | sequence items =>
    simp only [encodeObject, encodeSequence, childrenOf, assemble, map_map,
      Function.comp_def, pointer_index]

variable {values : List Value}

theorem encodeList_length {encode : Encode} {items : List (Operand × Points)} {seen seen' : Seen}
    (h : encodeList encode items seen = some (values, seen')) :
    values.length = items.length := by
  induction items generalizing seen values with
  | nil =>
    cases h
    rfl
  | cons item items ih =>
    unfold encodeList at h
    split at h
    · cases h
    · split at h
      · cases h
      · rename_i hrest
        cases h
        rw [length_cons, ih hrest, length_cons]

/-! ## String keys -/

variable {entries : List (MapKey × Operand)} {named : List (Points × Operand)}

theorem mem_stringEntries (h : stringEntries entries = some named) :
    (∀ entry ∈ named, entry.1 ∉ reservedKeys) ∧
      named.map (fun entry => MapKey.scalar (.str entry.1)) = entries.map Prod.fst := by
  induction entries generalizing named with
  | nil =>
    cases h
    exact ⟨by simp, rfl⟩
  | cons entry entries ih =>
    have ⟨key, operand⟩ := entry
    rw [stringEntries, mapM_cons] at h
    obtain ⟨first, hfirst, hrest⟩ := Option.bind_eq_some_iff.mp h
    obtain ⟨rest, hlater, hnamed⟩ := Option.bind_eq_some_iff.mp hrest
    cases hnamed
    have hall := ih hlater
    simp only at hfirst
    split at hfirst
    · rename_i text
      split at hfirst
      · cases hfirst
      · rename_i hfree
        cases hfirst
        constructor
        · intro other hother
          rcases mem_cons.mp hother with rfl | hlater'
          · exact hfree
          · exact hall.1 other hlater'
        · rw [map_cons, hall.2]
          rfl
    · cases hfirst

theorem nodup_stringEntries (h : stringEntries entries = some named)
    (hdistinct : (entries.map Prod.fst).Nodup) : (named.map Prod.fst).Nodup := by
  have hkeys := (mem_stringEntries h).2
  rw [← hkeys] at hdistinct
  have hmap : named.map (fun entry => MapKey.scalar (.str entry.1)) =
      (named.map Prod.fst).map fun key => MapKey.scalar (.str key) := by
    rw [map_map]
    rfl
  rw [hmap] at hdistinct
  exact List.Nodup.of_map _ hdistinct

theorem orderedStrings_keys (h : stringEntries entries = some named)
    (hdistinct : (entries.map Prod.fst).Nodup) :
    ((orderedStrings named).map Prod.fst).Nodup ∧
      ∀ key ∈ (orderedStrings named).map Prod.fst, key ∉ reservedKeys := by
  have hperm : (orderedStrings named).Perm named := sortedBy_perm _ _
  constructor
  · exact (hperm.map Prod.fst).nodup_iff.mpr (nodup_stringEntries h hdistinct)
  · intro key hkey
    obtain ⟨entry, hentry, rfl⟩ := mem_map.mp hkey
    exact (mem_stringEntries h).1 entry (hperm.mem_iff.mp hentry)

theorem keptFields_keys {type : Points} {isAsset : Bool} {fields : List (Points × Operand)}
    (h : HeapObject.WellFormed (.record type isAsset fields)) :
    ((keptFields isAsset fields).map Prod.fst).Nodup ∧
      ∀ key ∈ (keptFields isAsset fields).map Prod.fst, key ∉ reservedKeys := by
  obtain ⟨-, hnodup, hfree⟩ := h
  have hsub : ((keptFields isAsset fields).map Prod.fst).Sublist (fields.map Prod.fst) :=
    filter_sublist.map Prod.fst
  constructor
  · exact hnodup.sublist hsub
  · intro key hkey
    obtain ⟨field, hfield, rfl⟩ := mem_map.mp (hsub.subset hkey)
    exact hfree field hfield

theorem keys_zip {names : List Points} (h : values.length = names.length) :
    keys (names.zip values) = names :=
  map_fst_zip (by omega)

/-! ## Members of assembled objects -/

theorem assemble_keys {object : HeapObject} {members : Members} (hobject : object.WellFormed)
    (hlength : values.length = (childrenOf mappingKey object).length)
    (h : assemble mappingKey object values = .obj members) :
    (keys members).Nodup ∧ refKey ∉ keys members ∧ bytesKey ∉ keys members := by
  cases object with
  | record type isAsset fields =>
    simp only [assemble, Value.obj.injEq] at h
    subst h
    have hkept := keptFields_keys hobject
    have hzip : keys (((keptFields isAsset fields).map Prod.fst).zip values) =
        (keptFields isAsset fields).map Prod.fst :=
      keys_zip (by rw [hlength, childrenOf, length_map, length_map])
    have hall : keys ((typeKey, .str type) ::
        ((keptFields isAsset fields).map Prod.fst).zip values) =
          typeKey :: (keptFields isAsset fields).map Prod.fst := congrArg _ hzip
    have hfree : ∀ key ∈ reservedKeys, key ∉ (keptFields isAsset fields).map Prod.fst :=
      fun key hkey hmember => hkept.2 key hmember hkey
    rw [hall]
    refine ⟨nodup_cons.mpr ⟨hfree typeKey (by decide), hkept.1⟩, ?_, ?_⟩
    · rw [mem_cons, not_or]
      exact ⟨by decide, hfree refKey (by decide)⟩
    · rw [mem_cons, not_or]
      exact ⟨by decide, hfree bytesKey (by decide)⟩
  | mapping entries =>
    cases hnamed : stringEntries entries with
    | some named =>
      simp only [assemble, hnamed, Value.obj.injEq] at h
      subst h
      have hkeys := orderedStrings_keys hnamed hobject
      rw [keys_zip (by
        simp only [childrenOf, hnamed, length_map] at hlength
        rw [hlength, length_map])]
      exact ⟨hkeys.1, fun hmember => hkeys.2 refKey hmember (by decide),
        fun hmember => hkeys.2 bytesKey hmember (by decide)⟩
    | none =>
      simp only [assemble, hnamed, Value.obj.injEq] at h
      subst h
      have hkeys : ∀ items, keys [(mapKey, Value.arr items)] = [mapKey] := fun _ => rfl
      rw [hkeys]
      exact ⟨by decide, by decide, by decide⟩
  | sequence items => cases h

theorem assemble_container {object : HeapObject} {values : List Value} (hobject : object.WellFormed)
    (hlength : values.length = (childrenOf mappingKey object).length) :
    IsContainer (assemble mappingKey object values) := by
  cases hvalue : assemble mappingKey object values with
  | arr items => trivial
  | obj members =>
    obtain ⟨-, href, hbytes⟩ := assemble_keys hobject hlength hvalue
    refine ⟨?_, ?_⟩
    · cases hkeys : keysAre members [refKey] with
      | false => rfl
      | true => exact absurd ((keysAre_mem hkeys).mpr (by simp)) href
    · cases hkeys : keysAre members [bytesKey] with
      | false => rfl
      | true => exact absurd ((keysAre_mem hkeys).mpr (by simp)) hbytes
  | _ => cases object <;> simp [assemble] at hvalue; split at hvalue <;> cases hvalue

end TwinForge.ModelJson
