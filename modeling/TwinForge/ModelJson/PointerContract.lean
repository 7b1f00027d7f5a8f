import TwinForge.ModelJson.ResolvedPointers

/-! # The contract of pointers

Every published pointer is the pointer of its node, no two nodes have one, and resolving it
finds the node exactly when no key on the way holds a percent sign or a lone surrogate: a
key is escaped for the pointer syntax alone, but read back through percent decoding first.
-/

namespace TwinForge.ModelJson

/-! ## Loaded values -/

mutual

/-- Every dictionary has each of its keys once, checked. -/
def distinctKeys : Value → Bool
  | .arr items => distinctItems items
  | .obj members => decide (keys members).Nodup && distinctMembers members
  | _ => true

def distinctItems : List Value → Bool
  | [] => true
  | item :: items => distinctKeys item && distinctItems items

def distinctMembers : Members → Bool
  | [] => true
  | (_, item) :: members => distinctKeys item && distinctMembers members

end

theorem distinctItems_all {items : List Value} (h : distinctItems items = true) {item : Value}
    (hitem : item ∈ items) : distinctKeys item = true := by
  induction items with
  | nil => cases hitem
  | cons first items ih =>
    rw [distinctItems, Bool.and_eq_true] at h
    rcases List.mem_cons.mp hitem with rfl | hlater
    · exact h.1
    · exact ih h.2 hlater

theorem distinctMembers_all {members : Members} (h : distinctMembers members = true)
    {key : Points} {item : Value} (hitem : members.lookup key = some item) :
    distinctKeys item = true := by
  induction members with
  | nil => cases hitem
  | cons entry members ih =>
    have ⟨name, first⟩ := entry
    rw [distinctMembers, Bool.and_eq_true] at h
    rw [lookup_cons] at hitem
    split at hitem
    · cases hitem
      exact h.1
    · exact ih h.2 hitem

theorem loaded_of_distinctKeys {value : Value} (h : distinctKeys value = true) :
    Loaded value := by
  have hnode : ∀ (position : Position) (value child : Value), distinctKeys value = true →
      value.at? position = some child → distinctKeys child = true := by
    intro position
    induction position with
    | nil =>
      intro value child hvalue hchild
      cases hchild
      exact hvalue
    | cons step position ih =>
      intro value child hvalue hchild
      obtain ⟨next, hnext, hbelow⟩ := Option.bind_eq_some_iff.mp hchild
      refine ih next child ?_ hbelow
      cases value with
      | arr items =>
        cases step with
        | key name => cases hnext
        | index place => exact distinctItems_all hvalue (List.mem_of_getElem? hnext)
      | obj members =>
        cases step with
        | index place => cases hnext
        | key name =>
          rw [distinctKeys, Bool.and_eq_true] at hvalue
          exact distinctMembers_all hvalue.2 hnext
      | _ => cases hnext
  intro position members hmembers
  have hdistinct := hnode position value (.obj members) h hmembers
  rw [distinctKeys, Bool.and_eq_true] at hdistinct
  exact of_decide_eq_true hdistinct.1

/-! ## Documents -/

theorem validateModelJson_ok {document : Value} (h : validateModelJson document = .ok ()) :
    ∃ members root paths, document = .obj members ∧
      keysAre members [schemaVersionKey, sourceFormatKey, documentKey] = true ∧
      (∃ version, members.lookup schemaVersionKey = some (.str version)) ∧
      (∃ format, members.lookup sourceFormatKey = some (.str format)) ∧
      members.lookup documentKey = some root ∧
      validateNode root (pointer [.key documentKey]) [] = .ok paths := by
  have htext : ∀ {value : Option Value} {text : Points}, isText value text = true →
      ∃ found, value = some (.str found) := by
    intro value text htext
    unfold isText at htext
    split at htext
    · exact ⟨_, rfl⟩
    · cases htext
  cases document with
  | obj members =>
    simp only [validateModelJson] at h
    split at h
    · cases h
    · rename_i hkeys
      split at h
      · cases h
      · rename_i hversion
        split at h
        · cases h
        · rename_i hformat
          split at h
          · cases h
          · rename_i root hroot
            split at h
            · cases h
            · rename_i paths hpaths
              exact ⟨members, root, paths, rfl, by simpa using hkeys,
                htext (not_not.mp hversion), htext (not_not.mp hformat), hroot, hpaths⟩
  | _ => cases h

theorem ModelDocument.refsNamed (document : ModelDocument) :
    RefsNamed document.value document.value := by
  obtain ⟨members, root, paths, hvalue, hkeys, ⟨version, hversion⟩, ⟨format, hformat⟩, hroot,
    hvalid⟩ := validateModelJson_ok document.valid
  have hposition : document.value.at? [.key documentKey] = some root := by
    rw [hvalue]
    simp [Value.at?, Value.child?, hroot]
  have hchecked := validateNode_checked document.loaded root [.key documentKey] hposition
    [] paths (by simp) hvalid
  have hbelow : RefsNamed document.value (.obj members) := by
    refine refsNamed_obj ?_ ?_
    · intro hreference
      have hother := @keysAre_disjoint members _ [refKey] _ hkeys
        (by simp : documentKey ∈ [schemaVersionKey, sourceFormatKey, documentKey]) (by decide)
      rw [hreference] at hother
      cases hother
    · intro key item hitem
      have hkey := (keysAre_mem hkeys).mp (key_mem_of_lookup hitem)
      simp only [List.mem_cons, List.not_mem_nil, or_false] at hkey
      rcases hkey with rfl | rfl | rfl
      · rw [hversion] at hitem
        cases hitem
        exact refsNamed_str version
      · rw [hformat] at hitem
        cases hitem
        exact refsNamed_str format
      · rw [hroot] at hitem
        cases hitem
        exact hchecked.2
  intro below others hothers
  refine hbelow below others ?_
  rw [← hvalue]
  exact hothers

theorem modelJsonRecords_spec (document : ModelDocument) {requested : Option Points}
    {record : ModelRecord} (h : record ∈ modelJsonRecords document.value requested) :
    RecordOf document.value record := by
  unfold modelJsonRecords at h
  split at h
  · rename_i root hroot
    have hposition : document.value.at? [.key documentKey] = some root := by
      simp only [Value.at?, evidence] at hroot ⊢
      rw [hroot]
      rfl
    exact collectRecords_spec document.loaded root [.key documentKey] hposition record h
  · cases h

theorem compareModelJson_spec (before after : ModelDocument) {change : Change}
    (h : change ∈ compareModelJson before.value after.value) :
    ChangeOf before.value after.value change :=
  compareNode_spec before.loaded before.value after.value [] rfl rfl change h

/-! ## The contract -/

/-- The pointer, resolved in the document, gives the very node at the position. -/
def Finds (db : CharacterDatabase) (document : Value) (target : Points) (position : Position) :
    Prop :=
  ∃ node, document.at? position = some node ∧
    resolveModelJsonPointer db document target false = .ok ⟨position, node⟩

theorem finds_iff {db : CharacterDatabase} {document node : Value} {target : Points}
    {position : Position} (hnode : document.at? position = some node)
    (htarget : target = pointer position) : Finds db document target position ↔ Plain position := by
  subst htarget
  rw [← @resolve_pointer db document node position hnode]
  constructor
  · intro ⟨found, hfound, hresolved⟩
    rw [hnode] at hfound
    cases hfound
    exact hresolved
  · intro hresolved
    exact ⟨node, hnode, hresolved⟩

/-- Records, changes and references carry the pointers of nodes of their documents; such a
pointer finds its node exactly when the keys on the way are plain, and names no other. -/
theorem published_pointers (db : CharacterDatabase) (document : ModelDocument) :
    (∀ requested, ∀ record ∈ modelJsonRecords document.value requested,
      RecordOf document.value record ∧
        (Finds db document.value record.pointer record.node ↔ Plain record.node)) ∧
    (∀ other : ModelDocument, ∀ change ∈ compareModelJson document.value other.value,
      change.operation ≠ .add → change.before = document.value.at? change.node ∧
        (Finds db document.value change.pointer change.node ↔ Plain change.node)) ∧
    (∀ other : ModelDocument, ∀ change ∈ compareModelJson other.value document.value,
      change.operation ≠ .remove → change.after = document.value.at? change.node ∧
        (Finds db document.value change.pointer change.node ↔ Plain change.node)) ∧
    (∀ position members, document.value.at? position = some (.obj members) →
      keysAre members [refKey] = true →
        ∃ reference container node, members.lookup refKey = some (.str reference) ∧
          document.value.at? container = some node ∧ IsContainer node ∧
          reference = pointer container ∧
          (Finds db document.value reference container ↔ Plain container)) ∧
    ∀ first second, (document.value.at? first).isSome → (document.value.at? second).isSome →
      pointer first = pointer second → first = second := by
  refine ⟨?_, ?_, ?_, ?_, fun first second => pointer_injective⟩
  · intro requested record hrecord
    have hspec := modelJsonRecords_spec document hrecord
    obtain ⟨members, hnode, -, hpointer, -⟩ := hspec
    exact ⟨modelJsonRecords_spec document hrecord, finds_iff hnode hpointer⟩
  · intro other change hchange hoperation
    have hspec := compareModelJson_spec document other hchange
    obtain ⟨value, hnode, hbefore⟩ := hspec.before hoperation
    exact ⟨by rw [hbefore, hnode], finds_iff hnode hspec.pointer⟩
  · intro other change hchange hoperation
    have hspec := compareModelJson_spec other document hchange
    obtain ⟨value, hnode, hafter⟩ := hspec.after hoperation
    exact ⟨by rw [hafter, hnode], finds_iff hnode hspec.pointer⟩
  · intro position members hmembers hkeys
    obtain ⟨reference, hlookup, container, node, hnode, hcontainer, hpointer⟩ :=
      document.refsNamed position members hmembers hkeys
    exact ⟨reference, container, node, hlookup, hnode, hcontainer, hpointer,
      finds_iff hnode hpointer⟩

/-! ## Two documents -/

def text (s : String) : Value := .str (Points.of s)

def documentOf (members : Members) : Value :=
  .obj [
    (schemaVersionKey, text "1.0"), (sourceFormatKey, text "l5x"),
    (documentKey, .obj ((typeKey, text "model.L5XDocument") :: members))]

/-- A record under a key with a slash and a tilde, and a reference to it. -/
def escapedDocument : ModelDocument where
  value := documentOf [
    (Points.of "a/b~c", .obj [(typeKey, text "model.Tag")]),
    (Points.of "alias", .obj [(refKey, text "#/document/a~1b~0c")])]
  loaded := loaded_of_distinctKeys (by decide +kernel)
  valid := by rfl

theorem escapedDocument_found :
    ∀ record ∈ modelJsonRecords escapedDocument.value (some (Points.of "Tag")),
      Finds Ascii.database escapedDocument.value record.pointer record.node := by
  intro record hrecord
  have hfinds := ((published_pointers Ascii.database escapedDocument).1 _ record hrecord).2
  have hnodes : ∀ other ∈ modelJsonRecords escapedDocument.value (some (Points.of "Tag")),
      other.node = [.key documentKey, .key (Points.of "a/b~c")] := by
    decide +kernel
  rw [hfinds, hnodes record hrecord]
  intro step hstep
  simp only [List.mem_cons, List.not_mem_nil, or_false] at hstep
  rcases hstep with rfl | rfl
  · exact ⟨surrogate_not_mem_ofText _, by decide +kernel⟩
  · exact ⟨surrogate_not_mem_ofText _, by decide +kernel⟩

/-- A record under a key with a percent sign. -/
def percentDocument : ModelDocument where
  value := documentOf [(Points.of "100%", .obj [(typeKey, text "model.Tag")])]
  loaded := loaded_of_distinctKeys (by decide +kernel)
  valid := by rfl

/-- The record under the key with a percent sign is published but not found. -/
theorem percentDocument_not_found :
    ∃ record ∈ modelJsonRecords percentDocument.value (some (Points.of "Tag")),
      ¬ Finds Ascii.database percentDocument.value record.pointer record.node := by
  have hrecords : ∃ record ∈ modelJsonRecords percentDocument.value (some (Points.of "Tag")),
      record.node = [.key documentKey, .key (Points.of "100%")] := by
    decide +kernel
  obtain ⟨record, hrecord, hnode⟩ := hrecords
  obtain ⟨members, hposition, -, hpointer, -⟩ := modelJsonRecords_spec percentDocument hrecord
  refine ⟨record, hrecord, ?_⟩
  rw [finds_iff hposition hpointer, hnode]
  intro hplain
  have hkey := hplain (.key (Points.of "100%")) (by simp)
  exact hkey.2 (by decide +kernel)

end TwinForge.ModelJson
