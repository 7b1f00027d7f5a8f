import TwinForge.ModelJson.Pointers

/-! # Published pointers

Every record, change and reference of a validated document carries the pointer of its
node, so it is found again exactly when the keys on the way to it are plain.
-/

namespace TwinForge.ModelJson

open List

/-- A loaded document: every dictionary has each of its keys once. -/
def Loaded (document : Value) : Prop :=
  ∀ position members, document.at? position = some (.obj members) → (keys members).Nodup

structure ModelDocument where
  value : Value
  loaded : Loaded value
  valid : validateModelJson value = .ok ()

/-! ## Descent -/

theorem lookup_cons (key name : Points) (item : Value) (members : Members) :
    ((name, item) :: members).lookup key =
      if key = name then some item else members.lookup key := by
  by_cases h : key = name
  · simp [h]
  · have hbeq : (key == name) = false := by simpa using h
    simp [h, List.lookup_cons, hbeq]

theorem sizeOf_lookup {members : Members} {key : Points} {child : Value}
    (h : members.lookup key = some child) : sizeOf child < sizeOf members := by
  induction members with
  | nil => cases h
  | cons entry members ih =>
    have ⟨name, item⟩ := entry
    rw [lookup_cons] at h
    simp only [List.cons.sizeOf_spec, Prod.mk.sizeOf_spec]
    split at h
    · cases h
      omega
    · have hrest := ih h
      omega

variable {value child : Value}

theorem sizeOf_child {step : Step} (h : value.child? step = some child) :
    sizeOf child < sizeOf value := by
  cases value with
  | obj members =>
    cases step with
    | index place => cases h
    | key name =>
      have hsmaller := @sizeOf_lookup members name child h
      simp only [Value.obj.sizeOf_spec]
      omega
  | arr items =>
    cases step with
    | key name => cases h
    | index place =>
      have hmember : child ∈ items := mem_of_getElem? h
      have hsmaller := sizeOf_lt_of_mem hmember
      simp only [Value.arr.sizeOf_spec]
      omega
  | _ => cases h

variable {position : Position}

theorem sizeOf_at? (hsome : position ≠ [])
    (h : value.at? position = some child) : sizeOf child < sizeOf value := by
  induction position generalizing value with
  | nil => exact absurd rfl hsome
  | cons step position ih =>
    obtain ⟨next, hnext, hbelow⟩ := Option.bind_eq_some_iff.mp h
    have hsmaller := sizeOf_child hnext
    cases position with
    | nil =>
      cases hbelow
      exact hsmaller
    | cons step' position =>
      have hrest := ih (by simp) hbelow
      omega

/-- What holds of a node when it holds of all nodes below it, holds of every node. -/
theorem Value.descend {motive : Value → Prop}
    (h : ∀ value, (∀ position child, position ≠ [] → value.at? position = some child →
      motive child) → motive value) (value : Value) : motive value := by
  induction hsize : sizeOf value using Nat.strongRecOn generalizing value with
  | _ size ih =>
    refine h value fun position child hsome hchild => ?_
    have hsmaller := sizeOf_at? hsome hchild
    exact ih (sizeOf child) (hsize ▸ hsmaller) child rfl

theorem Loaded.below (h : Loaded value)
    (hchild : value.at? position = some child) : Loaded child := by
  intro below members hmembers
  refine h (position ++ below) members ?_
  rw [at?_append, hchild]
  exact hmembers

variable {members : Members}

theorem Loaded.nodup (h : Loaded (.obj members)) : (keys members).Nodup :=
  h [] members rfl

variable {key : Points}

theorem lookup_of_mem (h : (keys members).Nodup)
    {item : Value} (hmember : (key, item) ∈ members) : members.lookup key = some item := by
  induction members with
  | nil => cases hmember
  | cons entry members ih =>
    have ⟨name, other⟩ := entry
    have ⟨hfirst, hrest⟩ := nodup_cons.mp h
    rw [lookup_cons]
    rcases mem_cons.mp hmember with hsame | hlater
    · cases hsame
      exact if_pos rfl
    · rw [if_neg]
      · exact ih hrest hlater
      · intro hsame
        exact hfirst (mem_map.mpr ⟨(key, item), hlater, hsame⟩)

theorem mem_of_lookup {item : Value}
    (h : members.lookup key = some item) : (key, item) ∈ members := by
  induction members with
  | nil => cases h
  | cons entry members ih =>
    have ⟨name, other⟩ := entry
    rw [lookup_cons] at h
    split at h
    · rename_i hsame
      cases h
      rw [hsame]
      exact mem_cons_self
    · exact mem_cons_of_mem _ (ih h)

/-! ## Records -/

variable {start : Nat} {path : Points}

section

variable {requested : Option Points} {record : ModelRecord}

theorem mem_collectItems {items : List Value}
    (h : record ∈ collectItems requested items start path position) :
    ∃ place item, items[place]? = some item ∧
      record ∈ collectRecords requested item (indexPath path (start + place))
        (position ++ [.index (start + place)]) := by
  induction items generalizing start with
  | nil => cases h
  | cons item items ih =>
    rw [collectItems, mem_append] at h
    cases h with
    | inl hhere => exact ⟨0, item, rfl, hhere⟩
    | inr hthere =>
      obtain ⟨place, found, hfound, hrecord⟩ := ih hthere
      refine ⟨place + 1, found, hfound, ?_⟩
      rw [show start + (place + 1) = start + 1 + place by omega]
      exact hrecord

theorem mem_collectMembers (h : record ∈ collectMembers requested members path position) :
    ∃ entry ∈ members, record ∈ collectRecords requested entry.2 (keyPath path entry.1)
      (position ++ [.key entry.1]) := by
  induction members with
  | nil => cases h
  | cons entry members ih =>
    have ⟨key, item⟩ := entry
    rw [collectMembers, mem_append] at h
    cases h with
    | inl hhere =>
      split at hhere
      · cases hhere
      · exact ⟨(key, item), mem_cons_self, hhere⟩
    | inr hthere =>
      obtain ⟨other, hother, hrecord⟩ := ih hthere
      exact ⟨other, mem_cons_of_mem _ hother, hrecord⟩

theorem mem_collectMember {name : Points}
    (h : record ∈ collectMember requested name members path position) :
    ∃ item, members.lookup name = some item ∧
      record ∈ collectRecords requested item (keyPath path name) (position ++ [.key name]) := by
  induction members with
  | nil => cases h
  | cons entry members ih =>
    have ⟨key, item⟩ := entry
    rw [collectMember] at h
    rw [lookup_cons]
    by_cases hkey : key = name
    · rw [if_pos hkey] at h
      exact ⟨item, if_pos hkey.symm, h⟩
    · rw [if_neg hkey] at h
      rw [if_neg fun hsame => hkey hsame.symm]
      exact ih h

theorem mem_collectEntries {entries : List Value}
    (h : record ∈ collectEntries requested entries start path position) :
    ∃ place members name item, entries[place]? = some (.obj members) ∧
      members.lookup name = some item ∧
      record ∈ collectRecords requested item (keyPath (indexPath path (start + place)) name)
        (position ++ [.index (start + place), .key name]) := by
  induction entries generalizing start with
  | nil => cases h
  | cons entry entries ih =>
    have hlater : record ∈ collectEntries requested entries (start + 1) path position →
        ∃ place members name item, (entry :: entries)[place]? = some (.obj members) ∧
          members.lookup name = some item ∧
          record ∈ collectRecords requested item
            (keyPath (indexPath path (start + place)) name)
            (position ++ [.index (start + place), .key name]) := by
      intro hthere
      obtain ⟨place, members, name, item, hentry, hitem, hrecord⟩ := ih hthere
      refine ⟨place + 1, members, name, item, hentry, hitem, ?_⟩
      rw [show start + (place + 1) = start + 1 + place by omega]
      exact hrecord
    cases entry with
    | obj members =>
      have hentry : ∀ name, record ∈ collectMember requested name members
          (indexPath path start) (position ++ [.index start]) →
          ∃ item, members.lookup name = some item ∧
            record ∈ collectRecords requested item (keyPath (indexPath path start) name)
              (position ++ [.index start, .key name]) := by
        intro name hmember
        obtain ⟨item, hitem, hrecord⟩ := mem_collectMember hmember
        rw [append_assoc] at hrecord
        exact ⟨item, hitem, hrecord⟩
      rw [collectEntries, mem_append, mem_append] at h
      rcases h with (hkey | hvalue) | hthere
      · obtain ⟨item, hitem, hrecord⟩ := hentry entryKey hkey
        exact ⟨0, members, entryKey, item, rfl, hitem, hrecord⟩
      · obtain ⟨item, hitem, hrecord⟩ := hentry entryValue hvalue
        exact ⟨0, members, entryValue, item, rfl, hitem, hrecord⟩
      · exact hlater hthere
    | _ => exact hlater (by simpa [collectEntries] using h)

theorem mem_collectMap (h : record ∈ collectMap requested members path position) :
    ∃ entries, members.lookup mapKey = some (.arr entries) ∧
      record ∈ collectEntries requested entries 0 (keyPath path mapKey)
        (position ++ [.key mapKey]) := by
  induction members with
  | nil => cases h
  | cons entry members ih =>
    have ⟨key, item⟩ := entry
    rw [lookup_cons]
    by_cases hkey : key = mapKey
    · cases item with
      | arr entries =>
        rw [collectMap, if_pos hkey] at h
        exact ⟨entries, if_pos hkey.symm, h⟩
      | _ => simp [collectMap, hkey] at h
    · have hrest : record ∈ collectMap requested members path position := by
        cases item <;> simpa [collectMap, hkey] using h
      rw [if_neg fun hsame => hkey hsame.symm]
      exact ih hrest

/-- The record was made of the node at its position. -/
def RecordOf (document : Value) (record : ModelRecord) : Prop :=
  ∃ members, document.at? record.node = some (.obj members) ∧
    asText (members.lookup typeKey) = some record.type ∧
    record.pointer = pointer record.node ∧ record.name = recordName members

theorem collectRecords_spec {document : Value} (hloaded : Loaded document) (value : Value) :
    ∀ position, document.at? position = some value →
      ∀ record ∈ collectRecords requested value (pointer position) position,
        RecordOf document record := by
  induction value using Value.descend with
  | _ value ih =>
    intro position hvalue record hrecord
    have hbelow : ∀ (below : Position) (child : Value), below ≠ [] →
        value.at? below = some child → record ∈ collectRecords requested child
          (pointer (position ++ below)) (position ++ below) → RecordOf document record := by
      intro below child hsome hchild
      refine ih below child hsome hchild (position ++ below) ?_ record
      rw [at?_append, hvalue]
      exact hchild
    cases value with
    | arr items =>
      obtain ⟨place, item, hitem, hmember⟩ := mem_collectItems hrecord
      rw [Nat.zero_add, pointer_index] at hmember
      refine hbelow [.index place] item (by simp) ?_ hmember
      simp [Value.at?, Value.child?, hitem]
    | obj members =>
      rw [collectRecords] at hrecord
      split at hrecord
      · cases hrecord
      · split at hrecord
        · obtain ⟨entries, hentries, hmember⟩ := mem_collectMap hrecord
          obtain ⟨place, entry, name, item, hentry, hitem, hmember⟩ :=
            mem_collectEntries hmember
          rw [Nat.zero_add, pointer_key, pointer_index, pointer_key] at hmember
          refine hbelow [.key mapKey, .index place, .key name] item (by simp) ?_ ?_
          · simp [Value.at?, Value.child?, hentries, hentry, hitem]
          · simpa using hmember
        · rw [mem_append] at hrecord
          cases hrecord with
          | inl hhere =>
            unfold recordOf at hhere
            split at hhere
            · rename_i type htype
              split at hhere
              · rw [mem_singleton.mp hhere]
                exact ⟨members, hvalue, htype, rfl, rfl⟩
              · cases hhere
            · cases hhere
          | inr hthere =>
            obtain ⟨entry, hentry, hmember⟩ := mem_collectMembers hthere
            have hnodup := (hloaded.below hvalue).nodup
            have hlookup := lookup_of_mem hnodup hentry
            rw [pointer_key] at hmember
            refine hbelow [.key entry.1] entry.2 (by simp) ?_ hmember
            simp [Value.at?, Value.child?, hlookup]
    | _ => cases hrecord

end

/-! ## Changes -/

/-- The change was made of the nodes at its position, in the documents that have one. -/
structure ChangeOf (before after : Value) (change : Change) : Prop where
  pointer : change.pointer = pointer change.node
  before : change.operation ≠ .add →
    ∃ value, before.at? change.node = some value ∧ change.before = some value
  after : change.operation ≠ .remove →
    ∃ value, after.at? change.node = some value ∧ change.after = some value

section

variable {before after : Value} {change : Change}

theorem at?_child {document : Value} {step : Step}
    (hvalue : document.at? position = some value) (hchild : value.child? step = some child) :
    document.at? (position ++ [step]) = some child := by
  rw [at?_append, hvalue]
  show (value.child? step).bind _ = _
  rw [hchild]
  rfl

theorem mem_keys_lookup (h : key ∈ keys members) :
    ∃ item, members.lookup key = some item := by
  induction members with
  | nil => cases h
  | cons entry members ih =>
    have ⟨name, item⟩ := entry
    rw [lookup_cons]
    by_cases hsame : key = name
    · exact ⟨item, if_pos hsame⟩
    · rw [if_neg hsame]
      exact ih ((mem_cons.mp h).resolve_left hsame)

variable {others : Members}

theorem removedMembers_spec (hbefore : before.at? position = some (.obj members))
    (h : change ∈ removedMembers members others (pointer position) position) :
    ChangeOf before after change := by
  obtain ⟨key, hkey, rfl⟩ := mem_map.mp h
  have hmember := (mem_filter.mp (mem_sortedBy.mp hkey)).1
  obtain ⟨item, hitem⟩ := mem_keys_lookup hmember
  have hchild : (Value.obj members).child? (.key key) = some item := hitem
  exact {
    pointer := pointer_key position key
    before := fun _ => ⟨item, at?_child hbefore hchild, hitem⟩
    after := fun hremove => absurd rfl hremove
  }

theorem addedMembers_spec (hafter : after.at? position = some (.obj others))
    (h : change ∈ addedMembers members others (pointer position) position) :
    ChangeOf before after change := by
  obtain ⟨key, hkey, rfl⟩ := mem_map.mp h
  have hmember := (mem_filter.mp (mem_sortedBy.mp hkey)).1
  obtain ⟨item, hitem⟩ := mem_keys_lookup hmember
  have hchild : (Value.obj others).child? (.key key) = some item := hitem
  exact {
    pointer := pointer_key position key
    before := fun hadd => absurd rfl hadd
    after := fun _ => ⟨item, at?_child hafter hchild, hitem⟩
  }

theorem mem_compareMembers
    {entry : Points × List Change} (h : entry ∈ compareMembers members others path position) :
    ∃ item other, (entry.1, item) ∈ members ∧ others.lookup entry.1 = some other ∧
      entry.2 = compareNode item other (keyPath path entry.1) (position ++ [.key entry.1]) := by
  induction members with
  | nil => cases h
  | cons first members ih =>
    have ⟨key, item⟩ := first
    rw [compareMembers] at h
    have hlater : entry ∈ compareMembers members others path position →
        ∃ found other, (entry.1, found) ∈ (key, item) :: members ∧
          others.lookup entry.1 = some other ∧ entry.2 = compareNode found other
            (keyPath path entry.1) (position ++ [.key entry.1]) := by
      intro hthere
      obtain ⟨found, other, hfound, hrest⟩ := ih hthere
      exact ⟨found, other, mem_cons_of_mem _ hfound, hrest⟩
    split at h
    · rename_i other hother
      rcases mem_cons.mp h with rfl | hthere
      · exact ⟨item, other, mem_cons_self, hother, rfl⟩
      · exact hlater hthere
    · exact hlater h

theorem mem_compareItems {items others : List Value}
    (h : change ∈ compareItems items others start path position) :
    (∃ place item, items[place]? = some item ∧
        change = ⟨.remove, indexPath path (start + place), some item, none,
          position ++ [.index (start + place)]⟩) ∨
      (∃ place item, others[place]? = some item ∧
        change = ⟨.add, indexPath path (start + place), none, some item,
          position ++ [.index (start + place)]⟩) ∨
      ∃ place item other, items[place]? = some item ∧ others[place]? = some other ∧
        change ∈ compareNode item other (indexPath path (start + place))
          (position ++ [.index (start + place)]) := by
  have hplaced : ∀ {list : List Value} {entry : Value × Nat}, entry ∈ list.zipIdx start →
      ∃ place, list[place]? = some entry.1 ∧ entry.2 = start + place := by
    intro list entry hentry
    have hfound := mem_zipIdx_iff_le_and_getElem?_sub.mp hentry
    exact ⟨entry.2 - start, hfound.2, by omega⟩
  induction items generalizing others start with
  | nil =>
    rw [compareItems] at h
    obtain ⟨entry, hentry, rfl⟩ := mem_map.mp h
    obtain ⟨place, hplace, hindex⟩ := hplaced hentry
    exact Or.inr (Or.inl ⟨place, entry.1, hplace, by rw [hindex]⟩)
  | cons item items ih =>
    cases others with
    | nil =>
      rw [compareItems] at h
      obtain ⟨entry, hentry, rfl⟩ := mem_map.mp h
      obtain ⟨place, hplace, hindex⟩ := hplaced hentry
      exact Or.inl ⟨place, entry.1, hplace, by rw [hindex]⟩
    | cons other others =>
      rw [compareItems, mem_append] at h
      rcases h with hhere | hthere
      · exact Or.inr (Or.inr ⟨0, item, other, rfl, rfl, hhere⟩)
      · have hshift : ∀ place, start + 1 + place = start + (place + 1) := by
          intro place
          omega
        have hplaced' : ∀ {list : List Value} {entry : Value × Nat},
            entry ∈ list.zipIdx (start + 1) →
              ∃ place, list[place]? = some entry.1 ∧ entry.2 = start + 1 + place := by
          intro list entry hentry
          have hfound := mem_zipIdx_iff_le_and_getElem?_sub.mp hentry
          exact ⟨entry.2 - (start + 1), hfound.2, by omega⟩
        rcases ih hthere hplaced' with ⟨place, found, hfound, hchange⟩ |
          ⟨place, found, hfound, hchange⟩ | ⟨place, found, found', hfound, hfound', hchange⟩
        · rw [hshift] at hchange
          exact Or.inl ⟨place + 1, found, hfound, hchange⟩
        · rw [hshift] at hchange
          exact Or.inr (Or.inl ⟨place + 1, found, hfound, hchange⟩)
        · rw [hshift] at hchange
          exact Or.inr (Or.inr ⟨place + 1, found, found', hfound, hfound', hchange⟩)

theorem compareNode_spec (hloaded : Loaded before) (value : Value) :
    ∀ (other : Value) (position : Position), before.at? position = some value →
      after.at? position = some other →
        ∀ change ∈ compareNode value other (pointer position) position,
          ChangeOf before after change := by
  induction value using Value.descend with
  | _ value ih =>
    intro other position hvalue hother change hchange
    have hreplaced : change = ⟨.replace, pointer position, some value, some other, position⟩ →
        ChangeOf before after change := by
      intro hsame
      subst hsame
      exact ⟨rfl, fun _ => ⟨value, hvalue, rfl⟩, fun _ => ⟨other, hother, rfl⟩⟩
    have hbelow : ∀ (step : Step) (child child' : Value), value.child? step = some child →
        other.child? step = some child' →
        change ∈ compareNode child child' (pointer (position ++ [step]))
          (position ++ [step]) → ChangeOf before after change := by
      intro step child child' hchild hchild'
      refine ih [step] child (by simp) ?_ child' (position ++ [step])
        (at?_child hvalue hchild) (at?_child hother hchild') change
      simp [Value.at?, hchild]
    unfold compareNode at hchange
    split at hchange
    · exact hreplaced (mem_singleton.mp hchange)
    · split at hchange
      · rename_i members others _
        rw [mem_append, mem_append] at hchange
        rcases hchange with (hremoved | hadded) | hcommon
        · exact removedMembers_spec hvalue hremoved
        · exact addedMembers_spec hother hadded
        · obtain ⟨entry, hentry, hmember⟩ := mem_flatMap.mp hcommon
          obtain ⟨item, found, hitem, hfound, hsame⟩ :=
            mem_compareMembers (mem_sortedBy.mp hentry)
          rw [hsame, pointer_key] at hmember
          have hnodup := (hloaded.below hvalue).nodup
          exact hbelow (.key entry.1) item found (lookup_of_mem hnodup hitem) hfound hmember
      · rename_i items others _
        rcases mem_compareItems hchange with ⟨place, item, hitem, rfl⟩ |
          ⟨place, item, hitem, rfl⟩ | ⟨place, item, found, hitem, hfound, hmember⟩
        · rw [Nat.zero_add]
          have hchild : (Value.arr items).child? (.index place) = some item := hitem
          exact ⟨pointer_index position place, fun _ => ⟨item, at?_child hvalue hchild, rfl⟩,
            fun hremove => absurd rfl hremove⟩
        · rw [Nat.zero_add]
          have hchild : (Value.arr others).child? (.index place) = some item := hitem
          exact ⟨pointer_index position place, fun hadd => absurd rfl hadd,
            fun _ => ⟨item, at?_child hother hchild, rfl⟩⟩
        · rw [Nat.zero_add, pointer_index] at hmember
          exact hbelow (.index place) item found hitem hfound hmember
      · split at hchange
        · exact hreplaced (mem_singleton.mp hchange)
        · cases hchange

end

end TwinForge.ModelJson
