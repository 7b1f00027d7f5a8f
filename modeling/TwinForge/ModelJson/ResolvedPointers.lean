import TwinForge.ModelJson.PublishedPointers

/-! # Resolved pointers

A validated reference is the pointer of a container of its document. With the records and
the changes this makes every published pointer resolve to its node exactly when the keys
on the way are plain.
-/

namespace TwinForge.ModelJson

open List

/-! ## References -/

/-- What a reference may name: an array, or an object other than a reference and bytes. -/
def IsContainer : Value → Prop
  | .arr _ => True
  | .obj members => keysAre members [refKey] = false ∧ keysAre members [bytesKey] = false
  | _ => False

/-- The path names a container of the document. -/
def Named (document : Value) (path : Points) : Prop :=
  ∃ position value, document.at? position = some value ∧ IsContainer value ∧
    path = pointer position

/-- Every reference below the node names a container of the document. -/
def RefsNamed (document value : Value) : Prop :=
  ∀ below members, value.at? below = some (.obj members) → keysAre members [refKey] = true →
    ∃ reference, members.lookup refKey = some (.str reference) ∧ Named document reference

/-- Validating the node at the path keeps to named paths. -/
def Checked (document value : Value) (path : Points) : Prop :=
  ∀ paths paths', (∀ named ∈ paths, Named document named) →
    validateNode value path paths = .ok paths' →
      (∀ named ∈ paths', Named document named) ∧ RefsNamed document value

theorem keysAre_mem {members : Members} {wanted : List Points} (h : keysAre members wanted = true)
    {key : Points} : key ∈ keys members ↔ key ∈ wanted := by
  simp only [keysAre, Bool.and_eq_true, all_eq_true, decide_eq_true_eq] at h
  exact ⟨fun hkey => h.1 key hkey, fun hkey => h.2 key hkey⟩

variable {members : Members}

theorem key_mem_of_lookup {key : Points} {item : Value}
    (h : members.lookup key = some item) : key ∈ keys members :=
  mem_map.mpr ⟨(key, item), mem_of_lookup h, rfl⟩

theorem keysAre_disjoint {members : Members} {first second : List Points} {key : Points}
    (hfirst : keysAre members first = true) (hkey : key ∈ first) (hother : key ∉ second) :
    keysAre members second = false := by
  cases hsecond : keysAre members second with
  | false => rfl
  | true => exact absurd ((keysAre_mem hsecond).mp ((keysAre_mem hfirst).mpr hkey)) hother

section

variable {document : Value}

theorem refsNamed_str (text : Points) : RefsNamed document (.str text) := by
  intro below members hbelow
  cases below with
  | nil => cases hbelow
  | cons step below => cases hbelow

variable {path : Points} {paths paths' : List Points}

theorem validateItems_checked {items : List Value} {start : Nat}
    (hitems : ∀ (place : Nat) (item : Value), items[place]? = some item →
      Checked document item (indexPath path (start + place)))
    (hnamed : ∀ named ∈ paths, Named document named)
    (h : validateItems items start path paths = .ok paths') :
    (∀ named ∈ paths', Named document named) ∧
      ∀ (place : Nat) (item : Value), items[place]? = some item → RefsNamed document item := by
  induction items generalizing start paths with
  | nil =>
    cases h
    exact ⟨hnamed, by simp⟩
  | cons item items ih =>
    rw [validateItems, Guards.bind_eq_ok] at h
    obtain ⟨middle, hmiddle, hrest⟩ := h
    have hhere := hitems 0 item rfl paths middle hnamed hmiddle
    have hlater := ih (fun place other hother => by
      rw [show start + 1 + place = start + (place + 1) by omega]
      exact hitems (place + 1) other hother) hhere.1 hrest
    refine ⟨hlater.1, fun place other hother => ?_⟩
    cases place with
    | zero =>
      cases hother
      exact hhere.2
    | succ place => exact hlater.2 place other hother

theorem validateMembers_checked {skipped : List Points}
    (hmembers : ∀ entry ∈ members, Checked document entry.2 (keyPath path entry.1))
    (hnamed : ∀ named ∈ paths, Named document named)
    (h : validateMembers skipped members path paths = .ok paths') :
    (∀ named ∈ paths', Named document named) ∧
      ∀ entry ∈ members, entry.1 ∉ skipped → RefsNamed document entry.2 := by
  induction members generalizing paths with
  | nil =>
    cases h
    exact ⟨hnamed, by simp⟩
  | cons entry members ih =>
    have ⟨key, item⟩ := entry
    have hothers : ∀ other ∈ members, Checked document other.2 (keyPath path other.1) :=
      fun other hother => hmembers other (mem_cons_of_mem _ hother)
    rw [validateMembers] at h
    by_cases hskipped : key ∈ skipped
    · rw [if_pos hskipped] at h
      have hlater := ih hothers hnamed h
      refine ⟨hlater.1, fun other hother hkept => ?_⟩
      rcases mem_cons.mp hother with rfl | hthere
      · exact absurd hskipped hkept
      · exact hlater.2 other hthere hkept
    · rw [if_neg hskipped, Guards.bind_eq_ok] at h
      obtain ⟨middle, hmiddle, hrest⟩ := h
      have hhere := hmembers (key, item) mem_cons_self paths middle hnamed hmiddle
      have hlater := ih hothers hhere.1 hrest
      refine ⟨hlater.1, fun other hother hkept => ?_⟩
      rcases mem_cons.mp hother with rfl | hthere
      · exact hhere.2
      · exact hlater.2 other hthere hkept

theorem validateMember_checked {name : Points}
    (hmember : ∀ item, members.lookup name = some item →
      Checked document item (keyPath path name))
    (hnamed : ∀ named ∈ paths, Named document named)
    (h : validateMember name members path paths = .ok paths') :
    (∀ named ∈ paths', Named document named) ∧
      ∀ item, members.lookup name = some item → RefsNamed document item := by
  induction members with
  | nil =>
    cases h
    exact ⟨hnamed, fun item hitem => by cases hitem⟩
  | cons entry members ih =>
    have ⟨key, item⟩ := entry
    rw [validateMember] at h
    simp only [lookup_cons] at hmember ⊢
    by_cases hkey : key = name
    · rw [if_pos hkey] at h
      simp only [if_pos hkey.symm, Option.some.injEq, forall_eq'] at hmember ⊢
      exact hmember paths paths' hnamed h
    · rw [if_neg hkey] at h
      simp only [if_neg fun hsame : name = key => hkey hsame.symm] at hmember ⊢
      exact ih hmember h

theorem validateEntries_checked {entries : List Value} {start : Nat}
    (hentries : ∀ (place : Nat) (members : Members) (name : Points) (item : Value), entries[place]? = some (.obj members) →
      members.lookup name = some item →
        Checked document item (keyPath (indexPath path (start + place)) name))
    (hnamed : ∀ named ∈ paths, Named document named)
    (h : validateEntries entries start path paths = .ok paths') :
    (∀ named ∈ paths', Named document named) ∧
      ∀ (place : Nat) (entry : Value), entries[place]? = some entry → ∃ members : Members, entry = .obj members ∧
        keysAre members [entryKey, entryValue] = true ∧
        ∀ name item, members.lookup name = some item → RefsNamed document item := by
  induction entries generalizing start paths with
  | nil =>
    cases h
    exact ⟨hnamed, by simp⟩
  | cons entry entries ih =>
    cases entry with
    | obj members =>
      rw [validateEntries] at h
      by_cases hkeys : keysAre members [entryKey, entryValue] = true
      · simp only [if_pos hkeys, Guards.bind_eq_ok] at h
        obtain ⟨middle, hkey, last, hvalue, hrest⟩ := h
        have hchecked : ∀ name item, members.lookup name = some item →
            Checked document item (keyPath (indexPath path start) name) :=
          fun name item hitem => hentries 0 members name item rfl hitem
        have hkeyed := validateMember_checked (hchecked entryKey) hnamed hkey
        have hvalued := validateMember_checked (hchecked entryValue) hkeyed.1 hvalue
        have hlater := ih (fun place others name item hothers hitem => by
          rw [show start + 1 + place = start + (place + 1) by omega]
          exact hentries (place + 1) others name item hothers hitem) hvalued.1 hrest
        refine ⟨hlater.1, fun place other hother => ?_⟩
        cases place with
        | zero =>
          cases hother
          refine ⟨members, rfl, hkeys, fun name item hitem => ?_⟩
          have hname := (keysAre_mem hkeys).mp (key_mem_of_lookup hitem)
          simp only [mem_cons, not_mem_nil, or_false] at hname
          rcases hname with rfl | rfl
          · exact hkeyed.2 item hitem
          · exact hvalued.2 item hitem
        | succ place => exact hlater.2 place other hother
      · simp only [if_neg hkeys] at h
        cases h
    | _ => simp [validateEntries] at h

theorem validateMap_checked
    (hmap : ∀ (entries : List Value) (place : Nat) (others : Members) (name : Points)
      (item : Value), members.lookup mapKey = some (.arr entries) →
      entries[place]? = some (.obj others) → others.lookup name = some item →
        Checked document item (keyPath (indexPath (keyPath path mapKey) place) name))
    (hnamed : ∀ named ∈ paths, Named document named)
    (h : validateMap members path paths = .ok paths') :
    (∀ named ∈ paths', Named document named) ∧
      ∃ entries, members.lookup mapKey = some (.arr entries) ∧
        ∀ (place : Nat) (entry : Value), entries[place]? = some entry → ∃ others : Members, entry = .obj others ∧
          keysAre others [entryKey, entryValue] = true ∧
          ∀ name item, others.lookup name = some item → RefsNamed document item := by
  induction members with
  | nil => cases h
  | cons entry members ih =>
    have ⟨key, item⟩ := entry
    simp only [lookup_cons] at hmap ⊢
    by_cases hkey : key = mapKey
    · simp only [if_pos hkey.symm, Option.some.injEq] at hmap ⊢
      cases item with
      | arr entries =>
        rw [validateMap, if_pos hkey] at h
        have hchecked := validateEntries_checked (fun place others name found hothers hfound => by
          rw [Nat.zero_add]
          exact hmap entries place others name found rfl hothers hfound) hnamed h
        exact ⟨hchecked.1, entries, rfl, hchecked.2⟩
      | _ => simp [validateMap, hkey] at h
    · simp only [if_neg fun hsame : mapKey = key => hkey hsame.symm] at hmap ⊢
      refine ih hmap ?_
      cases item <;> simpa [validateMap, hkey] using h

theorem refsNamed_obj (hhere : keysAre members [refKey] = true → ∃ reference,
      members.lookup refKey = some (.str reference) ∧ Named document reference)
    (hbelow : ∀ key item, members.lookup key = some item → RefsNamed document item) :
    RefsNamed document (.obj members) := by
  intro below others hothers hkeys
  cases below with
  | nil =>
    cases hothers
    exact hhere hkeys
  | cons step below =>
    obtain ⟨item, hitem, hrest⟩ := Option.bind_eq_some_iff.mp hothers
    cases step with
    | key name => exact hbelow name item hitem below others hrest hkeys
    | index place => cases hitem

theorem refsNamed_arr {items : List Value}
    (h : ∀ (place : Nat) (item : Value), items[place]? = some item → RefsNamed document item) :
    RefsNamed document (.arr items) := by
  intro below others hothers hkeys
  cases below with
  | nil => cases hothers
  | cons step below =>
    obtain ⟨item, hitem, hrest⟩ := Option.bind_eq_some_iff.mp hothers
    cases step with
    | key name => cases hitem
    | index place => exact h place item hitem below others hrest hkeys

theorem named_append
    (hnamed : ∀ named ∈ paths, Named document named) (hpath : Named document path) :
    ∀ named ∈ paths ++ [path], Named document named := by
  intro named hmember
  rcases mem_append.mp hmember with hbefore | hlast
  · exact hnamed named hbefore
  · rw [mem_singleton.mp hlast]
    exact hpath

theorem reserved_mem {members : Members} {key : Points} {reserved : List Points}
    (h : reservedKeys.filter (· ∈ keys members) = reserved) (hkey : key ∈ reservedKeys) :
    key ∈ keys members ↔ key ∈ reserved := by
  rw [← h, mem_filter]
  simp [hkey]

theorem validateNode_obj (h : validateNode (.obj members) path paths = .ok paths') :
    ((∀ key ∈ reservedKeys, key ∉ keys members) ∧
        validateMembers [] members path (paths ++ [path]) = .ok paths') ∨
      (keysAre members [refKey] = true ∧ paths' = paths ∧
        ∃ reference ∈ paths, members.lookup refKey = some (.str reference)) ∨
      (keysAre members [bytesKey] = true ∧ paths' = paths ∧
        ∃ encoded, members.lookup bytesKey = some (.str encoded)) ∨
      (keysAre members [mapKey] = true ∧
        validateMap members path (paths ++ [path]) = .ok paths') ∨
      (refKey ∉ keys members ∧ bytesKey ∉ keys members ∧
        (∃ name, members.lookup typeKey = some (.str name)) ∧
        validateMembers [typeKey] members path (paths ++ [path]) = .ok paths') := by
  rw [validateNode] at h
  generalize hreserved : reservedKeys.filter (· ∈ keys members) = reserved at h
  have hmem := @reserved_mem members
  split at h
  · rename_i hnone
    rw [hnone] at hreserved
    refine Or.inl ⟨fun key hkey => ?_, h⟩
    rw [hmem hreserved hkey]
    simp
  · split at h
    · rename_i href
      unfold validateReference at h
      split at h
      · rename_i reference hreference
        split at h
        · cases h
        · split at h
          · cases h
          · rename_i hknown
            cases h
            exact Or.inr (Or.inl ⟨href.2, rfl, reference, not_not.mp hknown, hreference⟩)
      · cases h
    · split at h
      · rename_i hbytes
        unfold validateBytes at h
        split at h
        · rename_i encoded hencoded
          split at h
          · cases h
            exact Or.inr (Or.inr (Or.inl ⟨hbytes.2, rfl, encoded, hencoded⟩))
          · cases h
        · cases h
      · split at h
        · rename_i hmap
          exact Or.inr (Or.inr (Or.inr (Or.inl ⟨hmap.2, h⟩)))
        · split at h
          · rename_i name hname
            split at h
            · cases h
            · rename_i htyped
              rw [not_not.mp htyped] at hreserved
              split at h
              · cases h
              · refine Or.inr (Or.inr (Or.inr (Or.inr ⟨?_, ?_, ⟨name, hname⟩, h⟩)))
                · rw [hmem hreserved (by decide)]
                  decide
                · rw [hmem hreserved (by decide)]
                  decide
          · cases h

theorem named_of_keys {position : Position}
    (hvalue : document.at? position = some (.obj members)) (href : refKey ∉ keys members)
    (hbytes : bytesKey ∉ keys members) : Named document (pointer position) := by
  refine ⟨position, _, hvalue, ⟨?_, ?_⟩, rfl⟩
  · cases hkeys : keysAre members [refKey] with
    | false => rfl
    | true => exact absurd ((keysAre_mem hkeys).mpr (by simp)) href
  · cases hkeys : keysAre members [bytesKey] with
    | false => rfl
    | true => exact absurd ((keysAre_mem hkeys).mpr (by simp)) hbytes

theorem refsNamed_scalar {value : Value} (h : ∀ step, value.child? step = none)
    (hobj : ∀ members, value ≠ .obj members) : RefsNamed document value := by
  intro below members hbelow
  cases below with
  | nil => exact absurd (Option.some.inj hbelow) (hobj members)
  | cons step below =>
    rw [Value.at?, h step] at hbelow
    cases hbelow

theorem validateNode_checked (hloaded : Loaded document) (value : Value) :
    ∀ position, document.at? position = some value →
      Checked document value (pointer position) := by
  induction value using Value.descend with
  | _ value ih =>
    intro position hvalue paths paths' hnamed hvalid
    have hbelow : ∀ (below : Position) (child : Value), below ≠ [] →
        value.at? below = some child →
          Checked document child (pointer (position ++ below)) := by
      intro below child hsome hchild
      refine ih below child hsome hchild (position ++ below) ?_
      rw [at?_append, hvalue]
      exact hchild
    cases value with
    | float number =>
      cases number with
      | finite number =>
        cases hvalid
        exact ⟨hnamed, refsNamed_scalar (fun _ => rfl) (by simp)⟩
      | _ => cases hvalid
    | arr items =>
      have hpath : Named document (pointer position) := ⟨position, _, hvalue, trivial, rfl⟩
      rw [validateNode] at hvalid
      have hitems := validateItems_checked (fun place item hitem => by
        rw [Nat.zero_add, pointer_index]
        exact hbelow [.index place] item (by simp) (by simp [Value.at?, Value.child?, hitem]))
        (named_append hnamed hpath) hvalid
      exact ⟨hitems.1, refsNamed_arr hitems.2⟩
    | obj members =>
      have hchild : ∀ entry ∈ members,
          Checked document entry.2 (keyPath (pointer position) entry.1) := by
        intro entry hentry
        have hlookup := lookup_of_mem (hloaded.below hvalue).nodup hentry
        rw [pointer_key]
        exact hbelow [.key entry.1] entry.2 (by simp)
          (by simp [Value.at?, Value.child?, hlookup])
      rcases validateNode_obj hvalid with ⟨hplain, hmembers⟩ |
        ⟨hkeys, rfl, reference, hreference, hlookup⟩ | ⟨hkeys, rfl, encoded, hlookup⟩ |
        ⟨hkeys, hmap⟩ | ⟨href, hbytes, ⟨name, hname⟩, hmembers⟩
      · have href := hplain refKey (by decide)
        have hpath := named_of_keys hvalue href (hplain bytesKey (by decide))
        have hall := validateMembers_checked hchild (named_append hnamed hpath) hmembers
        refine ⟨hall.1, refsNamed_obj ?_ ?_⟩
        · intro hkeys
          exact absurd ((keysAre_mem hkeys).mpr (by simp)) href
        · intro key item hitem
          exact hall.2 (key, item) (mem_of_lookup hitem) (by simp)
      · refine ⟨hnamed, refsNamed_obj ?_ ?_⟩
        · intro _
          exact ⟨reference, hlookup, hnamed reference hreference⟩
        · intro key item hitem
          have hkey := (keysAre_mem hkeys).mp (key_mem_of_lookup hitem)
          rw [mem_singleton.mp hkey, hlookup] at hitem
          cases hitem
          exact refsNamed_str reference
      · refine ⟨hnamed, refsNamed_obj ?_ ?_⟩
        · intro hreference
          have hother := @keysAre_disjoint members _ [refKey] _ hkeys
            (by simp : bytesKey ∈ [bytesKey]) (by decide)
          rw [hreference] at hother
          cases hother
        · intro key item hitem
          have hkey := (keysAre_mem hkeys).mp (key_mem_of_lookup hitem)
          rw [mem_singleton.mp hkey, hlookup] at hitem
          cases hitem
          exact refsNamed_str encoded
      · have hmember := @keysAre_mem members [mapKey] hkeys
        have hpath := named_of_keys hvalue (by rw [hmember]; decide) (by rw [hmember]; decide)
        have hentries := validateMap_checked (fun entries place others name item hlookup
            hothers hitem => by
          rw [pointer_key, pointer_index, pointer_key, append_assoc, append_assoc]
          refine hbelow [.key mapKey, .index place, .key name] item (by simp) ?_
          simp [Value.at?, Value.child?, hlookup, hothers, hitem])
          (named_append hnamed hpath) hmap
        obtain ⟨hpaths, entries, hlookup, hall⟩ := hentries
        refine ⟨hpaths, refsNamed_obj ?_ ?_⟩
        · intro hreference
          have hother := @keysAre_disjoint members _ [refKey] _ hkeys
            (by simp : mapKey ∈ [mapKey]) (by decide)
          rw [hreference] at hother
          cases hother
        · intro key item hitem
          have hkey := hmember.mp (key_mem_of_lookup hitem)
          rw [mem_singleton.mp hkey, hlookup] at hitem
          cases hitem
          refine refsNamed_arr fun place entry hentry => ?_
          obtain ⟨others, rfl, hothers, hnames⟩ := hall place entry hentry
          refine refsNamed_obj ?_ hnames
          intro hreference
          have hother := @keysAre_disjoint others _ [refKey] _ hothers
            (by simp : entryKey ∈ [entryKey, entryValue]) (by decide)
          rw [hreference] at hother
          cases hother
      · have hpath := named_of_keys hvalue href hbytes
        have hall := validateMembers_checked hchild (named_append hnamed hpath) hmembers
        refine ⟨hall.1, refsNamed_obj ?_ ?_⟩
        · intro hkeys
          exact absurd ((keysAre_mem hkeys).mpr (by simp)) href
        · intro key item hitem
          by_cases hkey : key = typeKey
          · rw [hkey, hname] at hitem
            cases hitem
            exact refsNamed_str name
          · exact hall.2 (key, item) (mem_of_lookup hitem) (by simpa using hkey)
    | _ =>
      cases hvalid
      exact ⟨hnamed, refsNamed_scalar (fun _ => rfl) (by simp)⟩

end

end TwinForge.ModelJson
