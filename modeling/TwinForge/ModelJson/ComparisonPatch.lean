import TwinForge.ModelJson.Patching

/-! # A comparison is an exact patch

The changes between two documents are made child by child. Applied to the first document they
give the second, there is none exactly between equal documents, and none lies inside another.
-/

namespace TwinForge.ModelJson

open List

variable {before after : Value} {position : Position} {step : Step}

/-! ## Changes child by child -/

/-- The changes at and below one child, by the child that each of two containers has. -/
inductive ChildChanges (below : Position → Value → Value → List Change → Prop)
    (position : Position) (step : Step) : Option Value → Option Value → List Change → Prop
  | removed (item : Value) : ChildChanges below position step (some item) none
      [⟨.remove, pointer (position ++ [step]), some item, none, position ++ [step]⟩]
  | added (item : Value) : ChildChanges below position step none (some item)
      [⟨.add, pointer (position ++ [step]), none, some item, position ++ [step]⟩]
  | compared {item other : Value} {changes : List Change}
      (h : below (position ++ [step]) item other changes) :
      ChildChanges below position step (some item) (some other) changes

/-- The children of two containers with their changes, the places of arrays in order. -/
structure ByChild (below : Position → Value → Value → List Change → Prop)
    (position : Position) (before after : Value) (entries : List (Step × List Change)) :
    Prop where
  nodup : (entries.map Prod.fst).Nodup
  ordered : (entries.map Prod.fst).Pairwise fun first second =>
    ∀ place other, first = .index place → second = .index other → place < other
  changes : ∀ entry ∈ entries,
    ChildChanges below position entry.1 (before.child? entry.1) (after.child? entry.1) entry.2
  complete : ∀ step ∉ entries.map Prod.fst,
    before.child? step = none ∧ after.child? step = none

def Compared (position : Position) (before after : Value) (changes : List Change) : Prop :=
  changes = compareNode before after (pointer position) position

theorem placed_entries (items : List Value) (start : Nat) (change : Value × Nat → Change) :
    ∃ entries : List (Step × List Change),
      (items.zipIdx start).map change = entries.flatMap Prod.snd ∧
      entries.map Prod.fst = (range' start items.length).map .index ∧
      ∀ entry ∈ entries, ∃ place item, items[place]? = some item ∧
        entry = (.index (start + place), [change (item, start + place)]) := by
  refine ⟨(items.zipIdx start).map fun item => (.index item.2, [change item]),
    by rw [flatMap_map, map_eq_flatMap], ?_, ?_⟩
  · rw [map_map, ← zipIdx_map_snd start items, map_map]
    rfl
  · intro entry hentry
    obtain ⟨item, hitem, rfl⟩ := mem_map.mp hentry
    have hfound := mem_zipIdx_iff_le_and_getElem?_sub.mp hitem
    have hplace : item.2 = start + (item.2 - start) := by omega
    exact ⟨item.2 - start, item.1, hfound.2, by rw [← hplace]⟩

theorem compareItems_entries (items others : List Value) (start : Nat) :
    ∃ entries : List (Step × List Change),
      compareItems items others start (pointer position) position =
        entries.flatMap Prod.snd ∧
      entries.map Prod.fst = (range' start (max items.length others.length)).map .index ∧
      ∀ entry ∈ entries, ∃ place, entry.1 = .index (start + place) ∧
        ChildChanges Compared position entry.1 items[place]? others[place]? entry.2 := by
  induction items generalizing others start with
  | nil =>
    obtain ⟨entries, hchanges, hsteps, hall⟩ := placed_entries others start fun entry =>
      ⟨.add, indexPath (pointer position) entry.2, none, some entry.1,
        position ++ [.index entry.2]⟩
    rw [compareItems]
    refine ⟨entries, hchanges, by simpa using hsteps, fun entry hentry => ?_⟩
    obtain ⟨place, item, hitem, rfl⟩ := hall entry hentry
    refine ⟨place, rfl, ?_⟩
    rw [hitem, pointer_index]
    exact .added item
  | cons item items ih =>
    cases others with
    | nil =>
      obtain ⟨entries, hchanges, hsteps, hall⟩ := placed_entries (item :: items) start
        fun entry => ⟨.remove, indexPath (pointer position) entry.2, some entry.1, none,
          position ++ [.index entry.2]⟩
      rw [compareItems]
      refine ⟨entries, hchanges, by simpa using hsteps, fun entry hentry => ?_⟩
      obtain ⟨place, found, hfound, rfl⟩ := hall entry hentry
      refine ⟨place, rfl, ?_⟩
      rw [hfound, pointer_index]
      exact .removed found
    | cons other others =>
      obtain ⟨entries, hchanges, hsteps, hall⟩ := ih others (start + 1)
      rw [compareItems, hchanges, pointer_index]
      refine ⟨(.index start, _) :: entries, rfl, ?_, fun entry hentry => ?_⟩
      · rw [map_cons, hsteps, length_cons, length_cons, Nat.succ_max_succ]
        rfl
      · rcases mem_cons.mp hentry with rfl | hlater
        · exact ⟨0, rfl, .compared rfl⟩
        · obtain ⟨place, hplace, hentry⟩ := hall entry hlater
          exact ⟨place + 1, by rw [hplace]; congr 1; omega, hentry⟩

theorem compareMembers_keys (members others : Members) (path : Points) :
    (compareMembers members others path position).map Prod.fst =
      (keys members).filter (· ∈ keys others) := by
  induction members with
  | nil => rfl
  | cons entry members ih =>
    have ⟨key, item⟩ := entry
    rw [compareMembers]
    show _ = (key :: keys members).filter _
    rw [filter_cons]
    cases hother : others.lookup key with
    | some other => simp [key_mem_of_lookup hother, ih]
    | none =>
      have hkey : key ∉ keys others := by
        intro hkey
        obtain ⟨other, hfound⟩ := mem_keys_lookup hkey
        rw [hother] at hfound
        cases hfound
      simp [hkey, ih]

theorem lookup_none {members : Members} {key : Points} (h : key ∉ keys members) :
    members.lookup key = none := by
  cases hitem : members.lookup key with
  | none => rfl
  | some item => exact absurd (key_mem_of_lookup hitem) h

theorem arrays_byChild (items others : List Value) :
    ∃ entries, compareItems items others 0 (pointer position) position =
        entries.flatMap Prod.snd ∧ ByChild Compared position (.arr items) (.arr others) entries := by
  obtain ⟨entries, hchanges, hsteps, hall⟩ := @compareItems_entries position items others 0
  refine ⟨entries, hchanges, ?_, ?_, ?_, ?_⟩
  · rw [hsteps]
    exact Nodup.map (fun first second hsame => by cases hsame; rfl) (by simp [nodup_range'])
  · rw [hsteps, pairwise_map]
    refine (pairwise_lt_range' 1 (by omega)).imp fun hlt place other hplace hother => ?_
    cases hplace
    cases hother
    exact hlt
  · intro entry hentry
    obtain ⟨place, hplace, hchild⟩ := hall entry hentry
    rw [Nat.zero_add] at hplace
    rw [hplace] at hchild ⊢
    exact hchild
  · intro step hstep
    rw [hsteps] at hstep
    cases step with
    | key key => exact ⟨rfl, rfl⟩
    | index place =>
      have hout : ¬ place < max items.length others.length := by
        intro hlt
        exact hstep (mem_map.mpr ⟨place, by simp [mem_range'_1]; omega, rfl⟩)
      exact ⟨getElem?_eq_none (by omega), getElem?_eq_none (by omega)⟩

theorem objects_byChild {members others : Members} (hmembers : (keys members).Nodup)
    (hothers : (keys others).Nodup) :
    ∃ entries, compareNode (.obj members) (.obj others) (pointer position) position =
        entries.flatMap Prod.snd ∧
      ByChild Compared position (.obj members) (.obj others) entries := by
  let entries : List (Step × List Change) :=
    (sortedKeys ((keys members).filter (· ∉ keys others))).map (fun key =>
      (.key key, [⟨.remove, keyPath (pointer position) key, members.lookup key, none,
        position ++ [.key key]⟩])) ++
    (sortedKeys ((keys others).filter (· ∉ keys members))).map (fun key =>
      (.key key, [⟨.add, keyPath (pointer position) key, none, others.lookup key,
        position ++ [.key key]⟩])) ++
    (sortedBy (fun first second => pointsOrder first.1 second.1)
      (compareMembers members others (pointer position) position)).map fun entry =>
        (.key entry.1, entry.2)
  have hsteps : (entries.map Prod.fst).Perm (((keys members).filter (· ∉ keys others) ++
      (keys others).filter (· ∉ keys members) ++
      (keys members).filter (· ∈ keys others)).map .key) := by
    simp only [entries, map_append, map_map]
    refine (((sortedBy_perm _ _).map _).append ((sortedBy_perm _ _).map _)).append ?_
    rw [← compareMembers_keys members others (pointer position), map_map]
    exact (sortedBy_perm _ _).map _
  have hmem : ∀ key, .key key ∈ entries.map Prod.fst ↔
      key ∈ keys members ∨ key ∈ keys others := by
    intro key
    rw [hsteps.mem_iff]
    by_cases hmember : key ∈ keys members <;> by_cases hother : key ∈ keys others <;>
      simp [hmember, hother]
  refine ⟨entries, ?_, ?_, ?_, ?_, ?_⟩
  · simp only [entries, flatMap_append, flatMap_map, ← map_eq_flatMap]
    rw [compareNode, if_neg (by simp [differentTypes])]
    rfl
  · rw [hsteps.nodup_iff]
    refine Nodup.map (fun first second hsame => by cases hsame; rfl) ?_
    refine ((hmembers.filter _).append (hothers.filter _) ?_).append (hmembers.filter _) ?_
    · intro key hkey hkey'
      simp only [mem_filter, decide_eq_true_eq] at hkey hkey'
      exact hkey.2 hkey'.1
    · intro key hkey hkey'
      simp only [mem_append, mem_filter, decide_eq_true_eq] at hkey hkey'
      rcases hkey with hkey | hkey
      · exact hkey.2 hkey'.2
      · exact hkey.2 hkey'.1
  · have hkeys : ∀ step ∈ entries.map Prod.fst, ∃ key, step = .key key := by
      intro step hstep
      obtain ⟨key, -, rfl⟩ := mem_map.mp (hsteps.mem_iff.mp hstep)
      exact ⟨key, rfl⟩
    refine pairwise_of_forall_mem_list fun first hfirst second _ place other hplace => ?_
    obtain ⟨key, rfl⟩ := hkeys first hfirst
    cases hplace
  · intro entry hentry
    rcases mem_append.mp hentry with hentry | hentry
    · rcases mem_append.mp hentry with hentry | hentry
      · obtain ⟨key, hkey, rfl⟩ := mem_map.mp hentry
        have hfound := mem_filter.mp (mem_sortedBy.mp hkey)
        obtain ⟨item, hitem⟩ := mem_keys_lookup hfound.1
        have hother := lookup_none (of_decide_eq_true hfound.2)
        simp only [Value.child?, hitem, hother, pointer_key]
        exact .removed item
      · obtain ⟨key, hkey, rfl⟩ := mem_map.mp hentry
        have hfound := mem_filter.mp (mem_sortedBy.mp hkey)
        obtain ⟨item, hitem⟩ := mem_keys_lookup hfound.1
        have hother := lookup_none (of_decide_eq_true hfound.2)
        simp only [Value.child?, hitem, hother, pointer_key]
        exact .added item
    · obtain ⟨found, hfound, rfl⟩ := mem_map.mp hentry
      obtain ⟨item, other, hitem, hother, hsame⟩ := mem_compareMembers (mem_sortedBy.mp hfound)
      simp only [Value.child?, lookup_of_mem hmembers hitem, hother, hsame, pointer_key]
      exact .compared rfl
  · intro step hstep
    cases step with
    | index place => exact ⟨rfl, rfl⟩
    | key key =>
      rw [hmem, not_or] at hstep
      exact ⟨lookup_none hstep.1, lookup_none hstep.2⟩

theorem alone_ne_of_types (h : differentTypes before after = true) :
    before.alone ≠ after.alone := by
  cases before <;> cases after <;> simp_all [differentTypes, Value.alone]

theorem alone_ne_of_scalars (h : differentScalars before after = true) :
    before.alone ≠ after.alone := by
  cases before <;> cases after <;> simp_all [differentScalars, Value.alone]

theorem compareNode_cases (hbefore : Loaded before) (hafter : Loaded after)
    (position : Position) :
    (compareNode before after (pointer position) position =
        [⟨.replace, pointer position, some before, some after, position⟩] ∧
      ¬ Alike before after) ∨
    (compareNode before after (pointer position) position = [] ∧ before = after) ∨
    ∃ entries, compareNode before after (pointer position) position =
        entries.flatMap Prod.snd ∧
      before.alone = after.alone ∧ ByChild Compared position before after entries := by
  by_cases htypes : differentTypes before after = true
  · rw [compareNode.eq_def, if_pos htypes]
    exact Or.inl ⟨rfl, fun hsame => alone_ne_of_types htypes (alike_iff.mp hsame).1⟩
  · by_cases hscalars : differentScalars before after = true
    · refine Or.inl ⟨?_, fun hsame => alone_ne_of_scalars hscalars (alike_iff.mp hsame).1⟩
      rw [compareNode.eq_def, if_neg htypes]
      split
      · cases hscalars
      · cases hscalars
      · rw [if_pos hscalars]
    · cases before with
      | obj members =>
        cases after with
        | obj others =>
          obtain ⟨entries, hchanges, hentries⟩ :=
            @objects_byChild position _ _ hbefore.nodup hafter.nodup
          exact Or.inr (Or.inr ⟨entries, hchanges, rfl, hentries⟩)
        | _ => exact absurd rfl htypes
      | arr items =>
        cases after with
        | arr others =>
          obtain ⟨entries, hchanges, hentries⟩ := @arrays_byChild position items others
          rw [compareNode, if_neg htypes]
          exact Or.inr (Or.inr ⟨entries, hchanges, rfl, hentries⟩)
        | _ => exact absurd rfl htypes
      | _ =>
        refine Or.inr (Or.inl ?_)
        cases after <;> simp_all [differentTypes, differentScalars, compareNode]

theorem Loaded.child {value child : Value} (h : Loaded value)
    (hchild : value.child? step = some child) : Loaded child :=
  @Loaded.below value child [step] h (by simp [Value.at?, hchild])

/-- What holds of replaced and of equal nodes, and of containers when it holds of the children
that both have, holds of every comparison. -/
theorem compareNode_rule {motive : Position → Value → Value → List Change → Prop}
    (replaced : ∀ position before after, ¬ Alike before after → motive position before after
      [⟨.replace, pointer position, some before, some after, position⟩])
    (same : ∀ position value, motive position value value [])
    (children : ∀ position before after entries, before.alone = after.alone →
      ByChild motive position before after entries →
        motive position before after (entries.flatMap Prod.snd)) (before : Value) :
    ∀ (after : Value) (position : Position), Loaded before → Loaded after →
      motive position before after (compareNode before after (pointer position) position) := by
  induction before using Value.descend with
  | _ before ih =>
    intro after position hbefore hafter
    rcases compareNode_cases hbefore hafter position with ⟨hchanges, hdifferent⟩ |
      ⟨hchanges, rfl⟩ | ⟨entries, hchanges, halone, hentries⟩
    · rw [hchanges]
      exact replaced position before after hdifferent
    · rw [hchanges]
      exact same position before
    · rw [hchanges]
      refine children position before after entries halone ⟨hentries.nodup, hentries.ordered,
        fun entry hentry => ?_, hentries.complete⟩
      have hchild := hentries.changes entry hentry
      generalize hitem : before.child? entry.1 = first at hchild
      generalize hother : after.child? entry.1 = second at hchild
      generalize entry.2 = changes at hchild
      cases hchild with
      | removed item => exact .removed item
      | added item => exact .added item
      | compared hcompared =>
        rw [hcompared]
        refine .compared (ih [entry.1] _ (by simp) ?_ _ _ (hbefore.child hitem)
          (hafter.child hother))
        simp [Value.at?, hitem]

theorem compareNode_of_alike (hbefore : Loaded before) (hafter : Loaded after)
    (halike : Alike before after) :
    compareNode before after (pointer position) position = [] := by
  refine compareNode_rule (motive := fun _ before after changes =>
    Alike before after → changes = []) ?_ ?_ ?_ before after position hbefore hafter halike
  · intro _ _ _ hdifferent halike
    exact absurd halike hdifferent
  · intro _ _ _
    rfl
  · intro position before after entries _ hentries halike
    rw [flatMap_eq_nil_iff]
    intro entry hentry
    have hchild := (alike_iff.mp halike).2 entry.1
    have hchange := hentries.changes entry hentry
    generalize before.child? entry.1 = first at hchild hchange
    generalize after.child? entry.1 = second at hchild hchange
    generalize entry.2 = changes at hchange ⊢
    cases hchange with
    | removed item => cases hchild []
    | added item => cases hchild []
    | compared hbelow => exact hbelow hchild

/-! ## Where a change is made -/

/-- The change is made at the position, where it can only replace, or below it. -/
def Within (position : Position) (change : Change) : Prop :=
  ∃ rest, change.pointer = pointer (position ++ rest) ∧
    (rest = [] → change.operation = .replace)

variable {below : Position → Value → Value → List Change → Prop}

theorem ChildChanges.within {first second : Option Value} {changes : List Change}
    (h : ChildChanges below position step first second changes)
    (hbelow : ∀ item other, below (position ++ [step]) item other changes →
      ∀ change ∈ changes, Within (position ++ [step]) change) {change : Change}
    (hchange : change ∈ changes) : ∃ rest, change.pointer = pointer (position ++ step :: rest) := by
  cases h with
  | removed item =>
    cases mem_singleton.mp hchange
    exact ⟨[], rfl⟩
  | added item =>
    cases mem_singleton.mp hchange
    exact ⟨[], rfl⟩
  | compared h =>
    obtain ⟨rest, hpointer, -⟩ := hbelow _ _ h change hchange
    exact ⟨rest, by simpa using hpointer⟩

theorem tokens_below (position rest : Position) :
    (pointerTokens (pointer (position ++ rest))).drop position.length =
      rest.map Step.token := by
  rw [pointerTokens_pointer, map_append, drop_left' (by simp)]

variable {value child child' : Value} {change : Change} {changes : List Change}

theorem applyBelow_child (hchild : value.child? step = some child)
    (hwithin : Within (position ++ [step]) change)
    (h : applyBelow (position.length + 1) child change = some child') :
    applyBelow position.length value change = some (value.withChild step child') := by
  obtain ⟨rest, hpointer, hroot⟩ := hwithin
  have hdeep := tokens_below (position ++ [step]) rest
  have hhere := tokens_below position (step :: rest)
  rw [length_append, length_singleton] at hdeep
  rw [append_cons, ← hpointer] at hhere
  rw [applyBelow, hpointer, hdeep] at h
  have hadd : ¬ (rest.map Step.token = [] ∧ change.operation = .add) := by
    intro ⟨hrest, hoperation⟩
    rw [hroot (map_eq_nil_iff.mp hrest)] at hoperation
    cases hoperation
  have hremove : ¬ (rest.map Step.token = [] ∧ change.operation = .remove) := by
    intro ⟨hrest, hoperation⟩
    rw [hroot (map_eq_nil_iff.mp hrest)] at hoperation
    cases hoperation
  rw [applyBelow, hhere, map_cons, edit, step?_token (fits_of_child hchild), Option.bind_some,
    if_neg hadd, if_neg hremove, hchild, Option.bind_some, h]
  rfl

theorem foldlM_child (hchild : value.child? step = some child)
    (hwithin : ∀ change ∈ changes, Within (position ++ [step]) change)
    (h : changes.foldlM (applyBelow (position.length + 1)) child = some child') :
    ∃ updated, changes.foldlM (applyBelow position.length) value = some updated ∧
      Updated value step (some child') updated := by
  induction changes generalizing value child with
  | nil =>
    cases h
    exact ⟨value, rfl, hchild ▸ .refl⟩
  | cons change changes ih =>
    rw [foldlM_cons] at h
    obtain ⟨next, hnext, hrest⟩ := Option.bind_eq_some_iff.mp h
    have hedited := @withChild_updated value child next step hchild
    have hthere : (value.withChild step next).child? step = some next := by
      rw [hedited.child, if_pos rfl]
    obtain ⟨updated, hupdated, hlast⟩ :=
      ih hthere (fun other hother => hwithin other (mem_cons_of_mem _ hother)) hrest
    refine ⟨updated, ?_, hedited.trans hlast⟩
    rw [foldlM_cons, applyBelow_child hchild (hwithin change mem_cons_self) hnext]
    exact hupdated

/-! ## Applying the changes -/

/-- The lasting changes below the position can be made, then the removals, and what comes out
is the second value. -/
def Patches (position : Position) (before after : Value) (changes : List Change) : Prop :=
  (∀ change ∈ changes, Within position change) ∧
    ∃ edited patched,
      (lasting changes).foldlM (applyBelow position.length) before = some edited ∧
      (removals changes).reverse.foldlM (applyBelow position.length) edited = some patched ∧
      Alike patched after

/-- From the child between the two rounds, the removals come to the wanted one. -/
def Settles (position : Position) (step : Step) (changes : List Change) (child : Value)
    (wanted : Option Value) : Prop :=
  ∀ value : Value, value.child? step = some child →
    (wanted = none → ∀ place, step = .index place →
      value.child? (.index (place + 1)) = none) →
    ∃ settled final,
      (removals changes).reverse.foldlM (applyBelow position.length) value = some settled ∧
      Updated value step final settled ∧ AlikeNodes final wanted

theorem ChildChanges.rounds {first second : Option Value}
    (h : ChildChanges Patches position step first second changes)
    (hfirst : value.child? step = first) (hfits : Fits value step)
    (hready : first = none → ∀ place, step = .index place → ∀ before < place,
      (value.child? (.index before)).isSome) :
    ∃ edited child, (lasting changes).foldlM (applyBelow position.length) value = some edited ∧
      Updated value step (some child) edited ∧ Settles position step changes child second := by
  have htokens := tokens_below position [step]
  cases h with
  | removed item =>
    refine ⟨value, item, rfl, hfirst ▸ .refl, fun other hother hlast => ?_⟩
    obtain ⟨updated, hremoved, hupdated⟩ := removeChild_updated hother (hlast rfl)
    refine ⟨updated, none, ?_, hupdated, fun _ => rfl⟩
    show (applyBelow position.length other _).bind pure = _
    rw [applyBelow, htokens, map_singleton, edit, step?_token (fits_of_child hother)]
    simp [hremoved]
  | added item =>
    obtain ⟨updated, hadded, hupdated⟩ := insertChild_updated hfits hfirst (hready rfl)
    refine ⟨updated, item, ?_, hupdated, fun other hother _ => ?_⟩
    · show (applyBelow position.length value _).bind pure = _
      rw [applyBelow, htokens, map_singleton, edit, step?_token hfits]
      simp [hadded]
    · exact ⟨other, some item, rfl, hother ▸ .refl, fun _ => rfl⟩
  | compared hbelow =>
    obtain ⟨hwithin, edited, patched, hlasting, hremovals, halike⟩ := hbelow
    rw [length_append, length_singleton] at hlasting hremovals
    obtain ⟨updated, hrun, hupdated⟩ := foldlM_child hfirst
      (fun change hchange => hwithin change (mem_of_mem_filter hchange)) hlasting
    refine ⟨updated, edited, hrun, hupdated, fun next hnext _ => ?_⟩
    obtain ⟨settled, hsettled, hfinal⟩ := foldlM_child hnext (fun change hchange =>
      hwithin change (mem_of_mem_filter (mem_reverse.mp hchange))) hremovals
    exact ⟨settled, some patched, hsettled, hfinal, halike⟩

section

variable {entries earlier later : List (Step × List Change)} {entry : Step × List Change}

theorem Fits.of_alone {other : Value} (h : Fits value step) (halone : other.alone = value.alone) :
    Fits other step := by
  unfold Fits at h ⊢
  rw [halone]
  exact h

theorem ByChild.fits (h : ByChild below position before after entries)
    (halone : before.alone = after.alone) (hentry : entry ∈ entries) : Fits before entry.1 := by
  have hchild := h.changes entry hentry
  generalize hfirst : before.child? entry.1 = first at hchild
  generalize hsecond : after.child? entry.1 = second at hchild
  generalize entry.2 = changes at hchild
  cases hchild with
  | removed item => exact fits_of_child hfirst
  | added item => exact (fits_of_child hsecond).of_alone halone
  | compared hbelow => exact fits_of_child hfirst

theorem child?_earlier {place other : Nat} (hlt : other < place)
    (h : value.child? (.index other) = none) : value.child? (.index place) = none := by
  cases value with
  | arr items =>
    have hle := List.getElem?_eq_none_iff.mp h
    exact getElem?_eq_none (by omega)
  | _ => rfl

theorem ByChild.mem_earlier (h : ByChild below position before after entries)
    (hsplit : entries = earlier ++ entry :: later) {place other : Nat}
    (hplace : entry.1 = .index place) (hother : .index other ∈ entries.map Prod.fst) :
    (other < place → .index other ∈ earlier.map Prod.fst) ∧
      (place < other → .index other ∈ later.map Prod.fst) := by
  have hordered := h.ordered
  rw [hsplit, map_append, map_cons] at hordered hother
  obtain ⟨-, hlast, hacross⟩ := pairwise_append.mp hordered
  rcases mem_append.mp hother with hearlier | hother
  · have hlt := hacross _ hearlier entry.1 mem_cons_self other place rfl hplace
    exact ⟨fun _ => hearlier, fun _ => by omega⟩
  · rcases mem_cons.mp hother with hsame | hlater
    · rw [hplace] at hsame
      cases hsame
      exact ⟨fun _ => by omega, fun _ => by omega⟩
    · have hlt := rel_of_pairwise_cons hlast hlater place other hplace rfl
      exact ⟨fun _ => by omega, fun _ => hlater⟩

theorem rounds_run (round : List Change → List Change) {depth : Nat} {start : Value}
    (reached : Step × List Change → Option Value → Prop) (hnodup : (entries.map Prod.fst).Nodup)
    (hround : ∀ earlier entry later, entries = earlier ++ entry :: later → ∀ value : Value,
      value.alone = start.alone → value.child? entry.1 = start.child? entry.1 →
      (∀ other ∈ earlier, reached other (value.child? other.1)) →
      (∀ step ∉ earlier.map Prod.fst, value.child? step = start.child? step) →
        ∃ updated child, (round entry.2).foldlM (applyBelow depth) value = some updated ∧
          Updated value entry.1 child updated ∧ reached entry child) :
    ∀ earlier later, entries = earlier ++ later → ∃ final,
      (earlier.flatMap fun entry => round entry.2).foldlM (applyBelow depth) start = some final ∧
      final.alone = start.alone ∧ (∀ entry ∈ earlier, reached entry (final.child? entry.1)) ∧
      ∀ step ∉ earlier.map Prod.fst, final.child? step = start.child? step := by
  intro earlier
  induction earlier using List.reverseRecOn with
  | nil => exact fun later _ => ⟨start, rfl, rfl, by simp, fun _ _ => rfl⟩
  | append_singleton earlier entry ih =>
    intro later hsplit
    rw [append_assoc, singleton_append] at hsplit
    obtain ⟨value, hrun, hkept, hreached, huntouched⟩ := ih _ hsplit
    have hsteps := hnodup
    rw [hsplit, map_append, map_cons] at hsteps
    have hnew : entry.1 ∉ earlier.map Prod.fst := fun hmem =>
      disjoint_of_nodup_append hsteps hmem mem_cons_self
    obtain ⟨updated, child, hlast, hupdated, hentry⟩ := hround earlier entry later hsplit value
      hkept (huntouched _ hnew) hreached huntouched
    refine ⟨updated, ?_, hupdated.alone.trans hkept, fun found hfound => ?_, fun step hstep => ?_⟩
    · rw [flatMap_append, flatMap_singleton, foldlM_append]
      exact Option.bind_eq_some_iff.mpr ⟨value, hrun, hlast⟩
    · rw [hupdated.child]
      rcases mem_append.mp hfound with hbefore | hsame
      · rw [if_neg]
        · exact hreached found hbefore
        · intro hsame
          exact hnew (hsame ▸ mem_map_of_mem hbefore)
      · rw [mem_singleton.mp hsame, if_pos rfl]
        exact hentry
    · rw [map_append, mem_append, not_or] at hstep
      rw [hupdated.child, if_neg (by simpa using hstep.2), huntouched step hstep.1]

theorem ByChild.lasting_run (h : ByChild Patches position before after entries)
    (halone : before.alone = after.alone) :
    ∃ edited,
      (lasting (entries.flatMap Prod.snd)).foldlM (applyBelow position.length) before =
        some edited ∧
      edited.alone = before.alone ∧
      (∀ entry ∈ entries, ∃ child, edited.child? entry.1 = some child ∧
        Settles position entry.1 entry.2 child (after.child? entry.1)) ∧
      ∀ step ∉ entries.map Prod.fst, edited.child? step = before.child? step := by
  rw [lasting, filter_flatMap]
  refine rounds_run lasting (fun entry found => ∃ child, found = some child ∧
    Settles position entry.1 entry.2 child (after.child? entry.1)) h.nodup ?_ entries []
    (append_nil entries).symm
  intro earlier entry later hsplit value hkept hsame hsettled _
  have hentry : entry ∈ entries := by
    rw [hsplit]
    simp
  have hchanges := h.changes entry hentry
  have hready : before.child? entry.1 = none → ∀ place, entry.1 = .index place →
      ∀ other < place, (value.child? (.index other)).isSome := by
    intro hnone place hplace other hlt
    have hlisted : .index other ∈ entries.map Prod.fst := by
      by_contra hout
      have hafter := child?_earlier hlt (h.complete _ hout).2
      rw [hnone, hplace, hafter] at hchanges
      cases hchanges
    have hearlier := (h.mem_earlier hsplit hplace hlisted).1 hlt
    obtain ⟨found, hfound, hstep⟩ := mem_map.mp hearlier
    obtain ⟨child, hchild, -⟩ := hsettled found hfound
    rw [← hstep, hchild]
    rfl
  obtain ⟨updated, child, hlast, hupdated, hfinish⟩ := hchanges.rounds hsame
    ((h.fits halone hentry).of_alone hkept) hready
  exact ⟨updated, some child, hlast, hupdated, child, rfl, hfinish⟩

theorem ByChild.removals_run (h : ByChild Patches position before after entries)
    {edited : Value} (hsettles : ∀ entry ∈ entries, ∃ child, edited.child? entry.1 = some child ∧
      Settles position entry.1 entry.2 child (after.child? entry.1))
    (huntouched : ∀ step ∉ entries.map Prod.fst, edited.child? step = before.child? step) :
    ∃ settled,
      (removals (entries.flatMap Prod.snd)).reverse.foldlM (applyBelow position.length) edited =
        some settled ∧
      settled.alone = edited.alone ∧
      (∀ entry ∈ entries, AlikeNodes (settled.child? entry.1) (after.child? entry.1)) ∧
      ∀ step ∉ entries.map Prod.fst, settled.child? step = edited.child? step := by
  rw [removals, filter_flatMap, reverse_flatMap]
  have hnodup : (entries.reverse.map Prod.fst).Nodup := by
    rw [map_reverse, nodup_reverse]
    exact h.nodup
  refine Exists.imp (fun settled ⟨hrun, hkept, hdone, hrest⟩ => ⟨hrun, hkept,
    fun entry hentry => hdone entry (mem_reverse.mpr hentry),
    fun step hstep => hrest step (by simpa using hstep)⟩)
    (rounds_run (fun changes => (removals changes).reverse)
      (fun entry child => AlikeNodes child (after.child? entry.1)) hnodup ?_ entries.reverse []
      (append_nil _).symm)
  intro later entry earlier hsplit value _ hsame hdone hrest
  have hforward : entries = earlier.reverse ++ entry :: later.reverse := by
    rw [← reverse_reverse entries, hsplit, reverse_append, reverse_cons, append_assoc]
    rfl
  obtain ⟨child, hchild, hfinish⟩ := hsettles entry (by rw [hforward]; simp)
  refine hfinish value (hsame.trans hchild) fun hnone place hplace => ?_
  rw [hplace] at hnone
  by_cases hlisted : .index (place + 1) ∈ entries.map Prod.fst
  · have hlater := (h.mem_earlier hforward hplace hlisted).2 (by omega)
    obtain ⟨found, hfound, hstep⟩ := mem_map.mp hlater
    have halike := hdone found (mem_reverse.mp hfound)
    rw [hstep, child?_earlier (Nat.lt_succ_self place) hnone] at halike
    exact alikeNodes_none.mp halike
  · have hout : Step.index (place + 1) ∉ later.map Prod.fst := by
      intro hlater
      refine hlisted ?_
      rw [hforward, map_append, map_cons, map_reverse, map_reverse]
      exact mem_append_right _ (mem_cons_of_mem _ (mem_reverse.mpr hlater))
    rw [hrest _ hout, huntouched _ hlisted]
    exact (h.complete _ hlisted).1

theorem ByChild.patches (h : ByChild Patches position before after entries)
    (halone : before.alone = after.alone) :
    Patches position before after (entries.flatMap Prod.snd) := by
  refine ⟨fun change hchange => ?_, ?_⟩
  · obtain ⟨entry, hentry, hmember⟩ := mem_flatMap.mp hchange
    obtain ⟨rest, hpointer⟩ := (h.changes entry hentry).within (fun _ _ hbelow => hbelow.1) hmember
    exact ⟨entry.1 :: rest, hpointer, by simp⟩
  · obtain ⟨edited, hlasting, hkept, hsettles, huntouched⟩ :=
      h.lasting_run halone
    obtain ⟨settled, hremovals, hkept', hdone, hrest⟩ :=
      h.removals_run hsettles huntouched
    refine ⟨edited, settled, hlasting, hremovals,
      alike_iff.mpr ⟨hkept'.trans (hkept.trans halone), fun step => ?_⟩⟩
    by_cases hlisted : step ∈ entries.map Prod.fst
    · obtain ⟨entry, hentry, rfl⟩ := mem_map.mp hlisted
      exact hdone entry hentry
    · rw [hrest step hlisted, huntouched step hlisted, (h.complete step hlisted).1,
        (h.complete step hlisted).2]
      exact fun _ => rfl

end

theorem compareNode_patches (hbefore : Loaded before) (hafter : Loaded after) :
    Patches position before after (compareNode before after (pointer position) position) := by
  refine compareNode_rule ?_ ?_ ?_ before after position hbefore hafter
  · intro position before after _
    have hhere := tokens_below position []
    rw [append_nil] at hhere
    refine ⟨fun change hchange => ?_, after, after, ?_, rfl, fun _ => rfl⟩
    · cases mem_singleton.mp hchange
      exact ⟨[], by simp, fun _ => rfl⟩
    · show (applyBelow position.length before _).bind pure = _
      rw [applyBelow, hhere]
      rfl
  · intro position value
    exact ⟨by simp, value, value, rfl, rfl, fun _ => rfl⟩
  · intro position before after entries halone hentries
    exact hentries.patches halone

/-! ## Changes beside each other -/

/-- Neither change is made at or below the node of the other. -/
def Apart (first second : Change) : Prop :=
  ¬ pointerTokens first.pointer <+: pointerTokens second.pointer ∧
    ¬ pointerTokens second.pointer <+: pointerTokens first.pointer

theorem token_injective_of_fits {other : Step} (h : Fits value step) (hother : Fits value other)
    (hsame : step.token = other.token) : step = other := by
  cases value <;> cases step <;> cases other <;> try contradiction
  · rw [decimal_injective (Points.ofText_injective hsame)]
  · rw [pointerToken_injective hsame]

theorem apart_of_steps {first second : Change} {other : Step} {rest rest' : Position}
    (hfirst : first.pointer = pointer (position ++ step :: rest))
    (hsecond : second.pointer = pointer (position ++ other :: rest'))
    (hdifferent : step.token ≠ other.token) : Apart first second := by
  unfold Apart
  rw [hfirst, hsecond, pointerTokens_pointer, pointerTokens_pointer, map_append, map_append,
    prefix_append_right_inj, prefix_append_right_inj, map_cons, map_cons, cons_prefix_cons,
    cons_prefix_cons]
  exact ⟨fun h => hdifferent h.1, fun h => hdifferent h.1.symm⟩

theorem compareNode_apart (hbefore : Loaded before) (hafter : Loaded after) :
    (compareNode before after (pointer position) position).Pairwise Apart := by
  refine (compareNode_rule (motive := fun position _ _ changes => changes.Pairwise Apart ∧
    ∀ change ∈ changes, Within position change) ?_ ?_ ?_ before after position hbefore hafter).1
  · intro position before after _
    refine ⟨pairwise_singleton _ _, fun change hchange => ?_⟩
    cases mem_singleton.mp hchange
    exact ⟨[], by simp, fun _ => rfl⟩
  · intro _ _
    exact ⟨.nil, by simp⟩
  · intro position before after entries halone hentries
    have hwithin : ∀ entry ∈ entries, ∀ change ∈ entry.2,
        ∃ rest, change.pointer = pointer (position ++ entry.1 :: rest) :=
      fun entry hentry change hchange =>
        (hentries.changes entry hentry).within (fun _ _ hbelow => hbelow.2) hchange
    refine ⟨pairwise_flatMap.mpr ⟨fun entry hentry => ?_, ?_⟩, fun change hchange => ?_⟩
    · have hchild := hentries.changes entry hentry
      generalize before.child? entry.1 = first at hchild
      generalize after.child? entry.1 = second at hchild
      generalize entry.2 = changes at hchild ⊢
      cases hchild with
      | removed item => exact pairwise_singleton _ _
      | added item => exact pairwise_singleton _ _
      | compared hbelow => exact hbelow.1
    · have hnodup := pairwise_map.mp hentries.nodup
      refine hnodup.imp_of_mem fun hentry hother hdifferent first hfirst second hsecond => ?_
      obtain ⟨rest, hpointer⟩ := hwithin _ hentry first hfirst
      obtain ⟨rest', hpointer'⟩ := hwithin _ hother second hsecond
      refine apart_of_steps hpointer hpointer' fun hsame => hdifferent ?_
      exact token_injective_of_fits (hentries.fits halone hentry) (hentries.fits halone hother) hsame
    · obtain ⟨entry, hentry, hmember⟩ := mem_flatMap.mp hchange
      obtain ⟨rest, hpointer⟩ := hwithin entry hentry change hmember
      exact ⟨entry.1 :: rest, hpointer, by simp⟩

/-- A comparison is an exact patch: it is empty exactly between equal documents, its changes
make the second document of the first one, and none of them lies at or below another. -/
theorem compareModelJson_patches (before after : ModelDocument) :
    (compareModelJson before.value after.value = [] ↔ Alike before.value after.value) ∧
    (∃ patched, patch before.value (compareModelJson before.value after.value) = some patched ∧
      Alike patched after.value) ∧
    (compareModelJson before.value after.value).Pairwise Apart := by
  have hpatches := @compareNode_patches before.value after.value [] before.loaded after.loaded
  obtain ⟨-, edited, patched, hlasting, hremovals, halike⟩ := hpatches
  refine ⟨⟨fun hnone => ?_, @compareNode_of_alike _ _ [] before.loaded after.loaded⟩,
    ⟨patched, Option.bind_eq_some_iff.mpr ⟨edited, hlasting, hremovals⟩, halike⟩,
    @compareNode_apart _ _ [] before.loaded after.loaded⟩
  have hempty : compareNode before.value after.value (pointer []) [] = [] := hnone
  rw [hempty] at hlasting hremovals
  cases hlasting
  cases hremovals
  exact halike

end TwinForge.ModelJson
