import TwinForge.Foundation.Dictionary
import TwinForge.Foundation.Guards
import TwinForge.Foundation.Integers
import TwinForge.Foundation.Json

/-! # Comparison of CODESYS visualizations

The elements of two native exports are matched by the name of their visualization and their
identifier, number or position. Matched elements are compared property by property, by their
bindings and by their actions.
-/

namespace TwinForge.Codesys.Visualizations

open Guards List

structure CodesysVisualizationAction where
  kind : Text
  properties : Dictionary Text Text := {}

structure CodesysVisualizationElement where
  elementId : Option Int := none
  identifier : Option Text := none
  elementType : Option Text := none
  propertyNames : Dictionary Text Text := {}
  numericProperties : Dictionary Text Text := {}
  bindings : List Text := []
  actions : List CodesysVisualizationAction := []

structure CodesysVisualization where
  name : Text
  elements : List CodesysVisualizationElement

structure CodesysVisualizationManager where
  style : Option Text
  numpad : Option Text

structure CodesysNativeExport where
  profile : Option Text := none
  visualizations : List CodesysVisualization
  managers : List CodesysVisualizationManager := []

structure CodesysPropertyChange where
  propertyId : Text
  propertyName : Option Text
  before : Option Text
  after : Option Text

structure CodesysActionPropertyChange where
  action : Text
  propertyName : Text
  before : Option Text
  after : Option Text

structure CodesysElementChange where
  visualization : Text
  elementKey : Text
  changeKind : Text
  elementType : Option Text
  propertyChanges : List CodesysPropertyChange
  bindingsBefore : List Text
  bindingsAfter : List Text
  actionsBefore : List Text
  actionsAfter : List Text
  actionDetailsBefore : List Text
  actionDetailsAfter : List Text
  actionPropertyChanges : List CodesysActionPropertyChange

structure CodesysVisualizationDiff where
  profileBefore : Option Text
  profileAfter : Option Text
  elementChanges : List CodesysElementChange
  managerChanges : List CodesysPropertyChange

/-! ## Keys -/

/-- `first.keys() | second.keys()`. -/
def unionKeys {Key Value : Type} [DecidableEq Key] (first second : Dictionary Key Value) :
    List Key :=
  first.keys ++ second.keys.filter fun key => key ∉ first.keys

/-- The identifier, else the number, else the position of an element. -/
def identity (index : Nat) (element : CodesysVisualizationElement) : Text :=
  if element.identifier.getD [] ≠ [] then element.identifier.getD []
  else match element.elementId with
    | some number => Json.writeInt number
    | none => ("index:" : Text) ++ Json.writeInt index

def keyedElements (document : CodesysNativeExport) :
    List ((Text × Text) × CodesysVisualizationElement) :=
  document.visualizations.flatMap fun visualization =>
    visualization.elements.zipIdx.map fun (element, index) =>
      ((visualization.name, identity index element), element)

def elements (document : CodesysNativeExport) :
    Dictionary (Text × Text) CodesysVisualizationElement :=
  Dictionary.ofItems Prod.fst Prod.snd (keyedElements document)

/-! ## Actions -/

/-- Properties of an action that are not compared. -/
def hidden : List Text := ["Name", "Description"]

/-- `tuple(action.kind for action in element.actions)`. -/
def actionNames (element : Option CodesysVisualizationElement) : List Text :=
  (element.map fun element => element.actions.map (·.kind)).getD []

def shownProperties (action : CodesysVisualizationAction) : List (Text × Text) :=
  (sortedBy (compareLex (compareOn Prod.fst) (compareOn Prod.snd)) action.properties.entries).filter
    fun entry => entry.1 ∉ hidden

def actionDetail (action : CodesysVisualizationAction) : Text :=
  let properties := (shownProperties action).map fun (key, value) => key ++ '=' :: value
  let suffix : Text := if properties = [] then []
    else (" (" : Text) ++ joinText ", " properties ++ (")" : Text)
  action.kind ++ suffix

def actionDetails (element : Option CodesysVisualizationElement) : List Text :=
  (element.map fun element => element.actions.map actionDetail).getD []

def numbered : Dictionary Text Nat → List CodesysVisualizationAction →
    List ((Text × Nat) × CodesysVisualizationAction)
  | _, [] => []
  | counts, action :: rest =>
    let index := (counts.get? action.kind).getD 0
    ((action.kind, index), action) :: numbered (counts.set action.kind (index + 1)) rest

def actionsByKey (element : Option CodesysVisualizationElement) :
    Dictionary (Text × Nat) CodesysVisualizationAction :=
  (element.map fun element =>
    Dictionary.ofItems Prod.fst Prod.snd (numbered {} element.actions)).getD {}

def changedProperties (old new : CodesysVisualizationAction) : List CodesysActionPropertyChange :=
  let names := sortedBy compare (unionKeys old.properties new.properties)
  (names.filter fun name => name ∉ hidden ∧ old.properties.get? name ≠ new.properties.get? name).map
    fun name => ⟨old.kind, name, old.properties.get? name, new.properties.get? name⟩

def actionPropertyChanges (before after : Option CodesysVisualizationElement) :
    List CodesysActionPropertyChange :=
  let oldActions := actionsByKey before
  let newActions := actionsByKey after
  let keys := sortedBy (compareLex (compareOn Prod.fst) (compareOn Prod.snd))
    (oldActions.keys.filter fun key => key ∈ newActions.keys)
  keys.flatMap fun key =>
    match oldActions.get? key, newActions.get? key with
    | some old, some new => changedProperties old new
    | _, _ => []

/-! ## Elements -/

/-- `value.isdigit()` texts by their numbers, before the others. -/
inductive PropertySortKey where
  | number (value : Int)
  | text (value : Text)

def PropertySortKey.compare : PropertySortKey → PropertySortKey → Ordering
  | .number first, .number second => Ord.compare first second
  | .number _, .text _ => .lt
  | .text _, .number _ => .gt
  | .text first, .text second => Ord.compare first second

/-- A digit that is no decimal has no number. -/
inductive ValueError where
  | notInteger (text : Text)

section

variable (db : CharacterDatabase)

def propertySortKey (value : Text) : Except ValueError PropertySortKey :=
  if db.isDigitText value then
    match readInt db value with
    | some number => .ok (.number number)
    | none => .error (.notInteger value)
  else .ok (.text value)

/-- `sorted(ids, key=_property_sort_key)`. -/
def sortedProperties (ids : List Text) : Except ValueError (List Text) := do
  let keyed ← ids.mapM fun id => do
    let key ← propertySortKey db id
    return (key, id)
  return (sortedBy (fun first second => first.1.compare second.1) keyed).map Prod.snd

def numericOf (element : Option CodesysVisualizationElement) : Dictionary Text Text :=
  (element.map (·.numericProperties)).getD {}

def friendlyIds (element : Option CodesysVisualizationElement) : List (Text × Text) :=
  (element.map (·.propertyNames.entries)).getD []

def elementChange (visualization elementKey changeKind : Text)
    (before after : Option CodesysVisualizationElement) : Except ValueError CodesysElementChange := do
  let oldProperties := numericOf before
  let newProperties := numericOf after
  let friendly := Dictionary.ofItems Prod.fst Prod.snd (friendlyIds before ++ friendlyIds after)
  let ids ← sortedProperties db (unionKeys oldProperties newProperties)
  return {
    visualization, elementKey, changeKind
    elementType := ((after <|> before).bind (·.elementType))
    propertyChanges := (ids.filter fun id => oldProperties.get? id ≠ newProperties.get? id).map
      fun id => ⟨id, friendly.get? id, oldProperties.get? id, newProperties.get? id⟩
    bindingsBefore := (before.map (·.bindings)).getD []
    bindingsAfter := (after.map (·.bindings)).getD []
    actionsBefore := actionNames before
    actionsAfter := actionNames after
    actionDetailsBefore := actionDetails before
    actionDetailsAfter := actionDetails after
    actionPropertyChanges := actionPropertyChanges before after }

def hasChanges (change : CodesysElementChange) : Prop :=
  change.propertyChanges ≠ [] ∨ change.bindingsBefore ≠ change.bindingsAfter ∨
    change.actionsBefore ≠ change.actionsAfter ∨
    change.actionDetailsBefore ≠ change.actionDetailsAfter ∨ change.actionPropertyChanges ≠ []

instance (change : CodesysElementChange) : Decidable (hasChanges change) :=
  decidable_of_iff ((change.propertyChanges.isEmpty = false) ∨
    change.bindingsBefore ≠ change.bindingsAfter ∨ change.actionsBefore ≠ change.actionsAfter ∨
    change.actionDetailsBefore ≠ change.actionDetailsAfter ∨
    (change.actionPropertyChanges.isEmpty = false)) (by
      unfold hasChanges
      simp only [List.isEmpty_eq_false_iff])

def keyChanges (before after : Dictionary (Text × Text) CodesysVisualizationElement)
    (key : Text × Text) : Except ValueError (List CodesysElementChange) :=
  match before.get? key, after.get? key with
  | none, new => do
    let change ← elementChange db key.1 key.2 "added" none new
    return [change]
  | some old, none => do
    let change ← elementChange db key.1 key.2 "removed" (some old) none
    return [change]
  | some old, some new => do
    let change ← elementChange db key.1 key.2 "modified" (some old) (some new)
    return if hasChanges change then [change] else []

def managerChanges (before after : CodesysNativeExport) : List CodesysPropertyChange :=
  let old := before.managers.head?
  let new := after.managers.head?
  let values : List (Text × Option Text × Option Text) :=
    [("style", old.bind (·.style), new.bind (·.style)),
     ("numpad", old.bind (·.numpad), new.bind (·.numpad))]
  (values.filter fun (_, oldValue, newValue) => oldValue ≠ newValue).map
    fun (name, oldValue, newValue) => ⟨name, name, oldValue, newValue⟩

def compareCodesysVisualizations (before after : CodesysNativeExport) :
    Except ValueError CodesysVisualizationDiff := do
  let beforeElements := elements before
  let afterElements := elements after
  let keys := sortedBy (compareLex (compareOn Prod.fst) (compareOn Prod.snd))
    (unionKeys beforeElements afterElements)
  let changes ← keys.mapM (keyChanges db beforeElements afterElements)
  return {
    profileBefore := before.profile
    profileAfter := after.profile
    elementChanges := changes.flatten
    managerChanges := managerChanges before after }

end

/-! ## Dictionaries side by side -/

section

variable {Key Value : Type} [DecidableEq Key] {first second : Dictionary Key Value}

theorem mem_unionKeys {key : Key} :
    key ∈ unionKeys first second ↔ key ∈ first.keys ∨ key ∈ second.keys := by
  unfold unionKeys
  rw [mem_append, mem_filter, decide_eq_true_eq]
  constructor
  · exact fun h => h.imp_right And.left
  · intro h
    by_cases hfirst : key ∈ first.keys
    · exact .inl hfirst
    · exact .inr ⟨h.resolve_left hfirst, hfirst⟩

theorem unionKeys_nodup : (unionKeys first second).Nodup := by
  refine nodup_append.mpr ⟨first.nodup, Nodup.filter _ second.nodup, ?_⟩
  rintro key hfirst _ hsecond rfl
  exact of_decide_eq_true (mem_filter.mp hsecond).2 hfirst

theorem get?_absent {key : Key} (h : key ∉ first.keys) : first.get? key = none := by
  rw [Dictionary.mem_keys_iff, not_exists] at h
  exact Option.eq_none_iff_forall_ne_some.mpr h

theorem agree_union {shown : Key → Prop} :
    (∀ key ∈ unionKeys first second, shown key → first.get? key = second.get? key) ↔
      ∀ key, shown key → first.get? key = second.get? key := by
  refine ⟨fun h key hshown => ?_, fun h key _ => h key⟩
  by_cases hkey : key ∈ unionKeys first second
  · exact h key hkey hshown
  · rw [mem_unionKeys, not_or] at hkey
    rw [get?_absent hkey.1, get?_absent hkey.2]

omit [DecidableEq Key] in
theorem beside_iff {related : Value → Value → Prop} {old new : List (Key × Value)}
    (hkeys : old.map Prod.fst = new.map Prod.fst) (honce : (old.map Prod.fst).Nodup) :
    (∀ key a b, (key, a) ∈ old → (key, b) ∈ new → related a b) ↔
      Forall₂ related (old.map Prod.snd) (new.map Prod.snd) := by
  induction old generalizing new with
  | nil =>
    rw [map_nil, eq_comm, map_eq_nil_iff] at hkeys
    simp [hkeys]
  | cons entry old ih =>
    match new, hkeys with
    | other :: new, hkeys =>
      have ⟨hhead, htail⟩ := cons.inj hkeys
      have ⟨hentry, hold⟩ := nodup_cons.mp honce
      have hother : other.1 ∉ new.map Prod.fst := by
        rw [← hhead, ← htail]
        exact hentry
      rw [map_cons, map_cons, forall₂_cons, ← ih htail hold]
      constructor
      · intro h
        have hfirst : (entry.1, other.2) = other := Prod.ext hhead rfl
        exact ⟨h entry.1 _ _ mem_cons_self (hfirst ▸ mem_cons_self), fun key a b ha hb =>
          h key a b (mem_cons_of_mem _ ha) (mem_cons_of_mem _ hb)⟩
      · intro ⟨hhere, hrest⟩ key a b ha hb
        cases mem_cons.mp ha with
        | inl hsame =>
          cases mem_cons.mp hb with
          | inl hsame' => rw [← hsame, ← hsame'] at hhere; exact hhere
          | inr hb =>
            have hkey : key = other.1 := (congrArg Prod.fst hsame).trans hhead
            exact absurd (hkey ▸ mem_map_of_mem (f := Prod.fst) hb) hother
        | inr ha =>
          cases mem_cons.mp hb with
          | inl hsame' =>
            have hkey : key = entry.1 := (congrArg Prod.fst hsame').trans hhead.symm
            exact absurd (hkey ▸ mem_map_of_mem (f := Prod.fst) ha) hentry
          | inr hb => exact hrest key a b ha hb

end

/-! ## Elements side by side -/

/-- Actions of one kind whose compared properties are equal. -/
def ActionsAgree (old new : CodesysVisualizationAction) : Prop :=
  old.kind = new.kind ∧ ∀ name, name ∉ hidden → old.properties.get? name = new.properties.get? name

/-- Equal properties, bindings and compared action properties. -/
structure Agree (old new : CodesysVisualizationElement) : Prop where
  properties : ∀ id, old.numericProperties.get? id = new.numericProperties.get? id
  bindings : old.bindings = new.bindings
  actions : Forall₂ ActionsAgree old.actions new.actions

section

variable {old new : CodesysVisualizationAction} {counts : Dictionary Text Nat}
  {actions others : List CodesysVisualizationAction}

theorem shownProperties_eq (h : ActionsAgree old new) : shownProperties old = shownProperties new := by
  have hmem : ∀ (action : CodesysVisualizationAction) (entry : Text × Text),
      entry ∈ shownProperties action ↔
        action.properties.get? entry.1 = some entry.2 ∧ entry.1 ∉ hidden := by
    intro action entry
    simp only [shownProperties, mem_filter, mem_sortedBy, decide_eq_true_eq]
    rw [← Dictionary.mem_entries_iff]
  have hnodup : ∀ action, (shownProperties action).Nodup := fun action =>
    ((sortedBy_perm _ _).nodup_iff.mpr action.properties.nodup.of_map).filter _
  refine Perm.eq_of_pairwise ?_ ((sortedBy_pairwise _).filter _) ((sortedBy_pairwise _).filter _)
    ((perm_ext_iff_of_nodup (hnodup _) (hnodup _)).mpr fun entry => ?_)
  · intro entry other _ _ hbefore hafter
    have htie := Std.OrientedCmp.isLE_antisymm hbefore hafter
    simp only [compareLex, compareOn, Ordering.then_eq_eq] at htie
    exact Prod.ext (Std.LawfulEqCmp.eq_of_compare htie.1) (Std.LawfulEqCmp.eq_of_compare htie.2)
  · rw [hmem, hmem]
    by_cases hentry : entry.1 ∈ hidden
    · simp [hentry]
    · rw [h.2 _ hentry]

theorem actionDetail_eq (h : ActionsAgree old new) : actionDetail old = actionDetail new := by
  unfold actionDetail
  rw [shownProperties_eq h, h.1]

theorem changedProperties_nil : changedProperties old new = [] ↔
    ∀ name, name ∉ hidden → old.properties.get? name = new.properties.get? name := by
  unfold changedProperties
  rw [map_eq_nil_iff, filter_eq_nil_iff, ← agree_union]
  simp only [mem_sortedBy, decide_eq_true_eq, not_and, ne_eq, not_not]

theorem actionsAgree_iff : actions.map (·.kind) = others.map (·.kind) ∧
    Forall₂ (fun a b => changedProperties a b = []) actions others ↔
      Forall₂ ActionsAgree actions others := by
  constructor
  · intro ⟨hkinds, h⟩
    induction h with
    | nil => exact .nil
    | cons hhere _ ih =>
      have ⟨hkind, hrest⟩ := cons.inj hkinds
      exact .cons ⟨hkind, changedProperties_nil.mp hhere⟩ (ih hrest)
  · intro h
    induction h with
    | nil => exact ⟨rfl, .nil⟩
    | cons hhere _ ih =>
      exact ⟨congrArg₂ cons hhere.1 ih.1, .cons (changedProperties_nil.mpr hhere.2) ih.2⟩

theorem actionDetails_eq (h : Forall₂ ActionsAgree actions others) :
    actions.map actionDetail = others.map actionDetail := by
  induction h with
  | nil => rfl
  | cons hhere _ ih => exact congrArg₂ cons (actionDetail_eq hhere) ih

theorem numbered_bound {entry : (Text × Nat) × CodesysVisualizationAction}
    (h : entry ∈ numbered counts actions) : (counts.get? entry.1.1).getD 0 ≤ entry.1.2 := by
  induction actions generalizing counts with
  | nil => cases h
  | cons action actions ih =>
    cases mem_cons.mp h with
    | inl hsame => rw [hsame]
    | inr hlater =>
      have hbound := ih hlater
      rw [Dictionary.get?_set] at hbound
      split at hbound
      · next hkind =>
        rw [hkind]
        exact Nat.le_of_succ_le hbound
      · exact hbound

theorem numbered_once : ((numbered counts actions).map Prod.fst).Nodup := by
  induction actions generalizing counts with
  | nil => exact nodup_nil
  | cons action actions ih =>
    refine nodup_cons.mpr ⟨fun hmem => ?_, ih⟩
    have ⟨entry, hentry, hkey⟩ := mem_map.mp hmem
    have hbound := numbered_bound hentry
    rw [hkey, Dictionary.get?_set, if_pos rfl, Option.getD_some] at hbound
    exact Nat.not_succ_le_self _ hbound

theorem numbered_actions : (numbered counts actions).map Prod.snd = actions := by
  induction actions generalizing counts with
  | nil => rfl
  | cons action actions ih => exact congrArg (action :: ·) ih

theorem numbered_keys (h : actions.map (·.kind) = others.map (·.kind)) :
    (numbered counts actions).map Prod.fst = (numbered counts others).map Prod.fst := by
  induction actions generalizing counts others with
  | nil =>
    rw [map_nil, eq_comm, map_eq_nil_iff] at h
    rw [h]
  | cons action actions ih =>
    match others, h with
    | other :: others, h =>
      have ⟨hkind, hrest⟩ : action.kind = other.kind ∧ _ := cons.inj h
      simp only [numbered, map_cons]
      rw [hkind, ih hrest]

end

section

variable {db : CharacterDatabase} {old new : CodesysVisualizationElement}
  {visualization elementKey changeKind : Text} {change : CodesysElementChange}

theorem actionsByKey_entries (element : CodesysVisualizationElement) :
    (actionsByKey (some element)).entries = numbered {} element.actions := by
  have h := @Dictionary.ofItems_entries _ _ _ _ Prod.fst Prod.snd (numbered {} element.actions)
    numbered_once
  exact h.trans (map_id _)

theorem actionPropertyChanges_nil (h : old.actions.map (·.kind) = new.actions.map (·.kind)) :
    actionPropertyChanges (some old) (some new) = [] ↔
      Forall₂ (fun a b => changedProperties a b = []) old.actions new.actions := by
  have hbeside := @beside_iff _ _ (fun a b => changedProperties a b = []) _ _
    (@numbered_keys {} _ _ h) numbered_once
  rw [numbered_actions, numbered_actions] at hbeside
  rw [← hbeside]
  have hentry : ∀ element key action, (key, action) ∈ numbered {} element.actions ↔
      (actionsByKey (some element)).get? key = some action := by
    intro element key action
    rw [← Dictionary.mem_entries_iff, actionsByKey_entries]
  simp only [hentry]
  unfold actionPropertyChanges
  simp only [flatMap_eq_nil_iff, mem_sortedBy, mem_filter, decide_eq_true_eq]
  constructor
  · intro hnone key a b ha hb
    have hkey := hnone key ⟨(Dictionary.mem_keys_iff _ _).mpr ⟨a, ha⟩,
      (Dictionary.mem_keys_iff _ _).mpr ⟨b, hb⟩⟩
    rwa [ha, hb] at hkey
  · intro hnone key _
    split
    · next a b ha hb => exact hnone key a b ha hb
    · rfl

theorem sortedProperties_perm {ids sorted : List Text} (h : sortedProperties db ids = .ok sorted) :
    sorted.Perm ids := by
  unfold sortedProperties at h
  simp only [bind_eq_ok, pure_eq_ok, mapM_eq_ok] at h
  have ⟨keyed, hkeyed, hsorted⟩ := h
  have hids : keyed.map Prod.snd = ids := by
    clear h hsorted
    induction hkeyed with
    | nil => rfl
    | cons hhere _ ih =>
      have ⟨_, _, hpair⟩ := hhere
      rw [map_cons, ih, ← hpair]
  rw [← hsorted]
  exact ((sortedBy_perm _ _).map _).trans (hids ▸ .refl _)

theorem exists_sortedProperties {ids : List Text} : (∃ sorted, sortedProperties db ids = .ok sorted) ↔
    ∀ id ∈ ids, ∃ key, propertySortKey db id = .ok key := by
  unfold sortedProperties
  rw [exists_returned, exists_mapM_eq_ok]
  simp only [exists_returned]

theorem hasChanges_iff (h : elementChange db visualization elementKey changeKind (some old)
    (some new) = .ok change) : ¬ hasChanges change ↔ Agree old new := by
  unfold elementChange at h
  simp only [bind_eq_ok, pure_eq_ok] at h
  rcases h with ⟨ids, hids, hchange⟩
  have hperm := sortedProperties_perm hids
  rw [← hchange]
  unfold hasChanges
  simp only [not_or, ne_eq, not_not, map_eq_nil_iff, filter_eq_nil_iff, decide_eq_true_eq,
    hperm.mem_iff]
  have hnumeric := @agree_union _ _ _ old.numericProperties new.numericProperties fun _ => True
  simp only [forall_true_left] at hnumeric
  rw [show (∀ id ∈ unionKeys (numericOf (some old)) (numericOf (some new)),
    (numericOf (some old)).get? id = (numericOf (some new)).get? id) ↔ _ from hnumeric]
  constructor
  · rintro ⟨hproperties, hbindings, hkinds, _, hactions⟩
    exact ⟨hproperties, hbindings,
      actionsAgree_iff.mp ⟨hkinds, (actionPropertyChanges_nil hkinds).mp hactions⟩⟩
  · intro hagree
    rcases actionsAgree_iff.mpr hagree.actions with ⟨hkinds, hbeside⟩
    exact ⟨hagree.properties, hagree.bindings, hkinds, actionDetails_eq hagree.actions,
      (actionPropertyChanges_nil hkinds).mpr hbeside⟩

end

/-! ## Exports side by side -/

/-- Elements of the same keys, in visualizations of the same names, that are alike. -/
structure Same (alike : CodesysVisualizationElement → CodesysVisualizationElement → Prop)
    (before after : CodesysNativeExport) : Prop where
  names : ∀ name, name ∈ before.visualizations.map (·.name) ↔
    name ∈ after.visualizations.map (·.name)
  kept : ∀ key old, (key, old) ∈ keyedElements before →
    ∃ new, (key, new) ∈ keyedElements after ∧ alike old new
  found : ∀ key new, (key, new) ∈ keyedElements after →
    ∃ old, (key, old) ∈ keyedElements before ∧ alike old new

def Alike (old new : CodesysVisualizationElement) : Prop :=
  old.elementType = new.elementType ∧ Agree old new

/-- Every element has a key of its own, every visualization has an element, elements of one key
have one type, and a property id of digits is a decimal number. -/
structure Plain (db : CharacterDatabase) (before after : CodesysNativeExport) : Prop where
  beforeKeys : ((keyedElements before).map Prod.fst).Nodup
  afterKeys : ((keyedElements after).map Prod.fst).Nodup
  inhabited : ∀ visualization ∈ before.visualizations ++ after.visualizations,
    visualization.elements ≠ []
  types : ∀ key old new, (key, old) ∈ keyedElements before → (key, new) ∈ keyedElements after →
    old.elementType = new.elementType
  numbers : ∀ entry ∈ keyedElements before ++ keyedElements after,
    ∀ id ∈ entry.2.numericProperties.keys, db.isDigitText id = true → (readInt db id).isSome

def CodesysElementChange.key (change : CodesysElementChange) : Text × Text :=
  (change.visualization, change.elementKey)

/-- Each key has one change or none, as its elements are. -/
structure Accounted (db : CharacterDatabase) (before after : CodesysNativeExport)
    (changes : List CodesysElementChange) : Prop where
  once : (changes.map (·.key)).Nodup
  added : ∀ key new, (key, new) ∈ keyedElements after → key ∉ (keyedElements before).map Prod.fst →
    ∃ change ∈ changes, elementChange db key.1 key.2 "added" none (some new) = .ok change
  removed : ∀ key old, (key, old) ∈ keyedElements before → key ∉ (keyedElements after).map Prod.fst →
    ∃ change ∈ changes, elementChange db key.1 key.2 "removed" (some old) none = .ok change
  modified : ∀ key old new, (key, old) ∈ keyedElements before → (key, new) ∈ keyedElements after →
    (Agree old new → key ∉ changes.map (·.key)) ∧
    (¬ Agree old new → ∃ change ∈ changes,
      elementChange db key.1 key.2 "modified" (some old) (some new) = .ok change)

section

variable {db : CharacterDatabase} {before after : CodesysNativeExport}
  {old new : Dictionary (Text × Text) CodesysVisualizationElement} {key : Text × Text}
  {changes : List CodesysElementChange}

theorem elementChange_key {changeKind : Text} {first second : Option CodesysVisualizationElement}
    {change : CodesysElementChange}
    (h : elementChange db key.1 key.2 changeKind first second = .ok change) : change.key = key := by
  unfold elementChange at h
  simp only [bind_eq_ok, pure_eq_ok] at h
  rcases h with ⟨_, _, hchange⟩
  rw [← hchange]
  rfl

theorem keyChanges_eq_ok (h : keyChanges db old new key = .ok changes) :
    (∀ change ∈ changes, change.key = key) ∧ changes.length ≤ 1 ∧
    (old.get? key = none → ∃ change, changes = [change] ∧
      elementChange db key.1 key.2 "added" none (new.get? key) = .ok change) ∧
    (∀ first, old.get? key = some first → new.get? key = none → ∃ change, changes = [change] ∧
      elementChange db key.1 key.2 "removed" (some first) none = .ok change) ∧
    ∀ first second, old.get? key = some first → new.get? key = some second →
      (Agree first second → changes = []) ∧
      (¬ Agree first second → ∃ change, changes = [change] ∧
        elementChange db key.1 key.2 "modified" (some first) (some second) = .ok change) := by
  unfold keyChanges at h
  cases hold : old.get? key with
  | none =>
    rw [hold] at h
    simp only [bind_eq_ok, pure_eq_ok] at h
    rcases h with ⟨change, hchange, hchanges⟩
    simp [← hchanges, elementChange_key hchange, hchange]
  | some first =>
    cases hnew : new.get? key with
    | none =>
      rw [hold, hnew] at h
      simp only [bind_eq_ok, pure_eq_ok] at h
      rcases h with ⟨change, hchange, hchanges⟩
      simp [← hchanges, elementChange_key hchange, hchange]
    | some second =>
      rw [hold, hnew] at h
      simp only [bind_eq_ok, pure_eq_ok] at h
      rcases h with ⟨change, hchange, hchanges⟩
      have hagree := hasChanges_iff hchange
      by_cases hhas : hasChanges change
      · have hdiffer : ¬ Agree first second := fun h => hagree.mpr h hhas
        rw [if_pos hhas] at hchanges
        simp [← hchanges, elementChange_key hchange, hchange, hdiffer]
      · rw [if_neg hhas] at hchanges
        simp [← hchanges, hagree.mp hhas]

theorem elements_get? (h : ((keyedElements before).map Prod.fst).Nodup)
    (element : CodesysVisualizationElement) :
    (elements before).get? key = some element ↔ (key, element) ∈ keyedElements before := by
  have hentries : (elements before).entries = keyedElements before :=
    (Dictionary.ofItems_entries h).trans (map_id _)
  rw [← Dictionary.mem_entries_iff, hentries]

theorem elements_keys (h : ((keyedElements before).map Prod.fst).Nodup) :
    (elements before).keys = (keyedElements before).map Prod.fst :=
  congrArg (map Prod.fst) ((Dictionary.ofItems_entries h).trans (map_id _))

theorem flatten_keys {keys : List (Text × Text)} {lists : List (List CodesysElementChange)}
    (h : Forall₂ (fun key changes => keyChanges db old new key = .ok changes) keys lists) :
    (lists.flatten.map (·.key)).Sublist keys := by
  induction h with
  | nil => exact .slnil
  | @cons key changes keys lists hhere _ ih =>
    have ⟨hkeys, hlength, _⟩ := keyChanges_eq_ok hhere
    rw [flatten_cons, map_append]
    match changes, hlength with
    | [], _ => exact ih.cons _
    | [change], _ =>
      rw [map_cons, hkeys change mem_cons_self]
      exact ih.cons_cons _

theorem compare_eq_ok {diff : CodesysVisualizationDiff}
    (h : compareCodesysVisualizations db before after = .ok diff) :
    (diff.elementChanges.map (·.key)).Nodup ∧
    (∀ key, key ∈ unionKeys (elements before) (elements after) → ∃ changes,
      keyChanges db (elements before) (elements after) key = .ok changes ∧
      ∀ change ∈ changes, change ∈ diff.elementChanges) ∧
    ∀ change ∈ diff.elementChanges, ∃ changes,
      change.key ∈ unionKeys (elements before) (elements after) ∧
      keyChanges db (elements before) (elements after) change.key = .ok changes ∧
      change ∈ changes := by
  unfold compareCodesysVisualizations at h
  simp only [bind_eq_ok, pure_eq_ok, mapM_eq_ok] at h
  have ⟨lists, hlists, hdiff⟩ := h
  have hchanges : diff.elementChanges = lists.flatten := by rw [← hdiff]
  rw [hchanges]
  refine ⟨((sortedBy_perm _ _).nodup_iff.mpr unionKeys_nodup).sublist (flatten_keys hlists), ?_, ?_⟩
  · intro key hkey
    rw [← mem_sortedBy] at hkey
    have ⟨changes, hmem, hread⟩ := exists_item hlists.flip hkey
    exact ⟨changes, hread, fun change hchange => mem_flatten.mpr ⟨changes, hmem, hchange⟩⟩
  · intro change hchange
    have ⟨changes, hmem, hin⟩ := mem_flatten.mp hchange
    have ⟨key, hkey, hread⟩ := exists_item hlists hmem
    have hsame := (keyChanges_eq_ok hread).1 change hin
    rw [hsame]
    exact ⟨changes, mem_sortedBy.mp hkey, hread, hin⟩

theorem exists_keyChanges : (∃ changes, keyChanges db old new key = .ok changes) ↔
    ∀ id, id ∈ (numericOf (old.get? key)).keys ∨ id ∈ (numericOf (new.get? key)).keys →
      ∃ order, propertySortKey db id = .ok order := by
  have hchange : ∀ changeKind first second,
      (∃ change, elementChange db key.1 key.2 changeKind first second = .ok change) ↔
      ∀ id, id ∈ (numericOf first).keys ∨ id ∈ (numericOf second).keys →
        ∃ order, propertySortKey db id = .ok order := by
    intro changeKind first second
    simp only [← mem_unionKeys]
    rw [← exists_sortedProperties]
    unfold elementChange
    exact exists_returned
  unfold keyChanges
  cases old.get? key with
  | none => exact exists_returned.trans (hchange "added" none (new.get? key))
  | some first =>
    cases new.get? key with
    | none => exact exists_returned.trans (hchange "removed" (some first) none)
    | some second => exact exists_returned.trans (hchange "modified" (some first) (some second))

theorem names_iff {document : CodesysNativeExport}
    (h : ∀ visualization ∈ document.visualizations, visualization.elements ≠ []) (name : Text) :
    name ∈ document.visualizations.map (·.name) ↔
      ∃ element, (name, element) ∈ (keyedElements document).map Prod.fst := by
  unfold keyedElements
  constructor
  · intro hmem
    have ⟨visualization, hvisualization, hname⟩ := mem_map.mp hmem
    match helements : visualization.elements with
    | [] => exact absurd helements (h visualization hvisualization)
    | element :: rest =>
      refine ⟨identity 0 element, mem_map.mpr ⟨((name, identity 0 element), element), ?_, rfl⟩⟩
      refine mem_flatMap.mpr ⟨visualization, hvisualization, ?_⟩
      rw [helements, ← hname]
      exact mem_cons_self
  · intro ⟨_, hmem⟩
    have ⟨entry, hentry, hkey⟩ := mem_map.mp hmem
    have ⟨visualization, hvisualization, hin⟩ := mem_flatMap.mp hentry
    have ⟨pair, _, hsame⟩ := mem_map.mp hin
    rw [← hsame] at hkey
    exact mem_map.mpr ⟨visualization, hvisualization, congrArg Prod.fst hkey⟩

theorem kept_iff {alike : CodesysVisualizationElement → CodesysVisualizationElement → Prop}
    (h : ((keyedElements after).map Prod.fst).Nodup) :
    (∀ key old, (key, old) ∈ keyedElements before →
      ∃ new, (key, new) ∈ keyedElements after ∧ alike old new) ↔
    (∀ key ∈ (keyedElements before).map Prod.fst, key ∈ (keyedElements after).map Prod.fst) ∧
    ∀ key old new, (key, old) ∈ keyedElements before → (key, new) ∈ keyedElements after →
      alike old new := by
  constructor
  · intro hkept
    refine ⟨fun key hkey => ?_, fun key old new hold hnew => ?_⟩
    · have ⟨⟨_, old⟩, hold, rfl⟩ := mem_map.mp hkey
      have ⟨new, hnew, _⟩ := hkept _ old hold
      exact mem_map_of_mem hnew
    · have ⟨other, hother, halike⟩ := hkept key old hold
      rw [← elements_get? h] at hother hnew
      exact Option.some.inj (hother.symm.trans hnew) ▸ halike
  · intro ⟨hkeys, halike⟩ key old hold
    have ⟨⟨_, new⟩, hnew, hkey⟩ := mem_map.mp (hkeys key (mem_map_of_mem hold))
    cases hkey
    exact ⟨new, hnew, halike _ old new hold hnew⟩

theorem same_iff (h : Plain db before after) : Same Alike before after ↔
    (∀ key, key ∈ (keyedElements before).map Prod.fst ↔ key ∈ (keyedElements after).map Prod.fst) ∧
    ∀ key old new, (key, old) ∈ keyedElements before → (key, new) ∈ keyedElements after →
      Agree old new := by
  constructor
  · intro hsame
    have ⟨hforth, halike⟩ := (kept_iff h.afterKeys).mp hsame.kept
    have ⟨hback, _⟩ := (@kept_iff after before (fun new old => Alike old new) h.beforeKeys).mp
      hsame.found
    exact ⟨fun key => ⟨hforth key, hback key⟩, fun key old new hold hnew =>
      (halike key old new hold hnew).2⟩
  · intro ⟨hkeys, hagree⟩
    have halike : ∀ key old new, (key, old) ∈ keyedElements before →
        (key, new) ∈ keyedElements after → Alike old new := fun key old new hold hnew =>
      ⟨h.types key old new hold hnew, hagree key old new hold hnew⟩
    refine ⟨fun name => ?_, (kept_iff h.afterKeys).mpr ⟨fun key => (hkeys key).mp, halike⟩,
      (kept_iff h.beforeKeys).mpr ⟨fun key => (hkeys key).mpr, fun key new old hnew hold =>
        halike key old new hold hnew⟩⟩
    rw [names_iff fun v hv => h.inhabited v (mem_append_left _ hv),
      names_iff fun v hv => h.inhabited v (mem_append_right _ hv)]
    simp only [hkeys]

theorem mem_numericOf (h : ((keyedElements before).map Prod.fst).Nodup) {id : Text} :
    id ∈ (numericOf ((elements before).get? key)).keys ↔
      ∃ element, (key, element) ∈ keyedElements before ∧ id ∈ element.numericProperties.keys := by
  simp only [← elements_get? h]
  cases (elements before).get? key with
  | none => simp [numericOf, Dictionary.keys]
  | some element => simp [numericOf]

theorem exists_propertySortKey {id : Text}
    (h : db.isDigitText id = true → (readInt db id).isSome) :
    ∃ key, propertySortKey db id = .ok key := by
  unfold propertySortKey
  split
  · next hdigits =>
    have ⟨number, hnumber⟩ := Option.isSome_iff_exists.mp (h hdigits)
    exact ⟨.number number, by rw [hnumber]⟩
  · exact ⟨.text id, rfl⟩

theorem exists_compare (h : Plain db before after) :
    ∃ diff, compareCodesysVisualizations db before after = .ok diff := by
  unfold compareCodesysVisualizations
  rw [exists_returned, exists_mapM_eq_ok]
  intro key hkey
  rw [exists_keyChanges]
  intro id hid
  simp only [mem_numericOf h.beforeKeys, mem_numericOf h.afterKeys] at hid
  rcases hid with ⟨element, hmem, hid⟩ | ⟨element, hmem, hid⟩
  · exact exists_propertySortKey (h.numbers _ (mem_append_left _ hmem) id hid)
  · exact exists_propertySortKey (h.numbers _ (mem_append_right _ hmem) id hid)

theorem get?_elements_absent (h : ((keyedElements before).map Prod.fst).Nodup) :
    (elements before).get? key = none ↔ key ∉ (keyedElements before).map Prod.fst := by
  rw [← elements_keys h, Dictionary.mem_keys_iff, not_exists, Option.eq_none_iff_forall_ne_some]

/-- No element is left out, and what is reported is what differs. -/
theorem compare_accounts (h : Plain db before after) :
    ∃ diff, compareCodesysVisualizations db before after = .ok diff ∧
      Accounted db before after diff.elementChanges ∧
      (diff.elementChanges = [] ↔ Same Alike before after) := by
  have ⟨diff, hdiff⟩ := exists_compare h
  refine ⟨diff, hdiff, ?_⟩
  have ⟨honce, hcomplete, hsound⟩ := compare_eq_ok hdiff
  have hold : ∀ key, key ∈ (keyedElements before).map Prod.fst →
      key ∈ unionKeys (elements before) (elements after) := fun key hkey =>
    mem_unionKeys.mpr (.inl (elements_keys h.beforeKeys ▸ hkey))
  have hnew : ∀ key, key ∈ (keyedElements after).map Prod.fst →
      key ∈ unionKeys (elements before) (elements after) := fun key hkey =>
    mem_unionKeys.mpr (.inr (elements_keys h.afterKeys ▸ hkey))
  have haccounted : Accounted db before after diff.elementChanges := by
    refine ⟨honce, fun key new hmem habsent => ?_, fun key old hmem habsent => ?_,
      fun key old new hfirst hsecond => ⟨fun hagree hmem => ?_, fun hdiffer => ?_⟩⟩
    · have ⟨changes, hread, hin⟩ := hcomplete key (hnew key (mem_map_of_mem hmem))
      have ⟨change, hchanges, hchange⟩ := (keyChanges_eq_ok hread).2.2.1
        ((get?_elements_absent h.beforeKeys).mpr habsent)
      rw [(elements_get? h.afterKeys new).mpr hmem] at hchange
      exact ⟨change, hin change (hchanges ▸ mem_cons_self), hchange⟩
    · have ⟨changes, hread, hin⟩ := hcomplete key (hold key (mem_map_of_mem hmem))
      have ⟨change, hchanges, hchange⟩ := (keyChanges_eq_ok hread).2.2.2.1 old
        ((elements_get? h.beforeKeys old).mpr hmem) ((get?_elements_absent h.afterKeys).mpr habsent)
      exact ⟨change, hin change (hchanges ▸ mem_cons_self), hchange⟩
    · have ⟨change, hchange, hkey⟩ := mem_map.mp hmem
      have ⟨changes, _, hread, hin⟩ := hsound change hchange
      rw [hkey] at hread
      have hnone := ((keyChanges_eq_ok hread).2.2.2.2 old new
        ((elements_get? h.beforeKeys old).mpr hfirst)
        ((elements_get? h.afterKeys new).mpr hsecond)).1 hagree
      rw [hnone] at hin
      cases hin
    · have ⟨changes, hread, hin⟩ := hcomplete key (hold key (mem_map_of_mem hfirst))
      have ⟨change, hchanges, hchange⟩ := ((keyChanges_eq_ok hread).2.2.2.2 old new
        ((elements_get? h.beforeKeys old).mpr hfirst)
        ((elements_get? h.afterKeys new).mpr hsecond)).2 hdiffer
      exact ⟨change, hin change (hchanges ▸ mem_cons_self), hchange⟩
  refine ⟨haccounted, ?_⟩
  rw [same_iff h]
  constructor
  · intro hnil
    rw [hnil] at haccounted
    refine ⟨fun key => ⟨fun hkey => ?_, fun hkey => ?_⟩, fun key old new hfirst hsecond => ?_⟩
    · have ⟨⟨_, old⟩, hmem, hsame⟩ := mem_map.mp hkey
      by_contra habsent
      have ⟨_, hin, _⟩ := haccounted.removed key old (hsame ▸ hmem) habsent
      cases hin
    · have ⟨⟨_, new⟩, hmem, hsame⟩ := mem_map.mp hkey
      by_contra habsent
      have ⟨_, hin, _⟩ := haccounted.added key new (hsame ▸ hmem) habsent
      cases hin
    · by_contra hdiffer
      have ⟨_, hin, _⟩ := (haccounted.modified key old new hfirst hsecond).2 hdiffer
      cases hin
  · intro ⟨hkeys, hagree⟩
    refine eq_nil_iff_forall_not_mem.mpr fun change hchange => ?_
    have ⟨changes, hkey, _, _⟩ := hsound change hchange
    have hbefore : change.key ∈ (keyedElements before).map Prod.fst := by
      rw [mem_unionKeys, elements_keys h.beforeKeys, elements_keys h.afterKeys, ← hkeys,
        or_self] at hkey
      exact hkey
    have ⟨⟨_, old⟩, hmem, hsame⟩ := mem_map.mp hbefore
    have ⟨⟨_, new⟩, hmem', hsame'⟩ := mem_map.mp ((hkeys _).mp hbefore)
    have hfirst : (change.key, old) ∈ keyedElements before := hsame ▸ hmem
    have hsecond : (change.key, new) ∈ keyedElements after := hsame' ▸ hmem'
    exact (haccounted.modified _ old new hfirst hsecond).1 (hagree _ old new hfirst hsecond)
      (mem_map_of_mem hchange)

end

/-! ## Two exports -/

def propertiesOf (entries : List (Text × Text)) : Dictionary Text Text :=
  Dictionary.ofItems Prod.fst Prod.snd entries

def switchOf (variable_ description : Text) : CodesysVisualizationElement where
  elementId := some 7
  elementType := some "Button"
  actions := [⟨"Toggle", propertiesOf [("Variable", variable_), ("Description", description)]⟩,
    ⟨"Toggle", {}⟩]

/-- Elements keyed in all three ways, the alarm page with a key of the panel. -/
def oldPanels : CodesysNativeExport where
  visualizations :=
    [⟨"Panel",
      [{ identifier := some "lamp", numericProperties := propertiesOf [("5", "red"), ("12", "1")] },
        switchOf "GVL.run" "first", {}, { identifier := some "gauge" },
        { elementId := some 9, actions := [⟨"Close", propertiesOf [("Description", "shut")]⟩] }]⟩,
      ⟨"Alarms", [{ identifier := some "lamp", bindings := ["GVL.alarm"] }]⟩]

def newPanels : CodesysNativeExport where
  visualizations :=
    [⟨"Alarms", [{ identifier := some "lamp", bindings := ["GVL.fault"] }]⟩,
      ⟨"Panel",
        [{ identifier := some "lamp", numericProperties := propertiesOf [("12", "1"), ("5", "green")] },
          switchOf "GVL.stop" "second", {},
          { elementId := some 9, actions := [⟨"Close", propertiesOf [("Description", "quit")]⟩] },
          { identifier := some "trend" }]⟩]

/-- A property, a binding and an action are modified, one element goes and one comes; a blank
element at its place and one with a new description stay as they are. -/
theorem compare_accounts_panels :
    ∃ diff, compareCodesysVisualizations Ascii.database oldPanels newPanels = .ok diff ∧
      Accounted Ascii.database oldPanels newPanels diff.elementChanges ∧
      (diff.elementChanges = [] ↔ Same Alike oldPanels newPanels) ∧
      diff.elementChanges.map (fun change => (change.key, change.changeKind)) =
        [((("Alarms" : Text), ("lamp" : Text)), ("modified" : Text)),
          (("Panel", "7"), "modified"), (("Panel", "gauge"), "removed"),
          (("Panel", "lamp"), "modified"), (("Panel", "trend"), "added")] := by
  have htypes : ∀ old ∈ keyedElements oldPanels, ∀ new ∈ keyedElements newPanels,
      old.1 = new.1 → old.2.elementType = new.2.elementType := by decide +kernel
  have hplain : Plain Ascii.database oldPanels newPanels :=
    ⟨by decide +kernel, by decide +kernel, by simp [oldPanels, newPanels],
      fun key old new hold hnew => htypes (key, old) hold (key, new) hnew rfl, by decide +kernel⟩
  obtain ⟨diff, hdiff, haccounted, hsame⟩ := compare_accounts hplain
  refine ⟨diff, hdiff, haccounted, hsame, ?_⟩
  have hchanges : (compareCodesysVisualizations Ascii.database oldPanels newPanels).toOption.map
      (fun diff => diff.elementChanges.map fun change => (change.key, change.changeKind)) =
        some [((("Alarms" : Text), ("lamp" : Text)), ("modified" : Text)),
          (("Panel", "7"), "modified"), (("Panel", "gauge"), "removed"),
          (("Panel", "lamp"), "modified"), (("Panel", "trend"), "added")] := by decide +kernel
  rw [hdiff] at hchanges
  exact Option.some.inj hchanges

/-- Equal in type, properties, bindings and actions. -/
structure Identical (old new : CodesysVisualizationElement) : Prop where
  types : old.elementType = new.elementType
  properties : ∀ id, old.numericProperties.get? id = new.numericProperties.get? id
  bindings : old.bindings = new.bindings
  actions : Forall₂ (fun a b => a.kind = b.kind ∧
    ∀ name, a.properties.get? name = b.properties.get? name) old.actions new.actions

def oneVisualization (elements : List CodesysVisualizationElement) : CodesysNativeExport where
  visualizations := [⟨"Panel", elements⟩]

def described (description : Text) : CodesysVisualizationElement where
  identifier := some "button"
  actions := [⟨"Toggle", Dictionary.ofItems Prod.fst Prod.snd [("Description", description)]⟩]

/-- ASCII, and a superscript two that is a digit and no decimal. -/
def superscripts : CharacterDatabase :=
  { Ascii.database with
    isDigit := fun character => character.isDigit || character == '²'
    isAlnum := fun character => character.isAlphanum || character == '²'
    alnum_of_alpha := fun character h => by
      have halpha : character.isAlpha = true := h
      simp [Char.isAlphanum, halpha]
    alnum_of_digit := fun character h => by
      simp only [Bool.or_eq_true] at h ⊢
      exact h.imp_left fun hdigit => by simp [Char.isAlphanum, hdigit]
    digit_ascii := fun character h => by
      have hplain : character ≠ '²' := fun hsame => by simp [hsame] at h
      simp [hplain]
    alnum_ascii := fun character h => by
      have hplain : character ≠ '²' := fun hsame => by simp [hsame] at h
      simp [hplain] }

/-- A description changes, an element changes its type, of two elements of one identifier the first
is lost, and a visualization without elements goes; nothing is reported. A property whose number is
no decimal ends the comparison of an export with itself. -/
theorem changes_missed :
    (∃ diff, compareCodesysVisualizations Ascii.database (oneVisualization [described "old"])
      (oneVisualization [described "new"]) = .ok diff ∧ diff.elementChanges = []) ∧
    ¬ Same Identical (oneVisualization [described "old"]) (oneVisualization [described "new"]) ∧
    (∃ diff, compareCodesysVisualizations Ascii.database
      (oneVisualization [{ identifier := some "lamp", elementType := some "Ellipse" }])
      (oneVisualization [{ identifier := some "lamp", elementType := some "Image" }]) = .ok diff ∧
      diff.elementChanges = []) ∧
    (∃ diff, compareCodesysVisualizations Ascii.database
      (oneVisualization [{ identifier := some "lamp", bindings := ["GVL.a"] },
        { identifier := some "lamp" }]) (oneVisualization [{ identifier := some "lamp" }]) = .ok diff ∧
      diff.elementChanges = []) ∧
    (∃ diff, compareCodesysVisualizations Ascii.database (oneVisualization []) ⟨none, [], []⟩ =
      .ok diff ∧ diff.elementChanges = []) ∧
    ¬ ∃ diff, compareCodesysVisualizations superscripts
      (oneVisualization [{ numericProperties := propertiesOf [("²", "1")] }])
      (oneVisualization [{ numericProperties := propertiesOf [("²", "1")] }]) = .ok diff := by
  refine ⟨⟨_, rfl, rfl⟩, fun h => ?_, ⟨_, rfl, rfl⟩, ⟨_, rfl, rfl⟩, ⟨_, rfl, rfl⟩, fun h => ?_⟩
  · have ⟨new, hnew, hidentical⟩ := h.kept ("Panel", "button") (described "old") (.head _)
    have hsame : new = described "new" := congrArg Prod.snd (mem_singleton.mp hnew)
    rw [hsame] at hidentical
    have ⟨⟨_, hproperties⟩, _⟩ := forall₂_cons.mp hidentical.actions
    exact absurd (hproperties "Description") (by decide)
  · have ⟨_, hdiff⟩ := h
    cases hdiff

end TwinForge.Codesys.Visualizations
