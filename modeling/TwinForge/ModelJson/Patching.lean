import TwinForge.ModelJson.PointerContract

/-! # Patching documents

A change applied to a document by what is published of it: its operation, its pointer and its
new value. The pointer is followed token by token, as it was written.
-/

namespace TwinForge.ModelJson

open List

/-! ## Equal documents -/

/-- A node without its children. -/
def Value.alone : Value → Value
  | .arr _ => .arr []
  | .obj _ => .obj []
  | value => value

/-- The same nodes at and below a place that one of the values may not have. -/
def AlikeNodes (first second : Option Value) : Prop :=
  ∀ position, (first.bind (·.at? position)).map Value.alone =
    (second.bind (·.at? position)).map Value.alone

/-- Equal with their types, but for the order of members. -/
def Alike (first second : Value) : Prop := AlikeNodes (some first) (some second)

theorem alike_iff {first second : Value} : Alike first second ↔
    first.alone = second.alone ∧
      ∀ step, AlikeNodes (first.child? step) (second.child? step) := by
  constructor
  · intro h
    exact ⟨Option.some.inj (h []), fun step position => h (step :: position)⟩
  · intro ⟨hroot, hchildren⟩ position
    cases position with
    | nil => exact congrArg some hroot
    | cons step position => exact hchildren step position

theorem alikeNodes_none {first : Option Value} : AlikeNodes first none ↔ first = none := by
  constructor
  · intro h
    cases first with
    | none => rfl
    | some value => cases h []
  · intro h position
    rw [h]

/-! ## Edits of one node -/

def Value.withChild (value : Value) (step : Step) (child : Value) : Value :=
  match value, step with
  | .obj members, .key key =>
    .obj (members.map fun entry => if entry.1 = key then (entry.1, child) else entry)
  | .arr items, .index index => .arr (items.set index child)
  | value, _ => value

def Value.insertChild (value : Value) (step : Step) (child : Value) : Option Value :=
  match value, step with
  | .obj members, .key key =>
    if key ∈ keys members then none else some (.obj (members ++ [(key, child)]))
  | .arr items, .index index =>
    if index ≤ items.length then some (.arr (items.insertIdx index child)) else none
  | _, _ => none

def Value.removeChild (value : Value) (step : Step) : Option Value :=
  match value, step with
  | .obj members, .key key =>
    if key ∈ keys members then some (.obj (members.filter (·.1 ≠ key))) else none
  | .arr items, .index index =>
    if index < items.length then some (.arr (items.eraseIdx index)) else none
  | _, _ => none

/-- The value with another child, or none, at a step. -/
structure Updated (value : Value) (step : Step) (child : Option Value) (updated : Value) :
    Prop where
  alone : updated.alone = value.alone
  child : ∀ other, updated.child? other = if other = step then child else value.child? other

theorem Updated.refl {value : Value} {step : Step} : Updated value step (value.child? step) value :=
  ⟨rfl, fun other => by
    split
    · next hsame => rw [hsame]
    · rfl⟩

variable {value child new : Value} {step : Step}

theorem Updated.trans {between updated : Value} {child' : Option Value}
    (hfirst : Updated value step (some child) between)
    (hsecond : Updated between step child' updated) : Updated value step child' updated := by
  refine ⟨hsecond.alone.trans hfirst.alone, fun other => ?_⟩
  rw [hsecond.child, hfirst.child]
  split <;> rfl

/-- The step goes below values of this kind. -/
def Fits (value : Value) (step : Step) : Prop :=
  match value.alone, step with
  | .obj _, .key _ => True
  | .arr _, .index _ => True
  | _, _ => False

theorem fits_of_child (h : value.child? step = some child) : Fits value step := by
  cases value <;> cases step <;> trivial

theorem lookup_replaced (members : Members) (key name : Points) :
    (members.map fun entry => if entry.1 = key then (entry.1, new) else entry).lookup name =
      if name = key then (members.lookup name).map fun _ => new else members.lookup name := by
  induction members with
  | nil => split <;> rfl
  | cons entry members ih =>
    have ⟨first, item⟩ := entry
    rw [map_cons, lookup_cons]
    by_cases hfirst : first = key
    · rw [if_pos hfirst, lookup_cons, ih]
      by_cases hname : name = first
      · simp [hname, hfirst]
      · simp [hname, ← hfirst]
    · rw [if_neg hfirst, lookup_cons, ih]
      by_cases hname : name = first
      · simp [hname, hfirst]
      · simp [hname]

theorem withChild_updated (h : value.child? step = some child) :
    Updated value step (some new) (value.withChild step new) := by
  cases value with
  | obj members =>
    cases step with
    | index place => cases h
    | key key =>
      refine ⟨rfl, fun other => ?_⟩
      cases other with
      | index place => rfl
      | key name =>
        replace h : members.lookup key = some child := h
        show List.lookup name (members.map _) = if _ then _ else members.lookup name
        rw [lookup_replaced]
        by_cases hname : name = key
        · simp [hname, h]
        · simp [hname]
  | arr items =>
    cases step with
    | key key => cases h
    | index place =>
      refine ⟨rfl, fun other => ?_⟩
      cases other with
      | key name => rfl
      | index other =>
        replace h : items[place]? = some child := h
        have hlt := (List.getElem?_eq_some_iff.mp h).1
        show (items.set place new)[other]? = _
        rw [getElem?_set]
        by_cases hsame : place = other
        · simp [hsame, hsame ▸ hlt]
        · have hne : other ≠ place := fun h => hsame h.symm
          simp [hsame, hne, Value.child?]
  | _ => cases h

theorem insertChild_updated (hfits : Fits value step) (hfree : value.child? step = none)
    (hready : ∀ place, step = .index place → ∀ before < place,
      (value.child? (.index before)).isSome) :
    ∃ updated, value.insertChild step new = some updated ∧
      Updated value step (some new) updated := by
  cases value with
  | obj members =>
    cases step with
    | index place => cases hfits
    | key key =>
      replace hfree : members.lookup key = none := hfree
      have hkey : key ∉ keys members := by
        intro hkey
        obtain ⟨item, hitem⟩ := mem_keys_lookup hkey
        rw [hitem] at hfree
        cases hfree
      refine ⟨_, if_neg hkey, rfl, fun other => ?_⟩
      cases other with
      | index place => rfl
      | key name =>
        show (members ++ [(key, new)]).lookup name = _
        rw [lookup_append, lookup_cons]
        by_cases hname : name = key
        · simp [hname, hfree]
        · simp [hname, Value.child?]
  | arr items =>
    cases step with
    | key key => cases hfits
    | index place =>
      have hend : items.length = place := by
        have hle := getElem?_eq_none_iff.mp hfree
        cases place with
        | zero => omega
        | succ place =>
          obtain ⟨last, hlast⟩ := Option.isSome_iff_exists.mp (hready _ rfl place (by omega))
          have hlt := (List.getElem?_eq_some_iff.mp hlast).1
          omega
      subst hend
      refine ⟨_, if_pos (Nat.le_refl _), rfl, fun other => ?_⟩
      cases other with
      | key name => rfl
      | index other =>
        show (items.insertIdx items.length new)[other]? = _
        rw [insertIdx_length_self]
        by_cases hsame : other = items.length
        · simp [hsame]
        · have hne : Step.index other ≠ .index items.length := by simpa using hsame
          rw [if_neg hne]
          show _ = items[other]?
          rcases Nat.lt_or_gt_of_ne hsame with hlt | hgt
          · exact getElem?_append_left hlt
          · rw [getElem?_eq_none (by simp; omega), getElem?_eq_none (by omega)]
  | _ => cases hfits

theorem removeChild_updated (h : value.child? step = some child)
    (hlast : ∀ place, step = .index place → value.child? (.index (place + 1)) = none) :
    ∃ updated, value.removeChild step = some updated ∧ Updated value step none updated := by
  cases value with
  | obj members =>
    cases step with
    | index place => cases h
    | key key =>
      refine ⟨_, if_pos (key_mem_of_lookup h), rfl, fun other => ?_⟩
      cases other with
      | index place => rfl
      | key name =>
        show (members.filter _).lookup name = if _ then none else members.lookup name
        clear h hlast
        induction members with
        | nil =>
          split <;> rfl
        | cons entry members ih =>
          have ⟨first, item⟩ := entry
          rw [filter_cons, lookup_cons]
          by_cases hfirst : first = key
          · rw [if_neg (by simp [hfirst]), ih, hfirst]
            by_cases hname : name = key <;> simp [hname]
          · rw [if_pos (by simpa using hfirst), lookup_cons, ih]
            by_cases hname : name = first
            · simp [hname, hfirst]
            · simp [hname]
  | arr items =>
    cases step with
    | key key => cases h
    | index place =>
      replace h : items[place]? = some child := h
      have hlt := (List.getElem?_eq_some_iff.mp h).1
      have hend : items.length ≤ place + 1 := getElem?_eq_none_iff.mp (hlast place rfl)
      refine ⟨_, if_pos hlt, rfl, fun other => ?_⟩
      cases other with
      | key name => rfl
      | index other =>
        show (items.eraseIdx place)[other]? = if Step.index other = .index place then none
          else items[other]?
        rw [getElem?_eraseIdx]
        by_cases hbefore : other < place
        · have hne : Step.index other ≠ .index place := by simp; omega
          rw [if_pos hbefore, if_neg hne]
        · rw [if_neg hbefore, getElem?_eq_none (by omega)]
          split
          · rfl
          · next hne =>
            have hother : other ≠ place := fun hsame => hne (by rw [hsame])
            rw [getElem?_eq_none (by omega)]
  | _ => cases h

/-! ## Following a pointer -/

/-- Undo `pointerToken`. -/
def unescapeToken : Points → Option Points
  | [] => some []
  | .scalar '~' :: .scalar '0' :: rest => (unescapeToken rest).map (.scalar '~' :: ·)
  | .scalar '~' :: .scalar '1' :: rest => (unescapeToken rest).map (.scalar '/' :: ·)
  | .scalar '~' :: _ => none
  | point :: rest => (unescapeToken rest).map (point :: ·)

/-- The step that a token writes: a member's key or the place of an item. -/
def Value.step? (value : Value) (token : Points) : Option Step :=
  match value with
  | .obj _ => (unescapeToken token).map .key
  | .arr _ =>
    let place := Nat.ofDigitChars 10 (token.filterMap CodePoint.char?) 0
    if Points.ofText (decimal place) = token then some (.index place) else none
  | _ => none

def pointerTokens (pointer : Points) : List Points :=
  if pointer = Points.of "#" then [] else (pointer.drop 2).splitOn (.scalar '/')

/-- Make a change at the node that the tokens lead to. -/
def edit (change : Change) (value : Value) : List Points → Option Value
  | [] => if change.operation = .replace then change.after else none
  | token :: rest =>
    (value.step? token).bind fun step =>
      if rest = [] ∧ change.operation = .add then change.after.bind (value.insertChild step)
      else if rest = [] ∧ change.operation = .remove then value.removeChild step
      else
        (value.child? step).bind fun child =>
          (edit change child rest).map (value.withChild step)

def applyBelow (depth : Nat) (value : Value) (change : Change) : Option Value :=
  edit change value ((pointerTokens change.pointer).drop depth)

def applyChange : Value → Change → Option Value := applyBelow 0

def lasting (changes : List Change) : List Change := changes.filter (·.operation ≠ .remove)

def removals (changes : List Change) : List Change := changes.filter (·.operation = .remove)

/-- Replacements and additions in order, then the removals from the last one on. -/
def patch (document : Value) (changes : List Change) : Option Value :=
  ((lasting changes).foldlM applyChange document).bind
    ((removals changes).reverse.foldlM applyChange)

theorem unescapeToken_pointerToken (key : Points) :
    unescapeToken (pointerToken key) = some key := by
  rw [pointerToken_eq]
  induction key with
  | nil => rfl
  | cons point key ih =>
    rw [flatMap_cons]
    by_cases htilde : point = .scalar '~'
    · subst htilde
      show (unescapeToken (key.flatMap escapePoint)).map _ = _
      rw [ih]
      rfl
    · by_cases hslash : point = .scalar '/'
      · subst hslash
        show (unescapeToken (key.flatMap escapePoint)).map _ = _
        rw [ih]
        rfl
      · have hplain : escapePoint point = [point] := by simp [escapePoint, htilde, hslash]
        rw [hplain, singleton_append, unescapeToken, ih]
        · rfl
        · intro rest hpoint
          exact absurd hpoint htilde
        · intro rest hpoint
          exact absurd hpoint htilde
        · exact htilde

theorem pointerTokens_pointer (position : Position) :
    pointerTokens (pointer position) = position.map Step.token := by
  unfold pointerTokens
  cases position with
  | nil => rfl
  | cons step position =>
    rw [if_neg, splitOn_pointer]
    rw [pointer_cons]
    intro hroot
    cases hroot

theorem step?_token (h : Fits value step) : value.step? step.token = some step := by
  cases value with
  | obj members =>
    cases step with
    | index place => cases h
    | key key => simp [Value.step?, Step.token, unescapeToken_pointerToken]
  | arr items =>
    cases step with
    | key key => cases h
    | index place =>
      have hchars : (Points.ofText (decimal place)).filterMap CodePoint.char? = decimal place := by
        rw [Points.ofText, filterMap_map]
        exact filterMap_some
      have hplace : Nat.ofDigitChars 10 (decimal place) 0 = place :=
        Nat.ofDigitChars_ten_toDigits
      simp only [Value.step?, Step.token, hchars, hplace, if_true]
  | _ => cases h

end TwinForge.ModelJson
