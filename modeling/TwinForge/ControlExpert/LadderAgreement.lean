import Mathlib.Algebra.GroupWithZero.Nat
import Mathlib.Data.List.Induction
import TwinForge.ControlExpert.LadderGrid

/-! # Agreement of the two grid readers

The reader of rungs and the layout keep a column each. Within a series row they drift apart
by one column for every link without a count.
-/

namespace TwinForge.ControlExpert

open Model List

/-! ## Cells of a row -/

def isInstruction (cell : CapturedSection) : Bool := cell.tag = .contact ∨ cell.tag = .coil

def isBareLink (cell : CapturedSection) : Bool :=
  cell.tag = .hLink ∧ cell.rawAttribute "nbCells" = none

def bareLinks (cells : List CapturedSection) : Nat := cells.countP isBareLink

/-- A cell of a series row: a contact, a coil, or a gap or link with a number or none. -/
def SeriesCell (cell : CapturedSection) : Prop :=
  isInstruction cell = true ∨ ((cell.tag = .emptyCell ∨ cell.tag = .hLink) ∧
    ∀ value, cell.rawAttribute "nbCells" = some value → (plainNumber value).isSome = true)

/-- Objects that the recursive count finds inside a cell and the layout does not. -/
def hiddenInCell (cell : CapturedSection) : Nat :=
  if cell.tag = .typeLine then countObjects cell else 0

/-- Objects that the recursive count finds inside a line and the layout does not. -/
def hiddenObjects (line : CapturedSection) : Nat :=
  if line.tag = .textBox then 0
  else if line.tag = .typeLine then (line.orderedChildren.map hiddenInCell).sum
  else countObjects line

/-- A gap behind a contact closes the segment. -/
def extendSegment (cells : List (CapturedSection × Nat)) (entry : CapturedSection × Nat) :
    List (CapturedSection × Nat) :=
  if entry.1.tag = .emptyCell ∧ cells.any (fun other => other.1.tag = .contact) then []
  else cells ++ [entry]

/-- The cells behind the last gap that follows a contact. -/
def openSegment (cells : List CapturedSection) : List (CapturedSection × Nat) :=
  cells.zipIdx.foldl extendSegment []

/-! ## Objects -/

theorem countObjectsIn_eq (cells : List CapturedSection) :
    countObjectsIn cells = (cells.map countObjects).sum := by
  induction cells with
  | nil => rfl
  | cons cell cells ih => rw [countObjectsIn, ih, map_cons, sum_cons]

theorem countObjectsIn_append (front back : List CapturedSection) :
    countObjectsIn (front ++ back) = countObjectsIn front + countObjectsIn back := by
  simp [countObjectsIn_eq]

variable {cell : CapturedSection}

theorem countObjects_leaf (hline : cell.tag ≠ .typeLine) (hshort : cell.tag ≠ .shortCircuit) :
    countObjects cell = if isGraphicalObject cell.tag then 1 else 0 := by
  cases cell with
  | mk tag source attributes children =>
    have hcontainer : ¬ (tag = .typeLine ∨ tag = .shortCircuit) := by
      rintro (h | h)
      · exact hline h
      · exact hshort h
    rw [countObjects, if_neg hcontainer]
    rfl

theorem countObjects_shortCircuit (h : cell.tag = .shortCircuit) :
    countObjects cell = countObjectsIn cell.orderedChildren := by
  cases cell with
  | mk tag source attributes children =>
    simp only [CapturedSection.tag] at h
    subst h
    simp [countObjects, isGraphicalObject, CapturedSection.orderedChildren]

theorem countObjects_typeLine (h : cell.tag = .typeLine) :
    countObjects cell = countObjectsIn cell.orderedChildren := by
  cases cell with
  | mk tag source attributes children =>
    simp only [CapturedSection.tag] at h
    subst h
    simp [countObjects, isGraphicalObject, CapturedSection.orderedChildren]

theorem countObjectsIn_others (cells : List CapturedSection) :
    countObjectsIn (cells.filter fun cell => cell.tag ≠ .vLink) = countObjectsIn cells := by
  induction cells with
  | nil => rfl
  | cons cell cells ih =>
    by_cases hlink : cell.tag = .vLink
    · have hzero : countObjects cell = 0 := by
        rw [countObjects_leaf (by simp [hlink]) (by simp [hlink]), hlink]
        rfl
      rw [filter_cons_of_neg (by simp [hlink]), ih, countObjectsIn, hzero, Nat.zero_add]
    · rw [filter_cons_of_pos (by simp [hlink]), countObjectsIn, countObjectsIn, ih]

theorem placeCell_objects (line : Nat) (state : GridLine) (cell : CapturedSection) (index : Nat) :
    (placeCell line state (cell, index)).objectIndex + hiddenInCell cell =
      state.objectIndex + countObjects cell := by
  by_cases hshort : cell.tag = .shortCircuit
  · have hhidden : hiddenInCell cell = 0 := by simp [hiddenInCell, hshort]
    rw [hhidden, countObjects_shortCircuit hshort, ← countObjectsIn_others]
    simp only [placeCell, hshort, placeShortCircuit]
    split
    · rename_i other hothers
      simp only [hothers]
      split
      · rw [← countObjectsIn_others, hothers]
        rfl
      · rw [countObjectsIn, countObjectsIn]
        split
        · rename_i hother
          rw [countObjects_leaf (by simp [hother]) (by simp [hother]), hother]
          rfl
        · rename_i hother
          rw [countObjects_leaf (by simp [hother]) (by simp [hother]), hother]
          rfl
        · rename_i hother
          rw [countObjects_leaf (by simp [hother]) (by simp [hother]), hother]
          rfl
        · rw [← countObjectsIn_others, hothers]
          rfl
    · rw [← countObjectsIn_others]
      rfl
  · by_cases hline : cell.tag = .typeLine
    · simp [placeCell, hiddenInCell, hline]
    · rw [countObjects_leaf hline hshort]
      simp only [hiddenInCell, hline, if_false, placeCell]
      cases htag : cell.tag <;> simp_all [isGraphicalObject]

def gridLine (line start : Nat) (cells : List CapturedSection) : GridLine :=
  cells.zipIdx.foldl (placeCell line) { objectIndex := start }

@[simp] theorem gridLine_append (line start : Nat) (cells : List CapturedSection)
    (cell : CapturedSection) : gridLine line start (cells ++ [cell]) =
      placeCell line (gridLine line start cells) (cell, cells.length) := by
  simp [gridLine, List.zipIdx_append]

theorem gridLine_objects (line start : Nat) (cells : List CapturedSection) :
    (gridLine line start cells).objectIndex + (cells.map hiddenInCell).sum =
      start + countObjectsIn cells := by
  induction cells using reverseRecOn with
  | nil => rfl
  | append_singleton cells cell ih =>
    have hcell := placeCell_objects line (gridLine line start cells) cell cells.length
    rw [gridLine_append, map_append, sum_append, countObjectsIn_append, countObjectsIn,
      countObjectsIn]
    simp only [map_cons, map_nil, sum_cons, sum_nil]
    omega

/-! ## Columns -/

section

variable (db : CharacterDatabase)

theorem plainNumber_nil : plainNumber [] = none := by simp [plainNumber]

theorem rowWidth_empty (h : SeriesCell cell)
    (htag : cell.tag = .emptyCell) : rowWidth db cell = .ok (emptyWidth cell) := by
  have hnumber := (h.resolve_left (by simp [isInstruction, htag])).2
  unfold rowWidth emptyWidth
  cases hvalue : cell.rawAttribute "nbCells" with
  | none => simp [plainNumber_nil]
  | some value =>
    obtain ⟨width, hwidth⟩ := Option.isSome_iff_exists.mp (hnumber value hvalue)
    simp [hwidth]

theorem rowWidth_link (h : SeriesCell cell) (htag : cell.tag = .hLink) :
    ∃ width, rowWidth db cell = .ok width ∧ linkWidth cell = width + bareLinks [cell] := by
  have hnumber := (h.resolve_left (by simp [isInstruction, htag])).2
  unfold rowWidth linkWidth bareLinks
  cases hvalue : cell.rawAttribute "nbCells" with
  | none => exact ⟨0, rfl, by simp [plainNumber_nil, isBareLink, htag, hvalue]⟩
  | some value =>
    obtain ⟨width, hwidth⟩ := Option.isSome_iff_exists.mp (hnumber value hvalue)
    exact ⟨width, by simp [hwidth], by simp [hwidth, isBareLink, hvalue]⟩

theorem bareLinks_append (front back : List CapturedSection) :
    bareLinks (front ++ back) = bareLinks front + bareLinks back := countP_append

theorem bareLinks_other {cell : CapturedSection} (h : cell.tag ≠ .hLink) : bareLinks [cell] = 0 := by
  simp [bareLinks, isBareLink, h]

@[simp] theorem readRow_append (line : Nat) (cells : List CapturedSection)
    (cell : CapturedSection) : readRow db line (cells ++ [cell]) =
      readCell db line (readRow db line cells) (cell, cells.length) := by
  simp [readRow, List.zipIdx_append]

@[simp] theorem openSegment_append (cells : List CapturedSection) (cell : CapturedSection) :
    openSegment (cells ++ [cell]) = extendSegment (openSegment cells) (cell, cells.length) := by
  simp [openSegment, List.zipIdx_append]

/-- A cell of the layout shows an element of a row. -/
def Shows (start : Nat) (cells : List CapturedSection) (element : RowElement)
    (shown : LadderGridCell) : Prop :=
  shown.origin = element.place ∧
    shown.column = element.column + bareLinks (cells.take element.place.cell) ∧
    shown.objectIndex = some (start + countObjectsIn (cells.take element.place.cell))

/-- Both readers of a series row, after the same cells. -/
structure Aligned (line start : Nat) (cells : List CapturedSection) (row : RowState)
    (grid : GridLine) : Prop where
  resolvable : row.resolvable = true
  column : grid.column = row.column + bareLinks cells
  objects : grid.objectIndex = start + countObjectsIn cells
  elements : row.elements.map (fun element => (element.cell, element.place)) =
    ((openSegment cells).filter fun entry => isInstruction entry.1).map
      fun entry => (entry.1, ⟨line, entry.2⟩)
  seenContact : row.seenContact = (openSegment cells).any fun entry => entry.1.tag = .contact
  shown : ∀ element ∈ row.elements, element.place.line = line ∧
    cells[element.place.cell]? = some element.cell ∧ ∃ shown ∈ grid.cells,
      Shows start cells element shown

variable {start : Nat} {cells : List CapturedSection}

theorem Shows.append {element : RowElement}
    {shown : LadderGridCell} (h : Shows start cells element shown)
    (hcell : cells[element.place.cell]? = some element.cell) (cell : CapturedSection) :
    Shows start (cells ++ [cell]) element shown := by
  have hbound := (List.getElem?_eq_some_iff.mp hcell).1
  unfold Shows at h ⊢
  rw [take_append_of_le_length (by omega)]
  exact h

theorem shown_append {line start : Nat} {cells : List CapturedSection} {elements : List RowElement}
    {grid : List LadderGridCell} {cell : CapturedSection}
    (h : ∀ element ∈ elements, element.place.line = line ∧
      cells[element.place.cell]? = some element.cell ∧ ∃ shown ∈ grid,
        Shows start cells element shown) (more : List LadderGridCell) :
    ∀ element ∈ elements, element.place.line = line ∧
      (cells ++ [cell])[element.place.cell]? = some element.cell ∧ ∃ shown ∈ grid ++ more,
        Shows start (cells ++ [cell]) element shown := by
  intro element helement
  obtain ⟨hline, hcell, shown, hshown, hshows⟩ := h element helement
  have hbound := (List.getElem?_eq_some_iff.mp hcell).1
  refine ⟨hline, ?_, shown, mem_append_left _ hshown, hshows.append hcell cell⟩
  rw [List.getElem?_append_left hbound]
  exact hcell

theorem readCell_instruction {line : Nat} (state : RowState) {cell : CapturedSection} (index : Nat)
    (h : isInstruction cell = true) : readCell db line state (cell, index) =
      { state with
        elements := state.elements ++ [⟨cell, ⟨line, index⟩, state.column⟩]
        seenContact := state.seenContact || cell.tag = .contact
        column := state.column + 1 } := by
  simp only [isInstruction, Bool.decide_or, Bool.or_eq_true, decide_eq_true_eq] at h
  rcases h with h | h <;> simp [readCell, h]

theorem placeCell_instruction {line : Nat} (state : GridLine) {cell : CapturedSection} (index : Nat)
    (h : isInstruction cell = true) : ∃ kind, placeCell line state (cell, index) =
      { column := state.column + 1
        objectIndex := state.objectIndex + 1
        cells := state.cells ++
          [{ column := state.column, kind, origin := ⟨line, index⟩
             objectIndex := some state.objectIndex }] } := by
  simp only [isInstruction, Bool.decide_or, Bool.or_eq_true, decide_eq_true_eq] at h
  rcases h with h | h
  · exact ⟨.contact, by simp [placeCell, h]⟩
  · exact ⟨.coil, by simp [placeCell, h]⟩

theorem Aligned.beside {line : Nat} {row row' : RowState} {grid grid' : GridLine}
    {cell : CapturedSection} {more : List LadderGridCell} (h : Aligned line start cells row grid)
    (hsegment : openSegment (cells ++ [cell]) = openSegment cells ++ [(cell, cells.length)])
    (hplain : isInstruction cell = false) (hresolvable : row'.resolvable = row.resolvable)
    (helements : row'.elements = row.elements) (hseen : row'.seenContact = row.seenContact)
    (hcells : grid'.cells = grid.cells ++ more)
    (hcolumn : grid'.column = row'.column + bareLinks (cells ++ [cell]))
    (hobjects : grid'.objectIndex = start + countObjectsIn (cells ++ [cell])) :
    Aligned line start (cells ++ [cell]) row' grid' := by
  have hcontact : cell.tag ≠ .contact := by
    intro htag
    simp [isInstruction, htag] at hplain
  refine ⟨hresolvable.trans h.resolvable, hcolumn, hobjects, ?_, ?_, ?_⟩
  · rw [helements, hsegment, filter_append]
    simpa [hplain] using h.elements
  · rw [hseen, hsegment, any_append]
    simpa [hcontact] using h.seenContact
  · rw [helements, hcells]
    exact shown_append h.shown more

theorem series_aligned (line start : Nat) (h : ∀ cell ∈ cells, SeriesCell cell) :
    Aligned line start cells (readRow db line cells) (gridLine line start cells) := by
  induction cells using reverseRecOn with
  | nil => exact ⟨rfl, rfl, rfl, rfl, rfl, by simp [readRow]⟩
  | append_singleton cells cell ih =>
    have hseries := h cell (by simp)
    have ih := ih fun other hother => h other (by simp [hother])
    have hhidden : hiddenInCell cell = 0 := by
      unfold hiddenInCell
      rcases hseries with hseries | ⟨htag | htag, -⟩
      · have hne : cell.tag ≠ .typeLine := by
          intro htag
          simp [isInstruction, htag] at hseries
        rw [if_neg hne]
      · simp [htag]
      · simp [htag]
    have hobjects : (placeCell line (gridLine line start cells) (cell, cells.length)).objectIndex =
        start + countObjectsIn (cells ++ [cell]) := by
      have hcell := placeCell_objects line (gridLine line start cells) cell cells.length
      rw [countObjectsIn_append, countObjectsIn, countObjectsIn]
      have hbefore := ih.objects
      omega
    have hcolumn := ih.column
    have hbare := bareLinks_append cells [cell]
    rw [readRow_append, gridLine_append]
    by_cases hinstruction : isInstruction cell = true
    · have hgap : cell.tag ≠ .emptyCell := by
        intro htag
        simp [isInstruction, htag] at hinstruction
      rw [@bareLinks_other cell (by intro htag; simp [isInstruction, htag] at hinstruction)] at hbare
      have hsegment : openSegment (cells ++ [cell]) =
          openSegment cells ++ [(cell, cells.length)] := by
        rw [openSegment_append, extendSegment, if_neg (fun hboth => hgap hboth.1)]
      obtain ⟨kind, hplace⟩ := @placeCell_instruction line (gridLine line start cells) _
        cells.length hinstruction
      rw [hplace] at hobjects
      rw [@readCell_instruction db line (readRow db line cells) _ cells.length hinstruction, hplace]
      refine ⟨ih.resolvable, ?_, hobjects, ?_, ?_, ?_⟩
      · simp only
        omega
      · rw [hsegment, filter_append, map_append, map_append, ih.elements]
        simp [hinstruction]
      · rw [hsegment, any_append, ← ih.seenContact]
        simp
      · intro element helement
        rcases mem_append.mp helement with helement | helement
        · exact shown_append ih.shown _ element helement
        · rw [mem_singleton.mp helement]
          refine ⟨rfl, by simp, _, mem_append_right _ (mem_singleton_self _), rfl, ?_, ?_⟩
          · rw [take_left]
            exact ih.column
          · rw [take_left]
            exact congrArg some ih.objects
    · obtain ⟨htag, -⟩ := hseries.resolve_left hinstruction
      have hplain := eq_false_of_ne_true hinstruction
      rcases htag with htag | htag
      · have hwidth := rowWidth_empty db hseries htag
        rw [@bareLinks_other cell (by simp [htag])] at hbare
        have hplace : placeCell line (gridLine line start cells) (cell, cells.length) =
            { gridLine line start cells with
              column := (gridLine line start cells).column + emptyWidth cell } := by
          simp [placeCell, htag]
        rw [hplace] at hobjects ⊢
        by_cases hseen : (readRow db line cells).seenContact = true
        · have hread : readCell db line (readRow db line cells) (cell, cells.length) =
              { readRow db line cells with
                column := (readRow db line cells).column + emptyWidth cell
                elements := []
                hlinkStarts := []
                seenContact := false
                discardedSegments := (readRow db line cells).discardedSegments +
                  if (readRow db line cells).elements.isEmpty then 0 else 1 } := by
            simp [readCell, htag, hwidth, hseen]
          have hsegment : openSegment (cells ++ [cell]) = [] := by
            rw [openSegment_append, extendSegment, if_pos ⟨htag, ih.seenContact ▸ hseen⟩]
          rw [hread]
          refine ⟨ih.resolvable, ?_, hobjects, ?_, ?_, by simp⟩
          · simp only
            omega
          · rw [hsegment]
            rfl
          · rw [hsegment]
            rfl
        · have hread : readCell db line (readRow db line cells) (cell, cells.length) =
              { readRow db line cells with
                column := (readRow db line cells).column + emptyWidth cell } := by
            simp [readCell, htag, hwidth, hseen]
          have hsegment : openSegment (cells ++ [cell]) =
              openSegment cells ++ [(cell, cells.length)] := by
            rw [openSegment_append, extendSegment, if_neg]
            rintro ⟨-, hany⟩
            exact hseen (ih.seenContact.trans hany)
          rw [hread]
          refine ih.beside hsegment hplain rfl rfl rfl (append_nil _).symm ?_ hobjects
          simp only
          omega
      · obtain ⟨width, hwidth, hlink⟩ := rowWidth_link db hseries htag
        have hread : readCell db line (readRow db line cells) (cell, cells.length) =
            { readRow db line cells with
              hlinkStarts := (readRow db line cells).hlinkStarts ++
                [(readRow db line cells).column]
              column := (readRow db line cells).column + width } := by
          simp [readCell, htag, hwidth]
        obtain ⟨more, hplace⟩ : ∃ more, placeCell line (gridLine line start cells)
            (cell, cells.length) =
              { gridLine line start cells with
                column := (gridLine line start cells).column + linkWidth cell
                cells := (gridLine line start cells).cells ++ more } :=
          ⟨[{ column := (gridLine line start cells).column, kind := .hlink
              width := linkWidth cell, origin := ⟨line, cells.length⟩ }], by
            simp [placeCell, htag]⟩
        have hsegment : openSegment (cells ++ [cell]) =
            openSegment cells ++ [(cell, cells.length)] := by
          rw [openSegment_append, extendSegment, if_neg]
          rintro ⟨hempty, -⟩
          rw [htag] at hempty
          cases hempty
        rw [hplace] at hobjects
        rw [hread, hplace]
        refine ih.beside hsegment hplain rfl rfl rfl rfl ?_ hobjects
        simp only
        omega

/-- A series row whose open segment ends with its one coil. -/
structure RungLine (cells before : List CapturedSection) (coil : CapturedSection)
    (after : List CapturedSection) : Prop where
  series : ∀ cell ∈ cells, SeriesCell cell
  split : cells = before ++ coil :: after
  isCoil : coil.tag = .coil
  last : ∀ cell ∈ after, isInstruction cell = false
  alone : ∃ contacts, (∀ entry ∈ contacts, entry.1.tag = .contact) ∧
    ((openSegment cells).filter fun entry => isInstruction entry.1) =
      contacts ++ [(coil, before.length)]

theorem rowWidth_ok {width : Nat} (h : rowWidth db cell = .ok width)
    (value : Text) (hvalue : cell.rawAttribute "nbCells" = some value) :
    (plainNumber value).isSome = true := by
  rw [rowWidth, hvalue] at h
  cases hnumber : plainNumber value with
  | none => simp [hnumber] at h
  | some number => rfl

variable {line : Nat}

theorem readCell_resolvable {index : Nat} {state : RowState}
    (h : (readCell db line state (cell, index)).resolvable = true) :
    state.resolvable = true ∧ SeriesCell cell := by
  unfold readCell at h
  cases htag : cell.tag with
  | contact =>
    simp only [htag] at h
    exact ⟨h, .inl (by simp [isInstruction, htag])⟩
  | coil =>
    simp only [htag] at h
    exact ⟨h, .inl (by simp [isInstruction, htag])⟩
  | emptyCell =>
    simp only [htag] at h
    cases hwidth : rowWidth db cell with
    | error diagnostic => simp [hwidth] at h
    | ok width =>
      rw [hwidth] at h
      have hstate : state.resolvable = true := by
        by_cases hseen : state.seenContact = true <;> simpa [hseen] using h
      exact ⟨hstate, .inr ⟨.inl htag, rowWidth_ok db hwidth⟩⟩
  | hLink =>
    simp only [htag] at h
    cases hwidth : rowWidth db cell with
    | error diagnostic => simp [hwidth] at h
    | ok width =>
      rw [hwidth] at h
      exact ⟨h, .inr ⟨.inr htag, rowWidth_ok db hwidth⟩⟩
  | _ => simp [htag] at h

theorem resolvable_series
    (h : (readRow db line cells).resolvable = true) : ∀ cell ∈ cells, SeriesCell cell := by
  induction cells using reverseRecOn with
  | nil => simp
  | append_singleton cells cell ih =>
    rw [readRow_append] at h
    obtain ⟨hbefore, hcell⟩ := readCell_resolvable db h
    intro other hother
    rcases mem_append.mp hother with hother | hother
    · exact ih hbefore other hother
    · rw [mem_singleton.mp hother]
      exact hcell

theorem openSegment_suffix (cells : List CapturedSection) : openSegment cells <:+ cells.zipIdx := by
  induction cells using reverseRecOn with
  | nil => exact suffix_refl _
  | append_singleton cells cell ih =>
    rw [openSegment_append, extendSegment, List.zipIdx_append]
    split
    · exact nil_suffix
    · obtain ⟨front, hfront⟩ := ih
      refine ⟨front, ?_⟩
      rw [← append_assoc, hfront]
      simp

theorem marked_last {Item : Type} {marked : Item → Bool} {items : List Item} (h : items ≠ []) :
    (items.zipIdx.filter fun entry => marked entry.1).map Prod.snd = [items.length - 1] ↔
      ∃ front last, items = front ++ [last] ∧ marked last = true ∧
        ∀ item ∈ front, marked item = false := by
  obtain ⟨front, last, rfl⟩ := (eq_nil_or_concat items).resolve_left h
  have hunique : (∃ others final, front ++ [last] = others ++ [final] ∧ marked final = true ∧
      ∀ item ∈ others, marked item = false) ↔
        marked last = true ∧ ∀ item ∈ front, marked item = false := by
    constructor
    · rintro ⟨others, final, hsame, hmarked, hothers⟩
      obtain ⟨rfl, hfinal⟩ := append_inj' hsame rfl
      have hlast : last = final := by simpa using hfinal
      exact ⟨hlast ▸ hmarked, hothers⟩
    · rintro ⟨hmarked, hothers⟩
      exact ⟨front, last, rfl, hmarked, hothers⟩
  rw [concat_eq_append, hunique, List.zipIdx_append, filter_append, map_append]
  by_cases hlast : marked last = true
  · have hfilter : (front.zipIdx.filter fun entry => marked entry.1) = [] ↔
        ∀ item ∈ front, marked item = false := by
      rw [filter_eq_nil_iff]
      constructor
      · intro hnone item hitem
        obtain ⟨index, hindex⟩ := List.getElem?_of_mem hitem
        simpa using hnone (item, index) (mem_zipIdx_iff_getElem?.mpr hindex)
      · intro hnone entry hentry
        simp [hnone entry.1 (fst_mem_of_mem_zipIdx hentry)]
    simp [hlast, hfilter]
  · have hbounded : ∀ index ∈ (front.zipIdx.filter fun entry => marked entry.1).map Prod.snd,
        index < front.length := by
      intro index hindex
      obtain ⟨entry, hentry, rfl⟩ := mem_map.mp hindex
      have hmember := mem_zipIdx_iff_getElem?.mp (mem_filter.mp hentry).1
      exact (List.getElem?_eq_some_iff.mp hmember).1
    simp only [hlast, Bool.false_eq_true, false_and, iff_false]
    intro hall
    have hmember := hbounded front.length (by
      have hnone : ([last].zipIdx (0 + front.length)).filter (fun entry => marked entry.1) = [] := by
        simp [hlast]
      rw [hnone, map_nil, append_nil] at hall
      rw [hall]
      simp)
    omega

theorem split_zipIdx {front back : List (CapturedSection × Nat)}
    {entry : CapturedSection × Nat} (h : cells.zipIdx = front ++ entry :: back) :
    cells = front.map Prod.fst ++ entry.1 :: back.map Prod.fst ∧ entry.2 = front.length := by
  have hcells := congrArg (List.map Prod.fst) h
  rw [List.zipIdx_map_fst] at hcells
  have hentry : cells.zipIdx[front.length]? = some entry := by simp [h]
  refine ⟨by simpa using hcells, ?_⟩
  rw [List.getElem?_zipIdx] at hentry
  obtain ⟨cell, -, hpair⟩ := Option.map_eq_some_iff.mp hentry
  simp [← hpair]

theorem rungLine_of_elements {row : RowState}
    {grid : GridLine} (hseries : ∀ cell ∈ cells, SeriesCell cell)
    (haligned : Aligned line start cells row grid) {front : List RowElement} {last : RowElement}
    (helements : row.elements = front ++ [last]) (hlast : last.cell.tag = .coil)
    (hfront : ∀ element ∈ front, element.cell.tag ≠ .coil) :
    ∃ before after, RungLine cells before last.cell after ∧ last.place = ⟨line, before.length⟩ := by
  have hmap := haligned.elements
  rw [helements, map_append] at hmap
  obtain ⟨contacts, coils, hfilter, hcontacts, hcoils⟩ := map_eq_append_iff.mp hmap.symm
  obtain ⟨entry, hentry, hpair⟩ := map_eq_singleton_iff.mp hcoils
  rw [hentry] at hfilter
  have hcell : entry.1 = last.cell := congrArg Prod.fst hpair
  have hplace : (⟨line, entry.2⟩ : CellPlace) = last.place := congrArg Prod.snd hpair
  obtain ⟨first, second, hsegment, hfirst, hsecond⟩ := filter_eq_append_iff.mp hfilter
  obtain ⟨middle, after, hmiddle, hnone, -, hafter⟩ := filter_eq_cons_iff.mp hsecond
  obtain ⟨gap, hgap⟩ := openSegment_suffix cells
  have hzip : cells.zipIdx = (gap ++ first ++ middle) ++ entry :: after := by
    rw [← hgap, hsegment, hmiddle]
    simp
  obtain ⟨hsplit, hindex⟩ := split_zipIdx hzip
  refine ⟨(gap ++ first ++ middle).map Prod.fst, after.map Prod.fst, ?_, ?_⟩
  · refine ⟨hseries, hcell ▸ hsplit, hlast, ?_, contacts, ?_, ?_⟩
    · intro cell hcell
      obtain ⟨other, hother, rfl⟩ := mem_map.mp hcell
      simpa using filter_eq_nil_iff.mp hafter other hother
    · intro other hother
      have hinstruction : isInstruction other.1 = true := by
        have hmember : other ∈ (openSegment cells).filter fun entry => isInstruction entry.1 :=
          hfilter ▸ mem_append_left _ hother
        exact (mem_filter.mp hmember).2
      have hmember := mem_map_of_mem (f := fun entry : CapturedSection × Nat =>
        (entry.1, (⟨line, entry.2⟩ : CellPlace))) hother
      rw [hcontacts] at hmember
      obtain ⟨element, helement, hsame⟩ := mem_map.mp hmember
      have hnever := hfront element helement
      have hcellSame : element.cell = other.1 := congrArg Prod.fst hsame
      rw [hcellSame] at hnever
      simpa [isInstruction, hnever] using hinstruction
    · rw [hfilter, length_map, ← hindex, ← hcell]
  · rw [← hplace, hindex, length_map]

theorem elements_of_rungLine {before after : List CapturedSection}
    {coil : CapturedSection} {row : RowState} {grid : GridLine}
    (haligned : Aligned line start cells row grid) (h : RungLine cells before coil after) :
    ∃ front last, row.elements = front ++ [last] ∧ last.cell = coil ∧
      last.place = ⟨line, before.length⟩ ∧ ∀ element ∈ front, element.cell.tag ≠ .coil := by
  obtain ⟨contacts, hcontacts, hfilter⟩ := h.alone
  have hmap := haligned.elements
  rw [hfilter, map_append] at hmap
  obtain ⟨front, lasts, helements, hfront, hlasts⟩ := map_eq_append_iff.mp hmap
  obtain ⟨last, hlast, hpair⟩ := map_eq_singleton_iff.mp hlasts
  refine ⟨front, last, by rw [helements, hlast], congrArg Prod.fst hpair, congrArg Prod.snd hpair, ?_⟩
  intro element helement
  have hmember := mem_map_of_mem (f := fun element : RowElement =>
    (element.cell, element.place)) helement
  rw [hfront] at hmember
  obtain ⟨entry, hentry, hsame⟩ := mem_map.mp hmember
  have htag := hcontacts entry hentry
  have hcell : entry.1 = element.cell := congrArg Prod.fst hsame
  rw [← hcell, htag]
  simp

/-! ## The rung of a row -/

theorem rowRung_some {origins : Dictionary (Nat × Nat) (Text × Text × Text)} {row : Nat}
    {line : CapturedSection} {state : RowState} {rung : LadderRung}
    (h : (rowRung db origins row line state).1 = some rung) :
    state.resolvable = true ∧ (∃ front last, state.elements = front ++ [last] ∧
      last.cell.tag = .coil ∧ ∀ element ∈ front, element.cell.tag ≠ .coil) ∧
    ∃ leading, rung.network =
        leading ++ state.elements.map (fun element => (elementInstruction db row element).1) ∧
      ∀ instruction ∈ leading, instruction.operation = .BLOCK_OUTPUT_REFERENCE := by
  unfold rowRung at h
  by_cases hresolvable : state.resolvable = true
  · by_cases helements : state.elements = []
    · simp [hresolvable, helements] at h
    · have hfilled : state.elements.isEmpty = false := by simpa using helements
      simp only [hresolvable, Bool.not_true, Bool.false_eq_true, if_false, hfilled] at h
      split at h
      · cases h
      · split at h
        · cases h
        · rename_i hlast
          rw [not_not] at hlast
          obtain ⟨front, last, hsplit, hcoil, hfront⟩ := (@marked_last _
            (fun element : RowElement => decide (element.cell.tag = .coil)) _ helements).mp hlast
          refine ⟨hresolvable, ⟨front, last, hsplit, by simpa using hcoil, ?_⟩, ?_⟩
          · intro element helement
            simpa using hfront element helement
          · cases h
            refine ⟨_, congrArg _ (map_map ..), ?_⟩
            intro instruction hinstruction
            split at hinstruction
            · unfold blockOutputInstruction at hinstruction
              split at hinstruction
              · cases hinstruction
              · rw [mem_singleton.mp hinstruction]
            · cases hinstruction
  · simp [hresolvable] at h

theorem rowRung_exists {origins : Dictionary (Nat × Nat) (Text × Text × Text)} {row : Nat}
    {line : CapturedSection} {state : RowState} (hresolvable : state.resolvable = true)
    {front : List RowElement} {last : RowElement} (helements : state.elements = front ++ [last])
    (hlast : last.cell.tag = .coil) (hfront : ∀ element ∈ front, element.cell.tag ≠ .coil) :
    ∃ rung, (rowRung db origins row line state).1 = some rung := by
  have hne : state.elements ≠ [] := by simp [helements]
  have hcoils := (@marked_last _ (fun element : RowElement =>
    decide (element.cell.tag = .coil)) _ hne).mpr
      ⟨front, last, helements, by simpa using hlast, fun element helement => by
        simpa using hfront element helement⟩
  have hfilled : state.elements.isEmpty = false := by simpa using hne
  unfold rowRung
  simp only [hresolvable, Bool.not_true, Bool.false_eq_true, if_false, hfilled, hcoils]
  simp

end

end TwinForge.ControlExpert
