import TwinForge.ControlExpert.LadderAgreement

/-! # Places of contacts and coils in a network

Over a whole network the readers count rows alike, and objects apart only by those that
stand where the layout does not look.
-/

namespace TwinForge.ControlExpert

open Model List

section

variable (db : CharacterDatabase)

/-! ## Lines of a network -/

def gridState (lines : List CapturedSection) : GridState := lines.zipIdx.foldl placeLine {}

def rungState (origins : Dictionary (Nat × Nat) (Text × Text × Text))
    (lines : List CapturedSection) : RungState :=
  lines.zipIdx.foldl (readLine db origins) {}

@[simp] theorem gridState_append (lines : List CapturedSection) (line : CapturedSection) :
    gridState (lines ++ [line]) = placeLine (gridState lines) (line, lines.length) := by
  simp [gridState, List.zipIdx_append]

variable {origins : Dictionary (Nat × Nat) (Text × Text × Text)}

@[simp] theorem rungState_append (lines : List CapturedSection) (line : CapturedSection) :
    rungState db origins (lines ++ [line]) =
      readLine db origins (rungState db origins lines) (line, lines.length) := by
  simp [rungState, List.zipIdx_append]

/-- A line that takes a grid row. -/
def IsRow (line : CapturedSection) : Prop := line.tag = .typeLine ∧ emptyLineOf line = none

variable {line : CapturedSection}

theorem placeLine_row (state : GridState) (index : Nat)
    (h : IsRow line) : placeLine state (line, index) =
      { rows := state.rows ++ [{ row := state.row
                                 cells := (gridLine index state.objectIndex
                                   line.orderedChildren).cells }]
        row := state.row + 1
        objectIndex := (gridLine index state.objectIndex line.orderedChildren).objectIndex } := by
  simp [placeLine, h.1, h.2, gridLine]

theorem placeLine_other (state : GridState) (index : Nat)
    (h : ¬ IsRow line) : (placeLine state (line, index)).rows = state.rows := by
  cases htag : line.tag with
  | typeLine =>
    cases hempty : emptyLineOf line with
    | none => exact absurd ⟨htag, hempty⟩ h
    | some emptyLine => simp [placeLine, htag, hempty]
  | _ => simp [placeLine, htag]

theorem readLine_row (state : RungState) (index : Nat)
    (h : IsRow line) : (readLine db origins state (line, index)).rungs =
      state.rungs ++ (rowRung db origins state.row line
        (readRow db index line.orderedChildren)).1.toList := by
  simp [readLine, h.1, h.2]

theorem readLine_other (state : RungState) (index : Nat)
    (h : ¬ IsRow line) : (readLine db origins state (line, index)).rungs = state.rungs := by
  cases htag : line.tag with
  | typeLine =>
    cases hempty : emptyLineOf line with
    | none => exact absurd ⟨htag, hempty⟩ h
    | some emptyLine =>
      cases hskipped : skippedRows emptyLine <;> simp [readLine, htag, hempty, hskipped]
  | _ => simp [readLine, htag]

theorem rows_agree (lines : List CapturedSection) :
    (rungState db origins lines).row = (gridState lines).row := by
  induction lines using reverseRecOn with
  | nil => rfl
  | append_singleton lines line ih =>
    rw [rungState_append, gridState_append]
    cases htag : line.tag with
    | typeLine =>
      cases hempty : emptyLineOf line with
      | none => simp [readLine, placeLine, htag, hempty, ih]
      | some emptyLine =>
        cases hskipped : skippedRows emptyLine <;>
          simp [readLine, placeLine, htag, hempty, hskipped, ih]
    | _ => simp [readLine, placeLine, htag, ih]

theorem emptyLineOf_some {emptyLine : CapturedSection} (h : emptyLineOf line = some emptyLine) :
    line.orderedChildren = [emptyLine] ∧ emptyLine.tag = .emptyLine := by
  unfold emptyLineOf at h
  split at h
  · rename_i child hchildren
    by_cases htag : child.tag = .emptyLine
    · rw [if_pos htag, Option.some.injEq] at h
      exact ⟨by rw [hchildren, h], h ▸ htag⟩
    · simp [htag] at h
  · cases h

theorem placeLine_objects (state : GridState) (line : CapturedSection) (index : Nat) :
    (placeLine state (line, index)).objectIndex + hiddenObjects line =
      state.objectIndex + countObjects line := by
  by_cases htext : line.tag = .textBox
  · have hone : countObjects line = 1 := by
      rw [countObjects_leaf (by simp [htext]) (by simp [htext]), htext]
      rfl
    simp [placeLine, hiddenObjects, htext, hone]
  · by_cases htype : line.tag = .typeLine
    · have hhidden : hiddenObjects line = (line.orderedChildren.map hiddenInCell).sum := by
        simp [hiddenObjects, htype]
      rw [hhidden, countObjects_typeLine htype]
      by_cases hrow : IsRow line
      · rw [placeLine_row state index hrow]
        exact gridLine_objects index state.objectIndex line.orderedChildren
      · cases hempty : emptyLineOf line with
        | none => exact absurd ⟨htype, hempty⟩ hrow
        | some emptyLine =>
          obtain ⟨hchildren, htag⟩ := emptyLineOf_some hempty
          have hzero : countObjects emptyLine = 0 := by
            rw [countObjects_leaf (by simp [htag]) (by simp [htag]), htag]
            rfl
          simp [placeLine, htype, hempty, hchildren, hiddenInCell, htag, countObjectsIn, hzero]
    · have hhidden : hiddenObjects line = countObjects line := by
        simp [hiddenObjects, htext, htype]
      have hsame : (placeLine state (line, index)).objectIndex = state.objectIndex := by
        cases htag : line.tag <;> simp_all [placeLine]
      rw [hhidden, hsame]

theorem gridState_objects (lines : List CapturedSection) :
    (gridState lines).objectIndex + (lines.map hiddenObjects).sum = countObjectsIn lines := by
  induction lines using reverseRecOn with
  | nil => rfl
  | append_singleton lines line ih =>
    have hline := placeLine_objects (gridState lines) line lines.length
    rw [gridState_append, map_append, sum_append, countObjectsIn_append, countObjectsIn,
      countObjectsIn]
    simp only [map_cons, map_nil, sum_cons, sum_nil]
    omega

/-! ## Cells and rungs of a network -/

def gridCells (rows : List LadderGridRow) : List (Nat × LadderGridCell) :=
  rows.flatMap fun row => row.cells.map fun cell => (row.row, cell)

theorem exists_append {A : Type} {Holds : List A → Nat → A → Prop} {items : List A} {last : A} :
    (∃ index item, (items ++ [last])[index]? = some item ∧
      Holds ((items ++ [last]).take index) index item) ↔
      (∃ index item, items[index]? = some item ∧ Holds (items.take index) index item) ∨
        Holds items items.length last := by
  constructor
  · rintro ⟨index, item, hitem, hholds⟩
    by_cases hindex : index < items.length
    · rw [List.getElem?_append_left hindex] at hitem
      rw [take_append_of_le_length (by omega)] at hholds
      exact .inl ⟨index, item, hitem, hholds⟩
    · have hbound := (List.getElem?_eq_some_iff.mp hitem).1
      have hlength : index = items.length := by
        rw [length_append, length_singleton] at hbound
        omega
      subst hlength
      have hlast : last = item := by simpa using hitem
      rw [take_left] at hholds
      exact .inr (hlast ▸ hholds)
  · rintro (⟨index, item, hitem, hholds⟩ | hholds)
    · have hbound := (List.getElem?_eq_some_iff.mp hitem).1
      refine ⟨index, item, ?_, ?_⟩
      · rw [List.getElem?_append_left hbound]
        exact hitem
      · rw [take_append_of_le_length (by omega)]
        exact hholds
    · exact ⟨items.length, last, by simp, by simpa using hholds⟩

variable {lines : List CapturedSection}

theorem mem_gridCells {entry : Nat × LadderGridCell} :
    entry ∈ gridCells (gridState lines).rows ↔ ∃ index line, lines[index]? = some line ∧
      IsRow line ∧ entry.1 = (gridState (lines.take index)).row ∧
      entry.2 ∈ (gridLine index (gridState (lines.take index)).objectIndex
        line.orderedChildren).cells := by
  induction lines using reverseRecOn with
  | nil => simp [gridState, gridCells]
  | append_singleton lines line ih =>
    rw [@exists_append _ (fun before index line => IsRow line ∧
      entry.1 = (gridState before).row ∧
        entry.2 ∈ (gridLine index (gridState before).objectIndex line.orderedChildren).cells) _ _,
      ← ih, gridState_append]
    by_cases hrow : IsRow line
    · rw [placeLine_row _ _ hrow]
      simp only [gridCells, flatMap_append, mem_append, flatMap_singleton,
        mem_map, hrow, true_and]
      refine or_congr_right ?_
      constructor
      · rintro ⟨cell, hcell, rfl⟩
        exact ⟨rfl, hcell⟩
      · rintro ⟨hsame, hcell⟩
        exact ⟨entry.2, hcell, by rw [← hsame]⟩
    · rw [placeLine_other _ _ hrow]
      simp [hrow]

theorem mem_rungs {rung : LadderRung} :
    rung ∈ (rungState db origins lines).rungs ↔ ∃ index line, lines[index]? = some line ∧
      IsRow line ∧ (rowRung db origins (rungState db origins (lines.take index)).row line
        (readRow db index line.orderedChildren)).1 = some rung := by
  induction lines using reverseRecOn with
  | nil => simp [rungState]
  | append_singleton lines line ih =>
    rw [@exists_append _ (fun before index line => IsRow line ∧
      (rowRung db origins (rungState db origins before).row line
        (readRow db index line.orderedChildren)).1 = some rung) _ _, ← ih, rungState_append]
    by_cases hrow : IsRow line
    · rw [readLine_row db _ _ hrow]
      simp [hrow]
    · rw [readLine_other db _ _ hrow]
      simp [hrow]

/-! ## One place each -/

theorem placeCell_cells (line index : Nat) (state : GridLine) (cell : CapturedSection) :
    (placeCell line state (cell, index)).cells = state.cells ∨ ∃ shown : LadderGridCell,
      shown.origin = ⟨line, index⟩ ∧
        (placeCell line state (cell, index)).cells = state.cells ++ [shown] := by
  cases htag : cell.tag with
  | shortCircuit =>
    right
    simp only [placeCell, htag, placeShortCircuit]
    split
    · split
      · exact ⟨_, rfl, rfl⟩
      · split <;> exact ⟨_, rfl, rfl⟩
    · exact ⟨_, rfl, rfl⟩
  | hLink | vLink | contact | coil | ffbBlock =>
    exact .inr ⟨_, rfl, by simp only [placeCell, htag]; rfl⟩
  | _ => exact .inl (by simp [placeCell, htag])

theorem gridLine_origins (line start : Nat) (cells : List CapturedSection) :
    (∀ shown ∈ (gridLine line start cells).cells, shown.origin.line = line ∧
      shown.origin.cell < cells.length) ∧
    ((gridLine line start cells).cells.map LadderGridCell.origin).Nodup := by
  induction cells using reverseRecOn with
  | nil => simp [gridLine]
  | append_singleton cells cell ih =>
    obtain ⟨hplaces, hnodup⟩ := ih
    rw [gridLine_append, length_append, length_singleton]
    have hearlier : ∀ shown ∈ (gridLine line start cells).cells, shown.origin.line = line ∧
        shown.origin.cell < cells.length + 1 := by
      intro shown hshown
      have hplace := hplaces shown hshown
      exact ⟨hplace.1, by omega⟩
    rcases placeCell_cells line cells.length (gridLine line start cells) cell with
      hsame | ⟨shown, horigin, hmore⟩
    · rw [hsame]
      exact ⟨hearlier, hnodup⟩
    · rw [hmore]
      constructor
      · intro other hother
        rcases mem_append.mp hother with hother | hother
        · exact hearlier other hother
        · rw [mem_singleton.mp hother, horigin]
          exact ⟨rfl, Nat.lt_succ_self _⟩
      · rw [map_append, nodup_append]
        refine ⟨hnodup, by simp, ?_⟩
        intro first hfirst second hsecond
        obtain ⟨other, hother, rfl⟩ := mem_map.mp hfirst
        have hplace := (hplaces other hother).2
        simp only [map_cons, map_nil, mem_singleton] at hsecond
        rw [hsecond, horigin]
        intro hequal
        rw [hequal] at hplace
        exact absurd hplace (by simp)

theorem gridCells_unique {first second : Nat × LadderGridCell}
    (hfirst : first ∈ gridCells (gridState lines).rows)
    (hsecond : second ∈ gridCells (gridState lines).rows)
    (h : first.2.origin = second.2.origin) : first = second := by
  obtain ⟨index, line, hline, -, hrow, hcell⟩ := mem_gridCells.mp hfirst
  obtain ⟨other, otherLine, hotherLine, -, hotherRow, hotherCell⟩ := mem_gridCells.mp hsecond
  have hplace := ((gridLine_origins _ _ _).1 _ hcell).1
  have hotherPlace := ((gridLine_origins _ _ _).1 _ hotherCell).1
  have hindex : index = other := by rw [← hplace, ← hotherPlace, h]
  subst hindex
  rw [hline] at hotherLine
  cases hotherLine
  have hsame : first.2 = second.2 :=
    inj_on_of_nodup_map (gridLine_origins _ _ _).2 hcell hotherCell h
  exact Prod.ext (hrow.trans hotherRow.symm) hsame

/-! ## Agreement -/

def cellAt (network : CapturedSection) (place : CellPlace) : Option CapturedSection := do
  let line ← network.orderedChildren[place.line]?
  line.orderedChildren[place.cell]?

/-- The index of a cell among the objects of the network, counted in pre-order. -/
def objectNumber (network : CapturedSection) (place : CellPlace) : Nat :=
  countObjectsIn (network.orderedChildren.take place.line) +
    countObjectsIn ((((network.orderedChildren[place.line]?).map
      CapturedSection.orderedChildren).getD []).take place.cell)

/-- An instruction stands where the layout places the contact or coil it was read from, and
the layout gives that cell its index among the objects. -/
def PlacedAlike (network : CapturedSection) (instruction : PlacedLadderInstruction) : Prop :=
  ∃ place cell shown, instruction.origin = some place ∧ cellAt network place = some cell ∧
    isInstruction cell = true ∧
    (instruction.position.row, shown) ∈ gridCells (computeLdGrid network) ∧
    shown.origin = place ∧ shown.column = instruction.position.column ∧
    shown.objectIndex = some (objectNumber network place) ∧
    ∀ entry ∈ gridCells (computeLdGrid network), entry.2.origin = place →
      entry = (instruction.position.row, shown)

/-- Before the coil of a rung no link lacks its count, and before its line nothing stands
that the layout does not count. -/
def RungsClear (network : CapturedSection) : Prop :=
  ∀ index line before coil after, network.orderedChildren[index]? = some line →
    line.tag = .typeLine → RungLine line.orderedChildren before coil after →
      (∀ cell ∈ before, isBareLink cell = false) ∧
        ∀ other ∈ network.orderedChildren.take index, hiddenObjects other = 0

theorem elementInstruction_fields (row : Nat) (element : RowElement) :
    (elementInstruction db row element).1.origin = some element.place ∧
      (elementInstruction db row element).1.position = ⟨element.column, row⟩ ∧
      (elementInstruction db row element).1.operation ≠ .BLOCK_OUTPUT_REFERENCE := by
  have hcontact : ∀ mnemonic operation, contactOperation mnemonic = some operation →
      operation ≠ .BLOCK_OUTPUT_REFERENCE := by
    intro mnemonic operation h
    unfold contactOperation at h
    split_ifs at h <;> cases h <;> simp
  have hcoil : ∀ mnemonic operation, coilOperation mnemonic = some operation →
      operation ≠ .BLOCK_OUTPUT_REFERENCE := by
    intro mnemonic operation h
    unfold coilOperation at h
    split_ifs at h <;> cases h <;> simp
  unfold elementInstruction
  by_cases htag : element.cell.tag = .contact
  · simp only [htag, if_true]
    split
    · rename_i operation hoperation
      exact ⟨rfl, rfl, hoperation ▸ hcontact _ operation hoperation⟩
    · rename_i hnone
      exact ⟨rfl, rfl, by simp [hnone]⟩
  · simp only [htag, if_false]
    split
    · rename_i operation hoperation
      exact ⟨rfl, rfl, hoperation ▸ hcoil _ operation hoperation⟩
    · rename_i hnone
      exact ⟨rfl, rfl, by simp [hnone]⟩

theorem element_instruction {line start : Nat} {cells : List CapturedSection} {row : RowState}
    {grid : GridLine} (h : Aligned line start cells row grid) {element : RowElement}
    (helement : element ∈ row.elements) : isInstruction element.cell = true := by
  have hmember := mem_map_of_mem (f := fun element : RowElement =>
    (element.cell, element.place)) helement
  rw [h.elements] at hmember
  obtain ⟨entry, hentry, hpair⟩ := mem_map.mp hmember
  have hsame : entry.1 = element.cell := congrArg Prod.fst hpair
  exact hsame ▸ (mem_filter.mp hentry).2

/-- An element is placed alike exactly where no link before it lacks its count and no line
before its own hides an object. -/
theorem element_placedAlike {network : CapturedSection} {index : Nat}
    (hline : network.orderedChildren[index]? = some line) (hrow : IsRow line)
    (hseries : ∀ cell ∈ line.orderedChildren, SeriesCell cell) {element : RowElement}
    (helement : element ∈ (readRow db index line.orderedChildren).elements) :
    PlacedAlike network (elementInstruction db
        (gridState (network.orderedChildren.take index)).row element).1 ↔
      bareLinks (line.orderedChildren.take element.place.cell) = 0 ∧
        ((network.orderedChildren.take index).map hiddenObjects).sum = 0 := by
  have haligned := series_aligned db index
    (gridState (network.orderedChildren.take index)).objectIndex hseries
  obtain ⟨hplace, hcell, shown, hshown, hshows⟩ := haligned.shown element helement
  obtain ⟨horigin, hposition, -⟩ := elementInstruction_fields db
    (gridState (network.orderedChildren.take index)).row element
  have hentry : ((gridState (network.orderedChildren.take index)).row, shown) ∈
      gridCells (computeLdGrid network) :=
    mem_gridCells.mpr ⟨index, line, hline, hrow, rfl, hshown⟩
  have hobjects := gridState_objects (network.orderedChildren.take index)
  have hnumber : objectNumber network element.place =
      countObjectsIn (network.orderedChildren.take index) +
        countObjectsIn (line.orderedChildren.take element.place.cell) := by
    simp [objectNumber, hplace, hline]
  constructor
  · rintro ⟨place, cell, other, hother, -, -, hmember, hsame, hcolumn, hindex, -⟩
    rw [horigin, Option.some.injEq] at hother
    have hequal := gridCells_unique hmember hentry (by rw [hsame, ← hother, hshows.1])
    have hcells : other = shown := congrArg Prod.snd hequal
    rw [hcells, hposition] at hcolumn
    rw [hcells, hshows.2.2, ← hother, hnumber, Option.some.injEq] at hindex
    have hcolumns := hshows.2.1
    simp only at hcolumn
    omega
  · rintro ⟨hbare, hhidden⟩
    refine ⟨element.place, element.cell, shown, horigin, ?_,
      element_instruction haligned helement, ?_, hshows.1, ?_, ?_, ?_⟩
    · simp [cellAt, hplace, hline, hcell]
    · rw [hposition]
      exact hentry
    · rw [hposition, hshows.2.1, hbare]
      rfl
    · rw [hshows.2.2, hnumber, Option.some.injEq]
      omega
    · intro entry hmember hsame
      rw [hposition]
      exact gridCells_unique hmember hentry (hsame.trans hshows.1.symm)

theorem rungLine_isRow {before after : List CapturedSection}
    {coil : CapturedSection} (htag : line.tag = .typeLine)
    (h : RungLine line.orderedChildren before coil after) : IsRow line := by
  refine ⟨htag, ?_⟩
  cases hempty : emptyLineOf line with
  | none => rfl
  | some emptyLine =>
    obtain ⟨hchildren, hemptyTag⟩ := emptyLineOf_some hempty
    have hcell := h.series emptyLine (by simp [hchildren])
    rcases hcell with hcell | ⟨hcell | hcell, -⟩ <;> simp [isInstruction, hemptyTag] at hcell

/-- The readers of a ladder grid agree on a network exactly where its rungs are clear. -/
theorem grid_readers_agree (network : CapturedSection) :
    (∀ rung ∈ (networkRungs db network).rungs, ∀ instruction ∈ rung.network,
      instruction.operation ≠ .BLOCK_OUTPUT_REFERENCE → PlacedAlike network instruction) ↔
      RungsClear network := by
  have hsum : ∀ lines : List CapturedSection, (lines.map hiddenObjects).sum = 0 ↔
      ∀ other ∈ lines, hiddenObjects other = 0 := by
    intro lines
    induction lines with
    | nil => simp
    | cons line lines ih => simp [ih]
  constructor
  · intro hagree index line before coil after hline htag hrung
    have hrow := rungLine_isRow htag hrung
    have haligned := series_aligned db index
      (gridState (network.orderedChildren.take index)).objectIndex hrung.series
    obtain ⟨front, last, helements, hcell, hplace, hfront⟩ := elements_of_rungLine haligned hrung
    obtain ⟨rung, hsome⟩ := @rowRung_exists db (blockOutputOrigins network)
      (gridState (network.orderedChildren.take index)).row line _ haligned.resolvable _ _ helements (hcell ▸ hrung.isCoil) hfront
    have hmember : rung ∈ (networkRungs db network).rungs :=
      (mem_rungs db).mpr ⟨index, line, hline, hrow, by rw [rows_agree]; exact hsome⟩
    obtain ⟨-, -, leading, hnetwork, -⟩ := rowRung_some db hsome
    have hlast : last ∈ (readRow db index line.orderedChildren).elements := by
      rw [helements]
      simp
    have hplaced := hagree rung hmember _ (by
      rw [hnetwork]
      exact mem_append_right _ (mem_map_of_mem hlast))
      (elementInstruction_fields db _ last).2.2
    obtain ⟨hbare, hhidden⟩ :=
      (element_placedAlike db hline hrow hrung.series hlast).mp hplaced
    rw [hplace, hrung.split, take_left] at hbare
    refine ⟨?_, (hsum _).mp hhidden⟩
    intro cell hcell
    simpa [bareLinks, countP_eq_zero] using countP_eq_zero.mp hbare cell hcell
  · intro hclear rung hmember instruction hinstruction hblock
    obtain ⟨index, line, hline, hrow, hsome⟩ := (mem_rungs db).mp hmember
    rw [rows_agree] at hsome
    obtain ⟨hresolvable, ⟨front, last, helements, hcoil, hfront⟩, leading, hnetwork, hleading⟩ :=
      rowRung_some db hsome
    have hseries := resolvable_series db hresolvable
    have haligned := series_aligned db index
      (gridState (network.orderedChildren.take index)).objectIndex hseries
    obtain ⟨before, after, hrung, hplace⟩ :=
      rungLine_of_elements hseries haligned helements hcoil hfront
    obtain ⟨hlinks, hhidden⟩ := hclear index line before last.cell after hline hrow.1 hrung
    rw [hnetwork, mem_append] at hinstruction
    rcases hinstruction with hinstruction | hinstruction
    · exact absurd (hleading instruction hinstruction) hblock
    · obtain ⟨element, helement, rfl⟩ := mem_map.mp hinstruction
      refine (element_placedAlike db hline hrow hseries helement).mpr ⟨?_, (hsum _).mpr hhidden⟩
      have hcell := (haligned.shown element helement).2.1
      have hbound : element.place.cell ≤ before.length := by
        by_contra hpast
        rw [hrung.split, List.getElem?_append_right (by omega)] at hcell
        obtain ⟨offset, hoffset⟩ : ∃ offset, element.place.cell - before.length = offset + 1 :=
          ⟨element.place.cell - before.length - 1, by omega⟩
        rw [hoffset, List.getElem?_cons_succ] at hcell
        have hnone := hrung.last _ (mem_of_getElem? hcell)
        rw [element_instruction haligned helement] at hnone
        cases hnone
      rw [hrung.split, take_append_of_le_length hbound, bareLinks, countP_eq_zero]
      intro cell hcell
      simp [hlinks cell (mem_of_mem_take hcell)]

end

/-- One row: a link without a count, and a coil. -/
def bareRow : CapturedSection :=
  .mk .networkLD "" {}
    [.mk .typeLine "" {}
      [.mk .hLink "" {} [],
        .mk .coil "" { entries := [("typeCoil", "coil"), ("coilVariableName", "M")]
                       nodup := by decide } []]]

theorem bareRow_drifts :
    ¬ ∀ rung ∈ (networkRungs Ascii.database bareRow).rungs, ∀ instruction ∈ rung.network,
      instruction.operation ≠ .BLOCK_OUTPUT_REFERENCE → PlacedAlike bareRow instruction := by
  intro hagree
  have hrungs : ((networkRungs Ascii.database bareRow).rungs.flatMap LadderRung.network) =
      [{ operation := .COIL, sourceMnemonic := "coil", operand := some (Text.of "M")
         position := ⟨0, 0⟩, origin := some ⟨0, 1⟩ }] := by decide +kernel
  have hcells : (gridCells (computeLdGrid bareRow)).map
      (fun entry => (entry.2.origin, entry.2.column)) = [(⟨0, 0⟩, 0), (⟨0, 1⟩, 1)] := by
    decide +kernel
  have hinstruction := hrungs ▸ mem_singleton_self _
  obtain ⟨rung, hrung, hmember⟩ := mem_flatMap.mp hinstruction
  obtain ⟨place, cell, shown, horigin, -, -, hentry, hplace, hcolumn, -⟩ :=
    hagree rung hrung _ hmember (by simp)
  have hpair := mem_map_of_mem (f := fun entry : Nat × LadderGridCell =>
    (entry.2.origin, entry.2.column)) hentry
  rw [hcells, hcolumn, hplace, ← Option.some.inj horigin] at hpair
  simp at hpair

end TwinForge.ControlExpert
