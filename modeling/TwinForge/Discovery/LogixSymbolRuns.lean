import TwinForge.Discovery.LogixSymbolCapture

/-! # Enumeration of a controller's symbols

A controller answers page requests from its tables. The path of a request is a class and an
instance, so every page is a page of the controller's own table, and a capture gives each
program the controller's symbols.
-/

namespace TwinForge.Discovery

open Guards List

variable {db : CharacterDatabase}

/-! ## Controllers -/

structure SymbolTable (db : CharacterDatabase) where
  symbols : List (LogixSymbol db) := []
  increasing : symbols.Pairwise fun first second => first.instanceId < second.instanceId := by
    simp

def announcedPrograms (symbols : List (LogixSymbol db)) : List Text :=
  symbols.filterMap fun symbol => announcedProgram symbol.name

structure LogixProgram (db : CharacterDatabase) where
  name : Text
  table : SymbolTable db

/-- A table of the controller and one of each program that it announces. -/
structure LogixController (db : CharacterDatabase) where
  table : SymbolTable db
  programs : List (LogixProgram db)
  distinct : (programs.map LogixProgram.name).Nodup
  announced : (announcedPrograms table.symbols).Perm (programs.map LogixProgram.name)

def SymbolTable.due (table : SymbolTable db) (start : Nat) : List (LogixSymbol db) :=
  table.symbols.filter fun symbol => start ≤ symbol.instanceId

def SymbolTable.page (table : SymbolTable db) (start size : Nat) : List (LogixSymbol db) :=
  (table.due start).take (size + 1)

def SymbolTable.pageStatus (table : SymbolTable db) (start size : Nat) : Nat :=
  if (table.page start size).length < (table.due start).length then statusPartialTransfer
  else statusSuccess

def attributesAsked : List UInt8 → List Nat
  | first :: second :: rest => (first.toNat + 256 * second.toNat) :: attributesAsked rest
  | _ => []

/-- The program whose table a message asks for: the path of a message names none. -/
def GenericMessage.program (_message : GenericMessage) : Option Text := none

def LogixController.tableOf (controller : LogixController db) : Option Text → SymbolTable db
  | none => controller.table
  | some name =>
    ((controller.programs.find? fun program => program.name = name).map
      LogixProgram.table).getD {}

/-- A controller's answers; `sizing` says how many symbols fit on the page of a request. -/
def LogixController.wire (controller : LogixController db) (sizing : Nat → Nat) (request : Nat)
    (message : GenericMessage) : DriverResult :=
  let table := controller.tableOf message.program
  let external := decide (externalAccessAttribute ∈ attributesAsked (message.requestData.drop 2))
  .packet
    ((table.page message.startInstance (sizing request)).flatMap fun symbol =>
      symbol.bytes external)
    (table.pageStatus message.startInstance (sizing request))

/-! ## Pages -/

/-- The instance a partial page is continued from. -/
def SymbolTable.continuation (table : SymbolTable db) (start size : Nat) : Option Nat :=
  if (table.page start size).length < (table.due start).length then
    (table.page start size).getLast?.map fun last => last.instanceId + 1
  else none

theorem due_page (table : SymbolTable db) (start size : Nat) :
    table.due start = table.page start size ++ (table.due start).drop (size + 1) :=
  (take_append_drop (size + 1) (table.due start)).symm

variable {table : SymbolTable db} {start size : Nat}

theorem page_last
    (h : table.continuation start size = none) : table.page start size = table.due start := by
  unfold SymbolTable.continuation at h
  by_cases hshort : (table.page start size).length < (table.due start).length
  · rw [if_pos hshort, Option.map_eq_none_iff, List.getLast?_eq_none_iff] at h
    rw [SymbolTable.page, take_eq_nil_iff] at h
    have hdue := h.resolve_left (by omega)
    rw [SymbolTable.page, hdue]
    rfl
  · refine take_of_length_le ?_
    rw [SymbolTable.page, length_take] at hshort
    omega

theorem page_continued {next : Nat} (h : table.continuation start size = some next) :
    start < next ∧ table.page start size ≠ [] ∧
      table.due start = table.page start size ++ table.due next := by
  unfold SymbolTable.continuation at h
  split at h
  · obtain ⟨last, hlast, rfl⟩ := Option.map_eq_some_iff.mp h
    have hmember : last ∈ table.page start size := mem_of_getLast? hlast
    have hdue : last ∈ table.due start := mem_of_mem_take hmember
    have hstart : start ≤ last.instanceId := by
      simpa using (mem_filter.mp hdue).2
    have hincreasing : (table.due start).Pairwise fun first second =>
        first.instanceId < second.instanceId := table.increasing.filter _
    rw [due_page table start size, pairwise_append] at hincreasing
    obtain ⟨hpage, -, hlater⟩ := hincreasing
    obtain ⟨front, hfront⟩ := List.getLast?_eq_some_iff.mp hlast
    have hbefore : ∀ symbol ∈ table.page start size, symbol.instanceId ≤ last.instanceId := by
      intro symbol hsymbol
      rw [hfront, pairwise_append] at hpage
      rw [hfront, mem_append, mem_singleton] at hsymbol
      rcases hsymbol with hsymbol | rfl
      · exact Nat.le_of_lt (hpage.2.2 symbol hsymbol last (by simp))
      · exact Nat.le_refl _
    refine ⟨by omega, ne_nil_of_mem hmember, ?_⟩
    have hrest : table.due (last.instanceId + 1) = (table.due start).drop (size + 1) := by
      have hfilter : table.due (last.instanceId + 1) =
          (table.due start).filter fun symbol => last.instanceId + 1 ≤ symbol.instanceId := by
        rw [SymbolTable.due, SymbolTable.due, filter_filter]
        refine filter_congr fun symbol _ => ?_
        rw [← Bool.decide_and, decide_eq_decide]
        omega
      rw [hfilter, due_page table start size, filter_append]
      have hnone : (table.page start size).filter
          (fun symbol => last.instanceId + 1 ≤ symbol.instanceId) = [] := by
        rw [filter_eq_nil_iff]
        intro symbol hsymbol
        have hle := hbefore symbol hsymbol
        rw [decide_eq_true_eq]
        omega
      have hall : ((table.due start).drop (size + 1)).filter
          (fun symbol => last.instanceId + 1 ≤ symbol.instanceId) =
            (table.due start).drop (size + 1) := by
        rw [filter_eq_self]
        intro symbol hsymbol
        have hlt := hlater last hmember symbol hsymbol
        rw [decide_eq_true_eq]
        omega
      rw [hnone, hall, nil_append, ← due_page table start size]
    rw [hrest]
    exact due_page table start size
  · cases h

theorem attributesAsked_request (includeExternalAccess : Bool) :
    decide (externalAccessAttribute ∈
      attributesAsked ((symbolRequestData includeExternalAccess).drop 2)) =
        includeExternalAccess := by
  cases includeExternalAccess <;> decide

/-! ## Cursors -/

structure SymbolPlace where
  scope : SymbolScope
  index : Nat
  start : Nat

def SymbolPlace.cursor (place : SymbolPlace) : SymbolCursor :=
  ⟨place.scope, place.index, place.start⟩

def SymbolPlace.text (place : SymbolPlace) : Text := encodeCursor place.cursor

theorem writeInt_natural (n : Nat) : Json.writeInt (n : Int) = decimal n := by
  rw [Json.writeInt, if_neg (by omega)]
  rfl

theorem cut_colon {front back : Text} (h : ':' ∉ front) :
    (front ++ ':' :: back).takeWhile (· ≠ ':') = front ∧
      (front ++ ':' :: back).dropWhile (· ≠ ':') = ':' :: back := by
  have hfront : ∀ c ∈ front, decide (c ≠ ':') = true := by
    intro c hc
    rw [decide_eq_true_eq]
    rintro rfl
    exact h hc
  rw [takeWhile_append_of_pos hfront, dropWhile_append_of_pos hfront]
  simp

theorem splitCursor_text (place : SymbolPlace) : splitCursor place.text =
    some (place.scope.value, decimal place.index, decimal place.start) := by
  have hscope : ':' ∉ place.scope.value := by
    cases place.scope <;> simp [SymbolScope.value, Text.of]
  have hindex : ':' ∉ decimal place.index := decimal_free rfl
  have htext : place.text =
      place.scope.value ++ ':' :: (decimal place.index ++ ':' :: decimal place.start) := by
    simp only [SymbolPlace.text, encodeCursor, SymbolPlace.cursor, writeInt_natural]
  have houter := @cut_colon _ (decimal place.index ++ ':' :: decimal place.start) hscope
  have hinner := @cut_colon _ (decimal place.start) hindex
  rw [htext, splitCursor, houter.1, houter.2]
  simp only [hinner.1, hinner.2]

theorem decodeCursor_text (place : SymbolPlace) :
    decodeCursor db (some place.text) = .ok place.cursor := by
  simp only [decodeCursor, splitCursor_text, readInt_decimal]
  obtain ⟨scope, index, start⟩ := place
  cases scope with
  | controller => rfl
  | program =>
    have hdiffer : SymbolScope.program.value ≠ SymbolScope.controller.value := by decide
    simp only [if_neg hdiffer, if_true]
    rfl

theorem place_text_injective {first second : SymbolPlace} (h : first.text = second.text) :
    first = second := by
  have hcursors := congrArg (fun text => decodeCursor Ascii.database (some text)) h
  simp only [decodeCursor_text, Except.ok.injEq] at hcursors
  obtain ⟨scope, index, start⟩ := first
  obtain ⟨scope', index', start'⟩ := second
  simp only [SymbolPlace.cursor, SymbolCursor.mk.injEq, Int.natCast_inj] at hcursors
  obtain ⟨rfl, rfl, rfl⟩ := hcursors
  rfl

def SymbolScope.rank : SymbolScope → Nat
  | .controller => 0
  | .program => 1

/-- The enumeration comes to one place before the other. -/
def SymbolPlace.Before (first second : SymbolPlace) : Prop :=
  first.scope.rank < second.scope.rank ∨ first.scope.rank = second.scope.rank ∧
    (first.index < second.index ∨ first.index = second.index ∧ first.start < second.start)

theorem before_trans {first second third : SymbolPlace} (h : first.Before second)
    (hnext : second.Before third) : first.Before third := by
  simp only [SymbolPlace.Before] at h hnext ⊢
  omega

theorem before_irrefl (place : SymbolPlace) : ¬ place.Before place := by
  simp only [SymbolPlace.Before]
  omega

/-! ## One page -/

variable {next place : SymbolPlace} {programs : List Text}

section

variable (requested : List CipSoftwareInventoryCapability)

def scopeItems (program : Option Text) (symbols : List (LogixSymbol db)) :
    List (CipSoftwareInventoryItem db) :=
  (symbols.map fun symbol => symbol.item program).filter fun item => item.capability ∈ requested

theorem scopeItems_append (program : Option Text) (first second : List (LogixSymbol db)) :
    scopeItems requested program (first ++ second) =
      scopeItems requested program first ++ scopeItems requested program second := by
  simp [scopeItems]

def remembered (programs : List Text) (symbols : List (LogixSymbol db)) : List Text :=
  (announcedPrograms symbols).foldl rememberProgram programs

theorem remembered_append (programs : List Text) (first second : List (LogixSymbol db)) :
    remembered programs (first ++ second) = remembered (remembered programs first) second := by
  simp [remembered, announcedPrograms]

def placeProgram (programs : List Text) (place : SymbolPlace) : Option Text :=
  match place.scope with
  | .controller => none
  | .program => programs[place.index]?

def programsAfter (programs : List Text) (place : SymbolPlace) (page : List (LogixSymbol db)) :
    List Text :=
  match place.scope with
  | .controller => remembered programs page
  | .program => programs

def placeAfter (programs : List Text) (place : SymbolPlace) :
    Option Nat → Option SymbolPlace
  | some start => some { place with start }
  | none =>
    match place.scope with
    | .controller =>
      if programScopesRequired requested ∧ programs ≠ [] then some ⟨.program, 0, 0⟩ else none
    | .program =>
      if place.index + 1 < programs.length then some ⟨.program, place.index + 1, 0⟩ else none

@[simp] theorem programsAfter_controller (programs : List Text) (index start : Nat)
    (page : List (LogixSymbol db)) :
    programsAfter programs ⟨.controller, index, start⟩ page = remembered programs page :=
  rfl

@[simp] theorem programsAfter_program (programs : List Text) (index start : Nat)
    (page : List (LogixSymbol db)) :
    programsAfter programs ⟨.program, index, start⟩ page = programs :=
  rfl

@[simp] theorem placeAfter_more (programs : List Text) (scope : SymbolScope)
    (index start next : Nat) :
    placeAfter requested programs ⟨scope, index, start⟩ (some next) = some ⟨scope, index, next⟩ :=
  rfl

@[simp] theorem placeAfter_controller (programs : List Text) (index start : Nat) :
    placeAfter requested programs ⟨.controller, index, start⟩ none =
      if programScopesRequired requested ∧ programs ≠ [] then some ⟨.program, 0, 0⟩ else none :=
  rfl

@[simp] theorem placeAfter_program (programs : List Text) (index start : Nat) :
    placeAfter requested programs ⟨.program, index, start⟩ none =
      if index + 1 < programs.length then some ⟨.program, index + 1, 0⟩ else none :=
  rfl

theorem nextCursor_place (programs : List Text) (place : SymbolPlace) (next : Option Nat) :
    nextCursor place.cursor (next.map (Nat.cast : Nat → Int)) programs requested =
      (placeAfter requested programs place next).map SymbolPlace.cursor := by
  obtain ⟨scope, index, start⟩ := place
  cases next with
  | some next => rfl
  | none =>
    cases scope with
    | controller =>
      by_cases hprograms : programScopesRequired requested ∧ programs ≠ []
      · simp only [nextCursor, placeAfter, SymbolPlace.cursor, Option.map_none, if_pos hprograms]
        rfl
      · simp only [nextCursor, placeAfter, SymbolPlace.cursor, Option.map_none, if_neg hprograms]
    | program =>
      have hnext : (index : Int) + 1 < (programs.length : Int) ↔ index + 1 < programs.length := by
        omega
      simp only [nextCursor, placeAfter, SymbolPlace.cursor, Option.map_none, hnext]
      by_cases hindex : index + 1 < programs.length
      · rw [if_pos hindex, if_pos hindex]
        rfl
      · rw [if_neg hindex, if_neg hindex]
        rfl

theorem next_before {continued : Option Nat}
    (h : placeAfter requested programs place continued = some next)
    (hcontinued : ∀ start ∈ continued, place.start < start) : place.Before next := by
  cases continued with
  | some start =>
    cases h
    exact .inr ⟨rfl, .inr ⟨rfl, hcontinued start rfl⟩⟩
  | none =>
    simp only [placeAfter] at h
    split at h
    · rename_i hscope
      split at h
      · cases h
        exact .inl (by rw [hscope]; decide)
      · cases h
    · rename_i hscope
      split at h
      · cases h
        exact .inr ⟨by rw [hscope], .inl (Nat.lt_succ_self _)⟩
      · cases h

end

/-! ## Reading a page -/

variable {isIpv6 : Text → Bool} {unicodeError : List UInt8 → Text}

structure Admitted (isIpv6 : Text → Bool) (plan : CipSoftwareInventoryPlan db)
    (permit : Option RoutedExecutionPermit) (capturedAt : DateTime) : Prop where
  aware : capturedAt.isAware = true
  routed : ∃ route, plan.route = some route ∧
    validateRoutedExecution permit plan.authorizationReference [route.key] = .ok () ∧
    ∃ path, pycomm3LogixPath route = .ok path
  address : validateLiveCipTargetAddress isIpv6 plan.target = .ok ()

theorem readInventoryPage_place {controller : LogixController db} {sizing : Nat → Nat}
    {request : Nat} {transport : LogixSymbolTransport} {plan : CipSoftwareInventoryPlan db}
    {permit : Option RoutedExecutionPermit} {capturedAt : DateTime}
    (hplan : Admitted isIpv6 plan permit capturedAt) {cursor : Option Text} {place : SymbolPlace}
    (hcursor : decodeCursor db cursor = .ok place.cursor)
    (hvalid : place.scope = .program → place.index < transport.programs.length) :
    let page := controller.table.page place.start (sizing request)
    let programs := programsAfter transport.programs place page
    readInventoryPage isIpv6 unicodeError (controller.wire sizing request) transport plan cursor =
      .ok (⟨scopeItems plan.capabilities (placeProgram transport.programs place) page,
        (placeAfter plan.capabilities programs place
          (controller.table.continuation place.start (sizing request))).map SymbolPlace.text⟩,
        { transport with programs }) := by
  intro page programs
  obtain ⟨route, hroute, -, path, hpath⟩ := hplan.routed
  have hprogram : cursorProgram transport place.cursor =
      .ok (placeProgram transport.programs place) := by
    obtain ⟨scope, index, start⟩ := place
    cases scope with
    | controller => rfl
    | program =>
      have hbound := hvalid rfl
      have hitem : itemAt transport.programs (index : Int) = some transport.programs[index] := by
        rw [itemAt, if_pos (by omega)]
        simp [hbound]
      simp only [cursorProgram, SymbolPlace.cursor, hitem, placeProgram,
        List.getElem?_eq_getElem hbound]
  have hstart : ¬ place.cursor.startInstance < 0 := by
    simp only [SymbolPlace.cursor]
    omega
  have hstatus : controller.table.pageStatus place.start (sizing request) = statusSuccess ∨
      controller.table.pageStatus place.start (sizing request) = statusPartialTransfer ∧
        page ≠ [] := by
    by_cases hshort : page.length < (controller.table.due place.start).length
    · refine .inr ⟨if_pos hshort, ?_⟩
      intro hnone
      have hdue : controller.table.due place.start = [] :=
        (take_eq_nil_iff.mp hnone).resolve_left (by omega)
      rw [hdue] at hshort
      simp at hshort
    · exact .inl (if_neg hshort)
  have hdecoded := @decodeLogixSymbolPage_bytes db unicodeError page _ hstatus plan.capabilities
    (placeProgram transport.programs place) transport.includeExternalAccess
  have hwire : controller.wire sizing request
      (symbolMessage transport place.cursor.startInstance.toNat) =
        .packet (page.flatMap fun symbol => symbol.bytes transport.includeExternalAccess)
          (controller.table.pageStatus place.start (sizing request)) :=
    congrArg (fun external : Bool => DriverResult.packet
      (page.flatMap fun symbol : LogixSymbol db => symbol.bytes external)
      (controller.table.pageStatus place.start (sizing request)))
        (attributesAsked_request transport.includeExternalAccess)
  have hnumeric : (if controller.table.pageStatus place.start (sizing request) =
      statusPartialTransfer then
        page.getLast?.map fun last => decimal (last.instanceId + 1) else none).bind (readInt db) =
      (controller.table.continuation place.start (sizing request)).map (Nat.cast : Nat → Int) := by
    unfold SymbolTable.continuation SymbolTable.pageStatus
    by_cases hshort : page.length < (controller.table.due place.start).length
    · rw [if_pos hshort, if_pos rfl, if_pos hshort]
      show (page.getLast?.map _).bind _ = (page.getLast?.map _).map _
      cases page.getLast? with
      | none => rfl
      | some last => exact readInt_decimal (last.instanceId + 1)
    · rw [if_neg hshort, if_neg (by decide), if_neg hshort]
      rfl
  have hremembered : rememberPrograms transport.programs
      (page.map fun symbol => symbol.record transport.includeExternalAccess) =
        remembered transport.programs page := by
    rw [rememberPrograms, filterMap_map]
    rfl
  simp only [readInventoryPage, hplan.address, hroute, hcursor, hprogram, hpath, hwire, hdecoded,
    bind, Except.bind, refuse, if_neg hstart, hnumeric, hremembered, nextCursor_place,
    Option.map_map]
  obtain ⟨scope, index, start⟩ := place
  cases scope <;> rfl

/-! ## The whole run -/

section

variable (controller : LogixController db) (requested : List CipSoftwareInventoryCapability)

def laterItems (programs : List Text) : List (CipSoftwareInventoryItem db) :=
  programs.flatMap fun program => scopeItems requested (some program) controller.table.symbols

def itemsFrom (programs : List Text) (place : SymbolPlace) :
    List (CipSoftwareInventoryItem db) :=
  let due := controller.table.due place.start
  scopeItems requested (placeProgram programs place) due ++
    match place.scope with
    | .controller =>
      if programScopesRequired requested then
        laterItems controller requested (remembered programs due)
      else []
    | .program => laterItems controller requested (programs.drop (place.index + 1))

/-- How many pages are read at most from a place on. -/
def pagesFrom (programs : List Text) (place : SymbolPlace) : Nat :=
  let due := controller.table.due place.start
  max 1 due.length +
    (match place.scope with
    | .controller =>
      if programScopesRequired requested then (remembered programs due).length else 0
    | .program => programs.length - (place.index + 1)) * max 1 controller.table.symbols.length

theorem due_zero : controller.table.due 0 = controller.table.symbols := by
  rw [SymbolTable.due, filter_eq_self]
  simp

theorem laterItems_drop {index : Nat} (h : index < programs.length) :
    laterItems controller requested (programs.drop index) =
      itemsFrom controller requested programs ⟨.program, index, 0⟩ := by
  rw [drop_eq_getElem_cons h]
  simp only [laterItems, flatMap_cons, itemsFrom, placeProgram, due_zero,
    List.getElem?_eq_getElem h]

theorem itemsFrom_controller (programs : List Text) (index start : Nat) :
    itemsFrom controller requested programs ⟨.controller, index, start⟩ =
      scopeItems requested none (controller.table.due start) ++
        if programScopesRequired requested then
          laterItems controller requested (remembered programs (controller.table.due start))
        else [] :=
  rfl

theorem itemsFrom_program (programs : List Text) (index start : Nat) :
    itemsFrom controller requested programs ⟨.program, index, start⟩ =
      scopeItems requested programs[index]? (controller.table.due start) ++
        laterItems controller requested (programs.drop (index + 1)) :=
  rfl

theorem itemsFrom_page (programs : List Text) (place : SymbolPlace) (size : Nat) :
    itemsFrom controller requested programs place =
      scopeItems requested (placeProgram programs place)
          (controller.table.page place.start size) ++
        ((placeAfter requested
          (programsAfter programs place (controller.table.page place.start size)) place
            (controller.table.continuation place.start size)).map
              (itemsFrom controller requested
                (programsAfter programs place (controller.table.page place.start size)))).getD
                  [] := by
  obtain ⟨scope, index, start⟩ := place
  have hprogram : ∀ scope, placeProgram programs ⟨scope, index, start⟩ =
      match scope with
      | .controller => none
      | .program => programs[index]? := fun scope => rfl
  rw [hprogram]
  cases hcontinued : controller.table.continuation start size with
  | some next =>
    obtain ⟨-, -, hdue⟩ := page_continued hcontinued
    cases scope with
    | controller =>
      simp only [placeAfter_more, programsAfter_controller, itemsFrom_controller,
        Option.map_some, Option.getD_some]
      rw [hdue, scopeItems_append, remembered_append, append_assoc]
    | program =>
      simp only [placeAfter_more, programsAfter_program, itemsFrom_program,
        Option.map_some, Option.getD_some]
      rw [hdue, scopeItems_append, append_assoc]
  | none =>
    have hpage := page_last hcontinued
    cases scope with
    | controller =>
      simp only [programsAfter_controller, placeAfter_controller, itemsFrom_controller, hpage]
      congr 1
      by_cases hrequired : programScopesRequired requested
      · by_cases hnone : remembered programs (controller.table.due start) = []
        · simp [hrequired, hnone, laterItems]
        · have hpositive := length_pos_iff.mpr hnone
          rw [if_pos hrequired, if_pos ⟨hrequired, hnone⟩]
          exact laterItems_drop controller requested hpositive
      · simp [hrequired]
    | program =>
      simp only [programsAfter_program, placeAfter_program, itemsFrom_program, hpage]
      congr 1
      by_cases hnext : index + 1 < programs.length
      · rw [if_pos hnext]
        exact laterItems_drop controller requested hnext
      · rw [if_neg hnext, drop_eq_nil_iff.mpr (by omega)]
        rfl

theorem pagesFrom_controller (programs : List Text) (index start : Nat) :
    pagesFrom controller requested programs ⟨.controller, index, start⟩ =
      max 1 (controller.table.due start).length +
        (if programScopesRequired requested then
          (remembered programs (controller.table.due start)).length else 0) *
            max 1 controller.table.symbols.length :=
  rfl

theorem pagesFrom_program (programs : List Text) (index start : Nat) :
    pagesFrom controller requested programs ⟨.program, index, start⟩ =
      max 1 (controller.table.due start).length +
        (programs.length - (index + 1)) * max 1 controller.table.symbols.length :=
  rfl

theorem pagesFrom_pos (programs : List Text) (place : SymbolPlace) :
    0 < pagesFrom controller requested programs place := by
  unfold pagesFrom
  simp only
  omega

theorem continuation_due {next : Nat}
    (h : table.continuation start size = some next) : table.due next ≠ [] := by
  intro hnone
  obtain ⟨-, -, hdue⟩ := page_continued h
  unfold SymbolTable.continuation at h
  rw [hnone, append_nil] at hdue
  rw [hdue, if_neg (Nat.lt_irrefl _)] at h
  cases h

theorem pagesFrom_page (h : placeAfter requested
      (programsAfter programs place (controller.table.page place.start size)) place
        (controller.table.continuation place.start size) = some next) :
    pagesFrom controller requested
        (programsAfter programs place (controller.table.page place.start size)) next <
      pagesFrom controller requested programs place := by
  obtain ⟨scope, index, start⟩ := place
  simp only at h ⊢
  cases hcontinued : controller.table.continuation start size with
  | some instanceId =>
    obtain ⟨-, hpage, hdue⟩ := page_continued hcontinued
    have hlength := congrArg List.length hdue
    have hpositive := length_pos_iff.mpr hpage
    have hleft := length_pos_iff.mpr (continuation_due hcontinued)
    rw [length_append] at hlength
    have hshorter : max 1 (controller.table.due instanceId).length <
        max 1 (controller.table.due start).length := by
      omega
    rw [hcontinued] at h
    cases scope with
    | controller =>
      simp only [placeAfter_more, Option.some.injEq] at h
      rw [← h, pagesFrom_controller, pagesFrom_controller, programsAfter_controller,
        ← remembered_append, ← hdue]
      omega
    | program =>
      simp only [placeAfter_more, Option.some.injEq] at h
      rw [← h, pagesFrom_program, pagesFrom_program, programsAfter_program]
      omega
  | none =>
    have hpage := page_last hcontinued
    rw [hcontinued] at h
    cases scope with
    | controller =>
      simp only [programsAfter_controller, placeAfter_controller, hpage] at h ⊢
      split at h
      · rename_i hlater
        cases h
        have hprograms := length_pos_iff.mpr hlater.2
        obtain ⟨count, hcount⟩ := Nat.exists_eq_add_of_lt hprograms
        rw [pagesFrom_controller, pagesFrom_program, if_pos hlater.1, due_zero, hcount]
        have hsub : 0 + count + 1 - (0 + 1) = count := by omega
        rw [hsub, Nat.zero_add, Nat.succ_mul]
        omega
      · cases h
    | program =>
      simp only [programsAfter_program, placeAfter_program] at h ⊢
      split at h
      · rename_i hlater
        cases h
        obtain ⟨count, hcount⟩ := Nat.exists_eq_add_of_lt hlater
        have hsub : programs.length - (index + 1) = count + 1 := by omega
        have hsub' : programs.length - (index + 1 + 1) = count := by omega
        rw [pagesFrom_program, pagesFrom_program, due_zero, hsub, hsub', Nat.succ_mul]
        omega
      · cases h

end

structure ReadingAt (state : CaptureState db) (place : SymbolPlace) : Prop where
  cursor : decodeCursor db state.cursor = .ok place.cursor
  valid : place.scope = .program → place.index < state.transport.programs.length
  seen : ∀ text ∈ state.seen, ∃ earlier : SymbolPlace,
    text = earlier.text ∧ (earlier = place ∨ earlier.Before place)

theorem placeAfter_valid {requested : List CipSoftwareInventoryCapability}
    {after : List Text} {continued : Option Nat}
    (hprograms : place.scope = .program → place.index < after.length)
    (h : placeAfter requested after place continued = some next) :
    next.scope = .program → next.index < after.length := by
  obtain ⟨scope, index, start⟩ := place
  cases continued with
  | some start =>
    cases h
    exact hprograms
  | none =>
    cases scope with
    | controller =>
      rw [placeAfter_controller] at h
      split at h
      · rename_i hlater
        cases h
        exact fun _ => length_pos_iff.mpr hlater.2
      · cases h
    | program =>
      rw [placeAfter_program] at h
      split at h
      · rename_i hlater
        cases h
        exact fun _ => hlater
      · cases h

section

variable {controller : LogixController db} {sizing : Nat → Nat}
  {plan : CipSoftwareInventoryPlan db} {permit : Option RoutedExecutionPermit}
  {capturedAt : DateTime}

/-- A capture reads all that is read from a place on, or its budget is too small for it. -/
theorem capturePages_place (hplan : Admitted isIpv6 plan permit capturedAt) {budget : Nat}
    {state : CaptureState db} {place : SymbolPlace} (h : ReadingAt state place) :
    (∃ final, capturePages isIpv6 unicodeError (controller.wire sizing) plan budget state =
        .ok final ∧
      final.items = state.items ++
        itemsFrom controller plan.capabilities state.transport.programs place) ∨
    (capturePages isIpv6 unicodeError (controller.wire sizing) plan budget state =
        .error budgetExceeded ∧
      budget < pagesFrom controller plan.capabilities state.transport.programs place) := by
  induction budget generalizing state place with
  | zero => exact .inr ⟨rfl, pagesFrom_pos controller plan.capabilities _ place⟩
  | succ budget ih =>
    have hread := @readInventoryPage_place db isIpv6 unicodeError controller sizing state.used
      state.transport plan permit capturedAt hplan state.cursor place h.cursor h.valid
    have hitems := itemsFrom_page controller plan.capabilities state.transport.programs place
      (sizing state.used)
    have hrequested : ¬ ∃ item ∈ scopeItems plan.capabilities
        (placeProgram state.transport.programs place)
          (controller.table.page place.start (sizing state.used)),
        item.capability ∉ plan.capabilities := by
      rintro ⟨item, hitem, habsent⟩
      exact habsent (of_decide_eq_true (mem_filter.mp hitem).2)
    rw [capturePages, hread]
    simp only [bind, Except.bind, refuse, if_neg hrequested]
    cases hnext : placeAfter plan.capabilities (programsAfter state.transport.programs place
        (controller.table.page place.start (sizing state.used))) place
          (controller.table.continuation place.start (sizing state.used)) with
    | none =>
      refine .inl ⟨_, rfl, ?_⟩
      rw [hitems, hnext]
      simp
    | some next =>
      have hbefore : place.Before next := next_before plan.capabilities hnext
        fun start hstart => (page_continued hstart).1
      have hfresh : next.text ∉ state.seen := by
        intro hseen
        obtain ⟨earlier, htext, hearlier⟩ := h.seen _ hseen
        have hsame := place_text_injective htext
        rcases hearlier with rfl | hearlier
        · exact before_irrefl _ (hsame ▸ hbefore)
        · exact before_irrefl _ (hsame ▸ before_trans hearlier hbefore)
      have hprograms : place.scope = .program → place.index <
          (programsAfter state.transport.programs place
            (controller.table.page place.start (sizing state.used))).length := by
        intro hscope
        have hvalid := h.valid hscope
        obtain ⟨scope, index, start⟩ := place
        cases hscope
        exact hvalid
      have hfewer := pagesFrom_page controller plan.capabilities hnext
      simp only [Option.map_some, if_neg hfresh]
      have hreading : ReadingAt ({
          transport := { state.transport with
            programs := programsAfter state.transport.programs place
              (controller.table.page place.start (sizing state.used)) }
          used := state.used + 1
          items := state.items ++ scopeItems plan.capabilities
            (placeProgram state.transport.programs place)
              (controller.table.page place.start (sizing state.used))
          seen := state.seen ++ [next.text]
          cursor := some next.text } : CaptureState db) next := by
        refine ⟨decodeCursor_text next, placeAfter_valid hprograms hnext, ?_⟩
        intro text htext
        rcases mem_append.mp htext with hearlier | hlast
        · obtain ⟨earlier, rfl, hbefore'⟩ := h.seen text hearlier
          refine ⟨earlier, rfl, .inr ?_⟩
          rcases hbefore' with rfl | hbefore'
          · exact hbefore
          · exact before_trans hbefore' hbefore
        · exact ⟨next, mem_singleton.mp hlast, .inl rfl⟩
      have hlater := ih hreading
      rcases hlater with ⟨final, hfinal, hfinalItems⟩ | ⟨hbudget, hfew⟩
      · refine .inl ⟨final, hfinal, ?_⟩
        rw [hfinalItems, hitems, hnext]
        simp
      · exact .inr ⟨hbudget, Nat.lt_of_le_of_lt hfew hfewer⟩

end

end TwinForge.Discovery
