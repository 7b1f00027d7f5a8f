import Mathlib.Data.List.Perm.Basic
import TwinForge.Discovery.LogixSymbolRuns

/-! # The scopes a capture is exact for

What a capture reads is the controller's table once for the controller and, where program scopes
are required, once more for each program. It is every symbol of every scope exactly where the
programs' own tables hold the very same requested symbols.
-/

namespace TwinForge.Discovery

open Guards List

variable {db : CharacterDatabase}

/-! ## What a capture reads -/

theorem remembered_announced {symbols : List (LogixSymbol db)}
    (h : (announcedPrograms symbols).Nodup) : remembered [] symbols = announcedPrograms symbols := by
  have hfold : ∀ (names programs : List Text), (programs ++ names).Nodup →
      names.foldl rememberProgram programs = programs ++ names := by
    intro names
    induction names with
    | nil => simp
    | cons name names ih =>
      intro programs hnodup
      have hfresh : name ∉ programs := by
        intro hmember
        exact (nodup_append.mp hnodup).2.2 name hmember name mem_cons_self rfl
      rw [foldl_cons, rememberProgram, if_neg hfresh, ih]
      · rw [append_assoc]
        rfl
      · rw [append_assoc]
        exact hnodup
  exact (hfold _ [] (by simpa using h)).trans (nil_append _)

def allItems (controller : LogixController db)
    (requested : List CipSoftwareInventoryCapability) : List (CipSoftwareInventoryItem db) :=
  scopeItems requested none controller.table.symbols ++
    if programScopesRequired requested then
      laterItems controller requested (announcedPrograms controller.table.symbols)
    else []

theorem announced_nodup (controller : LogixController db) :
    (announcedPrograms controller.table.symbols).Nodup :=
  controller.announced.nodup_iff.mpr controller.distinct

theorem itemsFrom_start (controller : LogixController db)
    (requested : List CipSoftwareInventoryCapability) :
    itemsFrom controller requested [] ⟨.controller, 0, 0⟩ = allItems controller requested := by
  rw [itemsFrom_controller, due_zero, remembered_announced (announced_nodup controller)]
  rfl

section

variable {isIpv6 : Text → Bool} {unicodeError : List UInt8 → Text}
  {controller : LogixController db} {sizing : Nat → Nat} {plan : CipSoftwareInventoryPlan db}
  {permit : Option RoutedExecutionPermit} {capturedAt : DateTime} {includeExternalAccess : Bool}

abbrev freshCapture (isIpv6 : Text → Bool) (unicodeError : List UInt8 → Text)
    (controller : LogixController db) (sizing : Nat → Nat) (includeExternalAccess : Bool)
    (plan : CipSoftwareInventoryPlan db) (permit : Option RoutedExecutionPermit)
    (capturedAt : DateTime) : Except CaptureFailure (Nat × List (CipSoftwareInventoryItem db)) :=
  captureInventory isIpv6 unicodeError (controller.wire sizing) false { includeExternalAccess }
    plan permit capturedAt

theorem preflight_ok {route : CipRouteDeclaration db} :
    preflight false plan permit = .ok route ↔ plan.route = some route ∧
      validateRoutedExecution permit plan.authorizationReference [route.key] = .ok () := by
  have hsupported : plan.capabilities.filter (fun item => item ∉ supportedCapabilities) = [] := by
    rw [filter_eq_nil_iff]
    intro item _
    cases item <;> decide
  unfold preflight
  cases hroute : plan.route with
  | none => simp
  | some declared =>
    cases hpermit : validateRoutedExecution permit plan.authorizationReference
        [declared.key] with
    | error error =>
      constructor
      · intro h
        simp only [hpermit] at h
        cases h
      · rintro ⟨hsame, hvalid⟩
        cases hsame
        rw [hpermit] at hvalid
        cases hvalid
    | ok done =>
      constructor
      · intro h
        simp only [hpermit, hsupported, ne_eq, not_true_eq_false, refuse, if_false] at h
        cases h
        exact ⟨rfl, hpermit⟩
      · rintro ⟨hsame, -⟩
        cases hsame
        simp only [hpermit, hsupported, ne_eq, not_true_eq_false, refuse, if_false]
        rfl

theorem readInventoryPage_admitted {driver : GenericMessage → DriverResult}
    {transport : LogixSymbolTransport} {cursor : Option Text}
    {result : CipSoftwareInventoryPage db × LogixSymbolTransport}
    (h : readInventoryPage isIpv6 unicodeError driver transport plan cursor = .ok result) :
    validateLiveCipTargetAddress isIpv6 plan.target = .ok () ∧
      ∀ route, plan.route = some route → ∃ path, pycomm3LogixPath route = .ok path := by
  simp only [readInventoryPage, bind_eq_ok, exists_unit] at h
  obtain ⟨haddress, hpage⟩ := h
  refine ⟨haddress, ?_⟩
  intro route hroute
  simp only [hroute, bind_eq_ok] at hpage
  obtain ⟨-, -, -, -, -, -, path, hpath, -⟩ := hpage
  exact ⟨path, hpath⟩

theorem capture_admitted {result : Nat × List (CipSoftwareInventoryItem db)}
    (h : freshCapture isIpv6 unicodeError controller sizing includeExternalAccess plan permit
      capturedAt = .ok result) : Admitted isIpv6 plan permit capturedAt := by
  simp only [freshCapture, captureInventory, bind_eq_ok, refuse_eq_ok, exists_unit] at h
  obtain ⟨haware, route, hpreflight, state, hpages, -⟩ := h
  obtain ⟨hroute, hpermit⟩ := preflight_ok.mp hpreflight
  obtain ⟨budget, hbudget⟩ := Nat.exists_eq_add_of_lt plan.budget_pos
  rw [hbudget, Nat.zero_add, capturePages, bind_eq_ok] at hpages
  obtain ⟨page, hpage, -⟩ := hpages
  obtain ⟨haddress, hpath⟩ := readInventoryPage_admitted hpage
  exact ⟨by simpa using haware, ⟨route, hroute, hpermit, hpath route hroute⟩, haddress⟩

theorem capture_reads (hplan : Admitted isIpv6 plan permit capturedAt) :
    (∃ used, freshCapture isIpv6 unicodeError controller sizing includeExternalAccess plan permit
        capturedAt = .ok (used, sortedBy compareItems (allItems controller plan.capabilities))) ∨
    (freshCapture isIpv6 unicodeError controller sizing includeExternalAccess plan permit
        capturedAt = .error budgetExceeded ∧
      plan.maximumRequests <
        pagesFrom controller plan.capabilities [] ⟨.controller, 0, 0⟩) := by
  obtain ⟨route, hroute, hpermit, -⟩ := hplan.routed
  have haware : ¬ capturedAt.isAware = false := by simp [hplan.aware]
  have hpreflight : preflight false plan permit = .ok route := preflight_ok.mpr ⟨hroute, hpermit⟩
  have hstart : ReadingAt ({ transport := { includeExternalAccess } } : CaptureState db)
      ⟨.controller, 0, 0⟩ := by
    refine ⟨rfl, ?_, ?_⟩
    · intro h
      cases h
    · intro text h
      cases h
  have hrun : freshCapture isIpv6 unicodeError controller sizing includeExternalAccess plan permit
      capturedAt = (capturePages isIpv6 unicodeError (controller.wire sizing) plan
        plan.maximumRequests { transport := { includeExternalAccess } }).map
          fun state => (state.used, sortedBy compareItems state.items) := by
    simp only [freshCapture, captureInventory, refuse, if_neg haware, hpreflight, bind, Except.bind]
    cases capturePages isIpv6 unicodeError (controller.wire sizing) plan plan.maximumRequests
      { transport := { includeExternalAccess } } <;> rfl
  rw [hrun]
  rcases @capturePages_place db isIpv6 unicodeError controller sizing plan permit capturedAt hplan
    plan.maximumRequests _ _ hstart with ⟨final, hfinal, hitems⟩ | ⟨hbudget, hfew⟩
  · left
    rw [itemsFrom_start, nil_append] at hitems
    exact ⟨final.used, by rw [hfinal, ← hitems]; rfl⟩
  · right
    exact ⟨by rw [hbudget]; rfl, hfew⟩

/-- A page for every symbol, for the controller and for each program, is budget enough. -/
theorem pagesFrom_start : pagesFrom controller plan.capabilities [] ⟨.controller, 0, 0⟩ ≤
    (controller.programs.length + 1) * max 1 controller.table.symbols.length := by
  have hprograms := controller.announced.length_eq
  rw [length_map] at hprograms
  rw [pagesFrom_controller, due_zero, remembered_announced (announced_nodup controller),
    hprograms, Nat.succ_mul, Nat.add_comm]
  refine Nat.add_le_add_right (Nat.mul_le_mul_right _ ?_) _
  split <;> omega

end

/-! ## What a capture should read -/

def programItem (program : Text) (symbol : LogixSymbol db) : CipSoftwareInventoryItem db :=
  { symbol.item (some program) with parent := some program }

section

variable (requested : List CipSoftwareInventoryCapability)

def programItems (program : LogixProgram db) : List (CipSoftwareInventoryItem db) :=
  (program.table.symbols.map (programItem program.name)).filter
    fun item => item.capability ∈ requested

/-- Every requested symbol of every scope once, a program's symbols with the program as parent. -/
def expectedItems (controller : LogixController db) : List (CipSoftwareInventoryItem db) :=
  scopeItems requested none controller.table.symbols ++
    controller.programs.flatMap (programItems requested)

def requestedSymbols (table : SymbolTable db) : List (LogixSymbol db) :=
  table.symbols.filter fun symbol => (symbolKind symbol.name).1 ∈ requested

/-- The instances and the names of the requested symbols. -/
def listing (table : SymbolTable db) : List (Nat × Text) :=
  (requestedSymbols requested table).map fun symbol => (symbol.instanceId, symbol.name)

/-- Each program's requested symbols are those that are read for it: none where program scopes
are not required, and otherwise the controller's, which are then all routines and tags. -/
def WireCovers (controller : LogixController db) : Prop :=
  ∀ program ∈ controller.programs,
    listing requested program.table =
      (if programScopesRequired requested then listing requested controller.table else []) ∧
    (programScopesRequired requested → ∀ symbol ∈ requestedSymbols requested controller.table,
      (symbolKind symbol.name).1 = .routines ∨ (symbolKind symbol.name).1 = .tagDefinitions)

theorem scopeItems_requested (program : Option Text) (table : SymbolTable db) :
    scopeItems requested program table.symbols =
      (requestedSymbols requested table).map fun symbol => symbol.item program := by
  rw [scopeItems, filter_map]
  rfl

theorem programItems_requested (program : LogixProgram db) :
    programItems requested program =
      (requestedSymbols requested program.table).map (programItem program.name) := by
  rw [programItems, filter_map]
  rfl

end

/-! ## Names and kinds -/

def wireName : CipSoftwareInventoryCapability → Text → Text
  | .programs, name => ("Program:" : Text) ++ name
  | .routines, name => ("Routine:" : Text) ++ name
  | .tasks, name => ("Task:" : Text) ++ name
  | .tagDefinitions, name => name

theorem wireName_kind (name : Text) : wireName (symbolKind name).1 (symbolKind name).2 = name := by
  have hopened : ∀ word : Text, word.isPrefixOf name = true →
      word ++ name.drop word.length = name := by
    intro word h
    obtain ⟨rest, rfl⟩ := isPrefixOf_iff_prefix.mp h
    rw [drop_left]
  unfold symbolKind
  split
  · exact hopened _ ‹_›
  · split
    · exact hopened _ ‹_›
    · split
      · exact hopened _ ‹_›
      · rfl

/-- The instance and the name an item was made from. -/
def itemListing (item : CipSoftwareInventoryItem db) : Nat × Text :=
  (item.instanceId.getD 0, wireName item.capability item.name)

variable (requested : List CipSoftwareInventoryCapability)

theorem listing_scopeItems (program : Option Text) (table : SymbolTable db) :
    (scopeItems requested program table.symbols).map itemListing = listing requested table := by
  rw [scopeItems_requested, map_map, listing]
  refine map_congr_left fun symbol _ => ?_
  exact Prod.ext rfl (wireName_kind symbol.name)

theorem listing_programItems (program : LogixProgram db) :
    (programItems requested program).map itemListing = listing requested program.table := by
  rw [programItems_requested, map_map, listing]
  refine map_congr_left fun symbol _ => ?_
  exact Prod.ext rfl (wireName_kind symbol.name)

theorem items_of_listing {first second : LogixSymbol db → CipSoftwareInventoryItem db}
    {symbols others : List (LogixSymbol db)}
    (hsame : ∀ symbol ∈ symbols, ∀ other, symbol.instanceId = other.instanceId →
      symbol.name = other.name → first symbol = second other)
    (h : (symbols.map fun symbol => (symbol.instanceId, symbol.name)) =
      others.map fun symbol => (symbol.instanceId, symbol.name)) :
    symbols.map first = others.map second := by
  induction symbols generalizing others with
  | nil =>
    have hnone := map_eq_nil_iff.mp h.symm
    rw [hnone]
    rfl
  | cons symbol symbols ih =>
    cases others with
    | nil => cases h
    | cons other others =>
      rw [map_cons, map_cons, List.cons.injEq, Prod.mk.injEq] at h
      rw [map_cons, map_cons,
        hsame symbol mem_cons_self other h.1.1 h.1.2,
        ih (fun found hfound => hsame found (mem_cons_of_mem _ hfound)) h.2]

variable {symbol : LogixSymbol db}

theorem item_congr {other : LogixSymbol db} (hinstance : symbol.instanceId = other.instanceId)
    (hname : symbol.name = other.name) (program : Option Text) :
    symbol.item program = other.item program := by
  simp only [LogixSymbol.item, hinstance, hname]

theorem item_owned (program : Text)
    (h : (symbolKind symbol.name).1 = .routines ∨ (symbolKind symbol.name).1 = .tagDefinitions) :
    symbol.item (some program) = programItem program symbol := by
  have hparent : symbolParent (symbolKind symbol.name).1 (some program) = some program := by
    rcases h with h | h <;> rw [h] <;> rfl
  simp only [programItem, LogixSymbol.item, hparent]

theorem item_kind {program : Text} (h : (symbol.item (some program)).parent.isSome = true) :
    (symbolKind symbol.name).1 = .routines ∨ (symbolKind symbol.name).1 = .tagDefinitions := by
  simp only [LogixSymbol.item] at h
  cases hkind : (symbolKind symbol.name).1 <;> simp [hkind, symbolParent] at h ⊢

theorem filter_owned {Owner Item : Type} {items : Owner → List Item} {tag : Item → Option Text}
    {name : Owner → Text} (htag : ∀ owner, ∀ item ∈ items owner, tag item = some (name owner))
    {owners : List Owner} (hdistinct : (owners.map name).Nodup) {owner : Owner}
    (howner : owner ∈ owners) :
    (owners.flatMap items).filter (fun item => tag item = some (name owner)) = items owner := by
  induction owners with
  | nil => cases howner
  | cons first owners ih =>
    rw [map_cons, nodup_cons] at hdistinct
    have hothers : ∀ other, name other ≠ name owner →
        (items other).filter (fun item => tag item = some (name owner)) = [] := by
      intro other hdiffer
      rw [filter_eq_nil_iff]
      intro item hitem
      rw [htag other item hitem]
      simpa using hdiffer
    rw [flatMap_cons, filter_append]
    rcases mem_cons.mp howner with rfl | hlater
    · have hown : (items owner).filter (fun item => tag item = some (name owner)) =
          items owner := by
        rw [filter_eq_self]
        intro item hitem
        rw [htag owner item hitem]
        simp
      have hrest : (owners.flatMap items).filter (fun item => tag item = some (name owner)) =
          [] := by
        rw [filter_flatMap, flatMap_eq_nil_iff]
        intro other hother
        exact hothers other fun hsame => hdistinct.1 (hsame ▸ mem_map_of_mem hother)
      rw [hown, hrest, append_nil]
    · have hdiffer : name first ≠ name owner :=
        fun hsame => hdistinct.1 (hsame ▸ mem_map_of_mem hlater)
      rw [hothers first hdiffer, nil_append]
      exact ih hdistinct.2 hlater

theorem listing_increasing (table : SymbolTable db) :
    (listing requested table).Pairwise fun first second => first.1 < second.1 := by
  rw [listing, pairwise_map]
  exact table.increasing.filter _

theorem listing_perm {first second : List (Nat × Text)}
    (hfirst : first.Pairwise fun entry other => entry.1 < other.1)
    (hsecond : second.Pairwise fun entry other => entry.1 < other.1)
    (h : first.Perm second) : first = second := by
  refine List.Perm.eq_of_pairwise ?_ hfirst hsecond h
  intro entry other _ _ hless hmore
  omega

/-! ## Exactness -/

section

variable {controller : LogixController db} {requested : List CipSoftwareInventoryCapability}

theorem programItems_owned (program : LogixProgram db) :
    ∀ item ∈ programItems requested program, item.parent = some program.name := by
  intro item hitem
  rw [programItems_requested] at hitem
  obtain ⟨symbol, -, rfl⟩ := mem_map.mp hitem
  rfl

theorem covered_exact (h : WireCovers requested controller) :
    (allItems controller requested).Perm (expectedItems requested controller) := by
  rw [allItems, expectedItems, perm_append_left_iff]
  by_cases hrequired : programScopesRequired requested
  · rw [if_pos hrequired]
    have hprograms : ∀ program ∈ controller.programs, programItems requested program =
        scopeItems requested (some program.name) controller.table.symbols := by
      intro program hprogram
      obtain ⟨hlisting, hkinds⟩ := h program hprogram
      rw [if_pos hrequired] at hlisting
      rw [programItems_requested, scopeItems_requested]
      refine (items_of_listing ?_ hlisting.symm).symm
      intro symbol hsymbol other hinstance hname
      rw [item_congr hinstance hname]
      exact item_owned program.name (hname ▸ hkinds hrequired symbol hsymbol)
    have hflat : controller.programs.flatMap (programItems requested) =
        (controller.programs.map LogixProgram.name).flatMap fun program =>
          scopeItems requested (some program) controller.table.symbols := by
      rw [flatMap_map]
      exact flatMap_congr hprograms
    rw [hflat]
    exact controller.announced.flatMap_right _
  · rw [if_neg hrequired]
    have hnone : controller.programs.flatMap (programItems requested) = [] := by
      rw [flatMap_eq_nil_iff]
      intro program hprogram
      have hlisting := (h program hprogram).1
      rw [if_neg hrequired, ← listing_programItems] at hlisting
      exact map_eq_nil_iff.mp hlisting
    rw [hnone]

theorem exact_covered
    (h : (allItems controller requested).Perm (expectedItems requested controller)) :
    WireCovers requested controller := by
  rw [allItems, expectedItems, perm_append_left_iff] at h
  intro program hprogram
  by_cases hrequired : programScopesRequired requested
  · rw [if_pos hrequired] at h ⊢
    have howned : ∀ item ∈ laterItems controller requested
        (announcedPrograms controller.table.symbols), item.parent.isSome = true := by
      intro item hitem
      obtain ⟨owner, -, howner⟩ := mem_flatMap.mp (h.mem_iff.mp hitem)
      rw [programItems_owned owner item howner]
      rfl
    have hname : program.name ∈ announcedPrograms controller.table.symbols :=
      controller.announced.mem_iff.mpr (mem_map_of_mem hprogram)
    have hkinds : ∀ symbol ∈ requestedSymbols requested controller.table,
        (symbolKind symbol.name).1 = .routines ∨
          (symbolKind symbol.name).1 = .tagDefinitions := by
      intro symbol hsymbol
      refine item_kind (howned (symbol.item (some program.name)) ?_)
      refine mem_flatMap.mpr ⟨program.name, hname, ?_⟩
      rw [scopeItems_requested]
      exact mem_map_of_mem hsymbol
    refine ⟨?_, fun _ => hkinds⟩
    -- The items of one program on both sides.
    have hscope : ∀ name : Text, ∀ item ∈ scopeItems requested (some name)
        controller.table.symbols, item.parent = some name := by
      intro name item hitem
      rw [scopeItems_requested] at hitem
      obtain ⟨symbol, hsymbol, rfl⟩ := mem_map.mp hitem
      rw [item_owned name (hkinds symbol hsymbol)]
      rfl
    have hread := @filter_owned _ _ (fun name : Text =>
      scopeItems requested (some name) controller.table.symbols) CipSoftwareInventoryItem.parent
        id hscope _ (by simpa using announced_nodup controller) _ hname
    have hexpected := @filter_owned _ _ (programItems requested) CipSoftwareInventoryItem.parent
      LogixProgram.name programItems_owned _ controller.distinct _ hprogram
    have hprogramItems := h.filter fun item => item.parent = some program.name
    have hreadItems : (laterItems controller requested
        (announcedPrograms controller.table.symbols)).filter
          (fun item => item.parent = some program.name) =
            scopeItems requested (some program.name) controller.table.symbols := hread
    rw [hreadItems, hexpected] at hprogramItems
    have hlistings := hprogramItems.map itemListing
    rw [listing_scopeItems, listing_programItems] at hlistings
    exact (listing_perm (listing_increasing requested _) (listing_increasing requested _)
      hlistings).symm
  · rw [if_neg hrequired] at h ⊢
    refine ⟨?_, fun hother => absurd hother hrequired⟩
    have hnone := flatMap_eq_nil_iff.mp (nil_perm.mp h) program hprogram
    rw [← listing_programItems, hnone]
    rfl

end

section

variable {isIpv6 : Text → Bool} {unicodeError : List UInt8 → Text}
  {controller : LogixController db} {sizing : Nat → Nat} {includeExternalAccess : Bool}
  {plan : CipSoftwareInventoryPlan db} {permit : Option RoutedExecutionPermit}
  {capturedAt : DateTime}

theorem capture_budgeted (hplan : Admitted isIpv6 plan permit capturedAt)
    (hbudget : (controller.programs.length + 1) * max 1 controller.table.symbols.length ≤
      plan.maximumRequests) :
    freshCapture isIpv6 unicodeError controller sizing includeExternalAccess plan permit
      capturedAt ≠ .error budgetExceeded := by
  rcases @capture_reads db isIpv6 unicodeError controller sizing plan permit capturedAt
    includeExternalAccess hplan with ⟨used, hread⟩ | ⟨-, hfew⟩
  · rw [hread]
    simp
  · have henough := @pagesFrom_start db controller plan
    omega

theorem capture_exact_iff
    (hsuffices : freshCapture isIpv6 unicodeError controller sizing includeExternalAccess plan
      permit capturedAt ≠ .error budgetExceeded) :
    (∃ used items, freshCapture isIpv6 unicodeError controller sizing includeExternalAccess
        plan permit capturedAt = .ok (used, items) ∧
      items.Perm (expectedItems plan.capabilities controller)) ↔
    Admitted isIpv6 plan permit capturedAt ∧ WireCovers plan.capabilities controller := by
  have hsorted : (sortedBy compareItems (allItems controller plan.capabilities)).Perm
      (allItems controller plan.capabilities) := sortedBy_perm _ _
  constructor
  · rintro ⟨used, items, hread, hexact⟩
    have hplan := capture_admitted hread
    refine ⟨hplan, exact_covered ?_⟩
    rcases @capture_reads db isIpv6 unicodeError controller sizing plan permit capturedAt
      includeExternalAccess hplan with ⟨used', hread'⟩ | ⟨hbudget, -⟩
    · rw [hread', Except.ok.injEq, Prod.mk.injEq] at hread
      rw [← hread.2] at hexact
      exact hsorted.symm.trans hexact
    · exact absurd hbudget hsuffices
  · rintro ⟨hplan, hcovers⟩
    rcases @capture_reads db isIpv6 unicodeError controller sizing plan permit capturedAt
      includeExternalAccess hplan with ⟨used, hread⟩ | ⟨hbudget, -⟩
    · exact ⟨used, _, hread, hsorted.trans (covered_exact hcovers)⟩
    · exact absurd hbudget hsuffices

end

def motorSymbol : LogixSymbol Ascii.database where
  instanceId := 2
  name := "MotorRun"
  instanceId_lt := by decide
  name_length := by decide
  name_nonempty := by decide
  name_trimmed := by decide

def mainSymbol : LogixSymbol Ascii.database where
  instanceId := 1
  name := "Program:Main"
  instanceId_lt := by decide
  name_length := by decide
  name_nonempty := by decide
  name_trimmed := by decide

def stateSymbol : LogixSymbol Ascii.database where
  instanceId := 1
  name := "ProgramState"
  instanceId_lt := by decide
  name_length := by decide
  name_nonempty := by decide
  name_trimmed := by decide

/-- A controller tag `MotorRun`, and a tag `ProgramState` of the program `Main`. -/
def motorController : LogixController Ascii.database where
  table := { symbols := [mainSymbol, motorSymbol], increasing := by decide }
  programs := [{ name := "Main", table := { symbols := [stateSymbol] } }]
  distinct := by decide
  announced := by decide

def motorRoute : CipRouteDeclaration Ascii.database := slotZero

def motorPlan : CipSoftwareInventoryPlan Ascii.database where
  target := { address := "192.168.1.10" }
  authorizationReference := "LAB-001"
  capabilities := [.tagDefinitions]
  maximumRequests := 4
  route := some motorRoute
  capabilities_nonempty := by decide
  capabilities_nodup := by decide
  capabilities_sorted := by decide
  budget_pos := by decide
  gateway declared h := by
    cases h
    rfl

def motorPermit : RoutedExecutionPermit where
  authorizationReference := "LAB-001"
  allowedRouteKeys := [motorRoute.key]
  keys_nonempty := by decide
  keys_nodup := by decide

end TwinForge.Discovery
