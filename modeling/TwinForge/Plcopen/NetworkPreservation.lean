import TwinForge.Foundation.Naming
import TwinForge.Plcopen.NetworkFlow

/-! # Emitted networks keep their meaning

Each step of the emission is described by what it carries: from the power of its sources
to the power of its result, with the coils and the pins it drives on the way. Steps
compose as the elements of a series do.
-/

namespace TwinForge.Plcopen

open Model Sketching List

/-! ## Sketches under way -/

/-- The element is the block of a source instance, with pins of these names. -/
def NetworkElement.IsBlockOf (plan : NetworkPlan) (name : Text) (pins : List Text) :
    NetworkElement → Prop
  | .functionBlock _ source declared _ inputs _ _ =>
    source = name ∧ declared = plan.instanceName name ∧ inputs.map Prod.fst = pins
  | _ => False

/-- A block's own input connections come from variables. -/
def NetworkElement.FedByConstants (elements : List NetworkElement) : NetworkElement → Prop
  | .functionBlock _ _ _ _ inputs _ _ =>
    ∀ input ∈ inputs, ∀ source ∈ input.2, ∃ text, .inVariable source.refLocalId text ∈ elements
  | _ => True

/-- A sketch as the emission leaves it between two steps. -/
structure WellDrawn (plan : NetworkPlan) (sketch : NetworkSketch) : Prop where
  distinct : (elementIds sketch.elements).Nodup
  below : ∀ localId ∈ elementIds sketch.elements, localId < sketch.nextLocalId
  fed : Fed [] sketch.elements
  constants : ∀ element ∈ sketch.elements, element.FedByConstants sketch.elements
  named : ∀ element ∈ sketch.elements, ∀ localId source declared typeName inputs inOuts outputs,
    element = .functionBlock localId source declared typeName inputs inOuts outputs →
      declared = plan.instanceName source
  blocks : ∀ name blockId, sketch.blocks.lookup name = some blockId →
    ∃ block ∈ sketch.elements, ∃ interface, block.localId = blockId ∧
      plan.functionBlockInstances.lookup name = some interface ∧
      block.IsBlockOf plan name interface.inputs
  wires : ∀ pin ∈ sketch.pinConnections, ∃ block ∈ sketch.elements, ∃ interface,
    plan.functionBlockInstances.lookup pin.instance = some interface ∧
      block.IsBlockOf plan pin.instance interface.inputs ∧ pin.parameter ∈ interface.inputs

/-- The sources are outputs of elements that are drawn. -/
def Known (sketch : NetworkSketch) (sources : List Connection) : Prop :=
  ∀ source ∈ sources, source.refLocalId ∈ elementIds sketch.elements

def NetworkSketch.pinPower (plan : NetworkPlan) (flow : Connection → Bool) (sketch : NetworkSketch)
    (instanceName parameter : Text) : Bool :=
  sketch.pinConnections.any fun pin =>
    plan.instanceName pin.instance == instanceName && pin.parameter == parameter && flow pin.source

/-- A later sketch drives what the earlier one did, and these. -/
structure Drives (plan : NetworkPlan) (flow : Connection → Bool) (sketch later : NetworkSketch)
    (drives : List Drive) : Prop where
  coils : coilDrives flow later.elements = coilDrives flow sketch.elements ++ plan.coils drives
  pins : ∀ instanceName parameter, later.pinPower plan flow instanceName parameter =
    (sketch.pinPower plan flow instanceName parameter ||
      plan.drivesPin drives instanceName parameter)

/-- What a step of the emission carries from its sources to its result. -/
def Carries {A : Type} (plan : NetworkPlan) (sources : A → List Connection) (action : Sketching A)
    (current : List Connection) (meaning : SymbolReading → Bool → Bool × List Drive) : Prop :=
  ∀ sketch value later, WellDrawn plan sketch → Known sketch current →
    action sketch = .ok (value, later) →
      WellDrawn plan later ∧ sketch.elements <+: later.elements ∧ Known later (sources value) ∧
        ∀ reading flow, Solves reading flow later.elements →
          (sources value).any flow = (meaning reading (current.any flow)).1 ∧
            Drives plan flow sketch later (meaning reading (current.any flow)).2

def passesPower : SymbolReading → Bool → Bool × List Drive := fun _ power => (power, [])

/-- One meaning behind the other. -/
def andThen (first second : SymbolReading → Bool → Bool × List Drive) :
    SymbolReading → Bool → Bool × List Drive := fun reading power =>
  let before := first reading power
  let after := second reading before.1
  (after.1, before.2 ++ after.2)

section

variable {plan : NetworkPlan} {A B : Type} {current : List Connection}

@[simp] theorem coils_append (first second : List Drive) :
    plan.coils (first ++ second) = plan.coils first ++ plan.coils second :=
  filterMap_append

@[simp] theorem drivesPin_append (first second : List Drive) (instanceName parameter : Text) :
    plan.drivesPin (first ++ second) instanceName parameter =
      (plan.drivesPin first instanceName parameter ||
        plan.drivesPin second instanceName parameter) :=
  any_append

@[simp] theorem coilDrives_append (flow : Connection → Bool) (first second : List NetworkElement) :
    coilDrives flow (first ++ second) = coilDrives flow first ++ coilDrives flow second :=
  filterMap_append

theorem Drives.none (flow : Connection → Bool) (sketch : NetworkSketch) :
    Drives plan flow sketch sketch [] :=
  ⟨by simp [NetworkPlan.coils], by simp [NetworkPlan.drivesPin]⟩

theorem Drives.trans {flow : Connection → Bool} {sketch middle later : NetworkSketch}
    {first second : List Drive} (hfirst : Drives plan flow sketch middle first)
    (hsecond : Drives plan flow middle later second) :
    Drives plan flow sketch later (first ++ second) := by
  constructor
  · rw [hsecond.coils, hfirst.coils, coils_append, append_assoc]
  · intro instanceName parameter
    rw [hsecond.pins, hfirst.pins, drivesPin_append, Bool.or_assoc]

theorem Known.later {sketch later : NetworkSketch} {sources : List Connection}
    (h : Known sketch sources) (hlater : sketch.elements <+: later.elements) :
    Known later sources := by
  intro source hsource
  exact (hlater.map NetworkElement.localId).subset (h source hsource)

theorem Solves.earlier {reading : SymbolReading} {flow : Connection → Bool}
    {earlier later : List NetworkElement} (h : Solves reading flow later)
    (hearlier : earlier <+: later) : Solves reading flow earlier :=
  fun element helement => h element (hearlier.subset helement)

theorem bind_eq_ok {first : Sketching A} {next : A → Sketching B} {sketch later : NetworkSketch}
    {value : B} (h : (first >>= next) sketch = .ok (value, later)) :
    ∃ middle found, first sketch = .ok (middle, found) ∧ next middle found = .ok (value, later) := by
  cases hfirst : first sketch with
  | error fault =>
    have hbind : (first >>= next) sketch = .error fault := by
      show (first sketch).bind _ = _
      rw [hfirst]
      rfl
    rw [hbind] at h
    cases h
  | ok result =>
    refine ⟨result.1, result.2, rfl, ?_⟩
    have hbind : (first >>= next) sketch = next result.1 result.2 := by
      show (first sketch).bind _ = _
      rw [hfirst]
      rfl
    rw [← hbind]
    exact h

namespace Carries

variable {sources : A → List Connection}

theorem pure {value : A} (h : sources value = current) :
    Carries plan sources (pure value) current passesPower := by
  intro sketch _ _ hdrawn hknown hrun
  cases hrun
  rw [h]
  exact ⟨hdrawn, prefix_rfl, hknown, fun reading flow _ => ⟨rfl, .none flow sketch⟩⟩

theorem bind {ends : B → List Connection} {first : Sketching A} {next : A → Sketching B}
    {before after : SymbolReading → Bool → Bool × List Drive}
    (hfirst : Carries plan sources first current before)
    (hnext : ∀ value, Carries plan ends (next value) (sources value) after) :
    Carries plan ends (first >>= next) current (andThen before after) := by
  intro sketch value later hdrawn hknown hrun
  have ⟨middle, found, hmiddle, hlater⟩ := bind_eq_ok hrun
  have ⟨hfound, hinitial, hsources, hmeans⟩ := hfirst sketch middle found hdrawn hknown hmiddle
  have ⟨hend, hrest, hends, hthen⟩ := hnext middle found value later hfound hsources hlater
  refine ⟨hend, hinitial.trans hrest, hends, fun reading flow hsolves => ?_⟩
  have ⟨hpower, hdrives⟩ := hmeans reading flow (hsolves.earlier hrest)
  have ⟨hresult, hmore⟩ := hthen reading flow hsolves
  rw [hpower] at hresult hmore
  exact ⟨hresult, hdrives.trans hmore⟩

theorem entry {sources : B → List Connection} {found : Option A} {next : A → Sketching B}
    {meaning : SymbolReading → Bool → Bool × List Drive}
    (h : ∀ value, found = some value → Carries plan sources (next value) current meaning) :
    Carries plan sources (Sketching.entry found >>= next) current meaning := by
  intro sketch value later hdrawn hknown hrun
  have ⟨middle, same, hmiddle, hlater⟩ := bind_eq_ok hrun
  unfold Sketching.entry at hmiddle
  cases hfound : found with
  | none =>
    rw [hfound] at hmiddle
    cases hmiddle
  | some entry =>
    rw [hfound] at hmiddle
    cases hmiddle
    exact h _ hfound sketch value later hdrawn hknown hlater

theorem raise {fault : NetworkFault} {meaning : SymbolReading → Bool → Bool × List Drive} :
    Carries plan sources (Sketching.raise fault) current meaning :=
  fun _ _ _ _ _ hrun => nomatch hrun

theorem of_eq {action : Sketching A} {meaning other : SymbolReading → Bool → Bool × List Drive}
    (h : Carries plan sources action current other)
    (hsame : ∀ reading power, other reading power = meaning reading power) :
    Carries plan sources action current meaning := by
  have hmeaning : other = meaning := funext fun reading => funext (hsame reading)
  exact hmeaning ▸ h

end Carries

/-! ## Drawing an element -/

theorem WellDrawn.add {sketch : NetworkSketch} (h : WellDrawn plan sketch) {element : NetworkElement}
    (hid : element.localId = sketch.nextLocalId)
    (hfed : ∀ source ∈ element.powerSources, source.refLocalId ∈ elementIds sketch.elements)
    (hconstants : element.FedByConstants sketch.elements)
    (hnamed : ∀ localId source declared typeName inputs inOuts outputs,
      element = .functionBlock localId source declared typeName inputs inOuts outputs →
        declared = plan.instanceName source) :
    WellDrawn plan { sketch with
      nextLocalId := sketch.nextLocalId + 1, elements := sketch.elements ++ [element] } := by
  have hids : elementIds (sketch.elements ++ [element]) =
      elementIds sketch.elements ++ [sketch.nextLocalId] := by
    simp [elementIds, hid]
  have hgrows : ∀ {other : NetworkElement}, other.FedByConstants sketch.elements →
      other.FedByConstants (sketch.elements ++ [element]) := by
    intro other hother
    cases other with
    | functionBlock localId source declared typeName inputs inOuts outputs =>
      intro input hinput connection hconnection
      rcases hother input hinput connection hconnection with ⟨text, htext⟩
      exact ⟨text, mem_append_left _ htext⟩
    | _ => trivial
  constructor
  case distinct =>
    rw [hids, nodup_append]
    refine ⟨h.distinct, by simp, fun localId hlocal other hother hsame => ?_⟩
    have hbelow := h.below localId hlocal
    rw [mem_singleton] at hother
    omega
  case below =>
    intro localId hlocal
    rw [hids, mem_append, mem_singleton] at hlocal
    rcases hlocal with hold | rfl
    · have hbelow := h.below localId hold
      show localId < sketch.nextLocalId + 1
      omega
    · exact Nat.lt_succ_self _
  case fed =>
    rw [fed_append]
    exact ⟨h.fed, by simpa using hfed, trivial⟩
  case constants =>
    intro other hother
    rw [mem_append, mem_singleton] at hother
    rcases hother with hold | rfl
    · exact hgrows (h.constants other hold)
    · exact hgrows hconstants
  case named =>
    intro other hother
    rw [mem_append, mem_singleton] at hother
    rcases hother with hold | rfl
    · exact h.named other hold
    · exact hnamed
  case blocks =>
    intro name blockId hlookup
    rcases h.blocks name blockId hlookup with ⟨block, hblock, rest⟩
    exact ⟨block, mem_append_left _ hblock, rest⟩
  case wires =>
    intro pin hpin
    rcases h.wires pin hpin with ⟨block, hblock, rest⟩
    exact ⟨block, mem_append_left _ hblock, rest⟩

theorem draw_eq_ok {element : Nat → NetworkElement} {sketch later : NetworkSketch} {localId : Nat}
    (h : draw element sketch = .ok (localId, later)) :
    localId = sketch.nextLocalId ∧ later = { sketch with
      nextLocalId := sketch.nextLocalId + 1
      elements := sketch.elements ++ [element sketch.nextLocalId] } := by
  cases h
  exact ⟨rfl, rfl⟩

/-- An element that is not a block of an instance. -/
def NetworkElement.isPlain : NetworkElement → Bool
  | .functionBlock .. => false
  | _ => true

theorem isPlain_constants {element : NetworkElement} (h : element.isPlain = true)
    (elements : List NetworkElement) : element.FedByConstants elements := by
  cases element with
  | functionBlock => cases h
  | _ => trivial

theorem draw_carries (element : Nat → NetworkElement) (ends : Nat → List Connection)
    (meaning : SymbolReading → Bool → Bool × List Drive)
    (hid : ∀ localId, (element localId).localId = localId)
    (hplain : ∀ localId, (element localId).isPlain = true)
    (hsources : ∀ localId, ∀ source ∈ (element localId).powerSources, source ∈ current)
    (hends : ∀ localId, ∀ source ∈ ends localId, source.refLocalId = localId ∨ source ∈ current)
    (hmeaning : ∀ localId reading flow, Solves reading flow [element localId] →
      (ends localId).any flow = (meaning reading (current.any flow)).1 ∧
        coilDrives flow [element localId] = plan.coils (meaning reading (current.any flow)).2 ∧
        ∀ instanceName parameter,
          plan.drivesPin (meaning reading (current.any flow)).2 instanceName parameter = false) :
    Carries plan ends (draw element) current meaning := by
  intro sketch value later hdrawn hknown hrun
  rcases draw_eq_ok hrun with ⟨hvalue, hlater⟩
  subst hvalue hlater
  have hinitial : sketch.elements <+: sketch.elements ++ [element sketch.nextLocalId] :=
    prefix_append _ _
  refine ⟨?_, hinitial, ?_, fun reading flow hsolves => ?_⟩
  · apply hdrawn.add (hid _)
    · intro source hsource
      exact hknown source (hsources _ source hsource)
    · exact isPlain_constants (hplain _) _
    · intro localId source declared typeName inputs inOuts outputs helement
      have hplain := hplain sketch.nextLocalId
      rw [helement] at hplain
      cases hplain
  · intro source hsource
    rcases hends _ source hsource with hnew | hold
    · simp [elementIds, hnew, hid]
    · exact (hinitial.map NetworkElement.localId).subset (hknown source hold)
  · rcases hmeaning sketch.nextLocalId reading flow hsolves.append.2 with ⟨hpower, hcoils, hpins⟩
    refine ⟨hpower, ⟨?_, ?_⟩⟩
    · rw [coilDrives_append, hcoils]
    · intro instanceName parameter
      rw [hpins, Bool.or_false]
      rfl

theorem drawContact_carries (negated : Bool) (edge : Option Edge) (operand : Text) :
    Carries plan id (drawContact plan negated edge operand current) current
      (fun reading power =>
        (power && (reading.bits edge (plan.portableOperand operand) != negated), [])) := by
  refine .of_eq (.bind (draw_carries _ (fun localId => [⟨localId, none⟩])
    (fun reading power =>
      (power && (reading.bits edge (plan.portableOperand operand) != negated), []))
    (fun _ => rfl) (fun _ => rfl) (fun _ _ h => h) ?_ ?_) fun localId => .pure rfl) fun _ _ => rfl
  · intro localId source hsource
    rw [mem_singleton] at hsource
    exact .inl (hsource ▸ rfl)
  · intro localId reading flow hsolves
    have hpower := hsolves _ mem_cons_self ⟨localId, none⟩ rfl
    exact ⟨by simpa [NetworkElement.power] using hpower, rfl, fun _ _ => rfl⟩

theorem drawCoil_carries (negated : Bool) (storage : Option Storage) (operand : Text) :
    Carries plan id (drawCoil plan negated storage operand current) current
      (fun _ power => (power, [.coil operand negated storage power])) := by
  refine .of_eq (.bind (draw_carries _ (fun localId => [⟨localId, none⟩])
    (fun _ power => (power, [.coil operand negated storage power]))
    (fun _ => rfl) (fun _ => rfl) (fun _ _ h => h) ?_ ?_) fun localId => .pure rfl) fun _ _ => rfl
  · intro localId source hsource
    rw [mem_singleton] at hsource
    exact .inl (hsource ▸ rfl)
  · intro localId reading flow hsolves
    have hpower := hsolves _ mem_cons_self ⟨localId, none⟩ rfl
    exact ⟨by simpa [NetworkElement.power] using hpower, rfl, fun _ _ => rfl⟩

theorem drawInVariables_carries (expressions : List Text) :
    Carries plan (fun _ => current) (drawInVariables expressions) current passesPower := by
  induction expressions with
  | nil => exact .pure rfl
  | cons expression expressions ih =>
    refine .of_eq (.bind (draw_carries _ (fun _ => current) passesPower
      (fun _ => rfl) (fun _ => rfl) ?_ (fun _ _ h => .inr h) ?_)
      fun localId => .bind ih fun localIds => .pure rfl) fun _ _ => rfl
    · intro localId source hsource
      cases hsource
    · exact fun localId reading flow _ => ⟨rfl, rfl, fun _ _ => rfl⟩

/-! ## Expressions -/

theorem functionCall_carries (typeName : Text) (inputs : List Text) (destination : Text) :
    Carries plan (fun enabled => [enabled]) (functionCall typeName inputs destination current) current
      passesPower := by
  refine .of_eq (.bind (drawInVariables_carries inputs) fun inputIds =>
    .bind (draw_carries _ (fun localId => [⟨localId, some "ENO"⟩]) passesPower
      (fun _ => rfl) (fun _ => rfl) (fun _ _ h => h) ?_ ?_) fun localId => .pure rfl) fun _ _ => rfl
  · intro localId source hsource
    rw [mem_singleton] at hsource
    exact .inl (hsource ▸ rfl)
  · intro localId reading flow hsolves
    have hpower := hsolves _ mem_cons_self ⟨localId, some "ENO"⟩ rfl
    exact ⟨by simpa [NetworkElement.power, passesPower] using hpower, rfl, fun _ _ => rfl⟩

theorem shiftCalls_carries (identity : Nat) (dataType : DataType) (operator : ShiftFunction)
    (value count destination : Text) :
    Carries plan (fun enabled => [enabled])
      (shiftCalls plan identity dataType operator value count destination current) current
      passesPower := by
  refine .entry fun bits _ => .entry fun (converted, shifted) _ => ?_
  exact .of_eq (.bind (functionCall_carries _ _ _) fun enabled =>
    .bind (functionCall_carries _ _ _) fun enabled => functionCall_carries _ _ _) fun _ _ => rfl

theorem expressionValue_carries (node : Expression) (chain : List Connection) :
    Carries plan Prod.snd (expressionValue plan node chain) chain passesPower := by
  induction node generalizing chain with
  | literal dataType text => exact .pure rfl
  | variable_ dataType text => exact .pure rfl
  | binary identity dataType operator left right ihl ihr =>
    exact .of_eq (.bind (ihl chain) fun (first, chain) => .bind (ihr chain) fun (second, chain) =>
      .entry fun result _ => .entry fun function _ =>
        .bind (functionCall_carries _ _ _) fun enabled => .pure rfl) fun _ _ => rfl
  | call identity dataType operator left right ihl ihr =>
    exact .entry fun result _ => .of_eq (.bind (ihl chain) fun (value, chain) =>
      .bind (shiftCalls_carries _ _ _ _ _ _) fun enabled => .pure rfl) fun _ _ => rfl

theorem assignValue_carries (target : Text) (chain : List Connection) (node : Expression) :
    Carries plan id (assignValue plan target chain node) chain passesPower := by
  cases node with
  | literal dataType text =>
    exact .of_eq (.bind (functionCall_carries _ _ _) fun enabled => .pure rfl) fun _ _ => rfl
  | variable_ dataType text =>
    exact .of_eq (.bind (functionCall_carries _ _ _) fun enabled => .pure rfl) fun _ _ => rfl
  | binary identity dataType operator left right =>
    exact .of_eq (.bind (expressionValue_carries left chain) fun (first, chain) =>
      .bind (expressionValue_carries right chain) fun (second, chain) =>
        .entry fun function _ =>
          .bind (functionCall_carries _ _ _) fun enabled => .pure rfl) fun _ _ => rfl
  | call identity dataType operator left right =>
    exact .of_eq (.bind (expressionValue_carries left chain) fun (value, chain) =>
      .bind (shiftCalls_carries _ _ _ _ _ _) fun enabled => .pure rfl) fun _ _ => rfl

theorem compareValues_carries (identity : Nat) (operator : Operator) (left right : Expression)
    (chain : List Connection) :
    Carries plan id (compareValues plan identity operator left right chain) chain
      (fun reading power => (power && reading.bits none (plan.portableOperand
        ((plan.expressionTemps.lookup identity).getD [])), [])) := by
  have hcontact : ∀ result, plan.expressionTemps.lookup identity = some result →
      ∀ enabled : Connection, Carries plan id (drawContact plan false none result [enabled])
        [enabled] (fun reading power => (power && reading.bits none (plan.portableOperand
          ((plan.expressionTemps.lookup identity).getD [])), [])) := by
    intro result hresult enabled
    refine (drawContact_carries false none result).of_eq fun reading power => ?_
    simp [hresult]
  exact .of_eq (.bind (expressionValue_carries left chain) fun (first, chain) =>
    .bind (expressionValue_carries right chain) fun (second, chain) =>
      .entry fun result hresult => .entry fun function _ =>
        .bind (functionCall_carries _ _ _) fun enabled => hcontact result hresult enabled)
    fun _ _ => rfl

theorem emitExpression_carries (expression : Expression) (chain : List Connection) :
    Carries plan id (emitExpression plan expression chain) chain (fun reading power =>
      (power && (isAssignment expression || (plan.reads reading).comparison expression),
        [])) := by
  cases expression with
  | binary identity dataType operator left right =>
    by_cases hassign : operator = .assign
    · have hemit : emitExpression plan (.binary identity dataType operator left right) chain =
          assignValue plan (plan.portableOperand left.text) chain right := if_pos hassign
      rw [hemit]
      refine .of_eq (assignValue_carries _ chain right) fun reading power => ?_
      simp [passesPower, isAssignment, hassign]
    · have hemit : emitExpression plan (.binary identity dataType operator left right) chain =
          compareValues plan identity operator left right chain := if_neg hassign
      rw [hemit]
      refine .of_eq (compareValues_carries identity operator left right chain)
        fun reading power => ?_
      simp [isAssignment, hassign, NetworkPlan.reads, Expression.identity?]
  | _ => exact .raise

/-! ## Blocks and their pins -/

/-- The elements of the variables, from a local id on. -/
def inVariables (start : Nat) (expressions : List Text) : List NetworkElement :=
  (expressions.zipIdx start).map fun (text, localId) => .inVariable localId text

theorem drawInVariables_run (expressions : List Text) (sketch : NetworkSketch) :
    drawInVariables expressions sketch =
      .ok (List.range' sketch.nextLocalId expressions.length, { sketch with
        nextLocalId := sketch.nextLocalId + expressions.length
        elements := sketch.elements ++ inVariables sketch.nextLocalId expressions }) := by
  induction expressions generalizing sketch with
  | nil =>
    rw [inVariables, List.zipIdx_nil, List.map_nil, List.append_nil]
    rfl
  | cons expression expressions ih =>
    have hrest := ih { sketch with
      nextLocalId := sketch.nextLocalId + 1
      elements := sketch.elements ++ [.inVariable sketch.nextLocalId expression] }
    have hstep : drawInVariables (expression :: expressions) sketch =
        (drawInVariables expressions { sketch with
          nextLocalId := sketch.nextLocalId + 1
          elements := sketch.elements ++ [.inVariable sketch.nextLocalId expression] }).map
            fun drawn => (sketch.nextLocalId :: drawn.1, drawn.2) := by
      show (drawInVariables expressions _).bind _ = _
      cases drawInVariables expressions _ <;> rfl
    rw [hstep, hrest]
    simp [Except.map, inVariables, List.range'_succ, Nat.add_assoc, Nat.add_comm 1]

theorem coilDrives_inVariables (flow : Connection → Bool) (start : Nat) (expressions : List Text) :
    coilDrives flow (inVariables start expressions) = [] := by
  simp [coilDrives, inVariables]

/-- The variables that were drawn, with everything else as it was. -/
structure VariablesDrawn (plan : NetworkPlan) (sketch later : NetworkSketch) (localIds : List Nat) :
    Prop where
  drawn : WellDrawn plan later
  earlier : sketch.elements <+: later.elements
  written : ∀ localId ∈ localIds, ∃ text, .inVariable localId text ∈ later.elements
  blocks : later.blocks = sketch.blocks
  pins : later.pinConnections = sketch.pinConnections
  coils : ∀ flow, coilDrives flow later.elements = coilDrives flow sketch.elements

theorem drawInVariables_drawn {expressions : List Text} {sketch later : NetworkSketch}
    {localIds : List Nat} (hdrawn : WellDrawn plan sketch)
    (hrun : drawInVariables expressions sketch = .ok (localIds, later)) :
    VariablesDrawn plan sketch later localIds := by
  have hcarries := @drawInVariables_carries plan [] expressions
  have ⟨hlater, hinitial, _⟩ := hcarries sketch localIds later hdrawn (fun _ h => nomatch h) hrun
  rw [drawInVariables_run] at hrun
  cases hrun
  refine ⟨hlater, hinitial, ?_, rfl, rfl, fun flow => ?_⟩
  · intro localId hmem
    have ⟨index, hindex, hid⟩ := mem_range'.mp hmem
    refine ⟨expressions[index], mem_append_right _ ?_⟩
    rw [inVariables, mem_map]
    refine ⟨(expressions[index], localId), ?_, rfl⟩
    rw [mk_mem_zipIdx_iff_le_and_getElem?_sub]
    have hsub : localId - sketch.nextLocalId = index := by omega
    refine ⟨by omega, ?_⟩
    simp [hsub]
  · rw [coilDrives_append, coilDrives_inVariables, append_nil]

theorem constantInputs_fed {elements : List NetworkElement} {interface : BlockInterface}
    {constantIds : List Nat}
    (h : ∀ localId ∈ constantIds, ∃ text, .inVariable localId text ∈ elements) :
    ∀ input ∈ constantInputs interface constantIds, ∀ source ∈ input.2,
      ∃ text, .inVariable source.refLocalId text ∈ elements := by
  intro input hinput source hsource
  unfold constantInputs at hinput
  have ⟨parameter, _, hshape⟩ := mem_map.mp hinput
  subst hshape
  simp only [mem_map, Option.mem_toList] at hsource
  obtain ⟨constantId, hlookup, hsource⟩ := hsource
  have hentry := mem_reverse.mp (mem_of_lookup hlookup)
  have hid := (of_mem_zip hentry).2
  rw [← hsource]
  exact h constantId hid

theorem constantInputs_pins (interface : BlockInterface) (constantIds : List Nat) :
    (constantInputs interface constantIds).map Prod.fst = interface.inputs := by
  simp [constantInputs, Function.comp_def]

/-- The block of an instance is drawn once; nothing is driven. -/
structure BlockDrawn (plan : NetworkPlan) (sketch later : NetworkSketch) (name : Text)
    (blockId : Nat) : Prop where
  drawn : WellDrawn plan later
  earlier : sketch.elements <+: later.elements
  found : later.blocks.lookup name = some blockId
  drives : ∀ flow, Drives plan flow sketch later []

theorem networkBlock_drawn {name : Text} {sketch later : NetworkSketch} {blockId : Nat}
    (hdrawn : WellDrawn plan sketch) (hrun : networkBlock plan name sketch = .ok (blockId, later)) :
    BlockDrawn plan sketch later name blockId := by
  unfold networkBlock at hrun
  cases hlookup : sketch.blocks.lookup name with
  | some found =>
    rw [hlookup] at hrun
    cases hrun
    exact ⟨hdrawn, prefix_rfl, hlookup, fun flow => .none flow sketch⟩
  | none =>
    rw [hlookup] at hrun
    have ⟨interface, _, hentry, hrun⟩ := bind_eq_ok hrun
    cases hinterface : plan.functionBlockInstances.lookup name with
    | none =>
      rw [hinterface] at hentry
      cases hentry
    | some found =>
      rw [hinterface] at hentry
      cases hentry
      have ⟨constantIds, constants, hconstants, hrun⟩ := bind_eq_ok hrun
      have ⟨drawnId, placed, hplaced, hrun⟩ := bind_eq_ok hrun
      have ⟨boundIds, bound, hbound, hrun⟩ := bind_eq_ok hrun
      have ⟨_, recorded, hrecorded, hrun⟩ := bind_eq_ok hrun
      cases hrecorded
      cases hrun
      have hfirst := drawInVariables_drawn hdrawn hconstants
      have ⟨hid, hplacedEq⟩ := draw_eq_ok hplaced
      have hblock : WellDrawn plan placed := by
        rw [hplacedEq]
        apply hfirst.drawn.add rfl (fun _ hsource => by cases hsource)
        · exact constantInputs_fed hfirst.written
        · intro localId source declared typeName inputs inOuts outputs helement
          cases helement
          rfl
      have hnew : ∃ block ∈ placed.elements, block.localId = constants.nextLocalId ∧
          block.IsBlockOf plan name interface.inputs := by
        rw [hplacedEq]
        exact ⟨_, mem_append_right _ (mem_singleton_self _), rfl, rfl, rfl,
          constantInputs_pins _ _⟩
      have hsecond := drawInVariables_drawn hblock hbound
      have hplacedPrefix : constants.elements <+: placed.elements := by
        rw [hplacedEq]
        exact prefix_append _ _
      have hinitial := hfirst.earlier.trans (hplacedPrefix.trans hsecond.earlier)
      refine ⟨?_, hinitial, by simp, fun flow => ⟨?_, fun instanceName parameter => ?_⟩⟩
      · constructor
        case blocks =>
          intro other otherId hother
          by_cases hsame : other = name
          · subst hsame
            simp only [lookup_cons_self, Option.some.injEq] at hother
            have ⟨block, hmem, hblockId, hof⟩ := hnew
            refine ⟨block, hsecond.earlier.subset hmem, interface, ?_, hinterface, hof⟩
            rw [← hother, hid]
            exact hblockId
          · have hne : (other == name) = false := by simpa using hsame
            simp only [lookup_cons, hne] at hother
            exact hsecond.drawn.blocks other otherId hother
        all_goals first
          | exact hsecond.drawn.distinct
          | exact hsecond.drawn.below
          | exact hsecond.drawn.fed
          | exact hsecond.drawn.constants
          | exact hsecond.drawn.named
          | exact hsecond.drawn.wires
      · show coilDrives flow bound.elements = _
        rw [hsecond.coils, hplacedEq, coilDrives_append, hfirst.coils]
        rfl
      · have hpins : bound.pinConnections = sketch.pinConnections := by
          rw [hsecond.pins, hplacedEq]
          exact hfirst.pins
        simp only [NetworkSketch.pinPower, hpins]
        simp [NetworkPlan.drivesPin]

theorem pinParameter_run {operand name parameter : Text} {interface : BlockInterface}
    {sketch later : NetworkSketch}
    (hrun : pinParameter plan operand sketch = .ok ((name, interface, parameter), later)) :
    later = sketch ∧ name = (partitionPin operand).1 ∧
      plan.functionBlockInstances.lookup name = some interface ∧
      parameter = interface.parameter (partitionPin operand).2 := by
  change (Sketching.entry (plan.functionBlockInstances.lookup (partitionPin operand).1) >>=
    fun interface => Pure.pure ((partitionPin operand).1, interface,
      interface.parameter (partitionPin operand).2)) sketch = _ at hrun
  have ⟨found, same, hentry, hrest⟩ := bind_eq_ok hrun
  cases hlookup : plan.functionBlockInstances.lookup (partitionPin operand).1 with
  | none =>
    rw [hlookup] at hentry
    cases hentry
  | some entry =>
    rw [hlookup] at hentry
    cases hentry
    cases hrest
    exact ⟨rfl, rfl, hlookup, rfl⟩

theorem pinPower_connect (flow : Connection → Bool) (sketch : NetworkSketch)
    (name parameter : Text) (instanceName pin : Text) :
    ({ sketch with pinConnections := sketch.pinConnections ++
        current.map fun source => ⟨name, parameter, source⟩ } : NetworkSketch).pinPower plan flow
          instanceName pin =
      (sketch.pinPower plan flow instanceName pin ||
        (plan.instanceName name == instanceName && parameter == pin && current.any flow)) := by
  simp only [NetworkSketch.pinPower, any_append, any_map]
  congr 1
  induction current with
  | nil => simp
  | cons source rest ih =>
    rw [any_cons, ih, any_cons, Function.comp_apply]
    cases plan.instanceName name == instanceName <;> cases parameter == pin <;> simp

theorem blockInput_carries {instruction : LadderInstruction}
    (hexpression : instruction.expression = none)
    (hoperation : instruction.operation = .FUNCTION_BLOCK_INPUT) :
    Carries plan id (emitInstruction plan instruction current) current
      (fun reading => instructionFlow .ends (plan.reads reading) instruction) := by
  intro sketch value later hdrawn hknown hrun
  simp only [emitInstruction, hexpression, hoperation, if_true] at hrun
  have ⟨blockId, drawn, hblock, hrest⟩ := bind_eq_ok hrun
  have hof := networkBlock_drawn hdrawn hblock
  have ⟨⟨name, interface, parameter⟩, same, hpin, hafter⟩ := bind_eq_ok hrest
  have ⟨hsame, hname, hinterface, hparameter⟩ := pinParameter_run hpin
  subst hsame
  split at hafter
  · next hinputs =>
      have ⟨_, connected, hconnect, hend⟩ := bind_eq_ok hafter
      cases hconnect
      cases hend
      refine ⟨?_, hof.earlier, fun _ h => (nomatch h), fun reading flow hsolves => ?_⟩
      · constructor
        case wires =>
          intro pin hmem
          rw [mem_append, mem_map] at hmem
          rcases hmem with hold | ⟨source, hsource, hnew⟩
          · exact hof.drawn.wires pin hold
          · have ⟨block, hmember, found, _, hlookup, hblockOf⟩ :=
              hof.drawn.blocks _ blockId hof.found
            rw [← hname, hinterface, Option.some.injEq] at hlookup
            subst hnew hlookup
            have hpinInput : parameter ∈ interface.inputs := by
              rcases hinputs with hinput | hnone
              · exact hinput
              · rw [hnone] at hsource
                cases hsource
            exact ⟨block, hmember, interface, hinterface, hname ▸ hblockOf, hpinInput⟩
        case distinct => exact hof.drawn.distinct
        case below => exact hof.drawn.below
        case fed => exact hof.drawn.fed
        case constants => exact hof.drawn.constants
        case named => exact hof.drawn.named
        case blocks => exact hof.drawn.blocks
      · have hmeaning : instructionFlow .ends (plan.reads reading) instruction (current.any flow) =
            (false, [.pin (partitionPin (instruction.operand.getD [])).1
              (partitionPin (instruction.operand.getD [])).2 (current.any flow)]) := by
          simp [instructionFlow, hexpression, hoperation, PinRule.ends]
        have hdrives := hof.drives flow
        simp only [hmeaning]
        refine ⟨rfl, ⟨?_, fun instanceName pin => ?_⟩⟩
        · show coilDrives flow same.elements = _
          rw [hdrives.coils]
          rfl
        · rw [pinPower_connect, hdrives.pins]
          have hplan : plan.parameter name (partitionPin (instruction.operand.getD [])).2 =
              parameter := by
            simp [NetworkPlan.parameter, hinterface, hparameter]
          simp [NetworkPlan.drivesPin, ← hname, hplan]
  · cases hafter

theorem outputReference_carries {instruction : LadderInstruction}
    (hexpression : instruction.expression = none)
    (hoperation : instruction.operation = .BLOCK_OUTPUT_REFERENCE) :
    Carries plan id (emitInstruction plan instruction current) current
      (fun reading => instructionFlow .ends (plan.reads reading) instruction) := by
  intro sketch value later hdrawn hknown hrun
  have hinput : LadderOperation.BLOCK_OUTPUT_REFERENCE ≠ .FUNCTION_BLOCK_INPUT := by decide
  simp only [emitInstruction, hexpression, hoperation, if_neg hinput, if_true] at hrun
  have ⟨blockId, drawn, hblock, hrest⟩ := bind_eq_ok hrun
  have hof := networkBlock_drawn hdrawn hblock
  have ⟨⟨name, interface, parameter⟩, same, hpin, hafter⟩ := bind_eq_ok hrest
  have ⟨hsame, hname, hinterface, hparameter⟩ := pinParameter_run hpin
  subst hsame
  cases hafter
  have ⟨block, hmember, found, hid, hlookup, hblockOf⟩ := hof.drawn.blocks _ blockId hof.found
  refine ⟨hof.drawn, hof.earlier, ?_, fun reading flow hsolves => ⟨?_, ?_⟩⟩
  · intro source hsource
    rw [id, mem_singleton] at hsource
    rw [hsource, ← hid]
    exact mem_map_of_mem hmember
  · have hpower := hsolves block hmember ⟨blockId, some parameter⟩ hid.symm
    cases block with
    | functionBlock localId source declared typeName inputs inOuts outputs =>
      have hdeclared := hblockOf.2.1
      have hplan : plan.parameter (partitionPin (instruction.operand.getD [])).1
          (partitionPin (instruction.operand.getD [])).2 = parameter := by
        rw [← hname]
        simp [NetworkPlan.parameter, hinterface, hparameter]
      simpa [instructionFlow, hexpression, hoperation, PinRule.ends, NetworkPlan.reads, hplan,
        NetworkElement.power, hdeclared] using hpower
    | _ => cases hblockOf
  · have hmeaning : (instructionFlow .ends (plan.reads reading) instruction
        (current.any flow)).2 = [] := by
      simp [instructionFlow, hexpression, hoperation]
    simp only [hmeaning]
    exact hof.drives flow

theorem emitInstruction_carries (instruction : LadderInstruction) (current : List Connection) :
    Carries plan id (emitInstruction plan instruction current) current
      (fun reading => instructionFlow .ends (plan.reads reading) instruction) := by
  cases hexpression : instruction.expression with
  | some expression =>
    have hemit : emitInstruction plan instruction current =
        emitExpression plan expression current := by
      simp [emitInstruction, hexpression]
    rw [hemit]
    refine (emitExpression_carries expression current).of_eq fun reading power => ?_
    simp [instructionFlow, hexpression]
  | none =>
    by_cases hinput : instruction.operation = .FUNCTION_BLOCK_INPUT
    · exact blockInput_carries hexpression hinput
    by_cases hreference : instruction.operation = .BLOCK_OUTPUT_REFERENCE
    · exact outputReference_carries hexpression hreference
    cases hencoding : encoding instruction.operation with
    | none =>
      have hemit : emitInstruction plan instruction current = Sketching.raise .keyError := by
        simp [emitInstruction, hexpression, hinput, hreference, hencoding]
      rw [hemit]
      exact .raise
    | some encoding =>
      cases hkind : encoding.element with
      | contact =>
        have hemit : emitInstruction plan instruction current =
            drawContact plan encoding.negated encoding.edge (instruction.operand.getD [])
              current := by
          simp [emitInstruction, hexpression, hinput, hreference, hencoding, hkind]
        rw [hemit]
        refine (drawContact_carries _ _ _).of_eq fun reading power => ?_
        simp [instructionFlow, hexpression, hinput, hreference, hencoding, hkind,
          NetworkPlan.reads]
      | coil =>
        have hemit : emitInstruction plan instruction current =
            drawCoil plan encoding.negated encoding.storage (instruction.operand.getD [])
              current := by
          simp [emitInstruction, hexpression, hinput, hreference, hencoding, hkind]
        rw [hemit]
        refine (drawCoil_carries _ _ _).of_eq fun reading power => ?_
        simp [instructionFlow, hexpression, hinput, hreference, hencoding, hkind]

/-! ## Series and parallels -/

theorem joinSources_any (flow : Connection → Bool) (joined sources : List Connection) :
    (joinSources joined sources).any flow = (joined.any flow || sources.any flow) := by
  induction sources generalizing joined with
  | nil => simp [joinSources]
  | cons source sources ih =>
    have hstep : joinSources joined (source :: sources) =
        joinSources (if source ∈ joined then joined else joined ++ [source]) sources := rfl
    rw [hstep, ih, any_cons]
    split
    · next hmem =>
        -- A source that is joined already adds nothing.
        cases hsource : flow source with
        | false => simp
        | true =>
          have hjoined : joined.any flow = true := any_eq_true.mpr ⟨source, hmem, hsource⟩
          simp [hjoined]
    · simp [Bool.or_assoc]

theorem joinSources_mem {joined sources : List Connection} {source : Connection}
    (h : source ∈ joinSources joined sources) : source ∈ joined ∨ source ∈ sources := by
  induction sources generalizing joined with
  | nil => exact .inl h
  | cons first sources ih =>
    have hrest := @ih (if first ∈ joined then joined else joined ++ [first]) h
    rcases hrest with hjoined | hsources
    · split at hjoined
      · exact .inl hjoined
      · rw [mem_append, mem_singleton] at hjoined
        rcases hjoined with hold | rfl
        · exact .inl hold
        · exact .inr mem_cons_self
    · exact .inr (mem_cons_of_mem _ hsources)

end

section

variable (plan : NetworkPlan)

mutual

theorem emitSeries_carries : ∀ (series : LadderSeries) (current : List Connection),
    Carries plan id (emitSeries plan series current) current
      (fun reading => seriesFlow .ends (plan.reads reading) series)
  | [], _ => .pure rfl
  | node :: rest, current =>
    .of_eq (.bind (emitNode_carries node current) fun sources => emitSeries_carries rest sources)
      fun _ _ => rfl

theorem emitNode_carries : ∀ (node : LadderNode) (current : List Connection),
    Carries plan id (emitNode plan node current) current
      (fun reading => nodeFlow .ends (plan.reads reading) node)
  | .instruction instruction, current => emitInstruction_carries instruction current
  | .parallel branches, current => by
    intro sketch value later hdrawn hknown hrun
    have ⟨hlater, hinitial, hends, hmeans⟩ := emitParallel_carries branches current [] sketch value
      later hdrawn hknown (fun _ h => nomatch h) hrun
    refine ⟨hlater, hinitial, hends, fun reading flow hsolves => ?_⟩
    have ⟨hpower, hdrives⟩ := hmeans reading flow hsolves
    exact ⟨hpower, hdrives⟩

theorem emitParallel_carries : ∀ (branches : List LadderSeries) (current joined : List Connection)
    (sketch : NetworkSketch) (value : List Connection) (later : NetworkSketch),
    WellDrawn plan sketch → Known sketch current → Known sketch joined →
      emitParallel plan branches current joined sketch = .ok (value, later) →
        WellDrawn plan later ∧ sketch.elements <+: later.elements ∧ Known later value ∧
          ∀ reading flow, Solves reading flow later.elements →
            value.any flow = (joined.any flow ||
              (parallelFlow .ends (plan.reads reading) branches (current.any flow)).1) ∧
              Drives plan flow sketch later
                (parallelFlow .ends (plan.reads reading) branches (current.any flow)).2
  | [], current, joined, sketch, value, later, hdrawn, _, hjoined, hrun => by
    cases hrun
    exact ⟨hdrawn, prefix_rfl, hjoined, fun reading flow _ =>
      ⟨by simp [parallelFlow], .none flow sketch⟩⟩
  | branch :: rest, current, joined, sketch, value, later, hdrawn, hknown, hjoined, hrun => by
    have ⟨sources, middle, hbranch, hrest⟩ := bind_eq_ok hrun
    have ⟨hmiddle, hinitial, hsources, hmeans⟩ :=
      emitSeries_carries branch current sketch sources middle hdrawn hknown hbranch
    have hall : Known middle (joinSources joined sources) := by
      intro source hsource
      rcases joinSources_mem hsource with hold | hnew
      · exact hjoined.later hinitial source hold
      · exact hsources source hnew
    have ⟨hlater, hmore, hends, hthen⟩ := emitParallel_carries rest current
      (joinSources joined sources) middle value later hmiddle (hknown.later hinitial) hall hrest
    refine ⟨hlater, hinitial.trans hmore, hends, fun reading flow hsolves => ?_⟩
    have ⟨hpower, hdrives⟩ := hmeans reading flow (hsolves.earlier hmore)
    have ⟨hresult, hothers⟩ := hthen reading flow hsolves
    rw [id] at hpower
    constructor
    · rw [hresult, joinSources_any, hpower, Bool.or_assoc]
      rfl
    · exact hdrives.trans hothers

end

end

end TwinForge.Plcopen
