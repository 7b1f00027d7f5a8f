import Mathlib.Data.List.Induction
import TwinForge.Plcopen.NetworkEmission

/-! # Power flow

The meaning of a series and parallel tree, and of a connection graph: an assignment of
power to its outputs that agrees with every element. A graph whose elements are fed by
earlier ones has such an assignment.
-/

namespace TwinForge.Plcopen

open Model

/-! ## The tree -/

/-- What a network reads: operands and their transitions, comparisons, block outputs. -/
structure LadderReading where
  operand : Option Edge → Text → Bool
  comparison : Expression → Bool
  output : Text → Text → Bool

/-- What a network drives: a coil, or an input pin of a function block instance. -/
inductive Drive where
  | coil (operand : Text) (negated : Bool) (storage : Option Storage) (power : Bool)
  | pin («instance» pin : Text) (power : Bool)
deriving DecidableEq, Repr

/-- What flows on behind a block input and behind an output reference. -/
structure PinRule where
  input : Bool → Bool
  output : Bool → Bool → Bool

/-- A block input ends its branch; an output reference starts one. -/
def PinRule.ends : PinRule := ⟨fun _ => false, fun _ output => output⟩

/-- Everything to the left governs what comes behind. -/
def PinRule.passes : PinRule := ⟨id, fun power output => power && output⟩

def isAssignment : Expression → Bool
  | .binary _ _ operator _ _ => decide (operator = .assign)
  | _ => false

section

variable (rule : PinRule) (reading : LadderReading)

def instructionFlow (instruction : LadderInstruction) (power : Bool) : Bool × List Drive :=
  let operand := instruction.operand.getD []
  match instruction.expression with
  | some expression =>
    (power && (isAssignment expression || reading.comparison expression), [])
  | none =>
    let (name, pin) := partitionPin operand
    if instruction.operation = .FUNCTION_BLOCK_INPUT then
      (rule.input power, [.pin name pin power])
    else if instruction.operation = .BLOCK_OUTPUT_REFERENCE then
      (rule.output power (reading.output name pin), [])
    else
      match encoding instruction.operation with
      | none => (power, [])
      | some encoding =>
        match encoding.element with
        | .contact =>
          (power && (reading.operand encoding.edge operand != encoding.negated), [])
        | .coil => (power, [.coil operand encoding.negated encoding.storage power])

mutual

/-- A series conducts iff all its elements conduct. -/
def seriesFlow : LadderSeries → Bool → Bool × List Drive
  | [], power => (power, [])
  | node :: rest, power =>
    let first := nodeFlow node power
    let second := seriesFlow rest first.1
    (second.1, first.2 ++ second.2)

def nodeFlow : LadderNode → Bool → Bool × List Drive
  | .instruction instruction, power => instructionFlow rule reading instruction power
  | .parallel branches, power => parallelFlow branches power

/-- A parallel conducts iff some branch conducts. -/
def parallelFlow : List LadderSeries → Bool → Bool × List Drive
  | [], _ => (false, [])
  | branch :: rest, power =>
    let first := seriesFlow branch power
    let second := parallelFlow rest power
    (first.1 || second.1, first.2 ++ second.2)

end

def networkDrives (network : LadderSeries) : List Drive := (seriesFlow rule reading network true).2

end

/-! ## The graph -/

/-- What a graph reads: symbols and their transitions, the outputs of declared instances. -/
structure SymbolReading where
  bits : Option Edge → Text → Bool
  outputs : Text → Text → Bool

def NetworkElement.powerSources : NetworkElement → List Connection
  | .contact _ _ _ sources _ => sources
  | .coil _ _ _ sources _ => sources
  | .functionCall _ _ enable _ _ => enable
  | _ => []

def NetworkElement.power (reading : SymbolReading) (flow : Connection → Bool) (output : Connection) :
    NetworkElement → Bool
  | .leftPowerRail _ => true
  | .contact _ negated edge sources symbol =>
    sources.any flow && (reading.bits edge symbol != negated)
  | .coil _ _ _ sources _ => sources.any flow
  | .functionCall _ _ enable _ _ => enable.any flow
  | .functionBlock _ _ instanceName _ _ _ _ =>
    reading.outputs instanceName (output.formalParameter.getD [])
  | _ => false

/-- The assignment agrees with every element of the graph. -/
def Solves (reading : SymbolReading) (flow : Connection → Bool) (elements : List NetworkElement) :
    Prop :=
  ∀ element ∈ elements, ∀ output : Connection, output.refLocalId = element.localId →
    flow output = element.power reading flow output

/-- The coils of a graph with the power that reaches them. -/
def coilDrives (flow : Connection → Bool) (elements : List NetworkElement) :
    List (Text × Bool × Option Storage × Bool) :=
  elements.filterMap fun
    | .coil _ negated storage sources symbol => some (symbol, negated, storage, sources.any flow)
    | _ => none

/-- Does power reach the pin of a declared instance? -/
def pinDriven (flow : Connection → Bool) (elements : List NetworkElement)
    (instanceName parameter : Text) : Bool :=
  elements.any fun
    | .functionBlock _ _ declared _ inputs _ _ =>
      declared == instanceName &&
        inputs.any fun input => input.1 == parameter && input.2.any flow
    | _ => false

/-- Every element takes power from known elements or from elements before it. -/
def Fed : List Nat → List NetworkElement → Prop
  | _, [] => True
  | known, element :: elements =>
    (∀ source ∈ element.powerSources, source.refLocalId ∈ known) ∧
      Fed (known ++ [element.localId]) elements

def flowOf (reading : SymbolReading) (elements : List NetworkElement) : Connection → Bool :=
  elements.foldl (fun flow element output =>
    if output.refLocalId = element.localId then element.power reading flow output
    else flow output) fun _ => false

section

variable {reading : SymbolReading} {flow : Connection → Bool}

def elementIds (elements : List NetworkElement) : List Nat :=
  elements.map NetworkElement.localId

theorem fed_append {known : List Nat} {first second : List NetworkElement} :
    Fed known (first ++ second) ↔ Fed known first ∧ Fed (known ++ elementIds first) second := by
  induction first generalizing known with
  | nil => simp [Fed, elementIds]
  | cons element elements ih => simp [Fed, ih, and_assoc, elementIds]

theorem Fed.sources {known : List Nat} {elements : List NetworkElement} (h : Fed known elements)
    {element : NetworkElement} (helement : element ∈ elements) {source : Connection}
    (hsource : source ∈ element.powerSources) :
    source.refLocalId ∈ known ++ elementIds elements := by
  induction elements generalizing known with
  | nil => cases helement
  | cons first rest ih =>
    cases helement with
    | head =>
      have hknown := h.1 source hsource
      exact List.mem_append_left _ hknown
    | tail _ hrest =>
      have hlater := ih h.2 hrest
      simpa [elementIds] using hlater

theorem any_flow_congr {other : Connection → Bool} {sources : List Connection}
    (h : ∀ source ∈ sources, flow source = other source) : sources.any flow = sources.any other := by
  induction sources with
  | nil => rfl
  | cons source sources ih =>
    have hfirst := h source List.mem_cons_self
    have hrest := ih fun later hlater => h later (List.mem_cons_of_mem _ hlater)
    simp [hfirst, hrest]

theorem power_congr {other : Connection → Bool} {element : NetworkElement} (output : Connection)
    (h : ∀ source ∈ element.powerSources, flow source = other source) :
    element.power reading flow output = element.power reading other output := by
  have hany := any_flow_congr h
  cases element with
  | contact localId negated edge sources symbol =>
    simp only [NetworkElement.powerSources] at hany
    simp only [NetworkElement.power, hany]
  | coil localId negated storage sources symbol => exact hany
  | functionCall localId typeName enable inputs destination => exact hany
  | _ => rfl

theorem Solves.append {first second : List NetworkElement}
    (h : Solves reading flow (first ++ second)) :
    Solves reading flow first ∧ Solves reading flow second :=
  ⟨fun element helement => h element (List.mem_append_left _ helement),
    fun element helement => h element (List.mem_append_right _ helement)⟩

theorem flowOf_solves {elements : List NetworkElement} (hdistinct : (elementIds elements).Nodup)
    (hfed : Fed [] elements) : Solves reading (flowOf reading elements) elements := by
  induction elements using List.reverseRecOn with
  | nil => exact fun element helement => nomatch helement
  | append_singleton elements newest ih =>
    have hids : (elementIds elements).Nodup ∧ newest.localId ∉ elementIds elements := by
      rw [elementIds, List.map_append, List.nodup_append] at hdistinct
      refine ⟨hdistinct.1, fun hmem => ?_⟩
      exact hdistinct.2.2 _ hmem newest.localId (by simp) rfl
    have ⟨hbefore, hnewest⟩ := fed_append.mp hfed
    have hsolves := ih hids.1 hbefore
    have hkept : ∀ output : Connection, output.refLocalId ∈ elementIds elements →
        flowOf reading (elements ++ [newest]) output = flowOf reading elements output := by
      intro output hmem
      have hother : output.refLocalId ≠ newest.localId := fun hsame => hids.2 (hsame ▸ hmem)
      simp [flowOf, hother]
    intro element helement output houtput
    rw [List.mem_append, List.mem_singleton] at helement
    rcases helement with hold | rfl
    · have hmem : output.refLocalId ∈ elementIds elements := houtput ▸ List.mem_map_of_mem hold
      rw [hkept output hmem, hsolves element hold output houtput]
      apply power_congr
      intro source hsource
      have hearlier := hbefore.sources hold hsource
      exact (hkept source (by simpa using hearlier)).symm
    · have hvalue : flowOf reading (elements ++ [element]) output =
          element.power reading (flowOf reading elements) output := by
        simp [flowOf, houtput]
      rw [hvalue]
      apply power_congr
      intro source hsource
      have hearlier := hnewest.1 source hsource
      exact (hkept source (by simpa using hearlier)).symm

end

/-! ## A graph that reads the symbols of a plan -/

namespace NetworkPlan

variable (plan : NetworkPlan)

/-- Source operands, comparisons and pins through the symbols of the plan. -/
def reads (reading : SymbolReading) : LadderReading where
  operand edge operand := reading.bits edge (plan.portableOperand operand)
  comparison expression := reading.bits none
    (plan.portableOperand ((expression.identity?.bind fun identity => plan.expressionTemps.lookup identity).getD []))
  output name pin := reading.outputs (plan.instanceName name) (plan.parameter name pin)

def coils (drives : List Drive) : List (Text × Bool × Option Storage × Bool) :=
  drives.filterMap fun
    | .coil operand negated storage power =>
      some (plan.portableOperand operand, negated, storage, power)
    | .pin .. => none

def drivesPin (drives : List Drive) (instanceName parameter : Text) : Bool :=
  drives.any fun
    | .pin name pin power =>
      plan.instanceName name == instanceName && plan.parameter name pin == parameter && power
    | .coil .. => false

end NetworkPlan

end TwinForge.Plcopen
