import Mathlib.Logic.Function.Basic
import TwinForge.Plcopen.OneShotNames

/-! # Scans of emitted ladder logic

What an LD body does when it is evaluated: power flows from rails through contacts, coils
write variables, and a rising-edge instance keeps its last clock from one call to the next.
Data other than Boolean is left open, and so is everything that happens between rungs.
-/

namespace TwinForge.Plcopen

open List

/-! ## Evaluation -/

/-- What lasts from one rung to the next: variables, and the last clock of each rising-edge
instance. -/
structure ScanState where
  values : Text → Bool
  triggers : Text → Bool

/-- A body part of the way: the state, and the power at the elements so far, by local id. -/
structure Evaluation where
  state : ScanState
  power : Nat → Bool

/-- What a block other than a rising edge leaves in the Boolean variables. -/
abbrev World := LadderElement → ScanState → Text → Bool

/-- Power on a wire that comes from any of the connected elements. -/
def Evaluation.joined (evaluation : Evaluation) (connections : List Connection) : Bool :=
  connections.any fun connection => evaluation.power connection.refLocalId

def Evaluation.pin (evaluation : Evaluation) (inputs : List (Text × List Connection))
    (name : Text) : Bool :=
  evaluation.joined ((inputs.lookup name).getD [])

def Evaluation.setPower (evaluation : Evaluation) (localId : Nat) (value : Bool) : Evaluation :=
  { evaluation with power := Function.update evaluation.power localId value }

def ScanState.write (state : ScanState) (name : Text) (value : Bool) : ScanState :=
  { state with values := Function.update state.values name value }

def coilValue (storage : Option Storage) (power value : Bool) : Bool :=
  match storage with
  | none => power
  | some .set => value || power
  | some .reset => value && !power

/-- One call of a rising-edge instance; it gives a pulse when its clock has become true. -/
def ScanState.trigger (state : ScanState) (instanceName : Text) (outputs : List (Text × Option Text))
    (clock : Bool) : ScanState :=
  let pulse := clock && !state.triggers instanceName
  let state := { state with triggers := Function.update state.triggers instanceName clock }
  match outputs.lookup ("Q" : Text) with
  | some (some name) => state.write name pulse
  | _ => state

/-- The rising-edge instance that an element calls. -/
def LadderElement.detector? : LadderElement → Option Text
  | .block _ typeName instanceName _ _ _ =>
    if typeName = ("R_TRIG" : Text) then instanceName else none
  | _ => none

/-- The rising-edge instances that a body calls, call by call. -/
def detectors (elements : List LadderElement) : List Text :=
  elements.filterMap LadderElement.detector?

@[simp] theorem detectors_append (first second : List LadderElement) :
    detectors (first ++ second) = detectors first ++ detectors second :=
  filterMap_append

def evaluateElement (world : World) (evaluation : Evaluation) (element : LadderElement) :
    Evaluation :=
  let state := evaluation.state
  match element with
  | .leftPowerRail localId => evaluation.setPower localId true
  | .rightPowerRail _ => evaluation
  | .comment _ _ _ => evaluation
  | .contact localId negated connections symbol =>
    evaluation.setPower localId
      (evaluation.joined connections && (state.values symbol != negated))
  | .coil localId storage connections symbol =>
    let power := evaluation.joined connections
    { evaluation.setPower localId power with
      state := state.write symbol (coilValue storage power (state.values symbol)) }
  | .inVariable localId expression => evaluation.setPower localId (state.values expression)
  | .block localId typeName instanceName inputs outputs callType =>
    let block := LadderElement.block localId typeName instanceName inputs outputs callType
    let enabled := evaluation.pin inputs "EN"
    let called := match block.detector? with
      | some instanceName =>
        if enabled then state.trigger instanceName outputs (evaluation.pin inputs "CLK")
        else state
      | none => { state with values := world block state }
    { evaluation.setPower localId enabled with state := called }

/-- Evaluate a body, element after element; no power is left from another body. -/
def evaluateBody (world : World) (elements : List LadderElement) (state : ScanState) :
    Evaluation :=
  elements.foldl (evaluateElement world) ⟨state, fun _ => false⟩

/-! ## Runs -/

/-- One evaluation of a rung. Before it, other logic and the inputs change variables. -/
structure RungScan where
  elements : List LadderElement
  refresh : (Text → Bool) → Text → Bool
  world : World

def RungScan.start (scan : RungScan) (state : ScanState) : ScanState :=
  { state with values := scan.refresh state.values }

def RungScan.run (scan : RungScan) (state : ScanState) : ScanState :=
  (evaluateBody scan.world scan.elements (scan.start state)).state

/-- A run of scans, rung by rung, in whatever order tasks and calls evaluate them. -/
def runScans (scans : List RungScan) (state : ScanState) : ScanState :=
  scans.foldl (fun state scan => scan.run state) state

/-- The start: no rising-edge instance has seen its clock true. -/
def ScanState.Fresh (state : ScanState) : Prop := ∀ instanceName, state.triggers instanceName = false

/-! ## Frames -/

variable {instanceName : Text}

theorem ScanState.trigger_other {other : Text} (h : other ≠ instanceName)
    (state : ScanState) (outputs : List (Text × Option Text)) (clock : Bool) :
    (state.trigger instanceName outputs clock).triggers other = state.triggers other := by
  unfold ScanState.trigger
  simp only
  split
  · exact Function.update_of_ne h _ _
  · exact Function.update_of_ne h _ _

section

variable {world : World}

theorem evaluateElement_triggers {element : LadderElement}
    (h : element.detector? ≠ some instanceName) (evaluation : Evaluation) :
    (evaluateElement world evaluation element).state.triggers instanceName =
      evaluation.state.triggers instanceName := by
  cases element with
  | block localId typeName name inputs outputs callType =>
    unfold evaluateElement
    cases hdetector : (LadderElement.block localId typeName name inputs outputs
        callType).detector? with
    | none => simp only [hdetector]
    | some other =>
      have hne : instanceName ≠ other := fun hsame => h (hsame ▸ hdetector)
      simp only [hdetector]
      split
      · exact ScanState.trigger_other hne _ _ _
      · rfl
  | _ => rfl

theorem foldl_triggers {elements : List LadderElement}
    (h : instanceName ∉ detectors elements) (evaluation : Evaluation) :
    (elements.foldl (evaluateElement world) evaluation).state.triggers instanceName =
      evaluation.state.triggers instanceName := by
  induction elements generalizing evaluation with
  | nil => rfl
  | cons element elements ih =>
    have hall : ∀ other ∈ element :: elements, other.detector? ≠ some instanceName := by
      intro other hother hsame
      exact h (mem_filterMap.mpr ⟨other, hother, hsame⟩)
    have hrest : instanceName ∉ detectors elements := by
      intro hmember
      obtain ⟨other, hother, hsame⟩ := mem_filterMap.mp hmember
      exact hall other (mem_cons_of_mem _ hother) hsame
    rw [foldl_cons, ih hrest, evaluateElement_triggers (hall element mem_cons_self)]

theorem RungScan.run_triggers {scan : RungScan}
    (h : instanceName ∉ detectors scan.elements) (state : ScanState) :
    (scan.run state).triggers instanceName = state.triggers instanceName :=
  foldl_triggers h _

end

/-! ## Edge detection by one-shots

A one-shot is emitted as a rising-edge instance between a coil and a contact. Its state is
planned for the rung and not for the instruction, so the one-shots of a rung detect edges
exactly when there is no more than one of them.
-/

open Model

/-! ### Emitted one-shots -/

/-- The elements of a one-shot: its clock is written by a coil, and its pulse is read by a
contact behind a rail of its own. -/
def oneShotFragment (codesys : Bool) (plan : PLCopenOperandPlan) (oneshot : PLCopenOneShotExport)
    (conditionIds : List Nat) (first : Nat) : List LadderElement :=
  [.coil first none (wires conditionIds none) (plan.portableOperand oneshot.inputName),
    .rightPowerRail (first + 1), .leftPowerRail (first + 2),
    .inVariable (first + 3) oneshot.inputName,
    .block (first + 4) "R_TRIG" (some oneshot.instanceName)
      [("EN", wires [first + 2] none), ("CLK", wires [first + 3] none)]
      [("ENO", none), ("Q", some oneshot.pulseName)] (callType codesys "functionblock"),
    .coil (first + 5) none (wires [first + 4] (some "ENO"))
      (plan.portableOperand oneshot.executedName),
    .rightPowerRail (first + 6), .leftPowerRail (first + 7),
    .contact (first + 8) false (wires [first + 7] none) (plan.portableOperand oneshot.pulseName)]

theorem emitOneShotBlock_eq (codesys : Bool) (plan : PLCopenOperandPlan)
    (oneshot : PLCopenOneShotExport) (conditionIds : List Nat) (first : Nat) :
    emitOneShotBlock codesys plan oneshot conditionIds first =
      .ok ⟨first + 8, oneShotFragment codesys plan oneshot conditionIds first, [], first + 9⟩ :=
  rfl

/-- A one-shot in a body, with the elements before and after it. -/
structure EmittedOneShot where
  oneshot : PLCopenOneShotExport
  conditionIds : List Nat
  first : Nat
  before : List LadderElement
  after : List LadderElement

namespace EmittedOneShot

section

variable (codesys : Bool) (plan : PLCopenOperandPlan) (emitted : EmittedOneShot)

def fragment : List LadderElement :=
  oneShotFragment codesys plan emitted.oneshot emitted.conditionIds emitted.first

def body : List LadderElement :=
  emitted.before ++ (emitted.fragment codesys plan ++ emitted.after)

/-- Where an evaluation of the rung stands in front of the one-shot. -/
def reached (scan : RungScan) (state : ScanState) : Evaluation :=
  evaluateBody scan.world emitted.before (scan.start state)

/-- The condition to the left of the one-shot. -/
def left (scan : RungScan) (state : ScanState) : Bool :=
  (emitted.reached scan state).joined (wires emitted.conditionIds none)

/-- Where the evaluation stands behind the one-shot. -/
def passed (scan : RungScan) (state : ScanState) : Evaluation :=
  (emitted.fragment codesys plan).foldl (evaluateElement scan.world) (emitted.reached scan state)

def passes (scan : RungScan) (state : ScanState) : Bool :=
  (emitted.passed codesys plan scan state).power (emitted.first + 8)

/-- The condition to the left at the latest evaluation of the rung in a run. -/
def lastLeft : List RungScan → ScanState → Bool → Bool
  | [], _, last => last
  | scan :: scans, state, last =>
    lastLeft scans (scan.run state)
      (if scan.elements = emitted.body codesys plan then emitted.left scan state else last)

end

end EmittedOneShot

/-- What a rung is emitted as, from some local id on. -/
def RungBody (db : CharacterDatabase) (codesys : Bool) (controller : Controller) (site : RungSite)
    (body : List LadderElement) : Prop :=
  ∃ actionNames nextLocalId drawn,
    emitRung db codesys (exportPlan db codesys controller) actionNames site nextLocalId =
      .ok drawn ∧ drawn.elements = body

def ParsedBooleanRung.oneShots (parsed : ParsedBooleanRung) : Nat :=
  parsed.instructions.countP fun instruction => instruction.opcode == .ONS

/-- Every one-shot of the rung is emitted with an instance of its own, and over any run of
scans it passes power when the condition to its left has become true. -/
structure DetectsEdges (db : CharacterDatabase) (codesys : Bool) (controller : Controller)
    (site : RungSite) (parsed : ParsedBooleanRung) (elements : List LadderElement)
    (found : List EmittedOneShot) : Prop where
  each : found.length = parsed.oneShots
  emitted : ∀ emitted ∈ found, emitted.body codesys (exportPlan db codesys controller) = elements
  instances : found.map (·.oneshot.instanceName) = detectors elements
  own : (detectors elements).Nodup
  apart : ∀ other ∈ rungSites controller, other ≠ site → ∀ body,
    RungBody db codesys controller other body →
      ∀ instanceName ∈ detectors elements, instanceName ∉ detectors body
  edges : ∀ emitted ∈ found, ∀ (scans : List RungScan) (state : ScanState), state.Fresh →
    (∀ scan ∈ scans, scan.elements = elements ∨ ∃ other ∈ rungSites controller, other ≠ site ∧
      RungBody db codesys controller other scan.elements) →
    ∀ scan : RungScan, scan.elements = elements →
      emitted.passes codesys (exportPlan db codesys controller) scan (runScans scans state) =
        (emitted.left scan (runScans scans state) &&
          !emitted.lastLeft codesys (exportPlan db codesys controller) scans state false)

/-! ### Evaluation of a one-shot -/

section

variable {db : CharacterDatabase} {codesys : Bool} {controller : Controller}
  {elements : List LadderElement}

/-- A one-shot gives a pulse when its clock has become true, and remembers the clock. -/
theorem evaluate_fragment {oneshot : PLCopenOneShotExport} (hnamed : oneshot.Named db)
    (conditionIds : List Nat) (first : Nat) (world : World) (evaluation : Evaluation) :
    let result := (oneShotFragment codesys (exportPlan db codesys controller) oneshot conditionIds
      first).foldl (evaluateElement world) evaluation
    let clock := evaluation.joined (wires conditionIds none)
    result.power (first + 8) = (clock && !evaluation.state.triggers oneshot.instanceName) ∧
      result.state.triggers oneshot.instanceName = clock := by
  simp only [oneShotFragment, portableOperand_identifier hnamed.input,
    portableOperand_identifier hnamed.pulse, portableOperand_identifier hnamed.executed]
  generalize hclock : evaluation.joined (wires conditionIds none) = clock
  have hpin : ∀ (evaluation : Evaluation) (rail input : Nat),
      evaluation.pin [("EN", wires [rail] none), ("CLK", wires [input] none)] "EN" =
          evaluation.power rail ∧
        evaluation.pin [("EN", wires [rail] none), ("CLK", wires [input] none)] "CLK" =
          evaluation.power input := by
    intro evaluation rail input
    have hne : (("CLK" : Text) == ("EN" : Text)) = false := by decide
    constructor <;> simp [Evaluation.pin, Evaluation.joined, wires, List.lookup_cons, hne]
  have htrigger : ∀ (state : ScanState) (value : Bool),
      state.trigger oneshot.instanceName [("ENO", none), ("Q", some oneshot.pulseName)] value =
        { values := Function.update state.values oneshot.pulseName
            (value && !state.triggers oneshot.instanceName)
          triggers := Function.update state.triggers oneshot.instanceName value } := by
    intro state value
    rfl
  simp only [foldl_cons, foldl_nil, evaluateElement, LadderElement.detector?, if_true,
    hpin, htrigger, hclock, Evaluation.setPower, ScanState.write, coilValue]
  have henabled : Function.update (Function.update (Function.update evaluation.power first clock)
      (first + 2) true) (first + 3) clock (first + 2) = true := by
    rw [Function.update_of_ne (by omega), Function.update_self]
  simp only [Function.update_self, henabled, if_true, Evaluation.joined, wires, map_cons,
    map_nil, any_cons, any_nil, Bool.or_false, Bool.bne_false,
    Function.update_of_ne hnamed.apart.symm, Bool.true_and, and_self]

section

variable {emitted : EmittedOneShot}

/-- In a rung with one call of the instance, the one-shot passes power when its condition has
become true since the instance was called last. -/
theorem EmittedOneShot.run_spec (hnamed : emitted.oneshot.Named db)
    (hbefore : detectors emitted.before = []) (hafter : detectors emitted.after = [])
    {scan : RungScan}
    (hscan : scan.elements = emitted.body codesys (exportPlan db codesys controller))
    (state : ScanState) :
    emitted.passes codesys (exportPlan db codesys controller) scan state =
        (emitted.left scan state && !state.triggers emitted.oneshot.instanceName) ∧
      (scan.run state).triggers emitted.oneshot.instanceName = emitted.left scan state := by
  have hkept : (emitted.reached scan state).state.triggers emitted.oneshot.instanceName =
      state.triggers emitted.oneshot.instanceName := by
    refine foldl_triggers ?_ _
    rw [hbefore]
    exact not_mem_nil
  have hfragment := @evaluate_fragment db codesys controller emitted.oneshot hnamed
    emitted.conditionIds emitted.first scan.world (emitted.reached scan state)
  constructor
  · have hpower := hfragment.1
    rw [hkept] at hpower
    exact hpower
  · have hrun : scan.run state = (emitted.after.foldl (evaluateElement scan.world)
        (emitted.passed codesys (exportPlan db codesys controller) scan state)).state := by
      rw [RungScan.run, evaluateBody, hscan, EmittedOneShot.body, foldl_append,
        foldl_append]
      rfl
    rw [hrun, foldl_triggers (by rw [hafter]; exact not_mem_nil)]
    exact hfragment.2

/-- Over a run, the instance remembers the condition at the latest evaluation of its rung. -/
theorem EmittedOneShot.remembers (hnamed : emitted.oneshot.Named db)
    (hbefore : detectors emitted.before = []) (hafter : detectors emitted.after = [])
    (scans : List RungScan) (state : ScanState) (last : Bool)
    (hlast : state.triggers emitted.oneshot.instanceName = last) (hscans : ∀ scan ∈ scans,
      scan.elements = emitted.body codesys (exportPlan db codesys controller) ∨
        emitted.oneshot.instanceName ∉ detectors scan.elements) :
    (runScans scans state).triggers emitted.oneshot.instanceName =
      emitted.lastLeft codesys (exportPlan db codesys controller) scans state last := by
  induction scans generalizing state last with
  | nil => exact hlast
  | cons scan scans ih =>
    have hrest : ∀ other ∈ scans,
        other.elements = emitted.body codesys (exportPlan db codesys controller) ∨
          emitted.oneshot.instanceName ∉ detectors other.elements :=
      fun other hother => hscans other (mem_cons_of_mem _ hother)
    rw [EmittedOneShot.lastLeft]
    refine ih (scan.run state) _ ?_ hrest
    by_cases hscan : scan.elements = emitted.body codesys (exportPlan db codesys controller)
    · rw [if_pos hscan]
      exact (emitted.run_spec hnamed hbefore hafter hscan state).2
    · rw [if_neg hscan, ← hlast]
      have hother := (hscans scan mem_cons_self).resolve_left hscan
      exact RungScan.run_triggers hother state

end

/-! ### Emission of one-shots -/

/-- The elements hold a number of one-shots, all with the state of the rung. -/
def HoldsOneShots (codesys : Bool) (plan : PLCopenOperandPlan) (id : RungId) (count : Nat)
    (elements : List LadderElement) : Prop :=
  ∃ found : List EmittedOneShot, found.length = count ∧
    (∀ emitted ∈ found, emitted.body codesys plan = elements) ∧
    found.map (·.oneshot.instanceName) = detectors elements ∧
    ∀ emitted ∈ found, plan.oneshots.lookup id = some emitted.oneshot

section

variable {plan : PLCopenOperandPlan} {id : RungId}

theorem HoldsOneShots.quiet {elements : List LadderElement} (h : detectors elements = []) :
    HoldsOneShots codesys plan id 0 elements :=
  ⟨[], rfl, by simp, h.symm, by simp⟩

theorem HoldsOneShots.fragment {oneshot : PLCopenOneShotExport}
    (h : plan.oneshots.lookup id = some oneshot) (conditionIds : List Nat) (first : Nat) :
    HoldsOneShots codesys plan id 1
      (oneShotFragment codesys plan oneshot conditionIds first) := by
  refine ⟨[⟨oneshot, conditionIds, first, [], []⟩], rfl, ?_, rfl, ?_⟩
  · intro emitted hemitted
    rw [mem_singleton.mp hemitted, EmittedOneShot.body, EmittedOneShot.fragment,
      append_nil]
    rfl
  · intro emitted hemitted
    rw [mem_singleton.mp hemitted]
    exact h

/-- A one-shot in one of several parts of a body. -/
def EmittedOneShot.within (emitted : EmittedOneShot) (front back : List LadderElement) :
    EmittedOneShot :=
  { emitted with
    before := front ++ emitted.before
    after := emitted.after ++ back }

theorem EmittedOneShot.body_within (emitted : EmittedOneShot) (front back : List LadderElement) :
    (emitted.within front back).body codesys plan =
      front ++ (emitted.body codesys plan ++ back) := by
  have hfragment : (emitted.within front back).fragment codesys plan =
      emitted.fragment codesys plan := rfl
  rw [EmittedOneShot.body, EmittedOneShot.body, hfragment]
  simp only [within, append_assoc]

variable {count : Nat}

theorem HoldsOneShots.append {first second : List LadderElement} {more : Nat}
    (hfirst : HoldsOneShots codesys plan id count first)
    (hsecond : HoldsOneShots codesys plan id more second) :
    HoldsOneShots codesys plan id (count + more) (first ++ second) := by
  obtain ⟨found, hlength, hbody, hnames, hstate⟩ := hfirst
  obtain ⟨others, hlength', hbody', hnames', hstate'⟩ := hsecond
  refine ⟨found.map (·.within [] second) ++ others.map (·.within first []), ?_, ?_, ?_, ?_⟩
  · rw [length_append, length_map, length_map, hlength, hlength']
  · intro emitted hemitted
    rcases mem_append.mp hemitted with hmember | hmember
    · obtain ⟨inner, hinner, rfl⟩ := mem_map.mp hmember
      rw [EmittedOneShot.body_within, hbody inner hinner]
      rfl
    · obtain ⟨inner, hinner, rfl⟩ := mem_map.mp hmember
      rw [EmittedOneShot.body_within, hbody' inner hinner, append_nil]
  · rw [detectors_append, ← hnames, ← hnames', map_append, map_map, map_map]
    rfl
  · intro emitted hemitted
    rcases mem_append.mp hemitted with hmember | hmember
    · obtain ⟨inner, hinner, rfl⟩ := mem_map.mp hmember
      exact hstate inner hinner
    · obtain ⟨inner, hinner, rfl⟩ := mem_map.mp hmember
      exact hstate' inner hinner

/-- Whatever the drawing draws holds that many one-shots. -/
def Emits {A : Type} (codesys : Bool) (plan : PLCopenOperandPlan) (id : RungId) (count : Nat)
    (drawing : Drawing A) : Prop :=
  ∀ nextLocalId drawn, drawing nextLocalId = .ok drawn →
    HoldsOneShots codesys plan id count drawn.elements

namespace Emits

variable {A B : Type}

theorem pure (value : A) : Emits codesys plan id 0 (pure value : Drawing A) := by
  intro nextLocalId drawn hdrawn
  cases hdrawn
  exact .quiet rfl

theorem draw {element : Nat → LadderElement} (h : ∀ localId, (element localId).detector? = none) :
    Emits codesys plan id 0 (Drawing.draw element) := by
  intro nextLocalId drawn hdrawn
  cases hdrawn
  refine .quiet ?_
  rw [detectors, filterMap_cons_none (h nextLocalId)]
  rfl

theorem raise (raised : Raised) (count : Nat) :
    Emits codesys plan id count (Drawing.raise raised : Drawing A) := by
  intro nextLocalId drawn hdrawn
  cases hdrawn

theorem ofExcept (result : Except Raised A) : Emits codesys plan id 0 (Drawing.ofExcept result) := by
  intro nextLocalId drawn hdrawn
  cases result with
  | error raised => cases hdrawn
  | ok value =>
    cases hdrawn
    exact .quiet rfl

variable {first : Drawing A} {next : A → Drawing B}

theorem bind {more : Nat} (hfirst : Emits codesys plan id count first)
    (hnext : ∀ value, Emits codesys plan id more (next value)) :
    Emits codesys plan id (count + more) (first >>= next) := by
  intro nextLocalId drawn hdrawn
  rw [Drawing.bind_run] at hdrawn
  split at hdrawn
  · cases hdrawn
  · rename_i before hbefore
    split at hdrawn
    · cases hdrawn
    · rename_i after hafter
      cases hdrawn
      exact (hfirst _ _ hbefore).append (hnext _ _ _ hafter)

theorem quietly (hfirst : Emits codesys plan id 0 first)
    (hnext : ∀ value, Emits codesys plan id count (next value)) :
    Emits codesys plan id count (first >>= next) := by
  have hboth := hfirst.bind hnext
  rwa [Nat.zero_add] at hboth

theorem before (hfirst : Emits codesys plan id count first)
    (hnext : ∀ value, Emits codesys plan id 0 (next value)) :
    Emits codesys plan id count (first >>= next) :=
  hfirst.bind hnext

theorem ofResult {result : Except Raised A}
    (h : ∀ value, result = .ok value → Emits codesys plan id count (next value)) :
    Emits codesys plan id count (Drawing.ofExcept result >>= next) := by
  cases result with
  | error raised =>
    intro nextLocalId drawn hdrawn
    cases hdrawn
  | ok value =>
    intro nextLocalId drawn hdrawn
    obtain ⟨first, rest, hfirst, hrest⟩ := Drawing.bind_eq_ok hdrawn
    cases hfirst
    rw [Drawing.bind_run] at hdrawn
    simp only [Drawing.ofExcept, Except.map, hrest] at hdrawn
    cases hdrawn
    exact h value rfl _ _ hrest

end Emits

end

end

end TwinForge.Plcopen
