import TwinForge.OpenPLC.SourceRungs

/-! # The shared counter block

`TF_COUNTER` owns the state of one counter tag. A counter group lowers to one call of it
per scan, with the contacts of the count and reset rungs on its pins.
-/

namespace TwinForge.OpenPLC

open Model Plcopen List

structure CounterCall where
  cu : Bool
  cd : Bool
  reset : Bool
  pv : Int
  initialAcc : Int
  initialDn : Bool
  initialOv : Bool
  initialUn : Bool
  upFirst : Bool
  deriving DecidableEq, Repr

structure TfCounter where
  q : Bool := false
  cv : Int := 0
  cuEnabled : Bool := false
  cdEnabled : Bool := false
  ov : Bool := false
  un : Bool := false
  wasCu : Bool := false
  wasCd : Bool := false
  upEdge : Bool := false
  downEdge : Bool := false
  initialized : Bool := false
  deriving DecidableEq, Repr

namespace TfCounter

def start (block : TfCounter) (call : CounterCall) : TfCounter :=
  if block.initialized then block
  else
    { block with
      cv := call.initialAcc, q := call.initialDn, ov := call.initialOv, un := call.initialUn
      wasCu := call.cu, wasCd := call.cd, initialized := true }

def countUp (block : TfCounter) : TfCounter :=
  if block.upEdge then
    if block.cv = 2147483647 then { block with cv := -2147483647 - 1, ov := true }
    else { block with cv := block.cv + 1 }
  else block

def countDown (block : TfCounter) : TfCounter :=
  if block.downEdge then
    if block.cv = -2147483647 - 1 then { block with cv := 2147483647, un := true }
    else { block with cv := block.cv - 1 }
  else block

def sampled (block : TfCounter) (call : CounterCall) : TfCounter :=
  let started := block.start call
  { started with
    cuEnabled := call.cu, cdEnabled := call.cd
    upEdge := call.cu && !started.wasCu, downEdge := call.cd && !started.wasCd }

def cleared (block : TfCounter) : TfCounter :=
  { block with
    cv := 0, q := false, ov := false, un := false, cuEnabled := false, cdEnabled := false
    wasCu := false, wasCd := false }

def counted (block : TfCounter) (call : CounterCall) : TfCounter :=
  let counted := if call.upFirst then block.countUp.countDown else block.countDown.countUp
  let decided :=
    if counted.upEdge || counted.downEdge then { counted with q := decide (call.pv ≤ counted.cv) }
    else counted
  { decided with wasCu := call.cu, wasCd := call.cd }

end TfCounter

def tfCounter (block : TfCounter) (call : CounterCall) : TfCounter :=
  let sampled := block.sampled call
  if call.reset then sampled.cleared else sampled.counted call

/-! ## Lowering a group -/

section

variable (stableUuid : Text → Text)

namespace OpenPLCCounterGroup

variable (group : OpenPLCCounterGroup)

def primaryHandle : Text := if group.countUpName.isSome then "CU" else "CD"

/-- Operands are never empty, so a missing rung is all that leaves a count pin false. -/
def countOperand : Option Text → PinOperand
  | some name => .variable_ name
  | none => .bool false

def pinValues : List (Text × PinOperand × Text) :=
  [("CU", countOperand group.countUpName, "BOOL"),
    ("CD", countOperand group.countDownName, "BOOL"),
    ("RESET", .variable_ group.resetName, "BOOL"), ("PV", .dint group.preset, "DINT"),
    ("INITIAL_ACC", .dint group.initialAccumulator, "DINT"),
    ("INITIAL_DN", .bool group.initialDone, "BOOL"),
    ("INITIAL_OV", .bool group.initialOverflow, "BOOL"),
    ("INITIAL_UN", .bool group.initialUnderflow, "BOOL"),
    ("UP_FIRST", .bool (decide (group.order ∈ [CounterOrder.upOnly, .upThenDown])), "BOOL")]

def sharedCounterInputs : List (Text × PinOperand × Text) :=
  group.pinValues.filter fun value => decide (value.1 ≠ group.primaryHandle)

end OpenPLCCounterGroup

def counterPath (rungId handle : Text) : Text := rungId ++ ("/counter/" : Text) ++ handle

def counterBlockId (rungId : Text) : Text :=
  blockIdentifier stableUuid (rungId ++ ("/shared-counter" : Text))

def counterContact (rungId : Text) (group : OpenPLCCounterGroup) : Node :=
  instructionNode (contactIdentifier stableUuid (serialContactPath rungId 0)) .contact
    ((group.countUpName.or group.countDownName).getD []) 68 38

def counterInputs (rungId : Text) (group : OpenPLCCounterGroup) : List PinNode :=
  group.sharedCounterInputs.mapIdx fun offset value =>
    pinNode stableUuid (counterPath rungId value.1) (counterBlockId stableUuid rungId) value.1
      value.2.1 value.2.2 true 147 (74 + offset * 40)

def counterOutputs (rungId : Text) (accumulatorName : Option Text)
    (statusNames : List (Text × Text)) : List PinNode :=
  let output := fun (member name dataType : Text) (offset : Nat) =>
    pinNode stableUuid (counterPath rungId member) (counterBlockId stableUuid rungId) member
      (.variable_ name) dataType false 487 (74 + offset * 40)
  ((accumulatorName.filter fun name => !name.isEmpty).toList.map fun name =>
    output "CV" name "DINT" 0) ++
  (statusNames.lookup ("OV" : Text)).toList.map (fun name => output "OV" name "BOOL" 1) ++
  (statusNames.lookup ("UN" : Text)).toList.map fun name => output "UN" name "BOOL" 2

def counterBlock (rungId : Text) (group : OpenPLCCounterGroup) : BlockNode :=
  .block (counterBlockId stableUuid rungId) "TF_COUNTER" group.counterName
    ["CU", "CD", "RESET", "PV", "INITIAL_ACC", "INITIAL_DN", "INITIAL_OV", "INITIAL_UN", "UP_FIRST"]
    ["Q", "CV", "CUEnabled", "CDEnabled", "OV", "UN"]

def counterCoil (rungId : Text) (group : OpenPLCCounterGroup) : Node :=
  instructionNode (coilIdentifier stableUuid rungId) .coil group.outputName 622 38

/-- Lower one canonical counter group to a shared `TF_COUNTER` owner. -/
def lowerCounterGroup (programName : Text) (index : Nat) (group : OpenPLCCounterGroup)
    (accumulatorName : Option Text) (statusNames : List (Text × Text)) : BlockRung :=
  let rungId := rungIdentifier stableUuid programName index
  let leftId := leftRailIdentifier rungId
  let rightId := rightRailIdentifier rungId
  let contact := counterContact stableUuid rungId group
  let inputs := counterInputs stableUuid rungId group
  let outputs := counterOutputs stableUuid rungId accumulatorName statusNames
  let block := counterBlock stableUuid rungId group
  let coil := counterCoil stableUuid rungId group
  { id := rungId, comment := group.comment, defaultBounds := (300, 100)
    reactFlowViewport := (763, 454)
    nodes := groupNodes contact inputs outputs block leftId coil rightId 760
    edges := inputEdges contact group.primaryHandle inputs block leftId ++
      outputEdges outputs block ++ coilEdges block coil rightId }

end

/-! ## One scan of a lowered group -/

namespace BlockRung

variable (rung : BlockRung)

def counterCall (valuation : Text → Bool) : CounterCall :=
  let block := rung.blockId?.getD []
  { cu := rung.boolPin valuation block "CU"
    cd := rung.boolPin valuation block "CD"
    reset := rung.boolPin valuation block "RESET"
    pv := rung.numberPin block "PV"
    initialAcc := rung.numberPin block "INITIAL_ACC"
    initialDn := rung.boolPin valuation block "INITIAL_DN"
    initialOv := rung.boolPin valuation block "INITIAL_OV"
    initialUn := rung.boolPin valuation block "INITIAL_UN"
    upFirst := rung.boolPin valuation block "UP_FIRST" }

end BlockRung

def TfCounter.output (block : TfCounter) (handle : Text) : Bool :=
  if handle = "Q" then block.q
  else if handle = "CUEnabled" then block.cuEnabled
  else if handle = "CDEnabled" then block.cdEnabled
  else if handle = "OV" then block.ov
  else if handle = "UN" then block.un
  else false

def BlockRung.counterScan (rung : BlockRung) (block : TfCounter) (valuation : Text → Bool) :
    TfCounter :=
  tfCounter block (rung.counterCall valuation)

/-! ## The pins of a lowered group -/

def counterHandles : List Text :=
  ["CU", "CD", "RESET", "PV", "INITIAL_ACC", "INITIAL_DN", "INITIAL_OV", "INITIAL_UN", "UP_FIRST",
    "CV", "OV", "UN"]

def counterPaths (rungId : Text) : List Text := counterHandles.map (counterPath rungId)

section

variable {stableUuid : Text → Text} {rungId : Text} {group : OpenPLCCounterGroup}
  {accumulatorName : Option Text} {statusNames : List (Text × Text)}

/-- A group counts in one direction at least. -/
def OpenPLCCounterGroup.Counts (group : OpenPLCCounterGroup) : Prop :=
  group.countUpName.isSome = true ∨ group.countDownName.isSome = true

theorem primaryHandle_up {name : Text} (h : group.countUpName = some name) :
    group.primaryHandle = "CU" := by
  simp [OpenPLCCounterGroup.primaryHandle, h]

theorem primaryHandle_down (h : group.countUpName = none) : group.primaryHandle = "CD" := by
  simp [OpenPLCCounterGroup.primaryHandle, h]

theorem counterHandles_nodup : counterHandles.Nodup := by decide

theorem counterPaths_nodup (rungId : Text) : (counterPaths rungId).Nodup :=
  counterHandles_nodup.map fun _ _ h => append_cancel_left h

theorem counterInputs_map {A : Type} (f : PinNode → A) (g : Text × PinOperand × Text → A)
    (h : ∀ offset value, f (pinNode stableUuid (counterPath rungId value.1)
      (counterBlockId stableUuid rungId) value.1 value.2.1 value.2.2 true 147
      (74 + offset * 40)) = g value) :
    (counterInputs stableUuid rungId group).map f = group.sharedCounterInputs.map g := by
  apply ext_getElem?
  intro i
  simp only [counterInputs, List.getElem?_map, List.getElem?_mapIdx, Option.map_map]
  congr 1
  funext value
  exact h i value

theorem counterInputs_handles : (counterInputs stableUuid rungId group).map PinNode.handle =
    group.sharedCounterInputs.map Prod.fst :=
  counterInputs_map _ _ fun _ _ => rfl

theorem counterInputs_ids : (counterInputs stableUuid rungId group).map PinNode.id =
    ((group.sharedCounterInputs.map Prod.fst).map (counterPath rungId)).map
      (variableIdentifier stableUuid) := by
  rw [map_map, map_map]
  exact counterInputs_map _ _ fun _ _ => rfl

theorem sharedCounterInputs_handles : group.sharedCounterInputs.map Prod.fst =
    (counterHandles.take 9).filter fun handle => decide (handle ≠ group.primaryHandle) := by
  have hvalues : group.pinValues.map Prod.fst = counterHandles.take 9 := rfl
  rw [← hvalues, filter_map]
  rfl

theorem primary_handles_nodup :
    (group.primaryHandle :: group.sharedCounterInputs.map Prod.fst).Nodup := by
  rw [sharedCounterInputs_handles, nodup_cons]
  constructor
  · simp
  · exact (counterHandles_nodup.sublist (take_sublist 9 _)).filter _

theorem handle_sublist (name : Option Text) {node : Text → PinNode} {handle : Text}
    (h : ∀ name, (node name).handle = handle) :
    ((name.toList.map node).map PinNode.handle).Sublist [handle] := by
  cases name <;> simp [h]

theorem counterOutputs_handles :
    ((counterOutputs stableUuid rungId accumulatorName statusNames).map PinNode.handle).Sublist
      (counterHandles.drop 9) := by
  have hhandles : counterHandles.drop 9 = [("CV" : Text)] ++ [("OV" : Text)] ++ [("UN" : Text)] :=
    rfl
  simp only [counterOutputs, map_append, hhandles]
  apply List.Sublist.append
  · apply List.Sublist.append
    · exact handle_sublist _ fun _ => rfl
    · exact handle_sublist _ fun _ => rfl
  · exact handle_sublist _ fun _ => rfl

theorem counterNodes_handles :
    (group.sharedCounterInputs.map Prod.fst ++
      (counterOutputs stableUuid rungId accumulatorName statusNames).map PinNode.handle).Sublist
        counterHandles := by
  have hinputs : (group.sharedCounterInputs.map Prod.fst).Sublist (counterHandles.take 9) := by
    rw [sharedCounterInputs_handles]
    exact filter_sublist
  have hboth := hinputs.append (@counterOutputs_handles stableUuid rungId accumulatorName
    statusNames)
  rwa [take_append_drop] at hboth

theorem counterOutputs_ids :
    (counterOutputs stableUuid rungId accumulatorName statusNames).map PinNode.id =
      (((counterOutputs stableUuid rungId accumulatorName statusNames).map PinNode.handle).map
        (counterPath rungId)).map (variableIdentifier stableUuid) := by
  simp [counterOutputs, pinNode, Function.comp_def]

theorem lowerCounterGroup_reads {programName : Text} {index : Nat}
    (hrung : rungId = rungIdentifier stableUuid programName index)
    (hfree : CollisionFree stableUuid (counterPaths rungId)) :
    GroupReads (lowerCounterGroup stableUuid programName index group accumulatorName statusNames)
      (counterContact stableUuid rungId group) group.primaryHandle
      (counterInputs stableUuid rungId group) (counterBlock stableUuid rungId group)
      (counterCoil stableUuid rungId group) := by
  subst hrung
  have hsublist := (@counterNodes_handles stableUuid
    (rungIdentifier stableUuid programName index) group accumulatorName statusNames).map
      (counterPath (rungIdentifier stableUuid programName index))
  rw [map_append] at hsublist
  refine group_reads rfl rfl (.refl _) rfl rfl rfl ?_ ?_
  · rw [counterInputs_ids, counterOutputs_ids]
    exact groupIds_nodup hfree (counterPaths_nodup _) hsublist
  · rw [counterInputs_handles]
    exact primary_handles_nodup

def OpenPLCCounterGroup.call (group : OpenPLCCounterGroup) (valuation : Text → Bool) :
    CounterCall where
  cu := group.countUpName.any valuation
  cd := group.countDownName.any valuation
  reset := valuation group.resetName
  pv := dintValue group.preset
  initialAcc := dintValue group.initialAccumulator
  initialDn := group.initialDone
  initialOv := group.initialOverflow
  initialUn := group.initialUnderflow
  upFirst := decide (group.order ∈ [CounterOrder.upOnly, .upThenDown])

theorem GroupReads.pinValue {rung : BlockRung}
    (h : GroupReads rung (counterContact stableUuid rungId group) group.primaryHandle
      (counterInputs stableUuid rungId group) (counterBlock stableUuid rungId group)
      (counterCoil stableUuid rungId group))
    {value : Text × PinOperand × Text} (hvalue : value ∈ group.sharedCounterInputs)
    (valuation : Text → Bool) :
    rung.boolPin valuation (counterBlockId stableUuid rungId) value.1 =
        value.2.1.boolValue valuation ∧
      rung.numberPin (counterBlockId stableUuid rungId) value.1 = value.2.1.number := by
  have ⟨i, hi⟩ := mem_iff_getElem?.mp hvalue
  have hnode : pinNode stableUuid (counterPath rungId value.1) (counterBlockId stableUuid rungId)
      value.1 value.2.1 value.2.2 true 147 (74 + i * 40) ∈ counterInputs stableUuid rungId group := by
    rw [mem_iff_getElem?]
    exact ⟨i, by simp [counterInputs, hi]⟩
  exact ⟨h.boolean _ hnode valuation, h.number _ hnode⟩

theorem lowerCounterGroup_call {programName : Text} {index : Nat} (hfree : CollisionFree stableUuid
      (counterPaths (rungIdentifier stableUuid programName index)))
    (hcounts : group.Counts) (valuation : Text → Bool) :
    (lowerCounterGroup stableUuid programName index group accumulatorName statusNames).counterCall
      valuation = group.call valuation := by
  have hreads := @lowerCounterGroup_reads stableUuid _ group accumulatorName statusNames
    programName index rfl hfree
  generalize lowerCounterGroup stableUuid programName index group accumulatorName statusNames =
    rung at hreads ⊢
  have hblock : rung.blockId?.getD [] =
      counterBlockId stableUuid (rungIdentifier stableUuid programName index) := by
    rw [hreads.blockFound]
    rfl
  have hcontact : rung.boolPin valuation
      (counterBlockId stableUuid (rungIdentifier stableUuid programName index))
      group.primaryHandle = valuation ((group.countUpName.or group.countDownName).getD []) :=
    hreads.contactRead valuation
  have hpin : ∀ value ∈ group.pinValues, value.1 ≠ group.primaryHandle → _ :=
    fun value hvalue hother => hreads.pinValue
      (mem_filter.mpr ⟨hvalue, decide_eq_true hother⟩) valuation
  simp only [OpenPLCCounterGroup.pinValues, forall_mem_cons] at hpin
  have ⟨hcu, hcd, hreset, hpv, hacc, hdn, hov, hun, hfirst, _⟩ := hpin
  have hvaluePin : ∀ handle ∈ counterHandles.drop 2, handle ≠ group.primaryHandle := by
    cases hup : group.countUpName with
    | some name =>
      rw [primaryHandle_up hup]
      decide
    | none =>
      rw [primaryHandle_down hup]
      decide
  have hcuPin : rung.boolPin valuation
      (counterBlockId stableUuid (rungIdentifier stableUuid programName index)) "CU" =
        group.countUpName.any valuation := by
    cases hup : group.countUpName with
    | some name =>
      rw [primaryHandle_up hup] at hcontact
      simpa [hup] using hcontact
    | none =>
      have hother : ("CU" : Text) ≠ group.primaryHandle := by
        rw [primaryHandle_down hup]
        decide
      simpa [hup, OpenPLCCounterGroup.countOperand, PinOperand.boolValue] using (hcu hother).1
  have hcdPin : rung.boolPin valuation
      (counterBlockId stableUuid (rungIdentifier stableUuid programName index)) "CD" =
        group.countDownName.any valuation := by
    cases hup : group.countUpName with
    | some name =>
      have hother : ("CD" : Text) ≠ group.primaryHandle := by
        rw [primaryHandle_up hup]
        decide
      have hvalue := (hcd hother).1
      cases hdown : group.countDownName <;>
        simpa [hdown, OpenPLCCounterGroup.countOperand, PinOperand.boolValue] using hvalue
    | none =>
      have ⟨name, hdown⟩ := Option.isSome_iff_exists.mp (hcounts.resolve_left (by simp [hup]))
      rw [primaryHandle_down hup] at hcontact
      simpa [hup, hdown] using hcontact
  simp only [BlockRung.counterCall, OpenPLCCounterGroup.call, hblock, hcuPin, hcdPin]
  simp only [(hreset (hvaluePin _ (by decide))).1, (hpv (hvaluePin _ (by decide))).2,
    (hacc (hvaluePin _ (by decide))).2, (hdn (hvaluePin _ (by decide))).1,
    (hov (hvaluePin _ (by decide))).1, (hun (hvaluePin _ (by decide))).1,
    (hfirst (hvaluePin _ (by decide))).1, PinOperand.boolValue, PinOperand.number]

end

end TwinForge.OpenPLC
