import TwinForge.OpenPLC.RetentiveTimer
import TwinForge.OpenPLC.SourceRungs
import TwinForge.Plcopen.LadderEmission

/-! # Timer groups

A `TON` or `TOF` group lowers to the IEC block of that name, an `RTO` group to `TF_RTO`
with the contact of the reset rung on a pin.
-/

namespace TwinForge.OpenPLC

open Model Plcopen ScanTimers

/-! ## Lowering -/

section

variable (stableUuid : Text → Text)

def timerPath (rungId handle : Text) : Text := rungId ++ ("/timer/" : Text) ++ handle

def timerBlockId (rungId : Text) : Text := blockIdentifier stableUuid (rungId ++ ("/timer" : Text))

def timerContact (rungId : Text) (group : NativeTimerGroup) (width : Nat) : Node :=
  instructionNode (contactIdentifier stableUuid (serialContactPath rungId 0)) .contact
    group.enableName 68 width

def timerPreset (rungId : Text) (group : NativeTimerGroup) (y : Nat) : PinNode :=
  pinNode stableUuid (timerPath rungId "PT") (timerBlockId stableUuid rungId) "PT"
    (.time group.presetMs) "TIME" true 147 y

def timerReset (rungId resetName : Text) : PinNode :=
  pinNode stableUuid (timerPath rungId "RESET") (timerBlockId stableUuid rungId) "RESET"
    (.variable_ resetName) "BOOL" true 147 74

def timerElapsed (rungId : Text) (elapsedName : Option Text) : List PinNode :=
  (elapsedName.filter fun name => !name.isEmpty).toList.map fun name =>
    pinNode stableUuid (timerPath rungId "ET") (timerBlockId stableUuid rungId) "ET"
      (.variable_ name) "TIME" false 353 74

def timerBlock (rungId : Text) (group : NativeTimerGroup) : BlockNode :=
  .block (timerBlockId stableUuid rungId) group.instruction.spelling group.timerName ["IN", "PT"]
    ["Q", "ET"]

def rtoBlock (rungId : Text) (group : NativeTimerGroup) : BlockNode :=
  .block (timerBlockId stableUuid rungId) "TF_RTO" group.timerName ["IN", "RESET", "PT"]
    ["Q", "ET", "Enabled", "TT"]

def timerCoil (rungId : Text) (group : NativeTimerGroup) (x width : Nat) : Node :=
  instructionNode (coilIdentifier stableUuid rungId) .coil group.outputName x width

/-- The `TF_RTO` network of a group with a reset rung. -/
def rtoRung (programName : Text) (index : Nat) (group : NativeTimerGroup) (resetName : Text) :
    BlockRung :=
  let rungId := rungIdentifier stableUuid programName index
  let leftId := leftRailIdentifier rungId
  let rightId := rightRailIdentifier rungId
  let contact := timerContact stableUuid rungId group 38
  let inputs := [timerReset stableUuid rungId resetName, timerPreset stableUuid rungId group 114]
  let block := rtoBlock stableUuid rungId group
  let coil := timerCoil stableUuid rungId group 584 38
  { id := rungId, comment := group.comment, defaultBounds := (300, 100)
    reactFlowViewport := (725, 214)
    nodes := groupNodes contact inputs [] block leftId coil rightId 722
    edges := inputEdges contact "IN" inputs block leftId ++ coilEdges block coil rightId }

def iecTimerRung (programName : Text) (index : Nat) (group : NativeTimerGroup)
    (elapsedName : Option Text) : BlockRung :=
  let rungId := rungIdentifier stableUuid programName index
  let leftId := leftRailIdentifier rungId
  let rightId := rightRailIdentifier rungId
  let contact := timerContact stableUuid rungId group 24
  let inputs := [timerPreset stableUuid rungId group 74]
  let outputs := timerElapsed stableUuid rungId elapsedName
  let block := timerBlock stableUuid rungId group
  let named := !outputs.isEmpty
  let coil := timerCoil stableUuid rungId group (if named then 488 else 353) 28
  { id := rungId, comment := group.comment, defaultBounds := (300, 100)
    reactFlowViewport := (if named then 629 else 491, 134)
    nodes := groupNodes contact inputs outputs block leftId coil rightId (if named then 626 else 491)
    edges := inputEdges contact "IN" inputs block leftId ++ coilEdges block coil rightId ++
      outputEdges outputs block }

/-- Lower a canonical timer group; none where the source asserts a reset that is missing. -/
def lowerTimerGroup (programName : Text) (index : Nat) (group : NativeTimerGroup)
    (elapsedName : Option Text) : Option BlockRung :=
  if group.instruction = .RTO then
    group.resetName.map (rtoRung stableUuid programName index group)
  else some (iecTimerRung stableUuid programName index group elapsedName)

end

/-! ## One scan of a lowered group -/

structure TimerScan where
  clock : Int
  bits : Text → Bool

inductive TimerBlock where
  | ton (timer : Ton)
  | tof (timer : Tof)
  | rto (timer : TfRto)
  deriving DecidableEq, Repr

namespace TimerBlock

def ofType (typeName : Text) : TimerBlock :=
  if typeName = "TON" then .ton {}
  else if typeName = "TOF" then .tof {}
  else .rto {}

def q : TimerBlock → Bool
  | .ton timer => timer.q
  | .tof timer => timer.q
  | .rto timer => timer.q

def output (block : TimerBlock) (handle : Text) : Bool :=
  if handle = "Q" then block.q
  else
    match block with
    | .rto timer =>
      if handle = "Enabled" then timer.enabled
      else if handle = "TT" then timer.tt
      else false
    | _ => false

def call (block : TimerBlock) (input reset : Bool) (pt now : Int) : TimerBlock :=
  match block with
  | .ton timer => .ton (timer.call input pt now)
  | .tof timer => .tof (timer.call input pt now)
  | .rto timer => .rto (tfRto pt timer ⟨now, input, reset⟩)

end TimerBlock

namespace BlockRung

def timerStart (rung : BlockRung) : TimerBlock := .ofType (rung.blockType?.getD [])

def timerScan (rung : BlockRung) (block : TimerBlock) (scan : TimerScan) : TimerBlock :=
  let id := rung.blockId?.getD []
  block.call (rung.boolPin scan.bits id "IN") (rung.boolPin scan.bits id "RESET")
    (rung.numberPin id "PT") scan.clock

end BlockRung

/-! ## The pins of a lowered group -/

def timerHandles : List Text := ["RESET", "PT", "ET"]

def timerPaths (rungId : Text) : List Text := timerHandles.map (timerPath rungId)

section

variable {stableUuid : Text → Text} {programName : Text} {index : Nat} {group : NativeTimerGroup}
  {elapsedName : Option Text} {resetName : Text}

theorem timerPaths_nodup (rungId : Text) : (timerPaths rungId).Nodup := by
  have hhandles : timerHandles.Nodup := by decide
  exact hhandles.map fun _ _ h => List.append_cancel_left h

variable
  (hfree : CollisionFree stableUuid (timerPaths (rungIdentifier stableUuid programName index)))

include hfree

theorem rtoRung_reads :
    GroupReads (rtoRung stableUuid programName index group resetName)
      (timerContact stableUuid (rungIdentifier stableUuid programName index) group 38) "IN"
      [timerReset stableUuid (rungIdentifier stableUuid programName index) resetName,
        timerPreset stableUuid (rungIdentifier stableUuid programName index) group 114]
      (rtoBlock stableUuid (rungIdentifier stableUuid programName index) group)
      (timerCoil stableUuid (rungIdentifier stableUuid programName index) group 584 38) := by
  have hedges : (rtoRung stableUuid programName index group resetName).edges =
      inputEdges (timerContact stableUuid (rungIdentifier stableUuid programName index) group 38)
          "IN" [timerReset stableUuid (rungIdentifier stableUuid programName index) resetName,
            timerPreset stableUuid (rungIdentifier stableUuid programName index) group 114]
          (rtoBlock stableUuid (rungIdentifier stableUuid programName index) group)
          (leftRailIdentifier (rungIdentifier stableUuid programName index)) ++
        outputEdges [] (rtoBlock stableUuid (rungIdentifier stableUuid programName index) group) ++
        coilEdges (rtoBlock stableUuid (rungIdentifier stableUuid programName index) group)
          (timerCoil stableUuid (rungIdentifier stableUuid programName index) group 584 38)
          (rightRailIdentifier (rungIdentifier stableUuid programName index)) := by
    rw [outputEdges, List.map_nil, List.append_nil]
    rfl
  refine group_reads rfl rfl (.of_eq hedges) rfl rfl rfl ?_ ?_
  · have hsublist : ([timerPath (rungIdentifier stableUuid programName index) "RESET",
        timerPath (rungIdentifier stableUuid programName index) "PT"] ++ []).Sublist
          (timerPaths (rungIdentifier stableUuid programName index)) := by
      simp [timerPaths, timerHandles]
    exact groupIds_nodup hfree (timerPaths_nodup _) hsublist
  · show [("IN" : Text), "RESET", "PT"].Nodup
    decide

theorem iecTimerRung_reads :
    ∃ x, GroupReads (iecTimerRung stableUuid programName index group elapsedName)
      (timerContact stableUuid (rungIdentifier stableUuid programName index) group 24) "IN"
      [timerPreset stableUuid (rungIdentifier stableUuid programName index) group 74]
      (timerBlock stableUuid (rungIdentifier stableUuid programName index) group)
      (timerCoil stableUuid (rungIdentifier stableUuid programName index) group x 28) := by
  have hnodes : (iecTimerRung stableUuid programName index group elapsedName).nodes = _ := rfl
  refine ⟨_, group_reads rfl hnodes ?_ rfl rfl rfl ?_ ?_⟩
  · simp only [iecTimerRung, List.append_assoc]
    exact (List.Perm.refl _).append List.perm_append_comm
  · have hids : (timerElapsed stableUuid (rungIdentifier stableUuid programName index)
        elapsedName).map PinNode.id =
          ((elapsedName.filter fun name => !name.isEmpty).toList.map fun _ =>
            timerPath (rungIdentifier stableUuid programName index) "ET").map
              (variableIdentifier stableUuid) := by
      simp [timerElapsed, pinNode, Function.comp_def]
    rw [hids]
    have hsublist : ([timerPath (rungIdentifier stableUuid programName index) "PT"] ++
        (elapsedName.filter fun name => !name.isEmpty).toList.map fun _ =>
          timerPath (rungIdentifier stableUuid programName index) "ET").Sublist
        (timerPaths (rungIdentifier stableUuid programName index)) := by
      cases elapsedName.filter fun name => !name.isEmpty <;> simp [timerPaths, timerHandles]
    exact groupIds_nodup hfree (timerPaths_nodup _) hsublist
  · show [("IN" : Text), "PT"].Nodup
    decide

/-- Every scan of a `TF_RTO` network calls the block with the two contacts. -/
theorem rtoRung_scan (timer : TfRto) (scan : TimerScan) :
    (rtoRung stableUuid programName index group resetName).timerScan (.rto timer) scan =
      .rto (tfRto group.presetMs timer
        ⟨scan.clock, scan.bits group.enableName, scan.bits resetName⟩) := by
  have hreads := @rtoRung_reads stableUuid programName index group resetName hfree
  generalize rtoRung stableUuid programName index group resetName = rung at hreads ⊢
  have hinput := hreads.contactRead scan.bits
  have hreset := hreads.boolean _ List.mem_cons_self scan.bits
  have hpreset := hreads.number _ (List.mem_cons_of_mem _ List.mem_cons_self)
  simp only [BlockRung.timerScan, hreads.blockFound, Option.getD_some, TimerBlock.call]
  rw [hinput]
  simp only [timerReset, timerPreset, pinNode] at hreset hpreset
  rw [hreset, hpreset]
  rfl

theorem rtoRung_start :
    (rtoRung stableUuid programName index group resetName).timerStart = .rto {} := by
  have hreads := @rtoRung_reads stableUuid programName index group resetName hfree
  have htype : (rtoBlock stableUuid (rungIdentifier stableUuid programName index)
      group).typeName?.getD [] = "TF_RTO" := rfl
  rw [BlockRung.timerStart, hreads.typeFound, htype]
  decide

theorem iecTimerRung_pins (bits : Text → Bool) :
    let rung := iecTimerRung stableUuid programName index group elapsedName
    rung.boolPin bits (rung.blockId?.getD []) "IN" = bits group.enableName ∧
      rung.numberPin (rung.blockId?.getD []) "PT" = group.presetMs := by
  have ⟨x, hreads⟩ := @iecTimerRung_reads stableUuid programName index group elapsedName hfree
  have hinput := hreads.contactRead bits
  have hpreset := hreads.number _ List.mem_cons_self
  simp only [hreads.blockFound, Option.getD_some]
  exact ⟨hinput, hpreset⟩

theorem iecTimerRung_scan (scan : TimerScan) :
    let rung := iecTimerRung stableUuid programName index group elapsedName
    (∀ timer, rung.timerScan (.ton timer) scan =
      .ton (timer.call (scan.bits group.enableName) group.presetMs scan.clock)) ∧
    ∀ timer, rung.timerScan (.tof timer) scan =
      .tof (timer.call (scan.bits group.enableName) group.presetMs scan.clock) := by
  have ⟨hinput, hpreset⟩ := @iecTimerRung_pins stableUuid programName index group elapsedName
    hfree scan.bits
  constructor
  · intro timer
    simp only [BlockRung.timerScan, TimerBlock.call]
    rw [hinput, hpreset]
  · intro timer
    simp only [BlockRung.timerScan, TimerBlock.call]
    rw [hinput, hpreset]

theorem iecTimerRung_start :
    (iecTimerRung stableUuid programName index group elapsedName).timerStart =
      .ofType group.instruction.spelling := by
  have ⟨x, hreads⟩ := @iecTimerRung_reads stableUuid programName index group elapsedName hfree
  rw [BlockRung.timerStart, hreads.typeFound]
  rfl

end

/-! ## The source rungs of a timer group

A timer instruction adds the scan clock since its last execution while it times. The
rungs of a matched group execute it, copy `DN` to the output and, for `RTO`, reset.
-/

open Model Plcopen

/-! ### The source timer -/

/-- A timer tag, with the clock of the last execution that timed. -/
structure SourceTimer where
  acc : Int := 0
  dn : Bool := false
  en : Bool := false
  tt : Bool := false
  last : Option Int := none
  deriving DecidableEq, Repr

namespace SourceTimer

variable (pre now : Int) (on : Bool) (timer : SourceTimer)

/-- The accumulated time with the clock since the last execution, capped at the preset. -/
def timed : Int := min pre (timer.acc + (now - timer.last.getD now))

def ton : SourceTimer :=
  if on then
    let acc := timer.timed pre now
    { acc, dn := decide (pre ≤ acc), en := true, tt := !decide (pre ≤ acc), last := some now }
  else {}

def tof : SourceTimer :=
  if on then { acc := 0, dn := true, en := true, tt := false, last := none }
  else if timer.dn then
    let acc := timer.timed pre now
    { acc, dn := decide (acc < pre), en := false, tt := decide (acc < pre), last := some now }
  else { timer with en := false, tt := false }

def rto : SourceTimer :=
  if on then
    let acc := timer.timed pre now
    { acc, dn := decide (pre ≤ acc), en := true, tt := !decide (pre ≤ acc), last := some now }
  else { timer with en := false, tt := false, last := none }

/-- `RES` clears the accumulated time and the status bits, so timing starts anew. -/
def res : SourceTimer := if on then {} else timer

end SourceTimer

def timerSemantics (name : Text) (preset now : Int) : OwnerSemantics SourceTimer where
  name := name
  members := [("DN", SourceTimer.dn), ("EN", SourceTimer.en), ("TT", SourceTimer.tt)]
  execute opcode on timer :=
    match opcode with
    | .TON => timer.ton preset now on
    | .TOF => timer.tof preset now on
    | .RTO => timer.rto preset now on
    | .RES => timer.res on
    | _ => timer

/-! ### The rungs of a matched group -/

structure MatchedTimer (db : CharacterDatabase) (program : Program) (index : Nat)
    (group : NativeTimerGroup) (timer done : ParsedBooleanRung) (resets : List ParsedBooleanRung) :
    Prop where
  rungs : groupRungs db program index group.sourceRungCount = timer :: done :: resets
  kind : group.instruction = .TON ∨ group.instruction = .TOF ∨ group.instruction = .RTO
  timer : ∃ operand, ContactRung timer group.enableName ⟨group.instruction, operand⟩ ∧
    (splitArguments db operand).head? = some group.timerName
  done : ContactRung done (memberOperand group.timerName "DN") ⟨.OTE, group.outputName⟩
  plain : group.instruction ≠ .RTO → group.resetName = none ∧ resets = []
  retentive : group.instruction = .RTO → ∃ name reset, group.resetName = some name ∧
    resets = [reset] ∧ ContactRung reset name ⟨.RES, group.timerName⟩

section

variable {db : CharacterDatabase} {timers : List (Text × Int)} {program : Program} {index : Nat}
  {group : NativeTimerGroup}

theorem parseRung_of {rungs : List LadderRung} {source : LadderRung} {rung : ParsedBooleanRung}
    (hsource : rungs[index]? = some source) (h : parseSupportedRung db source.text = some rung) :
    parseRung db rungs index = some rung := by
  simp [parseRung, hsource, h]

theorem matchTimerGroup_matched (h : matchTimerGroup db timers program index = some group) :
    ∃ timer done resets, MatchedTimer db program index group timer done resets := by
  unfold matchTimerGroup at h
  obtain ⟨timerRung, htimerRung, h⟩ := Option.bind_eq_some_iff.mp h
  obtain ⟨doneRung, hdoneRung, h⟩ := Option.bind_eq_some_iff.mp h
  obtain ⟨timer, htimer, h⟩ := Option.bind_eq_some_iff.mp h
  obtain ⟨done, hdone, h⟩ := Option.bind_eq_some_iff.mp h
  obtain ⟨enable, henable, h⟩ := Option.bind_eq_some_iff.mp h
  have htimerParse := parseRung_of htimerRung htimer
  have hdoneParse := parseRung_of hdoneRung hdone
  split at h
  · rename_i opcode operand outputName htimerOutputs hdoneOutputs
    split at h
    · cases h
    rename_i hshape
    simp only [not_or, not_not, Bool.not_eq_true, Bool.not_eq_false', List.isEmpty_iff] at hshape
    split at h
    · rename_i timerName second third harguments
      split at h
      · cases h
      rename_i htail
      rw [not_not] at htail
      obtain ⟨preset, _, h⟩ := Option.bind_eq_some_iff.mp h
      have htimerContact := contactRung_of htimerParse henable htimerOutputs
      have hdoneContact : ContactRung done (memberOperand timerName "DN") ⟨.OTE, outputName⟩ :=
        ⟨htail, parseRung_condition hdoneParse hshape.2 htail, hdoneOutputs⟩
      have howner : (splitArguments db operand).head? = some timerName := by
        rw [harguments]
        rfl
      split at h
      · rename_i hopcode
        obtain ⟨reset, hreset, h⟩ := Option.bind_eq_some_iff.mp h
        obtain ⟨resetName, hresetName, h⟩ := Option.bind_eq_some_iff.mp h
        cases h
        refine ⟨timer, done, [reset], ?_⟩
        constructor
        case rungs =>
          rw [groupRungs_cons htimerParse, groupRungs_cons hdoneParse, groupRungs_cons hreset]
          rfl
        case kind => exact .inr (.inr hopcode)
        case timer => exact ⟨operand, htimerContact, howner⟩
        case done => exact hdoneContact
        case plain => exact fun hother => absurd hopcode hother
        case retentive =>
          exact fun _ => ⟨resetName, reset, rfl, rfl, matchReset_some hreset hresetName⟩
      · rename_i hopcode
        cases h
        refine ⟨timer, done, [], ?_⟩
        constructor
        case rungs =>
          rw [groupRungs_cons htimerParse, groupRungs_cons hdoneParse]
          rfl
        case kind => simpa using hshape.1
        case timer => exact ⟨operand, htimerContact, howner⟩
        case done => exact hdoneContact
        case plain => exact fun _ => ⟨rfl, rfl⟩
        case retentive => exact fun hretentive => absurd hretentive hopcode
    · cases h
  · cases h

end

/-! ### A scan of the source rungs -/

section

variable (db : CharacterDatabase) (program : Program) (index : Nat) (group : NativeTimerGroup)

def NativeTimerGroup.semantics (now : Int) : OwnerSemantics SourceTimer :=
  timerSemantics group.timerName group.presetMs now

def NativeTimerGroup.timed (timer : SourceTimer) (scan : TimerScan) : SourceTimer :=
  (group.semantics scan.clock).execute group.instruction (scan.bits group.enableName) timer

/-- Does the reset rung, where there is one, reset? -/
def NativeTimerGroup.resets (scan : TimerScan) : Bool := group.resetName.any scan.bits

def sourceTimerScan (timer : SourceTimer) (scan : TimerScan) : SourceScan SourceTimer :=
  (group.semantics scan.clock).executeRungs db
    (groupRungs db program index group.sourceRungCount) ⟨scan.bits, timer⟩

def sourceTimerStep (timer : SourceTimer) (scan : TimerScan) : SourceTimer :=
  (sourceTimerScan db program index group timer scan).owner

end

section

variable {db : CharacterDatabase} {program : Program} {index : Nat} {group : NativeTimerGroup}
  {timer done : ParsedBooleanRung} {resets : List ParsedBooleanRung}

theorem read_timerDone (now : Int) (scan : SourceScan SourceTimer) :
    (group.semantics now).read scan (memberOperand group.timerName "DN") = scan.owner.dn := by
  simp [OwnerSemantics.read, NativeTimerGroup.semantics, timerSemantics]

theorem timer_not_coil (h : group.instruction = .TON ∨ group.instruction = .TOF ∨
    group.instruction = .RTO) : group.instruction ≠ .OTE ∧ group.instruction ≠ .RES := by
  rcases h with h | h | h <;> simp [h]

def NativeTimerGroup.contacts (group : NativeTimerGroup) : List Text :=
  group.enableName :: group.resetName.toList

/-- The scan times, copies `DN` to the output, and resets. -/
theorem sourceTimerScan_eq (hmatched : MatchedTimer db program index group timer done resets)
    {state : SourceTimer} {scan : TimerScan}
    (hsteady : SteadyContacts db (group.semantics scan.clock) group.outputName
      (groupRungs db program index group.sourceRungCount) ⟨scan.bits, state⟩) :
    sourceTimerScan db program index group state scan =
      ⟨Function.update scan.bits group.outputName (group.timed state scan).dn,
        (group.timed state scan).res (group.resets scan)⟩ := by
  have ⟨operand, htimer, howner⟩ := hmatched.timer
  have hcoil := timer_not_coil hmatched.kind
  rw [hmatched.rungs] at hsteady
  have houtput : timer.outputs ≠ [⟨.OTE, group.outputName⟩] := by
    rw [htimer.outputs]
    intro hsame
    rw [List.singleton_inj, Instruction.mk.injEq] at hsame
    exact hcoil.1 hsame.1
  have henable : (group.semantics scan.clock).read ⟨scan.bits, state⟩ group.enableName =
      scan.bits group.enableName :=
    hsteady [] timer (done :: resets) rfl houtput ⟨.XIC, group.enableName⟩ (by simp [htimer.tail])
  have hname : OwnerSemantics.ownerName db ⟨group.instruction, operand⟩ =
      some (group.semantics scan.clock).name := by
    simp only [OwnerSemantics.ownerName, if_neg hcoil.2]
    exact howner
  have htimed : (group.semantics scan.clock).executeRung db ⟨scan.bits, state⟩ timer =
      ⟨scan.bits, group.timed state scan⟩ := by
    rw [htimer.execute_owner hcoil.1 hname, henable]
    rfl
  have hdone : (group.semantics scan.clock).executeRung db
      ⟨scan.bits, group.timed state scan⟩ done =
        ⟨Function.update scan.bits group.outputName (group.timed state scan).dn,
          group.timed state scan⟩ := by
    rw [hmatched.done.execute_coil, read_timerDone]
  have hrun : ∀ rest, (group.semantics scan.clock).executeRungs db (timer :: done :: rest)
      ⟨scan.bits, state⟩ = (group.semantics scan.clock).executeRungs db rest
        ⟨Function.update scan.bits group.outputName (group.timed state scan).dn,
          group.timed state scan⟩ := by
    intro rest
    simp only [OwnerSemantics.executeRungs, List.foldl_cons, htimed, hdone]
  rw [sourceTimerScan, hmatched.rungs, hrun]
  by_cases hkind : group.instruction = .RTO
  · have ⟨name, reset, hreset, hresets, hresetRung⟩ := hmatched.retentive hkind
    have hread : (group.semantics scan.clock).read
        ⟨Function.update scan.bits group.outputName (group.timed state scan).dn,
          group.timed state scan⟩ name = scan.bits name := by
      have hsteady := hsteady [timer, done] reset [] (by rw [hresets]; rfl)
        (by simp [hresetRung.outputs]) ⟨.XIC, name⟩ (by simp [hresetRung.tail])
      rwa [hrun] at hsteady
    have hopcode : Opcode.RES ≠ Opcode.OTE := by decide
    have hresetName : OwnerSemantics.ownerName db ⟨.RES, group.timerName⟩ =
        some (group.semantics scan.clock).name := rfl
    simp only [hresets, OwnerSemantics.executeRungs, List.foldl_cons, List.foldl_nil]
    rw [hresetRung.execute_owner hopcode hresetName, hread]
    simp only [NativeTimerGroup.resets, hreset, Option.any_some]
    rfl
  · have ⟨hreset, hresets⟩ := hmatched.plain hkind
    simp only [hresets, OwnerSemantics.executeRungs, List.foldl_nil, NativeTimerGroup.resets,
      hreset, Option.any_none]
    rfl

theorem MatchedTimer.contactRungs
    (hmatched : MatchedTimer db program index group timer done resets) :
    ContactRungs group.contacts group.outputName
      (groupRungs db program index group.sourceRungCount) := by
  have hcoil := timer_not_coil hmatched.kind
  intro rung h
  rw [hmatched.rungs, List.mem_cons, List.mem_cons] at h
  rcases h with rfl | rfl | hreset
  · have ⟨operand, htimer, _⟩ := hmatched.timer
    exact ⟨_, _, htimer, .inl (by simp [NativeTimerGroup.contacts]), fun h => absurd h hcoil.1⟩
  · exact ⟨_, _, hmatched.done, .inr rfl, fun _ => rfl⟩
  · by_cases hkind : group.instruction = .RTO
    · have ⟨name, reset, hname, hresets, hresetRung⟩ := hmatched.retentive hkind
      rw [hresets, List.mem_singleton] at hreset
      rw [hreset]
      exact ⟨_, _, hresetRung, .inl (by simp [NativeTimerGroup.contacts, hname]), by simp⟩
    · rw [(hmatched.plain hkind).2] at hreset
      cases hreset

end

end TwinForge.OpenPLC
