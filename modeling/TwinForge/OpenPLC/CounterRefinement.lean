import TwinForge.Foundation.Scans
import TwinForge.OpenPLC.CounterRungs

/-! # A counter group and its block

The source copies `DN` before it resets; the block resets before its output is read.
Apart from that one scan both have the same state after every scan.
-/

namespace TwinForge.OpenPLC

open Model Plcopen Scans

/-! ## The block beside the source -/

structure SameStatus (block : TfCounter) (counter : SourceCounter) : Prop where
  value : block.cv = counter.acc
  done : block.q = counter.dn
  overflow : block.ov = counter.ov
  underflow : block.un = counter.un
  range : -(2 ^ 31) ≤ counter.acc ∧ counter.acc < 2 ^ 31

/-- The block has sampled its count inputs and sees the edges the source sees. -/
structure SampledWith (group : OpenPLCCounterGroup) (valuation : Text → Bool) (block : TfCounter)
    (counter : SourceCounter) : Prop extends SameStatus block counter where
  upEdge : block.upEdge =
    group.countUpName.any fun name => valuation name && decide (counter.up = some false)
  downEdge : block.downEdge =
    group.countDownName.any fun name => valuation name && decide (counter.down = some false)
  initialized : block.initialized = true

/-- Between scans: nothing was called yet, or the edge memories agree. -/
inductive Beside (group : OpenPLCCounterGroup) (block : TfCounter) (counter : SourceCounter) : Prop
  | fresh (blank : block = {}) (unread : counter = group.initial)
  | called (status : SameStatus block counter) (initialized : block.initialized = true)
      (up : group.countUpName.isSome = true → block.wasCu = !decide (counter.up = some false))
      (down : group.countDownName.isSome = true →
        block.wasCd = !decide (counter.down = some false))

section

variable {group : OpenPLCCounterGroup} {valuation : Text → Bool} {block : TfCounter}
  {counter : SourceCounter}

theorem Beside.sampled (h : Beside group block counter) :
    SampledWith group valuation (block.sampled (group.call valuation)) counter := by
  cases h with
  | fresh blank unread =>
    -- The edge memory starts at the inputs, so the first call sees no edge.
    have hnone : counter.up = none ∧ counter.down = none := by
      rw [unread]
      exact ⟨rfl, rfl⟩
    rw [blank]
    constructor
    case toSameStatus =>
      rw [unread]
      exact ⟨rfl, rfl, rfl, rfl, dintValue_range _⟩
    case upEdge =>
      simp [TfCounter.sampled, TfCounter.start, hnone.1]
    case downEdge =>
      simp [TfCounter.sampled, TfCounter.start, hnone.2]
    case initialized => rfl
  | called status initialized up down =>
    constructor
    case toSameStatus =>
      simp only [TfCounter.sampled, TfCounter.start, initialized, if_true]
      exact ⟨status.value, status.done, status.overflow, status.underflow, status.range⟩
    case upEdge =>
      cases hup : group.countUpName with
      | none => simp [TfCounter.sampled, OpenPLCCounterGroup.call, hup]
      | some name =>
        have hmemory := up (by simp [hup])
        simp [TfCounter.sampled, TfCounter.start, initialized, OpenPLCCounterGroup.call, hup,
          hmemory]
    case downEdge =>
      cases hdown : group.countDownName with
      | none => simp [TfCounter.sampled, OpenPLCCounterGroup.call, hdown]
      | some name =>
        have hmemory := down (by simp [hdown])
        simp [TfCounter.sampled, TfCounter.start, initialized, OpenPLCCounterGroup.call, hdown,
          hmemory]
    case initialized =>
      simp [TfCounter.sampled, TfCounter.start, initialized]

/-! ### Counting -/

theorem dintValue_up {value : Int} (h : -(2 ^ 31) ≤ value ∧ value < 2 ^ 31) :
    dintValue (value + 1) = if value = 2147483647 then -2147483647 - 1 else value + 1 := by
  split
  · next htop =>
      rw [htop]
      rfl
  · apply dintValue_eq
    omega

theorem dintValue_down {value : Int} (h : -(2 ^ 31) ≤ value ∧ value < 2 ^ 31) :
    dintValue (value - 1) = if value = -2147483647 - 1 then 2147483647 else value - 1 := by
  split
  · next hbottom =>
      rw [hbottom]
      rfl
  · apply dintValue_eq
    omega

/-- Apart from the done bit, which the block sets once after counting in both directions. -/
structure SameCount (block : TfCounter) (counter : SourceCounter) : Prop where
  value : block.cv = counter.acc
  overflow : block.ov = counter.ov
  underflow : block.un = counter.un
  range : -(2 ^ 31) ≤ counter.acc ∧ counter.acc < 2 ^ 31

theorem SameCount.up (preset : Int) {on : Bool} (h : SameCount block counter)
    (hedge : block.upEdge = (on && decide (counter.up = some false))) :
    SameCount block.countUp (counter.countUp preset on) ∧
      (counter.countUp preset on).dn =
        if block.upEdge then decide (preset ≤ block.countUp.cv) else counter.dn := by
  have hwrap := dintValue_up h.range
  have hrange := dintValue_range (counter.acc + 1)
  simp only [TfCounter.countUp, SourceCounter.countUp, hedge]
  cases hrising : on && decide (counter.up = some false) with
  | false => exact ⟨⟨h.value, h.overflow, h.underflow, h.range⟩, rfl⟩
  | true =>
    simp only [if_true]
    by_cases htop : block.cv = 2147483647
    · have hacc : counter.acc = 2147483647 := h.value ▸ htop
      rw [if_pos htop]
      rw [if_pos hacc] at hwrap
      refine ⟨⟨hwrap.symm, ?_, h.underflow, hrange⟩, ?_⟩
      · simp [hacc]
      · simp [hwrap]
    · have hacc : counter.acc ≠ 2147483647 := h.value ▸ htop
      rw [if_neg htop]
      rw [if_neg hacc] at hwrap
      refine ⟨⟨?_, ?_, h.underflow, hrange⟩, ?_⟩
      · simp [hwrap, h.value]
      · simp [hacc, h.overflow]
      · simp [hwrap, h.value]

theorem SameCount.down (preset : Int) {on : Bool} (h : SameCount block counter)
    (hedge : block.downEdge = (on && decide (counter.down = some false))) :
    SameCount block.countDown (counter.countDown preset on) ∧
      (counter.countDown preset on).dn =
        if block.downEdge then decide (preset ≤ block.countDown.cv) else counter.dn := by
  have hwrap := dintValue_down h.range
  have hrange := dintValue_range (counter.acc - 1)
  simp only [TfCounter.countDown, SourceCounter.countDown, hedge]
  cases hrising : on && decide (counter.down = some false) with
  | false => exact ⟨⟨h.value, h.overflow, h.underflow, h.range⟩, rfl⟩
  | true =>
    simp only [if_true]
    by_cases hbottom : block.cv = -2147483647 - 1
    · have hacc : counter.acc = -2147483647 - 1 := h.value ▸ hbottom
      rw [if_pos hbottom]
      rw [if_pos hacc] at hwrap
      refine ⟨⟨hwrap.symm, h.overflow, ?_, hrange⟩, ?_⟩
      · simp [hacc]
      · simp [hwrap]
    · have hacc : counter.acc ≠ -2147483647 - 1 := h.value ▸ hbottom
      rw [if_neg hbottom]
      rw [if_neg hacc] at hwrap
      refine ⟨⟨?_, h.overflow, ?_, hrange⟩, ?_⟩
      · simp [hwrap, h.value]
      · have hother : counter.acc ≠ -2147483648 := hacc
        simp [hother, h.underflow]
      · simp [hwrap, h.value]

@[simp] theorem countUp_down (preset : Int) (on : Bool) :
    (counter.countUp preset on).down = counter.down := by
  unfold SourceCounter.countUp
  split <;> rfl

@[simp] theorem countUp_up (preset : Int) (on : Bool) :
    (counter.countUp preset on).up = some on := rfl

@[simp] theorem countDown_up (preset : Int) (on : Bool) :
    (counter.countDown preset on).up = counter.up := by
  unfold SourceCounter.countDown
  split <;> rfl

@[simp] theorem countDown_down (preset : Int) (on : Bool) :
    (counter.countDown preset on).down = some on := rfl

@[simp] theorem TfCounter.countUp_edges :
    block.countUp.upEdge = block.upEdge ∧ block.countUp.downEdge = block.downEdge := by
  unfold TfCounter.countUp
  split
  · split <;> exact ⟨rfl, rfl⟩
  · exact ⟨rfl, rfl⟩

@[simp] theorem TfCounter.countDown_edges :
    block.countDown.upEdge = block.upEdge ∧ block.countDown.downEdge = block.downEdge := by
  unfold TfCounter.countDown
  split
  · split <;> exact ⟨rfl, rfl⟩
  · exact ⟨rfl, rfl⟩

theorem TfCounter.countUp_idle (h : block.upEdge = false) : block.countUp = block := by
  simp [TfCounter.countUp, h]

theorem TfCounter.countDown_idle (h : block.downEdge = false) : block.countDown = block := by
  simp [TfCounter.countDown, h]

theorem TfCounter.countUp_kept :
    block.countUp.q = block.q ∧ block.countUp.initialized = block.initialized := by
  unfold TfCounter.countUp
  split
  · split <;> exact ⟨rfl, rfl⟩
  · exact ⟨rfl, rfl⟩

theorem TfCounter.countDown_kept :
    block.countDown.q = block.q ∧ block.countDown.initialized = block.initialized := by
  unfold TfCounter.countDown
  split
  · split <;> exact ⟨rfl, rfl⟩
  · exact ⟨rfl, rfl⟩

/-- The counting of a call, with its directions in the order of the call. -/
def TfCounter.bothCounted (block : TfCounter) (upFirst : Bool) : TfCounter :=
  if upFirst then block.countUp.countDown else block.countDown.countUp

theorem counted_of {call : CounterCall} {source : SourceCounter}
    (hcount : SameCount (block.bothCounted call.upFirst) source)
    (hdone : source.dn = if block.upEdge || block.downEdge then
      decide (call.pv ≤ (block.bothCounted call.upFirst).cv) else block.q) :
    SameStatus (block.counted call) source ∧
      (block.counted call).initialized = block.initialized ∧
      (block.counted call).wasCu = call.cu ∧ (block.counted call).wasCd = call.cd := by
  have hedges : (block.bothCounted call.upFirst).upEdge = block.upEdge ∧
      (block.bothCounted call.upFirst).downEdge = block.downEdge := by
    unfold TfCounter.bothCounted
    split <;> simp
  have hkept : (block.bothCounted call.upFirst).q = block.q ∧
      (block.bothCounted call.upFirst).initialized = block.initialized := by
    unfold TfCounter.bothCounted
    split
    · simp [TfCounter.countUp_kept, TfCounter.countDown_kept]
    · simp [TfCounter.countUp_kept, TfCounter.countDown_kept]
  have hunfold : block.counted call =
      { block.bothCounted call.upFirst with
        q := if block.upEdge || block.downEdge then
            decide (call.pv ≤ (block.bothCounted call.upFirst).cv) else block.q
        wasCu := call.cu, wasCd := call.cd } := by
    simp only [TfCounter.counted, ← TfCounter.bothCounted.eq_def, hedges.1, hedges.2]
    split
    · rfl
    · rw [← hkept.1, ← hedges.1, ← hedges.2]
  rw [hunfold]
  exact ⟨⟨hcount.value, hdone.symm, hcount.overflow, hcount.underflow, hcount.range⟩, hkept.2,
    rfl, rfl⟩

def SourceCounter.upBy (counter : SourceCounter) (preset : Int) (valuation : Text → Bool) :
    Option Text → SourceCounter
  | none => counter
  | some name => counter.countUp preset (valuation name)

def SourceCounter.downBy (counter : SourceCounter) (preset : Int) (valuation : Text → Bool) :
    Option Text → SourceCounter
  | none => counter
  | some name => counter.countDown preset (valuation name)

theorem SameCount.upBy (preset : Int) {input : Option Text} (h : SameCount block counter)
    (hedge : block.upEdge = input.any fun name => valuation name && decide (counter.up = some false)) :
    SameCount block.countUp (counter.upBy preset valuation input) ∧
      (counter.upBy preset valuation input).down = counter.down ∧
      (counter.upBy preset valuation input).dn =
        if block.upEdge then decide (preset ≤ block.countUp.cv) else counter.dn := by
  cases input with
  | none =>
    rw [Option.any_none] at hedge
    rw [TfCounter.countUp_idle hedge, hedge]
    exact ⟨h, rfl, rfl⟩
  | some name =>
    have ⟨hcount, hdone⟩ := h.up preset hedge
    exact ⟨hcount, countUp_down preset _, hdone⟩

theorem SameCount.downBy (preset : Int) {input : Option Text} (h : SameCount block counter)
    (hedge : block.downEdge =
      input.any fun name => valuation name && decide (counter.down = some false)) :
    SameCount block.countDown (counter.downBy preset valuation input) ∧
      (counter.downBy preset valuation input).up = counter.up ∧
      (counter.downBy preset valuation input).dn =
        if block.downEdge then decide (preset ≤ block.countDown.cv) else counter.dn := by
  cases input with
  | none =>
    rw [Option.any_none] at hedge
    rw [TfCounter.countDown_idle hedge, hedge]
    exact ⟨h, rfl, rfl⟩
  | some name =>
    have ⟨hcount, hdone⟩ := h.down preset hedge
    exact ⟨hcount, countDown_up preset _, hdone⟩

theorem counted_eq (hordered : group.Ordered) :
    group.counted valuation counter =
      if (group.call valuation).upFirst then
        (counter.upBy (dintValue group.preset) valuation group.countUpName).downBy
          (dintValue group.preset) valuation group.countDownName
      else
        (counter.downBy (dintValue group.preset) valuation group.countDownName).upBy
          (dintValue group.preset) valuation group.countUpName := by
  unfold OpenPLCCounterGroup.Ordered at hordered
  cases horder : group.order <;> simp only [horder] at hordered <;>
    cases hup : group.countUpName <;> cases hdown : group.countDownName <;>
    simp [hup, hdown] at hordered <;>
    simp [OpenPLCCounterGroup.counted, OpenPLCCounterGroup.directions, OpenPLCCounterGroup.call,
      horder, hup, hdown, OpenPLCCounterGroup.semantics, counterSemantics, SourceCounter.upBy,
      SourceCounter.downBy]

theorem SampledWith.counted (h : SampledWith group valuation block counter)
    (hordered : group.Ordered) :
    SameStatus (block.counted (group.call valuation)) (group.counted valuation counter) ∧
      (block.counted (group.call valuation)).initialized = block.initialized ∧
      (block.counted (group.call valuation)).wasCu = group.countUpName.any valuation ∧
      (block.counted (group.call valuation)).wasCd = group.countDownName.any valuation := by
  have hstart : SameCount block counter := ⟨h.value, h.overflow, h.underflow, h.range⟩
  rw [counted_eq hordered]
  have hpreset : (group.call valuation).pv = dintValue group.preset := rfl
  cases hfirst : (group.call valuation).upFirst with
  | true =>
    have ⟨hup, hkept, hdone⟩ := hstart.upBy (dintValue group.preset) h.upEdge
    have ⟨hboth, _, hlast⟩ := hup.downBy (dintValue group.preset)
      (TfCounter.countUp_edges.2.trans (hkept ▸ h.downEdge))
    apply counted_of
    · rwa [hfirst]
    · rw [hfirst, if_pos rfl, hlast, hdone, TfCounter.countUp_edges.2, hpreset]
      cases hedge : block.downEdge with
      | true => simp [TfCounter.bothCounted]
      | false =>
        have hidle := @TfCounter.countDown_idle block.countUp (by simp [hedge])
        simp [TfCounter.bothCounted, hidle, h.done]
  | false =>
    have ⟨hdown, hkept, hdone⟩ := hstart.downBy (dintValue group.preset) h.downEdge
    have ⟨hboth, _, hlast⟩ := hdown.upBy (dintValue group.preset)
      (TfCounter.countDown_edges.1.trans (hkept ▸ h.upEdge))
    apply counted_of
    · rwa [hfirst]
    · rw [hfirst, if_neg (by simp), hlast, hdone, TfCounter.countDown_edges.1, hpreset]
      cases hedge : block.upEdge with
      | true => simp [TfCounter.bothCounted]
      | false =>
        have hidle := @TfCounter.countUp_idle block.countDown (by simp [hedge])
        simp [TfCounter.bothCounted, hidle, h.done]

/-- The edge memory of the source after counting is what the count contacts read. -/
theorem counted_memory (hordered : group.Ordered) :
    (∀ name ∈ group.countUpName, (group.counted valuation counter).up = some (valuation name)) ∧
      ∀ name ∈ group.countDownName,
        (group.counted valuation counter).down = some (valuation name) := by
  unfold OpenPLCCounterGroup.Ordered at hordered
  cases horder : group.order <;> simp only [horder] at hordered <;>
    cases hup : group.countUpName <;> cases hdown : group.countDownName <;>
    simp [hup, hdown] at hordered <;>
    simp [OpenPLCCounterGroup.counted, OpenPLCCounterGroup.directions, horder, hup, hdown,
      OpenPLCCounterGroup.semantics, counterSemantics]

/-- After a call the block stands beside the source again, whether the scan reset or not. -/
theorem Beside.step (h : Beside group block counter) (hordered : group.Ordered) :
    (tfCounter block (group.call valuation)).q =
        (!valuation group.resetName && (group.counted valuation counter).dn) ∧
      Beside group (tfCounter block (group.call valuation))
        (if valuation group.resetName then SourceCounter.clear
          else group.counted valuation counter) := by
  have hsampled : SampledWith group valuation (block.sampled (group.call valuation)) counter :=
    h.sampled
  have hcall : (group.call valuation).reset = valuation group.resetName := rfl
  unfold tfCounter
  rw [hcall]
  cases valuation group.resetName with
  | true =>
    constructor
    · rfl
    · show Beside group _ SourceCounter.clear
      exact .called ⟨rfl, rfl, rfl, rfl, by decide⟩ hsampled.initialized (fun _ => rfl)
        (fun _ => rfl)
  | false =>
    have ⟨hstatus, hinitialized, hwasCu, hwasCd⟩ := hsampled.counted hordered
    have ⟨hup, hdown⟩ := @counted_memory group valuation counter hordered
    constructor
    · simpa using hstatus.done
    · refine .called hstatus (hinitialized.trans hsampled.initialized) ?_ ?_
      · intro hsome
        have ⟨name, hname⟩ := Option.isSome_iff_exists.mp hsome
        simp [hwasCu, hup name hname, hname]
      · intro hsome
        have ⟨name, hname⟩ := Option.isSome_iff_exists.mp hsome
        simp [hwasCd, hdown name hname, hname]

end

/-! ## Runs -/

section

variable (db : CharacterDatabase) (program : Program) (index : Nat) (group : OpenPLCCounterGroup)
  (rung : BlockRung) (run : List (Text → Bool))

def sourceCounter (past : List (Text → Bool)) : SourceCounter :=
  after (sourceCounterStep db program index group) group.initial past

/-- In every scan after the first the coil of the network has the value of the output rung. -/
def CoilFollows : Prop :=
  ∀ past valuation, past ++ [valuation] <+: run → past ≠ [] →
    rung.coilWritten (after rung.counterScan {} (past ++ [valuation])).output =
      some (group.outputName,
        (sourceCounterScan db program index group (sourceCounter db program index group past)
          valuation).bits group.outputName)

def SteadyRun : Prop :=
  ∀ past valuation, past ++ [valuation] <+: run →
    SteadyContacts db group.semantics group.outputName
      (groupRungs db program index group.sourceRungCount)
      ⟨valuation, sourceCounter db program index group past⟩

/-- No scan after the first resets a counter that is done once the scan has counted. -/
def NeverResetsDone : Prop :=
  ∀ past valuation, past ++ [valuation] <+: run → past ≠ [] →
    ¬ (valuation group.resetName = true ∧
      (group.counted valuation (sourceCounter db program index group past)).dn = true)

end

section

variable {db : CharacterDatabase} {program : Program} {index : Nat} {group : OpenPLCCounterGroup}
  {counts : List ParsedBooleanRung} {done reset : ParsedBooleanRung} {rung : BlockRung}
  {run : List (Text → Bool)}

theorem beside_run (hmatched : MatchedCounter db program index group counts done reset)
    (hcall : ∀ valuation, rung.counterCall valuation = group.call valuation)
    (hsteady : SteadyRun db program index group run) :
    Beside group (after rung.counterScan {} run) (sourceCounter db program index group run) := by
  induction run using List.reverseRecOn with
  | nil => exact .fresh rfl rfl
  | append_singleton past valuation ih =>
    have hbefore : SteadyRun db program index group past := fun earlier other hinitial =>
      hsteady earlier other (hinitial.trans (List.prefix_append past [valuation]))
    have hstep := (@Beside.step group valuation _ _ (ih hbefore) hmatched.ordered).2
    have hscan := sourceCounterScan_eq hmatched (hsteady past valuation List.prefix_rfl)
    rw [sourceCounter, after_append, after_append, after_cons, after_cons, after_nil, after_nil,
      sourceCounterStep]
    rw [sourceCounter] at hscan hstep
    rw [hscan]
    show Beside group (tfCounter _ (rung.counterCall valuation)) _
    rw [hcall]
    exact hstep

/-- The coil of a scan: the block's reset wins over the done bit the source copies. -/
theorem coil_of_scan (hmatched : MatchedCounter db program index group counts done reset)
    (hcall : ∀ valuation, rung.counterCall valuation = group.call valuation)
    {past : List (Text → Bool)} {valuation : Text → Bool}
    (hsteady : SteadyRun db program index group (past ++ [valuation])) :
    (after rung.counterScan {} (past ++ [valuation])).q = (!valuation group.resetName &&
        (group.counted valuation (sourceCounter db program index group past)).dn) ∧
      (sourceCounterScan db program index group (sourceCounter db program index group past)
        valuation).bits group.outputName =
          (group.counted valuation (sourceCounter db program index group past)).dn := by
  have hbefore : SteadyRun db program index group past := fun earlier other hinitial =>
    hsteady earlier other (hinitial.trans (List.prefix_append past [valuation]))
  have hbeside := beside_run hmatched hcall hbefore
  constructor
  · rw [after_append, after_cons, after_nil]
    show (tfCounter _ (rung.counterCall valuation)).q = _
    rw [hcall]
    exact (hbeside.step hmatched.ordered).1
  · rw [sourceCounterScan_eq hmatched (hsteady past valuation List.prefix_rfl)]
    simp

theorem ordered_counts (h : group.Ordered) : group.Counts := by
  unfold OpenPLCCounterGroup.Ordered at h
  unfold OpenPLCCounterGroup.Counts
  cases horder : group.order <;> simp only [horder] at h
  case downOnly => exact .inr h.2
  all_goals exact .inl h.1

end

/-- Over every run the network follows the source exactly as long as no scan resets a
counter that is done: the block call cannot sample `DN` before the reset. -/
theorem counterGroup_follows_iff (db : CharacterDatabase) (stableUuid : Text → Text)
    (program : Program) (index : Nat) (group : OpenPLCCounterGroup)
    (hmatch : matchCounterGroup db program index = .ok (some group)) (programName : Text)
    (accumulatorName : Option Text) (statusNames : List (Text × Text))
    (hfree : CollisionFree stableUuid
      (counterPaths (rungIdentifier stableUuid programName index)))
    (run : List (Text → Bool)) (hsteady : SteadyRun db program index group run) :
    CoilFollows db program index group
        (lowerCounterGroup stableUuid programName index group accumulatorName statusNames) run ↔
      NeverResetsDone db program index group run := by
  have ⟨counts, done, reset, hmatched⟩ := matchCounterGroup_matched hmatch
  have hcall := @lowerCounterGroup_call stableUuid group accumulatorName statusNames _ _ hfree
    (ordered_counts hmatched.ordered)
  have hreads := @lowerCounterGroup_reads stableUuid _ group accumulatorName statusNames
    programName index rfl hfree
  generalize lowerCounterGroup stableUuid programName index group accumulatorName statusNames =
    rung at hcall hreads ⊢
  have hcoil : ∀ past valuation, past ++ [valuation] <+: run →
      (rung.coilWritten (after rung.counterScan {} (past ++ [valuation])).output =
        some (group.outputName,
          (sourceCounterScan db program index group (sourceCounter db program index group past)
            valuation).bits group.outputName) ↔
        ¬ (valuation group.resetName = true ∧
          (group.counted valuation (sourceCounter db program index group past)).dn = true)) := by
    intro past valuation hinitial
    have hbefore : SteadyRun db program index group (past ++ [valuation]) :=
      fun earlier other hearlier => hsteady earlier other (hearlier.trans hinitial)
    have ⟨hblock, hsource⟩ := coil_of_scan hmatched hcall hbefore
    rw [hreads.coilWritten rfl, hsource]
    have hq : (after rung.counterScan {} (past ++ [valuation])).output "Q" =
        (after rung.counterScan {} (past ++ [valuation])).q := rfl
    rw [hq, hblock]
    cases valuation group.resetName <;>
      cases (group.counted valuation (sourceCounter db program index group past)).dn <;>
      simp [counterCoil, instructionNode]
  constructor
  · intro hfollows past valuation hinitial hpast
    exact (hcoil past valuation hinitial).mp (hfollows past valuation hinitial hpast)
  · intro hnever past valuation hinitial hpast
    exact (hcoil past valuation hinitial).mpr (hnever past valuation hinitial hpast)

/-! ## Groups whose contacts are inputs -/

def OpenPLCCounterGroup.contacts (group : OpenPLCCounterGroup) : List Text :=
  group.directions.map Prod.snd ++ [group.resetName]

section

variable {db : CharacterDatabase} {program : Program} {index : Nat} {group : OpenPLCCounterGroup}
  {counts : List ParsedBooleanRung} {done reset : ParsedBooleanRung}

theorem countRung_mem {counter : Text} {directions : List (Opcode × Text)}
    {rung : ParsedBooleanRung} (h : List.Forall₂ (CountRung db counter) counts directions)
    (hrung : rung ∈ counts) : ∃ direction ∈ directions, CountRung db counter rung direction := by
  induction h with
  | nil => cases hrung
  | cons hcount hcounts ih =>
    cases hrung with
    | head => exact ⟨_, List.mem_cons_self, hcount⟩
    | tail _ hmem =>
      have ⟨direction, hdirection, hfound⟩ := ih hmem
      exact ⟨direction, List.mem_cons_of_mem _ hdirection, hfound⟩

theorem MatchedCounter.contactRungs
    (hmatched : MatchedCounter db program index group counts done reset) :
    ContactRungs group.contacts group.outputName
      (groupRungs db program index group.sourceRungCount) := by
  intro rung h
  rw [hmatched.rungs, List.mem_append, List.mem_cons, List.mem_singleton] at h
  rcases h with hcount | rfl | rfl
  · have ⟨direction, hdirection, operand, hcontact, _⟩ := countRung_mem hmatched.counting hcount
    refine ⟨_, _, hcontact, .inl ?_, ?_⟩
    · exact List.mem_append_left _ (List.mem_map_of_mem hdirection)
    · intro hcoil
      exact absurd hcoil (directions_opcodes _ hdirection).1
  · exact ⟨_, _, hmatched.done, .inr rfl, fun _ => rfl⟩
  · exact ⟨_, _, hmatched.reset, .inl (by simp [OpenPLCCounterGroup.contacts]), by simp⟩

theorem steadyRun_of_inputs (hmatch : matchCounterGroup db program index = .ok (some group))
    (hinputs : InputContacts group.semantics group.contacts group.outputName)
    (run : List (Text → Bool)) : SteadyRun db program index group run := by
  have ⟨counts, done, reset, hmatched⟩ := matchCounterGroup_matched hmatch
  intro past valuation hinitial
  exact hinputs.steady hmatched.contactRungs _

end

/-! An up counter with a preset of one. -/

def partCounter : Tag :=
  { name := "C", dataType := some "COUNTER", decoratedMembers := [("PRE", some 1)] }

def counterProgram : Program :=
  let routine : Routine := ⟨"Main",
    [⟨some 0, none, some "XIC(Entered)CTU(C,?,?);", []⟩, ⟨some 1, none, some "XIC(C.DN)OTE(Full);", []⟩,
      ⟨some 2, none, some "XIC(Clear)RES(C);", []⟩]⟩
  ⟨"P", [("Main", routine)], [("C", partCounter)], some routine⟩

def partGroup : OpenPLCCounterGroup :=
  ⟨"C", some "Entered", none, "Clear", "Full", .upOnly, 1, 0, false, false, false, [], 3⟩

theorem counterProgram_group :
    matchCounterGroup Ascii.database counterProgram 0 = .ok (some partGroup) := by
  decide +kernel

theorem partGroup_inputs :
    InputContacts partGroup.semantics partGroup.contacts partGroup.outputName := by
  unfold InputContacts
  decide

/-- One part enters, and nothing is cleared. -/
theorem counterGroup_follows_part :
    CoilFollows Ascii.database counterProgram 0 partGroup
        (lowerCounterGroup id "P" 0 partGroup none [])
        [fun _ => false, fun name => name == ("Entered" : Text), fun _ => false] ↔
      NeverResetsDone Ascii.database counterProgram 0 partGroup
        [fun _ => false, fun name => name == ("Entered" : Text), fun _ => false] :=
  counterGroup_follows_iff Ascii.database id counterProgram 0 partGroup counterProgram_group "P"
    none [] (fun _ _ _ _ hsame => hsame) _
    (steadyRun_of_inputs counterProgram_group partGroup_inputs _)

/-- The scan that clears a done counter: the source still shows it done. -/
theorem counterGroup_reset_scan :
    ¬ ∀ run : List (Text → Bool), CoilFollows Ascii.database counterProgram 0 partGroup
      (lowerCounterGroup id "P" 0 partGroup none []) run := by
  intro h
  have hscan := h [fun _ => false, fun name => name == ("Entered" : Text),
    fun name => name == ("Clear" : Text)]
    [fun _ => false, fun name => name == ("Entered" : Text)]
    (fun name => name == ("Clear" : Text)) List.prefix_rfl (by simp)
  revert hscan
  decide +kernel

end TwinForge.OpenPLC
