import TwinForge.OpenPLC.TimerRungs

/-! # A timer group and its block

The blocks measure from the scan that started them, the source adds up the scans since:
with a clock that does not go back both reach the preset in the same scan. Only an `RTO`
reset separates them, since the block resets before its output is read.
-/

namespace TwinForge.OpenPLC

open Model Plcopen Scans ScanTimers

/-! ## Block and source, kind by kind -/

/-- The clock has not gone back since the timer was last executed. -/
def NotBefore (timer : SourceTimer) (now : Int) : Prop := ∀ last ∈ timer.last, last ≤ now

/-- A `TON`: off, or on since the block's start. -/
inductive BesideTon (pre : Int) (block : Ton) (timer : SourceTimer) : Prop
  | off (blank : block = {}) (undone : timer.dn = false) (cleared : timer.acc = 0)
      (stopped : timer.last = none)
  | on (start last : Int) (started : block.start = some start) (running : timer.last = some last)
      (total : timer.acc = min pre (last - start)) (same : block.q = timer.dn)

section

variable {pre now : Int} {on : Bool} {timer : SourceTimer}

theorem BesideTon.same {block : Ton} (h : BesideTon pre block timer) : block.q = timer.dn := by
  cases h with
  | off blank undone => rw [blank, undone]
  | on _ _ _ _ _ same => exact same

theorem BesideTon.step {block : Ton} (h : BesideTon pre block timer)
    (hclock : NotBefore timer now) :
    BesideTon pre (block.call on pre now) (timer.ton pre now on) := by
  cases on with
  | false => exact .off rfl rfl rfl rfl
  | true =>
    cases h with
    | off blank undone cleared stopped =>
      refine .on now now ?_ rfl ?_ ?_
      · simp [Ton.call, blank]
      · simp [SourceTimer.ton, SourceTimer.timed, stopped, cleared]
      · simp [Ton.call, SourceTimer.ton, SourceTimer.timed, blank, stopped, cleared]
    | on start last started running total same =>
      have hlater := hclock last running
      have hacc : timer.timed pre now = min pre (now - start) := by
        simp only [SourceTimer.timed, running, Option.getD_some, total]
        omega
      refine .on start now ?_ rfl ?_ ?_
      · simp [Ton.call, started]
      · simpa [SourceTimer.ton] using hacc
      · simp only [Ton.call, SourceTimer.ton, started, Option.getD_some, hacc, if_true]
        rw [decide_eq_decide]
        omega

/-- A `TOF`: on, timing since the block's start, or dropped. -/
inductive BesideTof (pre : Int) (block : Tof) (timer : SourceTimer) : Prop
  | resting (still : block.start = none) (stopped : timer.last = none) (cleared : timer.acc = 0)
      (same : block.q = timer.dn)
  | timing (start last : Int) (started : block.start = some start)
      (running : timer.last = some last) (total : timer.acc = min pre (last - start))
      (same : block.q = timer.dn)

theorem BesideTof.same {block : Tof} (h : BesideTof pre block timer) : block.q = timer.dn := by
  cases h with
  | resting _ _ _ same => exact same
  | timing _ _ _ _ _ same => exact same

theorem BesideTof.step {block : Tof} (h : BesideTof pre block timer) (hpre : 0 < pre)
    (hclock : NotBefore timer now) :
    BesideTof pre (block.call on pre now) (timer.tof pre now on) := by
  cases on with
  | true => exact .resting rfl rfl rfl rfl
  | false =>
    have hsame := h.same
    cases hdn : timer.dn with
    | false =>
      have hq : block.q = false := hsame.trans hdn
      have hblock : block.call false pre now = block := by simp [Tof.call, hq]
      rw [hblock]
      cases h with
      | resting still stopped cleared same =>
        exact .resting still (by simp [SourceTimer.tof, hdn, stopped])
          (by simp [SourceTimer.tof, hdn, cleared]) (by simp [SourceTimer.tof, hdn, hq])
      | timing start last started running total same =>
        exact .timing start last started (by simp [SourceTimer.tof, hdn, running])
          (by simp [SourceTimer.tof, hdn, total]) (by simp [SourceTimer.tof, hdn, hq])
    | true =>
      have hq : block.q = true := hsame.trans hdn
      cases h with
      | resting still stopped cleared same =>
        refine .timing now now ?_ ?_ ?_ ?_
        · simp [Tof.call, hq, still]
        · simp [SourceTimer.tof, hdn]
        · simp [SourceTimer.tof, SourceTimer.timed, hdn, stopped, cleared]
        · simp [Tof.call, SourceTimer.tof, SourceTimer.timed, hdn, hq, still, stopped,
            cleared, hpre]
      | timing start last started running total same =>
        have hlater := hclock last running
        have hacc : timer.timed pre now = min pre (now - start) := by
          simp only [SourceTimer.timed, running, Option.getD_some, total]
          omega
        refine .timing start now ?_ ?_ ?_ ?_
        · simp [Tof.call, hq, started]
        · simp [SourceTimer.tof, hdn]
        · simpa [SourceTimer.tof, hdn] using hacc
        · simp only [Tof.call, SourceTimer.tof, hdn, hq, started, Option.getD_some, hacc,
            if_true, Bool.false_eq_true, if_false]
          rw [decide_eq_decide]
          omega

/-- A `TF_RTO`: no segment open, one open since the block's start, or done. -/
inductive BesideRto (pre : Int) (block : TfRto) (timer : SourceTimer) : Prop
  | idle (open_ : block.q = false) (undone : timer.dn = false) (stopped : block.segmentTimer = {})
      (resting : timer.last = none) (retained : block.retainedTime = timer.acc)
      (room : timer.acc < pre)
  | running (start last : Int) (open_ : block.q = false) (undone : timer.dn = false)
      (was : block.wasEnabled = true) (started : block.segmentTimer.start = some start)
      (segment : block.segmentTimer.et = last - start) (timing : timer.last = some last)
      (total : block.retainedTime + (last - start) = timer.acc)
      (below : block.retainedTime < pre) (room : timer.acc < pre)
  | full (done : block.q = true) (same : timer.dn = true) (retained : block.retainedTime = pre)
      (reached : timer.acc = pre)

variable {block : TfRto}

theorem BesideRto.same (h : BesideRto pre block timer) : block.q = timer.dn := by
  cases h with
  | idle open_ undone => rw [open_, undone]
  | running start last open_ undone => rw [open_, undone]
  | full done same => rw [done, same]

theorem BesideRto.disabled (h : BesideRto pre block timer) :
    BesideRto pre (tfRto pre block ⟨now, false, false⟩) (timer.rto pre now false) := by
  cases h with
  | idle open_ undone stopped resting retained room =>
    have hsegment : block.segmentTimer.et = 0 := by rw [stopped]
    have hroom : block.retainedTime + block.segmentTimer.et < pre := by omega
    rw [tfRto_hold rfl rfl open_ hroom]
    refine .idle open_ undone rfl rfl ?_ room
    simp [hsegment, retained, SourceTimer.rto]
  | running start last open_ undone was started segment timing total below room =>
    have hroom : block.retainedTime + block.segmentTimer.et < pre := by omega
    rw [tfRto_hold rfl rfl open_ hroom]
    refine .idle open_ undone rfl rfl ?_ room
    simp only [was, if_true, SourceTimer.rto, Bool.false_eq_true, if_false]
    omega
  | full done same retained reached =>
    have hcall : tfRto pre block ⟨now, false, false⟩ =
        { block with
          et := pre, enabled := false, tt := false, segmentTimer := {}, wasEnabled := false } := by
      simp [tfRto, TfRto.hold, done, retained]
    rw [hcall]
    exact .full done same retained reached

/-- An enabled scan of an open block: the segment reaches the preset in both or in neither. -/
theorem BesideRto.segment (hq : block.q = false) (hroom : block.retainedTime < pre)
    (htime : timer.timed pre now =
      min pre (block.retainedTime + (now - block.segmentTimer.start.getD now))) :
    BesideRto pre (tfRto pre block ⟨now, true, false⟩) (timer.rto pre now true) := by
  rw [tfRto_run rfl rfl hq hroom rfl]
  generalize block.segmentTimer.start.getD now = start at htime ⊢
  by_cases hreached : pre ≤ block.retainedTime + (now - start)
  · have hacc : timer.timed pre now = pre := by omega
    refine .full ?_ ?_ ?_ ?_
    · simpa using hreached
    · simp [SourceTimer.rto, hacc]
    · simp [hreached]
    · simpa [SourceTimer.rto] using hacc
  · have hacc : timer.timed pre now = block.retainedTime + (now - start) := by omega
    refine .running start now ?_ ?_ rfl rfl ?_ rfl ?_ ?_ ?_
    · simpa using hreached
    · simpa [SourceTimer.rto, hacc] using hreached
    · show min (pre - block.retainedTime) (now - start) = now - start
      omega
    · simpa [hreached, SourceTimer.rto] using hacc.symm
    · simpa [hreached] using hroom
    · simp only [SourceTimer.rto, if_true, hacc]
      omega

theorem BesideRto.enabled (h : BesideRto pre block timer) (hclock : NotBefore timer now) :
    BesideRto pre (tfRto pre block ⟨now, true, false⟩) (timer.rto pre now true) := by
  cases h with
  | idle open_ undone stopped resting retained room =>
    apply BesideRto.segment open_ (by omega)
    simp [SourceTimer.timed, resting, stopped, retained]
  | running start last open_ undone was started segment timing total below room =>
    have hlater := hclock last timing
    apply BesideRto.segment open_ below
    simp only [SourceTimer.timed, timing, started, Option.getD_some]
    omega
  | full done same retained reached =>
    have hcall : tfRto pre block ⟨now, true, false⟩ =
        { block with
          et := pre, enabled := true, tt := false, segmentTimer := {}, wasEnabled := true } := by
      simp [tfRto, TfRto.rest, done, retained]
    have hacc : timer.timed pre now = pre := by
      have hlast : timer.last.getD now ≤ now := by
        cases hlast : timer.last with
        | none => exact le_refl now
        | some last => exact hclock last hlast
      simp only [SourceTimer.timed, reached]
      omega
    rw [hcall]
    refine .full done ?_ retained ?_
    · simp [SourceTimer.rto, hacc]
    · simpa [SourceTimer.rto] using hacc

theorem BesideRto.step {block : TfRto} (h : BesideRto pre block timer) (hpre : 0 < pre)
    (hclock : NotBefore timer now) (reset : Bool) :
    (tfRto pre block ⟨now, on, reset⟩).q = (!reset && (timer.rto pre now on).dn) ∧
      BesideRto pre (tfRto pre block ⟨now, on, reset⟩) ((timer.rto pre now on).res reset) := by
  cases reset with
  | true =>
    have hcall : tfRto pre block ⟨now, on, true⟩ =
        { q := false, et := 0, enabled := false, tt := false, segmentTimer := {}
          retainedTime := 0, remainingTime := 0, wasEnabled := on } := by
      simp [tfRto, TfRto.clear]
    rw [hcall]
    exact ⟨rfl, .idle rfl rfl rfl rfl rfl hpre⟩
  | false =>
    have hstep : BesideRto pre (tfRto pre block ⟨now, on, false⟩) (timer.rto pre now on) := by
      cases on with
      | true => exact h.enabled hclock
      | false => exact h.disabled
    exact ⟨hstep.same, hstep⟩

end

/-! ## The lowered group -/

def NativeTimerGroup.Beside (group : NativeTimerGroup) (block : TimerBlock) (timer : SourceTimer) :
    Prop :=
  match group.instruction, block with
  | .TON, .ton block => BesideTon group.presetMs block timer
  | .TOF, .tof block => BesideTof group.presetMs block timer
  | .RTO, .rto block => BesideRto group.presetMs block timer
  | _, _ => False

section

variable {db : CharacterDatabase} {stableUuid : Text → Text} {program : Program} {index : Nat}
  {group : NativeTimerGroup} {programName : Text} {elapsedName : Option Text} {rung : BlockRung}
  {timer done : ParsedBooleanRung} {resets : List ParsedBooleanRung}

theorem res_unreset (timer : SourceTimer) : timer.res false = timer := rfl

theorem MatchedTimer.never_resets (hmatched : MatchedTimer db program index group timer done resets)
    (hkind : group.instruction ≠ .RTO) (scan : TimerScan) : group.resets scan = false := by
  simp [NativeTimerGroup.resets, (hmatched.plain hkind).1]

theorem timed_notBefore {source : SourceTimer} {scan : TimerScan}
    (hclock : NotBefore source scan.clock) (reset : Bool) :
    NotBefore ((group.timed source scan).res reset) scan.clock := by
  intro last hlast
  cases reset with
  | true => cases hlast
  | false =>
    rw [res_unreset] at hlast
    simp only [NativeTimerGroup.timed, NativeTimerGroup.semantics, timerSemantics] at hlast
    split at hlast
    · unfold SourceTimer.ton at hlast
      split at hlast
      · cases hlast
        exact le_refl _
      · cases hlast
    · unfold SourceTimer.tof at hlast
      split at hlast
      · cases hlast
      · split at hlast
        · cases hlast
          exact le_refl _
        · exact hclock last hlast
    · unfold SourceTimer.rto at hlast
      split at hlast
      · cases hlast
        exact le_refl _
      · cases hlast
    · unfold SourceTimer.res at hlast
      split at hlast
      · cases hlast
      · exact hclock last hlast
    · exact hclock last hlast

end

/-! ## Runs -/

/-- The clock of a run does not go back. -/
def Chronological (run : List TimerScan) : Prop :=
  run.Pairwise fun earlier later => earlier.clock ≤ later.clock

section

variable (db : CharacterDatabase) (program : Program) (index : Nat) (group : NativeTimerGroup)
  (rung : BlockRung) (run : List TimerScan)

def sourceTimer (past : List TimerScan) : SourceTimer :=
  after (sourceTimerStep db program index group) {} past

/-- In every scan the coil of the network has the value of the output rung. -/
def TimerCoilFollows : Prop :=
  ∀ past scan, past ++ [scan] <+: run →
    rung.coilWritten (after rung.timerScan rung.timerStart (past ++ [scan])).output =
      some (group.outputName,
        (sourceTimerScan db program index group (sourceTimer db program index group past)
          scan).bits group.outputName)

def SteadyTimerRun : Prop :=
  ∀ past scan, past ++ [scan] <+: run →
    SteadyContacts db (group.semantics scan.clock) group.outputName
      (groupRungs db program index group.sourceRungCount)
      ⟨scan.bits, sourceTimer db program index group past⟩

/-- No scan resets a timer that is done once its rung was executed. -/
def NeverResetsDoneTimer : Prop :=
  ∀ past scan, past ++ [scan] <+: run →
    ¬ (group.resets scan = true ∧
      (group.timed (sourceTimer db program index group past) scan).dn = true)

end

section

variable {db : CharacterDatabase} {stableUuid : Text → Text} {program : Program} {index : Nat}
  {group : NativeTimerGroup} {programName : Text} {elapsedName : Option Text} {rung : BlockRung}
  {timer done : ParsedBooleanRung} {resets : List ParsedBooleanRung} {past run : List TimerScan}
  {scan : TimerScan}

theorem SteadyTimerRun.before (h : SteadyTimerRun db program index group run)
    (hinitial : past <+: run) : SteadyTimerRun db program index group past :=
  fun earlier other hearlier => h earlier other (hearlier.trans hinitial)

variable (hmatched : MatchedTimer db program index group timer done resets)

include hmatched

theorem sourceTimer_concat (hsteady : SteadyTimerRun db program index group (past ++ [scan])) :
    sourceTimer db program index group (past ++ [scan]) =
      (group.timed (sourceTimer db program index group past) scan).res (group.resets scan) := by
  have hscan := sourceTimerScan_eq hmatched (hsteady past scan List.prefix_rfl)
  rw [sourceTimer, after_append, after_cons, after_nil, sourceTimerStep, ← sourceTimer, hscan]

theorem sourceTimer_notBefore (hsteady : SteadyTimerRun db program index group (past ++ [scan]))
    (hclock : Chronological (past ++ [scan])) :
    NotBefore (sourceTimer db program index group past) scan.clock := by
  induction past using List.reverseRecOn generalizing scan with
  | nil => exact fun last hlast => nomatch hlast
  | append_singleton past newest ih =>
    have ⟨hpast, _, hlater⟩ := List.pairwise_append.mp hclock
    have hbefore := hsteady.before (List.prefix_append _ [scan])
    have hnewest := @timed_notBefore group _ _ (ih hbefore hpast) (group.resets newest)
    rw [sourceTimer_concat hmatched hbefore]
    intro last hlast
    exact (hnewest last hlast).trans (hlater newest (by simp) scan (by simp))

variable (hpre : 0 < group.presetMs)
  (hlower : lowerTimerGroup stableUuid programName index group elapsedName = some rung)
  (hfree : CollisionFree stableUuid (timerPaths (rungIdentifier stableUuid programName index)))

include hpre hlower hfree

theorem lowered_start :
    group.Beside rung.timerStart {} := by
  unfold lowerTimerGroup at hlower
  rcases hmatched.kind with hkind | hkind | hkind
  · simp only [hkind, reduceCtorEq, if_false, Option.some.injEq] at hlower
    rw [← hlower, iecTimerRung_start hfree, hkind]
    simp only [NativeTimerGroup.Beside, hkind]
    exact .off rfl rfl rfl rfl
  · simp only [hkind, reduceCtorEq, if_false, Option.some.injEq] at hlower
    rw [← hlower, iecTimerRung_start hfree, hkind]
    simp only [NativeTimerGroup.Beside, hkind]
    exact .resting rfl rfl rfl rfl
  · rw [if_pos hkind] at hlower
    have ⟨resetName, _, hrung⟩ := Option.map_eq_some_iff.mp hlower
    rw [← hrung, rtoRung_start hfree]
    simp only [NativeTimerGroup.Beside, hkind]
    exact .idle rfl rfl rfl rfl rfl hpre

/-- A scan calls the block; its output is the done bit of the source unless the scan resets. -/
theorem lowered_step
    {block : TimerBlock} {source : SourceTimer} {scan : TimerScan}
    (h : group.Beside block source) (hclock : NotBefore source scan.clock) :
    (rung.timerScan block scan).q = (!group.resets scan && (group.timed source scan).dn) ∧
      group.Beside (rung.timerScan block scan)
        ((group.timed source scan).res (group.resets scan)) := by
  unfold lowerTimerGroup at hlower
  unfold NativeTimerGroup.Beside at h
  split at h
  · rename_i block hkind
    simp only [hkind, reduceCtorEq, if_false, Option.some.injEq] at hlower
    have hstep := @BesideTon.step _ _ (scan.bits group.enableName) _ _ h hclock
    rw [hmatched.never_resets (by simp [hkind]), res_unreset, ← hlower,
      (iecTimerRung_scan hfree scan).1]
    simp only [NativeTimerGroup.Beside, NativeTimerGroup.timed, NativeTimerGroup.semantics,
      timerSemantics, hkind]
    exact ⟨hstep.same, hstep⟩
  · rename_i block hkind
    simp only [hkind, reduceCtorEq, if_false, Option.some.injEq] at hlower
    have hstep := @BesideTof.step _ _ (scan.bits group.enableName) _ _ h hpre hclock
    rw [hmatched.never_resets (by simp [hkind]), res_unreset, ← hlower,
      (iecTimerRung_scan hfree scan).2]
    simp only [NativeTimerGroup.Beside, NativeTimerGroup.timed, NativeTimerGroup.semantics,
      timerSemantics, hkind]
    exact ⟨hstep.same, hstep⟩
  · rename_i block hkind
    rw [if_pos hkind] at hlower
    rcases Option.map_eq_some_iff.mp hlower with ⟨resetName, hreset, hrung⟩
    have hresets : group.resets scan = scan.bits resetName := by
      simp [NativeTimerGroup.resets, hreset]
    have hstep := @BesideRto.step _ _ (scan.bits group.enableName) _ _ h hpre hclock
      (scan.bits resetName)
    rw [hresets, ← hrung, rtoRung_scan hfree]
    simp only [NativeTimerGroup.Beside, NativeTimerGroup.timed, NativeTimerGroup.semantics,
      timerSemantics, hkind]
    exact hstep
  · cases h

theorem timer_beside_run
    (hclock : Chronological run) (hsteady : SteadyTimerRun db program index group run) :
    group.Beside (after rung.timerScan rung.timerStart run)
      (sourceTimer db program index group run) := by
  induction run using List.reverseRecOn with
  | nil => exact lowered_start hmatched hpre hlower hfree
  | append_singleton past scan ih =>
    have hpast := (List.pairwise_append.mp hclock).1
    have hbeside := ih hpast (hsteady.before (List.prefix_append past [scan]))
    have hlater := sourceTimer_notBefore hmatched hsteady hclock
    rw [sourceTimer_concat hmatched hsteady, after_append]
    exact (lowered_step hmatched hpre hlower hfree hbeside hlater).2

/-- The coil of a scan: the block's reset wins over the done bit the source copies. -/
theorem timerCoil_of_scan
    (hclock : Chronological (past ++ [scan]))
    (hsteady : SteadyTimerRun db program index group (past ++ [scan])) :
    (after rung.timerScan rung.timerStart (past ++ [scan])).q =
        (!group.resets scan &&
          (group.timed (sourceTimer db program index group past) scan).dn) ∧
      (sourceTimerScan db program index group (sourceTimer db program index group past)
        scan).bits group.outputName =
          (group.timed (sourceTimer db program index group past) scan).dn := by
  have hpast := (List.pairwise_append.mp hclock).1
  have hbeside := timer_beside_run hmatched hpre hlower hfree hpast
    (hsteady.before (List.prefix_append past [scan]))
  have hlater := sourceTimer_notBefore hmatched hsteady hclock
  constructor
  · rw [after_append]
    exact (lowered_step hmatched hpre hlower hfree hbeside hlater).1
  · rw [sourceTimerScan_eq hmatched (hsteady past scan List.prefix_rfl)]
    simp

omit hmatched hpre in
/-- What the network writes: the coil of the group follows `Q`. -/
theorem lowered_coilWritten (outputs : Text → Bool) :
    rung.coilWritten outputs = some (group.outputName, outputs "Q") := by
  unfold lowerTimerGroup at hlower
  split at hlower
  · have ⟨resetName, _, hrung⟩ := Option.map_eq_some_iff.mp hlower
    rw [← hrung]
    exact (@rtoRung_reads stableUuid programName index group resetName hfree).coilWritten rfl outputs
  · cases hlower
    have ⟨x, hreads⟩ := @iecTimerRung_reads stableUuid programName index group elapsedName hfree
    exact hreads.coilWritten rfl outputs

end

/-- Over every run the network follows the source exactly as long as no scan resets a timer
that is done: the block call cannot sample `DN` before the reset. -/
theorem timerGroup_follows_iff (db : CharacterDatabase) (stableUuid : Text → Text)
    (timers : List (Text × Int)) (program : Program) (index : Nat) (group : NativeTimerGroup)
    (hmatch : matchTimerGroup db timers program index = some group) (hpre : 0 < group.presetMs)
    (programName : Text) (elapsedName : Option Text)
    (hfree : CollisionFree stableUuid (timerPaths (rungIdentifier stableUuid programName index)))
    (rung : BlockRung)
    (hlower : lowerTimerGroup stableUuid programName index group elapsedName = some rung)
    (run : List TimerScan) (hclock : Chronological run)
    (hsteady : SteadyTimerRun db program index group run) :
    TimerCoilFollows db program index group rung run ↔
      NeverResetsDoneTimer db program index group run := by
  have ⟨timer, done, resets, hmatched⟩ := matchTimerGroup_matched hmatch
  have hcoil : ∀ past scan, past ++ [scan] <+: run →
      (rung.coilWritten (after rung.timerScan rung.timerStart (past ++ [scan])).output =
        some (group.outputName,
          (sourceTimerScan db program index group (sourceTimer db program index group past)
            scan).bits group.outputName) ↔
        ¬ (group.resets scan = true ∧
          (group.timed (sourceTimer db program index group past) scan).dn = true)) := by
    intro past scan hinitial
    have ⟨hblock, hsource⟩ := timerCoil_of_scan hmatched hpre hlower hfree
      (hclock.sublist hinitial.sublist) (hsteady.before hinitial)
    have hq : (after rung.timerScan rung.timerStart (past ++ [scan])).output "Q" =
        (after rung.timerScan rung.timerStart (past ++ [scan])).q := rfl
    rw [lowered_coilWritten hlower hfree, hsource, hq, hblock]
    cases group.resets scan <;>
      cases (group.timed (sourceTimer db program index group past) scan).dn <;>
      simp
  constructor
  · intro hfollows past scan hinitial
    exact (hcoil past scan hinitial).mp (hfollows past scan hinitial)
  · intro hnever past scan hinitial
    exact (hcoil past scan hinitial).mpr (hnever past scan hinitial)

/-! ## Groups whose contacts are inputs -/

theorem steadyTimerRun_of_inputs {db : CharacterDatabase} {timers : List (Text × Int)}
    {program : Program} {index : Nat} {group : NativeTimerGroup}
    (hmatch : matchTimerGroup db timers program index = some group)
    (hinputs : InputContacts (group.semantics 0) group.contacts group.outputName)
    (run : List TimerScan) : SteadyTimerRun db program index group run := by
  have ⟨timer, done, resets, hmatched⟩ := matchTimerGroup_matched hmatch
  intro past scan _
  have hscan : InputContacts (group.semantics scan.clock) group.contacts group.outputName := hinputs
  exact hscan.steady hmatched.contactRungs _

/-! A retentive timer of the time a motor ran. -/

def serviceProgram : Program :=
  let routine : Routine := ⟨"Main",
    [⟨some 0, none, some "XIC(Running)RTO(Wear,?,?);", []⟩,
      ⟨some 1, none, some "XIC(Wear.DN)OTE(Service);", []⟩,
      ⟨some 2, none, some "XIC(Serviced)RES(Wear);", []⟩]⟩
  ⟨"P", [("Main", routine)], [], some routine⟩

def serviceGroup : NativeTimerGroup :=
  ⟨.RTO, "Running", "Wear", 100, "Service", [], some "Serviced", 3⟩

theorem serviceProgram_group :
    matchTimerGroup Ascii.database [("Wear", 100)] serviceProgram 0 = some serviceGroup := by
  decide +kernel

theorem serviceGroup_inputs :
    InputContacts (serviceGroup.semantics 0) serviceGroup.contacts serviceGroup.outputName := by
  unfold InputContacts
  decide

def running : Text → Bool := fun name => name == ("Running" : Text)

def serviceRun : List TimerScan :=
  [⟨0, running⟩, ⟨60, running⟩, ⟨80, fun _ => false⟩, ⟨100, running⟩, ⟨140, running⟩]

theorem timerGroup_follows_service :
    TimerCoilFollows Ascii.database serviceProgram 0 serviceGroup
        (rtoRung id "P" 0 serviceGroup "Serviced") serviceRun ↔
      NeverResetsDoneTimer Ascii.database serviceProgram 0 serviceGroup serviceRun :=
  timerGroup_follows_iff Ascii.database id [("Wear", 100)] serviceProgram 0 serviceGroup
    serviceProgram_group (by decide) "P" none (fun _ _ _ _ hsame => hsame) _ rfl _
    (by unfold Chronological serviceRun; simp)
    (steadyTimerRun_of_inputs serviceProgram_group serviceGroup_inputs _)

/-- The scan that clears a finished timer: the source still shows it done. -/
theorem timerGroup_reset_scan :
    ¬ ∀ run : List TimerScan, Chronological run →
      TimerCoilFollows Ascii.database serviceProgram 0 serviceGroup
        (rtoRung id "P" 0 serviceGroup "Serviced") run := by
  intro h
  have hscan := h [⟨0, running⟩, ⟨100, running⟩, ⟨110, fun name => name == ("Serviced" : Text)⟩]
    (by unfold Chronological; simp) [⟨0, running⟩, ⟨100, running⟩]
    ⟨110, fun name => name == ("Serviced" : Text)⟩ List.prefix_rfl
  revert hscan
  decide +kernel

end TwinForge.OpenPLC
