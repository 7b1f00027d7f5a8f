import TwinForge.Foundation.Scans

/-! # The retentive timer block

`TF_RTO` measures each enabled segment with a `TON` preset to the time that remains, and
adds it to the time retained when the input drops. Its outputs are read off the history of
its calls: the enabled time since the last reset, and whether that time had reached the
preset at a call with the input on.
-/

namespace TwinForge.OpenPLC

open Scans ScanTimers

structure RtoCall where
  clock : Int
  input : Bool := false
  reset : Bool := false
  deriving DecidableEq, Repr

structure TfRto where
  q : Bool := false
  et : Int := 0
  enabled : Bool := false
  tt : Bool := false
  segmentTimer : Ton := {}
  retainedTime : Int := 0
  remainingTime : Int := 0
  wasEnabled : Bool := false
  deriving DecidableEq, Repr

namespace TfRto

/-- The branch that stops the segment and clears everything. -/
def clear (block : TfRto) (now : Int) : TfRto :=
  { block with
    segmentTimer := block.segmentTimer.call false 0 now, retainedTime := 0, remainingTime := 0
    et := 0, q := false, enabled := false, tt := false, wasEnabled := false }

/-- The branch of an enabled, unfinished timer. -/
def run (pt : Int) (block : TfRto) (now : Int) : TfRto :=
  if pt ≤ block.retainedTime then
    { block with
      retainedTime := pt, et := pt, q := true, tt := false
      segmentTimer := block.segmentTimer.call false 0 now }
  else
    let remaining := pt - block.retainedTime
    let segment := block.segmentTimer.call true remaining now
    let timed := { block with
      remainingTime := remaining, segmentTimer := segment
      et := block.retainedTime + segment.et }
    let finished := if segment.q then { timed with retainedTime := pt, et := pt, q := true } else timed
    { finished with tt := !finished.q }

/-- The branch of a disabled timer, which retains an open segment. -/
def hold (pt : Int) (block : TfRto) (now : Int) : TfRto :=
  let retained :=
    if block.wasEnabled && !block.q then
      let time := block.retainedTime + block.segmentTimer.et
      if pt ≤ time then { block with retainedTime := pt, q := true }
      else { block with retainedTime := time }
    else block
  { retained with
    segmentTimer := retained.segmentTimer.call false 0 now, et := retained.retainedTime
    tt := false }

def rest (block : TfRto) (now : Int) : TfRto :=
  { block with
    segmentTimer := block.segmentTimer.call false 0 now, et := block.retainedTime, tt := false }

end TfRto

def tfRto (pt : Int) (block : TfRto) (call : RtoCall) : TfRto :=
  let started := { block with enabled := call.input }
  let timed :=
    if call.reset then started.clear call.clock
    else if call.input && !started.q then started.run pt call.clock
    else if !call.input then started.hold pt call.clock
    else started.rest call.clock
  { timed with wasEnabled := call.input }

/-- The enabled time since the last reset. Histories are newest first. -/
def enabledTime (history : List RtoCall) : Int :=
  onTime ((history.takeWhile fun call => !call.reset).map fun call => ⟨call.clock, call.input⟩)

/-- From the last reset on there was a call with the input on by which the enabled time had
reached the preset. -/
def Completed (pt : Int) (history : List RtoCall) : Prop :=
  ∃ later call earlier, history = later ++ call :: earlier ∧
    (∀ after ∈ later, after.reset = false) ∧ call.input = true ∧
    pt ≤ enabledTime (call :: earlier)

structure RetainsTime (pt : Int) (history : List RtoCall) (block : TfRto) : Prop where
  elapsed : block.et = min pt (enabledTime history)
  done : block.q = true ↔ Completed pt history ∧ ∀ call ∈ history.head?, call.reset = false
  timing : ∀ call ∈ history.head?, block.tt = (call.input && !call.reset && !block.q)
  cleared : ∀ call ∈ history.head?, call.reset = true → block.et = 0 ∧ block.q = false

section

variable {pt : Int} {call newest : RtoCall} {history earlier : List RtoCall} {block : TfRto}

@[simp] theorem enabledTime_nil : enabledTime [] = 0 := by simp [enabledTime]

theorem enabledTime_reset (h : call.reset = true) : enabledTime (call :: history) = 0 := by
  simp [enabledTime, h]

theorem enabledTime_off (hreset : call.reset = false) (h : call.input = false) :
    enabledTime (call :: history) = enabledTime history := by
  simp only [enabledTime, List.takeWhile_cons, hreset, Bool.not_false, if_true, List.map_cons]
  exact onTime_off h _

/-- A segment starts with the first enabled call after a disabled one or a reset. -/
theorem enabledTime_first (hreset : call.reset = false) (h : call.input = true)
    (hfirst : ∀ newest ∈ history.head?, newest.input = true → newest.reset = true) :
    enabledTime (call :: history) = enabledTime history := by
  simp only [enabledTime, List.takeWhile_cons, hreset, Bool.not_false, if_true, List.map_cons]
  refine onTime_first h ?_
  cases history with
  | nil => simp
  | cons newest earlier =>
    cases hr : newest.reset with
    | true => simp [hr]
    | false =>
      have hoff : newest.input = false := by
        cases hi : newest.input with
        | false => rfl
        | true => simp [hfirst newest rfl hi] at hr
      simp [hr, hoff]

theorem enabledTime_further (hreset : call.reset = false) (h : call.input = true)
    (hnewest : newest.input = true) (hkept : newest.reset = false) :
    enabledTime (call :: newest :: earlier) =
      enabledTime (newest :: earlier) + (call.clock - newest.clock) := by
  simp only [enabledTime, List.takeWhile_cons, hreset, hkept, Bool.not_false, if_true,
    List.map_cons]
  exact onTime_further h hnewest _

theorem not_completed_nil : ¬ Completed pt [] := by
  intro ⟨later, call, earlier, h, _⟩
  simp at h

theorem completed_cons : Completed pt (call :: history) ↔
    (call.input = true ∧ pt ≤ enabledTime (call :: history)) ∨
      (call.reset = false ∧ Completed pt history) := by
  constructor
  · intro ⟨later, found, earlier, hsplit, hlater, hinput, htime⟩
    cases later with
    | nil =>
      obtain ⟨rfl, rfl⟩ := List.cons.inj hsplit
      exact .inl ⟨hinput, htime⟩
    | cons first later =>
      obtain ⟨rfl, hrest⟩ := List.cons.inj hsplit
      exact .inr ⟨hlater call (by simp), later, found, earlier, hrest,
        fun after hafter => hlater after (by simp [hafter]), hinput, htime⟩
  · intro h
    rcases h with ⟨hinput, htime⟩ | ⟨hreset, later, found, earlier, hsplit, hlater, hfound⟩
    · exact ⟨[], call, history, rfl, by simp, hinput, htime⟩
    · refine ⟨call :: later, found, earlier, by simp [hsplit], ?_, hfound⟩
      intro after hafter
      rcases List.mem_cons.mp hafter with rfl | hmem
      · exact hreset
      · exact hlater after hmem

end

inductive Phase (pt : Int) (history : List RtoCall) (block : TfRto) : Prop
  /-- No segment is open. Only a zero preset is reached here, by a reset with the input on. -/
  | idle (undone : block.q = false) (stopped : block.segmentTimer = {})
      (closed : ∀ call ∈ history.head?, call.input = true → call.reset = true)
      (retained : block.retainedTime = enabledTime history)
      (below : block.retainedTime ≤ pt)
      (pending : Completed pt history ↔ block.retainedTime = pt ∧ block.wasEnabled = true)
  /-- A segment has been open since its start, and the time has not run out. -/
  | running (start : Int) (newest : RtoCall) (earlier : List RtoCall)
      (split : history = newest :: earlier) (input : newest.input = true)
      (kept : newest.reset = false) (undone : block.q = false)
      (started : block.segmentTimer.start = some start) (room : block.retainedTime < pt)
      (segment : block.segmentTimer.et = newest.clock - start)
      (total : block.retainedTime + (newest.clock - start) = enabledTime history)
      (below : enabledTime history < pt) (unfinished : ¬ Completed pt history)
  /-- The time has run out. -/
  | full (done : block.q = true) (retained : block.retainedTime = pt)
      (reached : pt ≤ enabledTime history) (completed : Completed pt history)

/-- The block's memory and outputs agree with its history. -/
structure Timed (pt : Int) (history : List RtoCall) (block : TfRto) : Prop where
  phase : Phase pt history block
  enabled : block.wasEnabled = history.head?.any (·.input)
  elapsed : block.et = min pt (enabledTime history)
  timing : ∀ call ∈ history.head?, block.tt = (call.input && !call.reset && !block.q)
  cleared : ∀ call ∈ history.head?, call.reset = true → block.et = 0 ∧ block.q = false

section

variable {pt : Int} {call : RtoCall} {history : List RtoCall} {block : TfRto}

theorem Timed.start (hpt : 0 ≤ pt) : Timed pt [] {} := by
  constructor
  · refine .idle rfl rfl (by simp) (by simp) hpt ?_
    simp [not_completed_nil]
  · rfl
  · simp [hpt]
  · simp
  · simp

theorem Timed.reset (hpt : 0 ≤ pt) (h : call.reset = true) :
    Timed pt (call :: history) (tfRto pt block call) := by
  have hcall : tfRto pt block call =
      { q := false, et := 0, enabled := false, tt := false, segmentTimer := {}
        retainedTime := 0, remainingTime := 0, wasEnabled := call.input } := by
    simp [tfRto, TfRto.clear, h]
  have htime : enabledTime (call :: history) = 0 := enabledTime_reset h
  rw [hcall]
  constructor
  · refine .idle rfl rfl (by simp [h]) htime.symm hpt ?_
    rw [completed_cons, htime]
    simp only [h, Bool.true_eq_false, false_and, or_false]
    constructor
    · intro hcompleted
      exact ⟨by omega, hcompleted.1⟩
    · intro hcompleted
      exact ⟨hcompleted.2, by omega⟩
  · rfl
  · simp [htime, hpt]
  · simp [h]
  · simp

section

variable (hreset : call.reset = false)

include hreset

theorem tfRto_hold (h : call.input = false)
    (hq : block.q = false) (htime : block.retainedTime + block.segmentTimer.et < pt) :
    tfRto pt block call =
      { block with
        et := if block.wasEnabled then block.retainedTime + block.segmentTimer.et
          else block.retainedTime
        enabled := false, tt := false, segmentTimer := {}
        retainedTime := if block.wasEnabled then block.retainedTime + block.segmentTimer.et
          else block.retainedTime
        wasEnabled := false } := by
  have hnot : ¬ pt ≤ block.retainedTime + block.segmentTimer.et := by omega
  cases hwas : block.wasEnabled <;>
    simp [tfRto, TfRto.hold, hreset, h, hq, hwas, hnot]

theorem completed_off (h : call.input = false) :
    Completed pt (call :: history) ↔ Completed pt history := by
  simp [completed_cons, hreset, h]

theorem Timed.off (htimed : Timed pt history block) (h : call.input = false) :
    Timed pt (call :: history) (tfRto pt block call) := by
  have htime : enabledTime (call :: history) = enabledTime history := enabledTime_off hreset h
  have hcompleted : Completed pt (call :: history) ↔ Completed pt history :=
    completed_off hreset h
  have hwas := htimed.enabled
  have helapsed := htimed.elapsed
  cases htimed.phase with
  | idle undone stopped closed retained below pending =>
    have hsegment : block.segmentTimer.et = 0 := by rw [stopped]
    by_cases hreached : block.retainedTime = pt ∧ block.wasEnabled = true
    · have hcall : tfRto pt block call =
          { block with
            q := true, et := pt, enabled := false, tt := false, segmentTimer := {}
            retainedTime := pt, wasEnabled := false } := by
        simp [tfRto, TfRto.hold, hreset, h, undone, hreached.1, hreached.2, hsegment]
      rw [hcall]
      constructor
      · exact .full rfl rfl (by omega) (hcompleted.mpr (pending.mpr hreached))
      · simp [h]
      · show pt = _
        omega
      · simp
      · simp [hreset]
    · have hopen : ¬ Completed pt history := fun hc => hreached (pending.mp hc)
      have hcall : tfRto pt block call =
          { block with
            et := block.retainedTime, enabled := false, tt := false, segmentTimer := {}
            wasEnabled := false } := by
        by_cases hw : block.wasEnabled = true
        · have hlt : block.retainedTime + block.segmentTimer.et < pt := by
            have hne : block.retainedTime ≠ pt := fun heq => hreached ⟨heq, hw⟩
            omega
          rw [tfRto_hold hreset h undone hlt]
          simp [hsegment]
        · simp [tfRto, TfRto.hold, hreset, h, undone, hw]
      rw [hcall]
      constructor
      · refine .idle undone rfl (by simp [h]) (by simpa [htime] using retained) below ?_
        simp [hcompleted, hopen]
      · simp [h]
      · show block.retainedTime = _
        omega
      · simp [h]
      · simp [hreset]
  | running start newest earlier split input kept undone started room segment total below unfinished =>
    have hw : block.wasEnabled = true := by simp [hwas, split, input]
    have hlt : block.retainedTime + block.segmentTimer.et < pt := by omega
    rw [tfRto_hold hreset h undone hlt]
    constructor
    · refine .idle undone rfl (by simp [h]) ?_ ?_ ?_
      · simp only [hw, if_true]
        omega
      · simp only [hw, if_true]
        omega
      · simp [hcompleted, unfinished]
    · simp [h]
    · simp only [hw, if_true]
      omega
    · simp [h]
    · simp [hreset]
  | full done retained reached completed =>
    have hcall : tfRto pt block call =
        { block with
          et := pt, enabled := false, tt := false, segmentTimer := {}, wasEnabled := false } := by
      simp [tfRto, TfRto.hold, hreset, h, done, retained]
    rw [hcall]
    constructor
    · exact .full done retained (by omega) (hcompleted.mpr completed)
    · simp [h]
    · show pt = _
      omega
    · simp [h]
    · simp [hreset]

theorem completed_on (h : call.input = true) :
    Completed pt (call :: history) ↔
      pt ≤ enabledTime (call :: history) ∨ Completed pt history := by
  simp [completed_cons, hreset, h]

theorem enabledTime_mono
    (hclock : ∀ newest ∈ history.head?, newest.clock ≤ call.clock) :
    enabledTime history ≤ enabledTime (call :: history) := by
  cases h : call.input with
  | false => rw [enabledTime_off hreset h]
  | true =>
    by_cases hfirst : ∀ newest ∈ history.head?, newest.input = true → newest.reset = true
    · rw [enabledTime_first hreset h hfirst]
    · cases history with
      | nil => simp at hfirst
      | cons newest earlier =>
        have hnewest : newest.input = true ∧ newest.reset = false := by simpa using hfirst
        have hlater := hclock newest rfl
        rw [enabledTime_further hreset h hnewest.1 hnewest.2]
        omega

theorem tfRto_run (h : call.input = true) (hq : block.q = false)
    (hroom : block.retainedTime < pt) {elapsed : Int}
    (helapsed : call.clock - block.segmentTimer.start.getD call.clock = elapsed) :
    tfRto pt block call =
      { block with
        q := decide (pt ≤ block.retainedTime + elapsed)
        et := min pt (block.retainedTime + elapsed)
        enabled := true, tt := !decide (pt ≤ block.retainedTime + elapsed)
        segmentTimer := ⟨some (block.segmentTimer.start.getD call.clock),
          decide (pt - block.retainedTime ≤ elapsed), min (pt - block.retainedTime) elapsed⟩
        retainedTime := if pt ≤ block.retainedTime + elapsed then pt else block.retainedTime
        remainingTime := pt - block.retainedTime
        wasEnabled := true } := by
  have hnot : ¬ pt ≤ block.retainedTime := by omega
  by_cases hreached : pt ≤ block.retainedTime + elapsed
  · have hsegment : pt - block.retainedTime ≤ elapsed := by omega
    simp [tfRto, TfRto.run, Ton.call, hreset, h, hq, hnot, helapsed, hreached, hsegment]
  · have hsegment : ¬ pt - block.retainedTime ≤ elapsed := by omega
    have hmin : block.retainedTime + min (pt - block.retainedTime) elapsed =
        min pt (block.retainedTime + elapsed) := by omega
    simp [tfRto, TfRto.run, Ton.call, hreset, h, hq, hnot, helapsed, hreached, hsegment, hmin]

theorem Timed.segment (h : call.input = true)
    (hq : block.q = false) (hroom : block.retainedTime < pt) (hopen : ¬ Completed pt history)
    (htime : block.retainedTime + (call.clock - block.segmentTimer.start.getD call.clock) =
      enabledTime (call :: history)) :
    Timed pt (call :: history) (tfRto pt block call) := by
  have hcompleted : Completed pt (call :: history) ↔
      pt ≤ enabledTime (call :: history) ∨ Completed pt history := completed_on hreset h
  rw [tfRto_run hreset h hq hroom rfl]
  generalize hstart : block.segmentTimer.start.getD call.clock = start at htime ⊢
  constructor
  · by_cases hreached : pt ≤ block.retainedTime + (call.clock - start)
    · refine .full (by simpa using hreached) (by simp [hreached]) (by omega) ?_
      rw [hcompleted]
      exact .inl (by omega)
    · refine .running start call history rfl h hreset (by simpa using hreached) rfl
        (by simpa [hreached] using hroom) ?_ ?_ (by omega) ?_
      · show min _ _ = _
        omega
      · simp only [hreached, if_false]
        exact htime
      · rw [hcompleted]
        intro hc
        exact hc.elim (fun hle => by omega) hopen
  · simp [h]
  · simp [htime]
  · simp [h, hreset]
  · simp [hreset]

theorem Timed.on (htimed : Timed pt history block) (h : call.input = true)
    (hclock : ∀ newest ∈ history.head?, newest.clock ≤ call.clock) :
    Timed pt (call :: history) (tfRto pt block call) := by
  have hcompleted : Completed pt (call :: history) ↔
      pt ≤ enabledTime (call :: history) ∨ Completed pt history := completed_on hreset h
  cases htimed.phase with
  | idle undone stopped closed retained below pending =>
    have htime : enabledTime (call :: history) = enabledTime history :=
      enabledTime_first hreset h closed
    by_cases hreached : pt ≤ block.retainedTime
    · have hcall : tfRto pt block call =
          { block with
            q := true, et := pt, enabled := true, tt := false, segmentTimer := {}
            retainedTime := pt, wasEnabled := true } := by
        simp [tfRto, TfRto.run, hreset, h, undone, hreached]
      have hle : pt ≤ enabledTime (call :: history) := by omega
      rw [hcall]
      constructor
      · exact .full rfl rfl hle (hcompleted.mpr (.inl hle))
      · simp [h]
      · show pt = _
        omega
      · simp
      · simp [hreset]
    · refine Timed.segment hreset h undone (by omega) ?_ ?_
      · intro hc
        have heq := (pending.mp hc).1
        omega
      · simp only [stopped, Option.getD_none]
        omega
  | running start newest earlier split input kept undone started room segment total below unfinished =>
    have htime : enabledTime (call :: history) =
        enabledTime history + (call.clock - newest.clock) := by
      rw [split]
      exact enabledTime_further hreset h input kept
    refine Timed.segment hreset h undone room unfinished ?_
    simp only [started, Option.getD_some]
    omega
  | full done retained reached completed =>
    have hmono := enabledTime_mono hreset hclock
    have hcall : tfRto pt block call =
        { block with
          et := pt, enabled := true, tt := false, segmentTimer := {}, wasEnabled := true } := by
      simp [tfRto, TfRto.rest, hreset, h, done, retained]
    rw [hcall]
    constructor
    · exact .full done retained (by omega) (hcompleted.mpr (.inr completed))
    · simp [h]
    · show pt = _
      omega
    · simp [done]
    · simp [hreset]

end

theorem Timed.step (hpt : 0 ≤ pt) (htimed : Timed pt history block)
    (hclock : ∀ newest ∈ history.head?, newest.clock ≤ call.clock) :
    Timed pt (call :: history) (tfRto pt block call) := by
  cases hreset : call.reset with
  | true => exact .reset hpt hreset
  | false =>
    cases h : call.input with
    | false => exact htimed.off hreset h
    | true => exact htimed.on hreset h hclock

theorem Timed.retains (htimed : Timed pt history block) : RetainsTime pt history block where
  elapsed := htimed.elapsed
  timing := htimed.timing
  cleared := htimed.cleared
  done := by
    constructor
    · intro hq
      have hreset : ∀ call ∈ history.head?, call.reset = false := by
        intro call hcall
        cases hreset : call.reset with
        | false => rfl
        | true => simp [(htimed.cleared call hcall hreset).2] at hq
      cases htimed.phase with
      | idle undone => simp [undone] at hq
      | running _ _ _ _ _ _ undone => simp [undone] at hq
      | full done retained reached completed => exact ⟨completed, hreset⟩
    · intro ⟨hcompleted, hreset⟩
      cases htimed.phase with
      | idle undone stopped closed retained below pending =>
        have hwas := (pending.mp hcompleted).2
        rw [htimed.enabled] at hwas
        cases history with
        | nil => simp at hwas
        | cons newest earlier =>
          have hlast := closed newest rfl hwas
          simp [hreset newest rfl] at hlast
      | running start newest earlier split input kept undone started room segment total below
          unfinished => exact absurd hcompleted unfinished
      | full done => exact done

theorem Timed.grows (htimed : Timed pt history block)
    (hstep : Timed pt (call :: history) (tfRto pt block call)) (hreset : call.reset = false)
    (hclock : ∀ newest ∈ history.head?, newest.clock ≤ call.clock) :
    (block.q = true → (tfRto pt block call).q = true) ∧ block.et ≤ (tfRto pt block call).et := by
  constructor
  · intro hq
    have hcompleted := (htimed.retains.done.mp hq).1
    refine hstep.retains.done.mpr ⟨?_, by simp [hreset]⟩
    rw [completed_cons]
    exact .inr ⟨hreset, hcompleted⟩
  · have hmono := enabledTime_mono hreset hclock
    have hbefore := htimed.elapsed
    have hafter := hstep.elapsed
    omega

end

def ClockRuns (run : List RtoCall) : Prop := run.Pairwise fun earlier later => earlier.clock ≤ later.clock

instance (run : List RtoCall) : Decidable (ClockRuns run) := by
  unfold ClockRuns
  infer_instance

theorem ClockRuns.concat {past : List RtoCall} {call : RtoCall} (h : ClockRuns (past ++ [call])) :
    ClockRuns past ∧ ∀ newest ∈ past.reverse.head?, newest.clock ≤ call.clock := by
  have ⟨hpast, _, hlater⟩ := List.pairwise_append.mp h
  refine ⟨hpast, fun newest hnewest => ?_⟩
  rw [List.head?_reverse] at hnewest
  exact hlater newest (List.mem_of_getLast? hnewest) call (by simp)

theorem tfRto_timed {pt : Int} (hpt : 0 ≤ pt) (run : List RtoCall) (hclock : ClockRuns run) :
    Timed pt run.reverse (after (tfRto pt) {} run) := by
  refine after_history (fun past block => ClockRuns past → Timed pt past.reverse block)
    (fun _ => .start hpt) ?_ run hclock
  intro past call hpast hruns
  have ⟨hbefore, hlater⟩ := hruns.concat
  rw [List.reverse_append]
  exact (hpast hbefore).step hpt hlater

/-- The block retains exactly the enabled time, for every order of enabling, disabling,
completion and reset; until a reset its done bit and elapsed time never go back. -/
theorem tfRto_retains {pt : Int} (hpt : 0 ≤ pt) (run : List RtoCall) (hclock : ClockRuns run) :
    RetainsTime pt run.reverse (after (tfRto pt) {} run) ∧
    ∀ before call, run = before ++ [call] → call.reset = false →
      ((after (tfRto pt) {} before).q = true → (after (tfRto pt) {} run).q = true) ∧
      (after (tfRto pt) {} before).et ≤ (after (tfRto pt) {} run).et := by
  constructor
  · exact (tfRto_timed hpt run hclock).retains
  · intro before call hrun hreset
    subst hrun
    have ⟨hbefore, hlater⟩ := hclock.concat
    have htimed := tfRto_timed hpt before hbefore
    have hstep := htimed.step hpt hlater
    rw [after_append]
    exact htimed.grows hstep hreset hlater

/-- Two segments of forty and sixty ticks complete a preset of a hundred. -/
theorem tfRto_retains_segments :
    RetainsTime 100
      [⟨160, true, false⟩, ⟨100, true, false⟩, ⟨50, false, false⟩, ⟨40, true, false⟩,
        ⟨0, true, false⟩]
      (after (tfRto 100) {}
        [⟨0, true, false⟩, ⟨40, true, false⟩, ⟨50, false, false⟩, ⟨100, true, false⟩,
          ⟨160, true, false⟩]) :=
  (@tfRto_retains 100 (by decide)
    [⟨0, true, false⟩, ⟨40, true, false⟩, ⟨50, false, false⟩, ⟨100, true, false⟩,
      ⟨160, true, false⟩] (by decide)).1

/-- A reset clears `TT` although the input is on and the timer is not done, and a block
that was never enabled shows zero, not a negative preset. -/
theorem tfRto_timing_reset :
    (¬ ∀ pt : Int, 0 ≤ pt → ∀ run call, ClockRuns (run ++ [call]) →
      ((after (tfRto pt) {} (run ++ [call])).tt = true ↔
        call.input = true ∧ (after (tfRto pt) {} (run ++ [call])).q = false)) ∧
    ¬ ∀ (pt : Int) (run : List RtoCall), run ≠ [] → ClockRuns run →
      (after (tfRto pt) {} run).et = min pt (enabledTime run.reverse) := by
  constructor
  · intro h
    have hreset := h 100 (by decide) [] ⟨0, true, true⟩ (by decide)
    revert hreset
    decide
  · intro h
    have hnegative := h (-5) [⟨0, false, false⟩] (by decide) (by decide)
    revert hnegative
    decide

end TwinForge.OpenPLC
