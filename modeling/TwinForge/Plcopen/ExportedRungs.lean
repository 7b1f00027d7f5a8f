import TwinForge.Foundation.Guards
import TwinForge.Plcopen.LadderGraph
import TwinForge.Plcopen.PreparedSymbols
import TwinForge.Plcopen.RllPreservation

/-! # No exported rung is lost

Building a project keeps every rung, executable or as a comment with a diagnostic,
exactly when no rung that reaches the instruction emitters asks for one that does not
exist, and every program with rung text has a main routine.
-/

namespace TwinForge.Plcopen

open Model List

variable {codesys : Bool} {opcode : Opcode} {parsed : ParsedBooleanRung} {nextLocalId : Nat}
  {drawn : Drawn Unit}

section

variable {db : CharacterDatabase} {plan : PLCopenOperandPlan} {known : List Nat}

/-! ## Series of instructions -/

theorem Fragments.nil : Fragments db plan [] [] := ⟨[], .nil, rfl⟩

theorem Fragments.cons {instruction : Instruction} {instructions : List Instruction}
    {first rest : List LadderElement} (hfirst : Fragment db plan instruction first)
    (hrest : Fragments db plan instructions rest) :
    Fragments db plan (instruction :: instructions) (first ++ rest) := by
  obtain ⟨fragments, hforall, rfl⟩ := hrest
  exact ⟨first :: fragments, .cons hfirst hforall, rfl⟩

theorem Fragments.append {before after : List Instruction} {first rest : List LadderElement}
    (hfirst : Fragments db plan before first) (hrest : Fragments db plan after rest) :
    Fragments db plan (before ++ after) (first ++ rest) := by
  obtain ⟨fragments, hforall, rfl⟩ := hfirst
  obtain ⟨others, hothers, rfl⟩ := hrest
  exact ⟨fragments ++ others, rel_append hforall hothers, by simp⟩

/-- The fragments of a series, and a chain behind it that is fed. -/
def SeriesYield (db : CharacterDatabase) (plan : PLCopenOperandPlan)
    (instructions : List Instruction) (known conditionIds : List Nat)
    (elements : List LadderElement) : Prop :=
  Fragments db plan instructions elements ∧ Feeds conditionIds (known ++ localIds elements)

variable {conditions : List Instruction} {conditionIds : List Nat}

theorem emitPrefix_yields (hcontacts : ∀ i ∈ conditions, i.opcode.isContact = true)
    (h : Feeds conditionIds known) :
    Yields known (emitPrefix db codesys plan conditionIds conditions)
      (SeriesYield db plan conditions known) := by
  induction conditions generalizing conditionIds known with
  | nil => exact Yields.pure ⟨Fragments.nil, by simpa using h⟩
  | cons condition conditions ih =>
    refine Yields.bind (emitCondition_contact h (hcontacts condition (by simp))) ?_
    rintro localId elements ⟨hfragment, hmem⟩
    have hrest := ih (fun i hi => hcontacts i (by simp [hi]))
      (Feeds.single (mem_append_right known hmem))
    refine hrest.mono ?_
    rintro ids rest ⟨hfragments, hfeeds⟩
    refine ⟨Fragments.cons hfragment hfragments, ?_⟩
    rwa [localIds_append, ← append_assoc]

theorem emitBranch_yields
    (hcontacts : ∀ i ∈ conditions, i.opcode.isContact = true) {conditionId : Nat}
    (h : conditionId ∈ known) :
    Yields known (emitBranch db codesys plan conditionId conditions) (fun localId elements =>
      SeriesYield db plan conditions known [localId] elements) := by
  induction conditions generalizing conditionId known with
  | nil => exact Yields.pure ⟨Fragments.nil, by simpa using Feeds.single h⟩
  | cons condition conditions ih =>
    refine Yields.bind
      (emitCondition_contact (Feeds.single h) (hcontacts condition (by simp))) ?_
    rintro localId elements ⟨hfragment, hmem⟩
    have hrest := ih (fun i hi => hcontacts i (by simp [hi])) (mem_append_right known hmem)
    refine hrest.mono ?_
    rintro end_ rest ⟨hfragments, hfeeds⟩
    refine ⟨Fragments.cons hfragment hfragments, ?_⟩
    rwa [localIds_append, ← append_assoc]

theorem emitBranches_yields {branches : List (List Instruction)}
    (hcontacts : ∀ branch ∈ branches, ∀ i ∈ branch, i.opcode.isContact = true) {startId : Nat}
    (h : startId ∈ known) :
    Yields known (emitBranches db codesys plan startId branches) (fun conditionIds elements =>
      Fragments db plan branches.flatten elements ∧ conditionIds.length = branches.length ∧
        ∀ conditionId ∈ conditionIds, conditionId ∈ known ++ localIds elements) := by
  induction branches generalizing known with
  | nil => exact Yields.pure ⟨Fragments.nil, rfl, by simp⟩
  | cons branch branches ih =>
    refine Yields.bind (emitBranch_yields (hcontacts branch (by simp)) h) ?_
    rintro localId elements ⟨hfragments, hfeeds⟩
    refine Yields.bind (ih (fun other hother => hcontacts other (by simp [hother]))
      (mem_append_left _ h)) ?_
    rintro conditionIds rest ⟨hrest, hlength, hmem⟩
    refine Yields.pure ⟨?_, by simp [hlength], ?_⟩
    · rw [append_nil]
      exact hfragments.append hrest
    · have hlocal := hfeeds.known localId (by simp)
      intro conditionId hid
      simp only [append_nil, localIds_append, ← append_assoc]
      rcases mem_cons.mp hid with rfl | hid
      · exact mem_append_left _ hlocal
      · exact hmem conditionId hid

/-! ## Tail conditions -/

/-- Some operand is an accumulator, and the nearest float of a literal beside it is
infinite. -/
def literalOverflows (db : CharacterDatabase) (operands : List Text) : Bool :=
  operands.any isAccumulator && operands.any (fun operand => !isAccumulator operand &&
    match numericParts db operand with
    | some literal => (literalInteger db literal).isNone
    | none => false)

theorem comparisonOperands_ok_iff (operands : List Text) :
    (∃ converted, comparisonOperands db plan operands = .ok converted) ↔
      literalOverflows db operands = false := by
  unfold comparisonOperands literalOverflows
  by_cases haccumulator : operands.any isAccumulator = true
  · rw [if_pos haccumulator, Guards.exists_mapM_eq_ok, haccumulator, Bool.true_and, any_eq_false]
    refine forall₂_congr (fun operand hoperand => ?_)
    unfold timeOperand
    by_cases hself : isAccumulator operand = true
    · simp only [hself, if_true]
      cases plan.timers.lookup (operand.take (operand.length - 4)) <;> simp
    · simp only [hself, Bool.false_eq_true, if_false]
      cases numericParts db operand with
      | none => simp
      | some literal => cases hinteger : literalInteger db literal <;> simp [hinteger]
  · rw [if_neg haccumulator]
    simp [haccumulator]

/-- What the plan must hold for the tail conditions from a comparison index on. -/
structure TailReady (db : CharacterDatabase) (plan : PLCopenOperandPlan) (id : RungId)
    (comparisonIndex : Nat) (conditions : List Instruction) : Prop where
  noOutput : ∀ i ∈ conditions, i.opcode.isOutput = false
  oneshot : ∀ i ∈ conditions, i.opcode = .ONS → (plan.oneshots.lookup id).isSome
  results : ∀ i ∈ conditions, i.opcode.isComparison = true →
    ∃ temps, plan.comparisonTemps.lookup id = some temps ∧
      comparisonIndex + conditions.countP (fun j => j.opcode.isComparison) ≤ temps.length
  operands : ∀ i ∈ conditions, i.opcode.isComparison = true →
    (splitArguments db i.operand).length = 2 ∧
      literalOverflows db (splitArguments db i.operand) = false

variable {id : RungId} {comparisonIndex : Nat} {condition : Instruction}

theorem TailReady.tail
    (h : TailReady db plan id comparisonIndex (condition :: conditions)) :
    TailReady db plan id
      (if condition.opcode.isComparison then comparisonIndex + 1 else comparisonIndex)
      conditions where
  noOutput i hi := h.noOutput i (by simp [hi])
  oneshot i hi := h.oneshot i (by simp [hi])
  operands i hi := h.operands i (by simp [hi])
  results i hi hcomparison := by
    obtain ⟨temps, htemps, hcount⟩ := h.results i (by simp [hi]) hcomparison
    refine ⟨temps, htemps, ?_⟩
    rw [countP_cons] at hcount
    split_ifs at hcount ⊢ <;> omega

theorem emitTailCondition_yields
    (hready : TailReady db plan id comparisonIndex (condition :: conditions))
    (h : Feeds conditionIds known) :
    Yields known
      (emitTailCondition db codesys plan id comparisonIndex condition conditionIds)
      (EndsFragment db plan condition) := by
  unfold emitTailCondition
  have hmem : condition ∈ condition :: conditions := by simp
  have hfeeds : Feeds conditionIds (known ++ localIds []) := by simpa using h
  rcases Opcode.condition_cases (hready.noOutput condition hmem) with hcontact | honeshot | hcomparison
  · have hauxiliary : tailAuxiliary plan id comparisonIndex condition = .ok .none := by
      obtain ⟨hcomparison, honeshot⟩ := Opcode.contact_apart hcontact
      unfold tailAuxiliary
      simp [hcomparison, honeshot]
    refine Yields.bind (Yields.ofExcept hauxiliary) ?_
    rintro auxiliary elements ⟨rfl, rfl⟩
    exact emitCondition_contact hfeeds hcontact
  · obtain ⟨state, hstate⟩ := Option.isSome_iff_exists.mp (hready.oneshot condition hmem honeshot)
    have hauxiliary : tailAuxiliary plan id comparisonIndex condition = .ok (.oneshot state) := by
      unfold tailAuxiliary
      rw [if_pos honeshot, hstate]
    refine Yields.bind (Yields.ofExcept hauxiliary) ?_
    rintro auxiliary elements ⟨rfl, rfl⟩
    exact emitCondition_oneshot hfeeds honeshot
  · obtain ⟨temps, htemps, hcount⟩ := hready.results condition hmem hcomparison
    obtain ⟨hlength, hfinite⟩ := hready.operands condition hmem hcomparison
    obtain ⟨converted, hconverted⟩ : ∃ converted,
        comparisonOperands db plan (splitArguments db condition.operand) = .ok converted :=
      (comparisonOperands_ok_iff _).mpr hfinite
    have hindex : comparisonIndex < temps.length := by
      rw [countP_cons, if_pos hcomparison] at hcount
      omega
    obtain ⟨-, -, honeshot⟩ := Opcode.comparison_apart hcomparison
    have hauxiliary : tailAuxiliary plan id comparisonIndex condition =
        .ok (.resultVariable temps[comparisonIndex]) := by
      unfold tailAuxiliary
      rw [if_neg honeshot, if_pos hcomparison, htemps]
      simp [hindex]
    refine Yields.bind (Yields.ofExcept hauxiliary) ?_
    rintro auxiliary elements ⟨rfl, rfl⟩
    exact emitCondition_comparison hfeeds hcomparison hlength hconverted

theorem emitTail_yields
    (hready : TailReady db plan id comparisonIndex conditions) (h : Feeds conditionIds known) :
    Yields known (emitTail db codesys plan id comparisonIndex conditionIds conditions)
      (SeriesYield db plan conditions known) := by
  induction conditions generalizing comparisonIndex conditionIds known with
  | nil => exact Yields.pure ⟨Fragments.nil, by simpa using h⟩
  | cons condition conditions ih =>
    refine Yields.bind (emitTailCondition_yields hready h) ?_
    rintro localId elements ⟨hfragment, hmem⟩
    refine (ih hready.tail (Feeds.single (mem_append_right known hmem))).mono ?_
    rintro ids rest ⟨hfragments, hfeeds⟩
    refine ⟨Fragments.cons hfragment hfragments, ?_⟩
    rwa [localIds_append, ← append_assoc]

/-! ## Outputs -/

/-- What an output needs: an emitter, its timer, and its arguments. -/
structure OutputReady (db : CharacterDatabase) (plan : PLCopenOperandPlan)
    (output : Instruction) : Prop where
  emitter : output.opcode.hasOutputEmitter = true
  timer : output.opcode = .TON → ∃ timerName,
    (splitArguments db output.operand).head? = some timerName ∧
      (plan.timers.lookup timerName).isSome
  reset : output.opcode = .RES → (plan.timers.lookup output.operand).isSome
  value : output.opcode.isValueBlock = true → splitArguments db output.operand ≠ []

theorem Opcode.emitter_cases (h : opcode.hasOutputEmitter = true) :
    opcode.isCoil = true ∨ opcode = .TON ∨ opcode = .RES ∨ opcode.isValueBlock = true := by
  revert h
  cases opcode <;> decide

variable {executionIds : List Nat} {inputFromBlock : Bool}

theorem emitOutput_yields {output : Instruction} (hready : OutputReady db plan output)
    (h : Feeds executionIds known) :
    Yields known (emitOutput db codesys plan output executionIds inputFromBlock)
      (ContinuesFragment db plan output known) := by
  rcases Opcode.emitter_cases hready.emitter with hcoil | htimer | hreset | hvalue
  · exact emitOutput_coil h hcoil
  · obtain ⟨timerName, hname, hsome⟩ := hready.timer htimer
    exact emitOutput_timer h htimer hname hsome
  · exact emitOutput_reset h hreset (hready.reset hreset)
  · exact emitOutput_value h hvalue (hready.value hvalue)

theorem emitOutputs_yields {outputs : List Instruction}
    (hready : ∀ output ∈ outputs, OutputReady db plan output) (h : Feeds executionIds known) :
    Yields known (emitOutputs db codesys plan executionIds inputFromBlock outputs)
      (fun _ elements => Fragments db plan outputs elements) := by
  induction outputs generalizing executionIds inputFromBlock known with
  | nil => exact Yields.pure Fragments.nil
  | cons output outputs ih =>
    refine Yields.bind (emitOutput_yields (hready output (by simp)) h) ?_
    rintro ⟨executionIds, inputFromBlock⟩ elements ⟨hfragment, hfeeds⟩
    refine (ih (fun other hother => hready other (by simp [hother])) hfeeds).mono ?_
    intro _ rest hrest
    exact Fragments.cons hfragment hrest

/-! ## Rungs -/

theorem emitRungComment_yields (rung : LadderRung) :
    Yields known (emitRungComment rung) (fun _ elements => IsRungComment elements) := by
  unfold emitRungComment
  split
  · exact Yields.pure (.inl rfl)
  · unfold emitComment
    refine Yields.bind (drawSource_yields (fun _ => rfl) (fun _ => rfl)) ?_
    rintro localId elements rfl
    exact Yields.pure (.inr ⟨localId, _, rfl⟩)

/-- Everything the emitters need for a parsed rung. -/
structure RungReady (db : CharacterDatabase) (plan : PLCopenOperandPlan) (id : RungId)
    (parsed : ParsedBooleanRung) : Prop where
  contacts : ∀ i ∈ parsed.prefixConditions, i.opcode.isContact = true
  branches : ∀ branch ∈ parsed.branches, ∀ i ∈ branch, i.opcode.isContact = true
  tail : TailReady db plan id 0 parsed.tailConditions
  outputs : ∀ output ∈ parsed.outputs, OutputReady db plan output

theorem emitGroup_yields
    (hcontacts : ∀ branch ∈ parsed.branches, ∀ i ∈ branch, i.opcode.isContact = true)
    {railId : Nat} (h : Feeds conditionIds known) :
    Yields known (emitGroup db codesys plan railId conditionIds parsed.branches)
      (SeriesYield db plan parsed.branches.flatten known) := by
  unfold emitGroup
  split
  · next hempty =>
      rw [isEmpty_iff.mp hempty]
      exact Yields.pure ⟨Fragments.nil, by simpa using h⟩
  · next hbranches =>
      obtain ⟨first, rest, rfl⟩ := exists_cons_of_ne_nil h.nonempty
      refine (emitBranches_yields hcontacts (h.known first (by simp))).mono ?_
      rintro ids elements ⟨hfragments, hlength, hmem⟩
      refine ⟨hfragments, ?_, hmem⟩
      rw [← length_pos_iff, hlength, length_pos_iff]
      simpa using hbranches

theorem emitParsedRung_yields {site : RungSite} (hready : RungReady db plan site.id parsed) :
    Yields [] (emitParsedRung db codesys plan site parsed)
      (fun _ elements => IsExecutable db plan parsed.instructions elements) := by
  unfold emitParsedRung
  refine Yields.bind (drawSource_yields (fun _ => rfl) (fun _ => rfl)) ?_
  rintro railId elements rfl
  refine Yields.bind (emitRungComment_yields site.rung) ?_
  rintro ⟨⟩ comments hcomments
  have hrail : Feeds [railId] ([] ++ localIds [.leftPowerRail railId] ++ localIds comments) :=
    Feeds.single (by simp [LadderElement.localId])
  refine Yields.bind (emitPrefix_yields hready.contacts hrail) ?_
  rintro conditionIds first ⟨hfirst, hfeeds⟩
  refine Yields.bind (emitGroup_yields hready.branches hfeeds) ?_
  rintro branchIds group ⟨hgroup, hfeeds⟩
  refine Yields.bind (emitTail_yields hready.tail hfeeds) ?_
  rintro executionIds tail ⟨htail, hfeeds⟩
  refine Yields.bind (emitOutputs_yields hready.outputs hfeeds) ?_
  rintro ⟨⟩ outputs houtputs
  refine Yields.bind (drawSource_yields (fun _ => rfl) (fun _ => rfl)) ?_
  rintro rightId elements rfl
  refine Yields.pure ⟨railId, comments, first ++ (group ++ (tail ++ outputs)), rightId, ?_,
    hcomments, ?_⟩
  · simp
  · have hall := hfirst.append (hgroup.append (htail.append houtputs))
    rwa [← append_assoc, ← append_assoc, ← ParsedBooleanRung.instructions] at hall

theorem emitActionCall_yields {rung : LadderRung} {actionName : Text} :
    Yields [] (emitActionCall codesys rung actionName)
      (fun _ elements => IsActionCall actionName elements) := by
  unfold emitActionCall
  refine Yields.bind (drawSource_yields (fun _ => rfl) (fun _ => rfl)) ?_
  rintro railId elements rfl
  refine Yields.bind (emitRungComment_yields rung) ?_
  rintro ⟨⟩ comments hcomments
  refine Yields.bind (drawBlock_yields ?_) ?_
  · simp only [mem_singleton, forall_eq]
    exact ⟨[railId], none, Feeds.single (by simp [LadderElement.localId]), rfl⟩
  rintro blockId elements rfl
  refine Yields.bind (drawSource_yields (fun _ => rfl) (fun _ => rfl)) ?_
  rintro rightId elements rfl
  exact Yields.pure ⟨railId, comments, blockId, _, _, _, rightId, rfl, hcomments⟩

/-! ## Rungs that cannot be emitted -/

/-- An output without an emitter, or a comparison whose literal overflows. -/
def Unemittable (db : CharacterDatabase) (parsed : ParsedBooleanRung) : Prop :=
  (∃ output ∈ parsed.outputs, output.opcode ∈ [Opcode.TOF, .RTO, .CTU, .CTD]) ∨
    ∃ comparison ∈ parsed.comparisons,
      literalOverflows db (splitArguments db comparison.operand) = true

theorem emitComparison_ok {operandText resultName : Text} {drawn : Drawn Nat}
    (h : emitComparison db plan opcode operandText conditionIds resultName nextLocalId =
      .ok drawn) :
    literalOverflows db (splitArguments db operandText) = false := by
  unfold emitComparison at h
  split at h
  · cases h
  · obtain ⟨before, -, hbefore, -⟩ := Drawing.bind_eq_ok h
    exact (comparisonOperands_ok_iff _).mp ⟨_, Drawing.ofExcept_eq_ok hbefore⟩

theorem emitTailCondition_ok {drawn : Drawn Nat}
    (h : emitTailCondition db codesys plan id comparisonIndex condition conditionIds nextLocalId =
      .ok drawn) (hcomparison : condition.opcode.isComparison = true) :
    literalOverflows db (splitArguments db condition.operand) = false := by
  obtain ⟨hcontact, -, honeshot⟩ := Opcode.comparison_apart hcomparison
  unfold emitTailCondition at h
  obtain ⟨before, after, -, hafter⟩ := Drawing.bind_eq_ok h
  unfold emitCondition at hafter
  simp only [hcontact, Bool.false_eq_true, if_false, honeshot, hcomparison, if_true] at hafter
  revert hafter
  cases before.value with
  | none => intro hafter; cases hafter
  | oneshot state => intro hafter; cases hafter
  | resultVariable name => exact fun hafter => emitComparison_ok hafter

theorem emitTail_ok
    {drawn : Drawn (List Nat)}
    (h : emitTail db codesys plan id comparisonIndex conditionIds conditions nextLocalId =
      .ok drawn) :
    ∀ i ∈ conditions, i.opcode.isComparison = true →
      literalOverflows db (splitArguments db i.operand) = false := by
  induction conditions generalizing comparisonIndex conditionIds nextLocalId drawn with
  | nil => simp
  | cons condition conditions ih =>
    unfold emitTail at h
    obtain ⟨before, after, hbefore, hafter⟩ := Drawing.bind_eq_ok h
    intro i hi hcomparison
    rcases mem_cons.mp hi with rfl | hi
    · exact emitTailCondition_ok hbefore hcomparison
    · exact ih hafter i hi hcomparison

theorem emitOutput_ok {output : Instruction} {drawn : Drawn (List Nat × Bool)}
    (h : emitOutput db codesys plan output executionIds inputFromBlock nextLocalId = .ok drawn) :
    output.opcode ∉ [Opcode.TOF, .RTO, .CTU, .CTD] := by
  intro hmem
  have hkinds : output.opcode.isCoil = false ∧ output.opcode ≠ .TON ∧ output.opcode ≠ .RES ∧
      output.opcode.isValueBlock = false := by
    revert hmem
    generalize output.opcode = opcode
    cases opcode <;> decide
  obtain ⟨hcoil, hton, hres, hvalue⟩ := hkinds
  unfold emitOutput at h
  simp only [hcoil, Bool.false_eq_true, if_false, hton, hres, hvalue] at h
  cases h

theorem emitOutputs_ok {outputs : List Instruction}
    (h : emitOutputs db codesys plan executionIds inputFromBlock outputs nextLocalId =
      .ok drawn) :
    ∀ output ∈ outputs, output.opcode ∉ [Opcode.TOF, .RTO, .CTU, .CTD] := by
  induction outputs generalizing executionIds inputFromBlock nextLocalId drawn with
  | nil => simp
  | cons output outputs ih =>
    unfold emitOutputs at h
    obtain ⟨before, after, hbefore, hafter⟩ := Drawing.bind_eq_ok h
    intro other hother
    rcases mem_cons.mp hother with rfl | hother
    · exact emitOutput_ok hbefore
    · exact ih hafter other hother

theorem emitParsedRung_ok {site : RungSite}
    (h : emitParsedRung db codesys plan site parsed nextLocalId = .ok drawn) :
    ¬ Unemittable db parsed := by
  unfold emitParsedRung at h
  obtain ⟨_, _, -, h⟩ := Drawing.bind_eq_ok h
  obtain ⟨_, _, -, h⟩ := Drawing.bind_eq_ok h
  obtain ⟨_, _, -, h⟩ := Drawing.bind_eq_ok h
  obtain ⟨_, _, -, h⟩ := Drawing.bind_eq_ok h
  obtain ⟨_, _, htail, h⟩ := Drawing.bind_eq_ok h
  obtain ⟨_, _, houtputs, -⟩ := Drawing.bind_eq_ok h
  rintro (⟨output, houtput, hmem⟩ | ⟨comparison, hcomparison, hoverflows⟩)
  · exact emitOutputs_ok houtputs output houtput hmem
  · obtain ⟨htailMem, hopcode⟩ := mem_filter.mp hcomparison
    rw [emitTail_ok htail comparison htailMem hopcode] at hoverflows
    cases hoverflows

end

/-! ## Rungs of a controller -/

section

variable {db : CharacterDatabase} {controller : Controller} {site : RungSite}

/-- The export of the rung gets as far as the instruction emitters. -/
structure ReachesEmitters (db : CharacterDatabase) (controller : Controller) (site : RungSite)
    (text : Text) (parsed : ParsedBooleanRung) : Prop where
  operation : isNoOperation db text = false
  call : parseJsr db (some text) = none
  accepted : parseSupportedRung db (some text) = some parsed
  supported : comparesUnsupported db controller site.program parsed = false
  timers : ∀ operand ∈ timerOperands db parsed,
    ∃ tag ∈ allTags controller, isTimerTag db tag = true ∧ tag.name = operand

theorem timers_all_iff (codesys : Bool) (parsed : ParsedBooleanRung) :
    (timerOperands db parsed).all (fun operand =>
        ((exportPlan db codesys controller).timers.lookup operand).isSome) = true ↔
      ∀ operand ∈ timerOperands db parsed,
        ∃ tag ∈ allTags controller, isTimerTag db tag = true ∧ tag.name = operand := by
  rw [all_eq_true]
  exact forall₂_congr (fun operand _ => prepare_timers _ operand)

theorem arguments_of_supported {operand : Text} (h : hasSupportedOperand db opcode operand = true) :
    (opcode.isComparison = true → (splitArguments db operand).length = 2) ∧
      (opcode = .TON → (splitArguments db operand).length = 3) ∧
      (opcode.isValueBlock = true → splitArguments db operand ≠ []) := by
  unfold hasSupportedOperand at h
  rw [Bool.and_eq_true] at h
  obtain ⟨-, h⟩ := h
  have hne : ∀ n, (splitArguments db operand).length = n + 1 → splitArguments db operand ≠ [] := by
    intro n hlength hnil
    rw [hnil] at hlength
    cases hlength
  refine ⟨fun hkind => ?_, fun hkind => ?_, fun hkind => ?_⟩
  · simpa [hkind] using h
  · simpa [hkind, Opcode.isComparison] using h
  · revert h hkind
    cases opcode <;> simp [Opcode.isComparison, Opcode.isValueBlock] <;> exact hne _

variable {text : Text}

theorem rungReady (codesys : Bool) (hwell : ControllerWellFormed controller)
    (hsite : site ∈ rungSites controller)
    (htext : site.rung.text = some text) (hreaches : ReachesEmitters db controller site text parsed)
    (hemittable : ¬ Unemittable db parsed) :
    RungReady db (exportPlan db codesys controller) site.id parsed := by
  obtain ⟨sequence, haccepted⟩ := accepted_of hreaches.accepted
  obtain ⟨htail, houtputs⟩ := sortInstructions_some haccepted.sorted
  have hparsed : parseSupportedRung db site.rung.text = some parsed := htext ▸ hreaches.accepted
  have htailSequence : ∀ i ∈ parsed.tailConditions, i ∈ sequence ∧ i.opcode.isOutput = false := by
    intro i hi
    rw [htail, mem_filter] at hi
    simpa using hi
  have houtputSequence : ∀ i ∈ parsed.outputs, i ∈ sequence ∧ i.opcode.isOutput = true := by
    intro i hi
    rw [houtputs, mem_filter] at hi
    simpa using hi
  refine ⟨haccepted.prefixContacts, haccepted.branchContacts, ⟨?_, ?_, ?_, ?_⟩, ?_⟩
  · exact fun i hi => (htailSequence i hi).2
  · intro i hi honeshot
    apply prepare_oneshots _ hsite
    refine ⟨parsed, hparsed, ?_⟩
    unfold ParsedBooleanRung.oneShotStorage
    rw [Option.isSome_map, List.find?_isSome]
    exact ⟨i, hi, by simp [honeshot]⟩
  · intro i hi hcomparison
    have hne : parsed.comparisons ≠ [] :=
      ne_nil_of_mem (mem_filter.mpr ⟨hi, hcomparison⟩)
    obtain ⟨temps, htemps, hlength⟩ :=
      prepare_comparisonTemps _ hwell hsite hparsed hreaches.supported hne
    refine ⟨temps, htemps, ?_⟩
    rw [hlength, Nat.zero_add, countP_eq_length_filter]
    exact Nat.le_refl _
  · intro i hi hcomparison
    obtain ⟨hin, -⟩ := htailSequence i hi
    refine ⟨(arguments_of_supported (haccepted.supported i hin)).1 hcomparison, ?_⟩
    by_contra hoverflows
    exact hemittable (.inr ⟨i, mem_filter.mpr ⟨hi, hcomparison⟩, by simpa using hoverflows⟩)
  · intro output houtput
    obtain ⟨hin, hkind⟩ := houtputSequence output houtput
    have harguments := arguments_of_supported (haccepted.supported output hin)
    have htimer : ∀ operand ∈ timerOperands db parsed,
        ((exportPlan db codesys controller).timers.lookup operand).isSome := by
      rw [← all_eq_true, timers_all_iff]
      exact hreaches.timers
    refine ⟨?_, ?_, ?_, harguments.2.2⟩
    · have hmissing : output.opcode ∉ [Opcode.TOF, .RTO, .CTU, .CTD] :=
        fun hmem => hemittable (.inl ⟨output, houtput, hmem⟩)
      revert hkind hmissing
      generalize output.opcode = opcode
      cases opcode <;> decide
    · intro hopcode
      have hlength := harguments.2.1 hopcode
      obtain ⟨timerName, rest, hsplit⟩ := exists_cons_of_length_pos
        (by rw [hlength]; decide : 0 < (splitArguments db output.operand).length)
      refine ⟨timerName, by rw [hsplit]; rfl, htimer timerName ?_⟩
      refine mem_flatMap.mpr ⟨output, mem_filter.mpr ⟨houtput, by simp [hopcode]⟩, ?_⟩
      simp [hopcode, hsplit]
    · intro hopcode
      apply htimer
      refine mem_flatMap.mpr ⟨output, mem_filter.mpr ⟨houtput, by simp [hopcode]⟩, ?_⟩
      simp [hopcode]

/-! ## Kept rungs -/

/-- A rung text is kept: as a graph with one fragment for each of its instructions, as
a call of a routine, or as a comment that holds the text. A comment comes with a
diagnostic, unless the rung has no instruction to execute. -/
inductive KeepsRung (db : CharacterDatabase) (plan : PLCopenOperandPlan) (site : RungSite)
    (text : Text) (elements : List LadderElement) (diagnostics : List ConversionDiagnostic) :
    Prop where
  | executable {parsed : ParsedBooleanRung}
      (accepted : parseSupportedRung db (some text) = some parsed) (graph : IsGraph elements)
      (fragments : IsExecutable db plan parsed.instructions elements)
  | call {target : Text} (accepted : parseJsr db (some text) = some target)
      (resolved : ∃ entry ∈ site.program.routines, entry.2.name = target)
      (graph : IsGraph elements) (block : IsActionCall target elements)
  | noOperation (accepted : isNoOperation db text = true) {localId : Nat} {content : Text}
      (comment : elements = [.comment localId content (some text)])
  | comment {localId : Nat} {label : Text} {raw : Option Text} {diagnostic : ConversionDiagnostic}
      (comment : elements = [.comment localId (label ++ text) raw])
      (kept : text ≠ [] → raw = some text)
      (reported : diagnostics = [diagnostic])
      (program : diagnostic.objectName = some site.program.name)

theorem filter_raw (h : text ≠ []) :
    (some text).filter (fun raw => !raw.isEmpty) = some text := by
  simp [Option.filter, h]

theorem isNoOperation_ne_nil (h : isNoOperation db text = true) : text ≠ [] := by
  rintro rfl
  revert h
  unfold isNoOperation
  rw [dropWhile_nil]
  simp [Text.of]

theorem emitComment_run (content : Text) (raw : Option Text) (nextLocalId : Nat) :
    emitComment content raw nextLocalId =
      .ok ⟨(), [.comment nextLocalId content (raw.filter (fun raw => !raw.isEmpty))], [],
        nextLocalId + 1⟩ := rfl

variable {plan : PLCopenOperandPlan}

theorem emitUnsupported_keeps (htext : site.rung.text = some text)
    (code message label rawValue : Text) (nextLocalId : Nat) :
    ∃ drawn, emitUnsupported site code message label rawValue nextLocalId = .ok drawn ∧
      KeepsRung db plan site text drawn.elements drawn.diagnostics := by
  unfold emitUnsupported emitComment
  rw [htext]
  refine ⟨_, rfl, ?_⟩
  exact .comment rfl filter_raw rfl rfl

theorem emitWithoutText_ok (nextLocalId : Nat) :
    ∃ drawn, emitWithoutText db site nextLocalId = .ok drawn := by
  unfold emitWithoutText
  split <;> exact ⟨_, rfl⟩

/-- The rung does not ask the emitters for something they do not have. -/
def IsEmittable (db : CharacterDatabase) (controller : Controller) (site : RungSite)
    (text : Text) : Prop :=
  ∀ parsed, ReachesEmitters db controller site text parsed → ¬ Unemittable db parsed

variable {actionNames : List Text}

theorem emitRung_keeps
    (hwell : ControllerWellFormed controller) (hsite : site ∈ rungSites controller)
    (hnames : ∀ name ∈ actionNames, ∃ entry ∈ site.program.routines, entry.2.name = name)
    (htext : site.rung.text = some text) (hemittable : IsEmittable db controller site text)
    (nextLocalId : Nat) :
    ∃ drawn, emitRung db codesys (exportPlan db codesys controller) actionNames site nextLocalId =
        .ok drawn ∧
      KeepsRung db (exportPlan db codesys controller) site text drawn.elements
        drawn.diagnostics := by
  unfold emitRung
  rw [htext]
  by_cases hoperation : isNoOperation db text = true
  · simp only [hoperation, if_true]
    rw [emitComment_run, filter_raw (isNoOperation_ne_nil hoperation)]
    exact ⟨_, rfl, .noOperation hoperation rfl⟩
  simp only [hoperation, Bool.false_eq_true, if_false]
  by_cases haside : site.id ∈ (exportPlan db codesys controller).unsupportedComparisonRungs
  · rw [if_pos haside]
    exact emitUnsupported_keeps htext _ _ _ _ nextLocalId
  rw [if_neg haside]
  cases hcall : parseJsr db (some text) with
  | some target =>
    simp only
    by_cases hresolved : target ∈ actionNames
    · rw [if_pos hresolved]
      have hyields : Yields [] (emitActionCall codesys site.rung target)
          (fun _ elements => IsActionCall target elements) := emitActionCall_yields
      obtain ⟨value, elements, hrun, hgraph, hblock⟩ := hyields.graph nextLocalId
      exact ⟨_, hrun, .call hcall (hnames target hresolved) hgraph hblock⟩
    · rw [if_neg hresolved]
      exact emitUnsupported_keeps htext _ _ _ _ nextLocalId
  | none =>
    simp only
    cases hparsed : parseSupportedRung db (some text) with
    | none => exact emitUnsupported_keeps htext _ _ _ _ nextLocalId
    | some parsed =>
      simp only
      split
      · next htimers =>
          have hsupported : comparesUnsupported db controller site.program parsed = false := by
            by_contra hunsupported
            refine haside ((prepare_unsupported _ hwell hsite).mpr ⟨parsed, htext ▸ hparsed, ?_⟩)
            simpa using hunsupported
          have hreaches : ReachesEmitters db controller site text parsed :=
            ⟨by simpa using hoperation, hcall, hparsed, hsupported,
              (timers_all_iff codesys parsed).mp htimers⟩
          have hready := rungReady codesys hwell hsite htext hreaches (hemittable parsed hreaches)
          obtain ⟨value, elements, hrun, hgraph, hexecutable⟩ :=
            (emitParsedRung_yields hready).graph nextLocalId
          exact ⟨_, hrun, .executable hparsed hgraph hexecutable⟩
      · exact emitUnsupported_keeps htext _ _ _ _ nextLocalId

theorem emitRung_emittable (hwell : ControllerWellFormed controller)
    (hsite : site ∈ rungSites controller) (htext : site.rung.text = some text)
    (h : emitRung db codesys (exportPlan db codesys controller) actionNames site nextLocalId =
      .ok drawn) :
    IsEmittable db controller site text := by
  intro parsed hreaches
  have haside : site.id ∉ (exportPlan db codesys controller).unsupportedComparisonRungs := by
    intro hmem
    obtain ⟨other, hother, hunsupported⟩ := (prepare_unsupported _ hwell hsite).mp hmem
    rw [htext, hreaches.accepted, Option.some.injEq] at hother
    subst hother
    rw [hreaches.supported] at hunsupported
    cases hunsupported
  unfold emitRung at h
  rw [htext] at h
  simp only [hreaches.operation, Bool.false_eq_true, if_false, haside, hreaches.call,
    hreaches.accepted, (timers_all_iff codesys parsed).mpr hreaches.timers, if_true] at h
  exact emitParsedRung_ok h

/-! ## Threaded emission -/

variable {Item Output : Type}

theorem emitAll_ok {emit : Item → Nat → Except Raised (Output × Nat)} {items : List Item}
    (h : ∀ item ∈ items, ∀ nextLocalId, ∃ result, emit item nextLocalId = .ok result)
    (nextLocalId : Nat) : ∃ result, emitAll emit items nextLocalId = .ok result := by
  induction items generalizing nextLocalId with
  | nil => exact ⟨_, rfl⟩
  | cons item items ih =>
    obtain ⟨⟨output, afterItem⟩, hitem⟩ := h item (by simp) nextLocalId
    obtain ⟨⟨outputs, afterItems⟩, hitems⟩ :=
      ih (fun other hother => h other (by simp [hother])) afterItem
    refine ⟨(output :: outputs, afterItems), ?_⟩
    unfold emitAll
    simp [hitem, hitems, bind, Except.bind, pure, Except.pure]

variable {outputs : List Output × Nat}

theorem emitAll_cons {emit : Item → Nat → Except Raised (Output × Nat)} {item : Item}
    {items : List Item} (h : emitAll emit (item :: items) nextLocalId = .ok outputs) :
    ∃ result rest, emit item nextLocalId = .ok result ∧
      emitAll emit items result.2 = .ok rest ∧ outputs.1 = result.1 :: rest.1 := by
  unfold emitAll at h
  cases hitem : emit item nextLocalId with
  | error raised => simp [hitem, bind, Except.bind] at h
  | ok result =>
    cases hitems : emitAll emit items result.2 with
    | error raised => simp [hitem, hitems, bind, Except.bind] at h
    | ok rest =>
      simp only [hitem, hitems, bind, Except.bind, pure, Except.pure, Except.ok.injEq] at h
      exact ⟨result, rest, rfl, hitems, by rw [← h]⟩

theorem emitAll_mem {emit : Item → Nat → Except Raised (Output × Nat)} {items : List Item}
    (h : emitAll emit items nextLocalId = .ok outputs) {item : Item} (hitem : item ∈ items) :
    ∃ localId result, emit item localId = .ok result ∧ result.1 ∈ outputs.1 := by
  induction items generalizing nextLocalId outputs with
  | nil => cases hitem
  | cons first items ih =>
    obtain ⟨result, rest, hfirst, hrest, houtputs⟩ := emitAll_cons h
    rw [houtputs]
    rcases mem_cons.mp hitem with rfl | hitem
    · exact ⟨nextLocalId, result, hfirst, by simp⟩
    · obtain ⟨localId, found, hfound, hmem⟩ := ih hrest hitem
      exact ⟨localId, found, hfound, mem_cons_of_mem _ hmem⟩

theorem emitAll_output {emit : Item → Nat → Except Raised (Output × Nat)} {items : List Item}
    (h : emitAll emit items nextLocalId = .ok outputs) {output : Output}
    (houtput : output ∈ outputs.1) :
    ∃ item ∈ items, ∃ localId result, emit item localId = .ok result ∧ result.1 = output := by
  induction items generalizing nextLocalId outputs with
  | nil =>
    cases h
    cases houtput
  | cons first items ih =>
    obtain ⟨result, rest, hfirst, hrest, houtputs⟩ := emitAll_cons h
    rw [houtputs] at houtput
    rcases mem_cons.mp houtput with rfl | houtput
    · exact ⟨first, by simp, nextLocalId, result, hfirst, rfl⟩
    · obtain ⟨item, hitem, hfound⟩ := ih hrest houtput
      exact ⟨item, mem_cons_of_mem _ hitem, hfound⟩

/-! ## Programs -/

theorem exportRung_eq_ok {result : RungExport × Nat}
    (h : exportRung db codesys plan actionNames site nextLocalId = .ok result) :
    ∃ drawn, emitRung db codesys plan actionNames site nextLocalId = .ok drawn ∧
      result.1 = ⟨site, drawn.elements, drawn.diagnostics⟩ := by
  obtain ⟨drawn, hdrawn, rfl⟩ := Guards.map_eq_ok.mp h
  exact ⟨drawn, hdrawn, rfl⟩

variable {program : Program} {main : Routine}

theorem mem_actionRoutines {routine : Routine} :
    routine ∈ actionRoutines program main ↔
      (∃ entry ∈ program.routines, entry.2 = routine) ∧ routine.name ≠ main.name := by
  simp [actionRoutines]

theorem callableNames_routines (hsite : site ∈ programSites program) :
    ∀ name ∈ callableNames program main,
      ∃ entry ∈ site.program.routines, entry.2.name = name := by
  obtain ⟨routine, -, hplace⟩ := mem_programSites.mp hsite
  rw [(mem_routineSites.mp hplace).1]
  intro name hname
  obtain ⟨routine, hroutine, rfl⟩ := mem_map.mp hname
  obtain ⟨⟨entry, hentry, rfl⟩, -⟩ := mem_actionRoutines.mp hroutine
  exact ⟨entry, hentry, rfl⟩

variable {result : Pou × Nat} {programNames : List (Text × Text)}

theorem emitProgram_eq_ok (hmain : program.mainRoutine = some main)
    (h : emitProgram db codesys plan programNames program nextLocalId = .ok result) :
    ∃ actions body, emitAll (emitAction db codesys plan (callableNames program main) program)
        (actionRoutines program main) nextLocalId = .ok actions ∧
      emitRoutineBody db codesys plan (callableNames program main) program main actions.2 =
        .ok body ∧
      result.1.actions = actions.1 ∧ result.1.body = some body.1 := by
  unfold emitProgram at h
  simp only [hmain] at h
  cases hactions : emitAll (emitAction db codesys plan (callableNames program main) program)
      (actionRoutines program main) nextLocalId with
  | error raised => simp [hactions, bind, Except.bind] at h
  | ok actions =>
    cases hbody : emitRoutineBody db codesys plan (callableNames program main) program main
        actions.2 with
    | error raised => simp [hactions, hbody, bind, Except.bind] at h
    | ok body =>
      simp only [hactions, hbody, bind, Except.bind, pure, Except.pure, Except.ok.injEq] at h
      refine ⟨actions, body, rfl, hbody, ?_, ?_⟩ <;> rw [← h]

theorem emitProgram_covers (hwell : ProgramWellFormed program)
    (hmain : program.mainRoutine = some main)
    (h : emitProgram db codesys plan programNames program nextLocalId = .ok result)
    (hsite : site ∈ programSites program) :
    ∃ localId drawn,
      emitRung db codesys plan (callableNames program main) site localId = .ok drawn ∧
        ⟨site, drawn.elements, drawn.diagnostics⟩ ∈ result.1.exports := by
  obtain ⟨actions, body, hactions, hbody, hresultActions, hresultBody⟩ := emitProgram_eq_ok hmain h
  obtain ⟨entry, hentry, hin⟩ := mem_programSites.mp hsite
  by_cases hname : entry.2.name = main.name
  · have hself := hwell.eq_of_name hentry (hwell.main main hmain) hname
    subst hself
    obtain ⟨localId, found, hfound, hmem⟩ := emitAll_mem hbody hin
    obtain ⟨drawn, hdrawn, heq⟩ := exportRung_eq_ok hfound
    refine ⟨localId, drawn, hdrawn, mem_append_right _ ?_⟩
    rw [hresultBody, Option.getD_some, ← heq]
    exact hmem
  · have haction : entry.2 ∈ actionRoutines program main :=
      mem_actionRoutines.mpr ⟨⟨entry, hentry, rfl⟩, hname⟩
    obtain ⟨actionId, action, hfoundAction, hactionMem⟩ := emitAll_mem hactions haction
    obtain ⟨exports, hexports, rfl⟩ := Guards.map_eq_ok.mp hfoundAction
    obtain ⟨localId, found, hfound, hmem⟩ := emitAll_mem hexports hin
    obtain ⟨drawn, hdrawn, heq⟩ := exportRung_eq_ok hfound
    refine ⟨localId, drawn, hdrawn, mem_append_left _ ?_⟩
    rw [hresultActions, ← heq]
    exact mem_flatMap.mpr ⟨_, hactionMem, hmem⟩

theorem emitProgram_exports
    (h : emitProgram db codesys plan programNames program nextLocalId = .ok result)
    {exported : RungExport} (hexported : exported ∈ result.1.exports) :
    exported.site.program = program ∧ program.mainRoutine.isSome := by
  cases hmain : program.mainRoutine with
  | none =>
    unfold emitProgram at h
    simp only [hmain, Except.ok.injEq] at h
    rw [← h] at hexported
    cases hexported
  | some main =>
    obtain ⟨actions, body, hactions, hbody, hresultActions, hresultBody⟩ :=
      emitProgram_eq_ok hmain h
    have hown : ∀ routine localId found,
        emitRoutineBody db codesys plan (callableNames program main) program routine localId =
          .ok found → ∀ exported ∈ found.1, exported.site.program = program := by
      intro routine localId found hfound exported hmem
      obtain ⟨site, hsite, otherId, result, hresult, rfl⟩ := emitAll_output hfound hmem
      obtain ⟨drawn, -, heq⟩ := exportRung_eq_ok hresult
      rw [heq]
      exact (mem_routineSites.mp hsite).1
    refine ⟨?_, rfl⟩
    unfold Pou.exports at hexported
    rw [hresultActions, hresultBody, Option.getD_some] at hexported
    rcases mem_append.mp hexported with hmem | hmem
    · obtain ⟨action, haction, hmem⟩ := mem_flatMap.mp hmem
      obtain ⟨routine, -, localId, result, hresult, rfl⟩ := emitAll_output hactions haction
      obtain ⟨exports, hexports, rfl⟩ := Guards.map_eq_ok.mp hresult
      exact hown routine localId exports hexports exported hmem
    · exact hown main actions.2 body hbody exported hmem

theorem emitProgram_ok (hwell : ProgramWellFormed program)
    (h : ∀ main, program.mainRoutine = some main → ∀ site ∈ programSites program, ∀ nextLocalId,
      ∃ drawn, emitRung db codesys plan (callableNames program main) site nextLocalId = .ok drawn)
    (nextLocalId : Nat) :
    ∃ result, emitProgram db codesys plan programNames program nextLocalId = .ok result := by
  cases hmain : program.mainRoutine with
  | none =>
    unfold emitProgram
    simp only [hmain]
    exact ⟨_, rfl⟩
  | some main =>
    have hbody : ∀ entry ∈ program.routines, ∀ localId, ∃ result,
        emitRoutineBody db codesys plan (callableNames program main) program entry.2 localId =
          .ok result := by
      intro entry hentry
      apply emitAll_ok
      intro site hsite localId
      obtain ⟨drawn, hdrawn⟩ :=
        h main hmain site (mem_programSites.mpr ⟨entry, hentry, hsite⟩) localId
      unfold exportRung
      rw [hdrawn]
      exact ⟨_, rfl⟩
    have hactions : ∀ localId, ∃ result,
        emitAll (emitAction db codesys plan (callableNames program main) program)
          (actionRoutines program main) localId = .ok result := by
      apply emitAll_ok
      intro routine hroutine localId
      obtain ⟨⟨entry, hentry, rfl⟩, -⟩ := mem_actionRoutines.mp hroutine
      obtain ⟨result, hresult⟩ := hbody entry hentry localId
      unfold emitAction
      rw [hresult]
      exact ⟨_, rfl⟩
    obtain ⟨actions, hactions⟩ := hactions nextLocalId
    obtain ⟨body, hbody⟩ := hbody _ (hwell.main main hmain) actions.2
    simp only at hbody
    unfold emitProgram
    simp only [hmain, hactions, hbody, bind, Except.bind]
    exact ⟨_, rfl⟩

/-! ## The project -/

theorem build_eq_ok {project : ProjectLogic} (h : build db codesys controller = .ok project) :
    ∃ result, emitAll (emitProgram db codesys (exportPlan db codesys controller)
        (portableProgramNames (controller.programs.map Prod.snd)))
      (controller.programs.map Prod.snd) 1 = .ok result ∧ project.pous = result.1 := by
  unfold build at h
  cases hprograms : emitAll (emitProgram db codesys (exportPlan db codesys controller)
      (portableProgramNames (controller.programs.map Prod.snd)))
      (controller.programs.map Prod.snd) 1 with
  | error raised => simp [hprograms, bind, Except.bind] at h
  | ok result =>
    simp only [hprograms, bind, Except.bind, pure, Except.pure, Except.ok.injEq] at h
    exact ⟨result, rfl, by rw [← h]⟩

/-- The project is built, and every rung text of the controller is kept in it. -/
def KeepsEveryRung (db : CharacterDatabase) (codesys : Bool) (controller : Controller) : Prop :=
  ∃ project, build db codesys controller = .ok project ∧
    ∀ site ∈ rungSites controller, ∀ text, site.rung.text = some text →
      ∃ exported ∈ project.exports, exported.site = site ∧
        KeepsRung db (exportPlan db codesys controller) site text exported.elements
          exported.diagnostics

/-- Building a project goes through and keeps every rung text exactly when each of them
is in a program with a main routine and asks for nothing the emitters do not have. -/
theorem build_keepsRungs_iff (db : CharacterDatabase) (codesys : Bool) (controller : Controller)
    (hwell : ControllerWellFormed controller) :
    KeepsEveryRung db codesys controller ↔
      ∀ site ∈ rungSites controller, ∀ text, site.rung.text = some text →
        site.program.mainRoutine.isSome ∧ IsEmittable db controller site text := by
  constructor
  · rintro ⟨project, hbuild, hkept⟩ site hsite text htext
    obtain ⟨exported, hexported, rfl, -⟩ := hkept site hsite text htext
    obtain ⟨result, hresult, hpous⟩ := build_eq_ok hbuild
    -- the unit the rung stands in, and the program it is the unit of
    obtain ⟨pou, hpou, hexported⟩ := mem_flatMap.mp hexported
    rw [hpous] at hpou
    obtain ⟨program, -, localId, emitted, hemitted, rfl⟩ := emitAll_output hresult hpou
    obtain ⟨hprogram, hmain⟩ := emitProgram_exports hemitted hexported
    refine ⟨hprogram ▸ hmain, ?_⟩
    obtain ⟨main, hmain⟩ := Option.isSome_iff_exists.mp hmain
    obtain ⟨entry, hentry, hin⟩ := mem_rungSites.mp hsite
    obtain ⟨routine, -, hplace⟩ := mem_programSites.mp hin
    have hown : entry.2 = program := (mem_routineSites.mp hplace).1.symm.trans hprogram
    obtain ⟨rungId, drawn, hdrawn, -⟩ := emitProgram_covers (hown ▸ hwell.programs entry hentry)
      hmain hemitted (hown ▸ hin)
    exact emitRung_emittable hwell hsite htext hdrawn
  · intro hlive
    have hprograms : ∀ program ∈ controller.programs.map Prod.snd, ∀ localId, ∃ result,
        emitProgram db codesys (exportPlan db codesys controller)
          (portableProgramNames (controller.programs.map Prod.snd)) program localId =
            .ok result := by
      intro program hprogram
      obtain ⟨entry, hentry, rfl⟩ := mem_map.mp hprogram
      apply emitProgram_ok (hwell.programs entry hentry)
      intro main hmain site hin localId
      have hsite : site ∈ rungSites controller := mem_rungSites.mpr ⟨entry, hentry, hin⟩
      cases htext : site.rung.text with
      | none =>
        unfold emitRung
        rw [htext]
        exact emitWithoutText_ok localId
      | some text =>
        obtain ⟨drawn, hdrawn, -⟩ := emitRung_keeps hwell hsite
          (callableNames_routines hin) htext (hlive site hsite text htext).2 localId
        exact ⟨drawn, hdrawn⟩
    obtain ⟨result, hresult⟩ := emitAll_ok hprograms 1
    have hbuild : build db codesys controller = .ok ⟨result.1,
        (exportPlan db codesys controller).diagnostics ++ programNameDiagnostics
          (portableProgramNames (controller.programs.map Prod.snd))⟩ := by
      unfold build
      simp only [hresult, bind, Except.bind]
      rfl
    refine ⟨_, hbuild, ?_⟩
    intro site hsite text htext
    obtain ⟨hmain, hemittable⟩ := hlive site hsite text htext
    obtain ⟨entry, hentry, hin⟩ := mem_rungSites.mp hsite
    obtain ⟨routine, -, hplace⟩ := mem_programSites.mp hin
    obtain ⟨main, hmain⟩ := Option.isSome_iff_exists.mp hmain
    rw [(mem_routineSites.mp hplace).1] at hmain
    obtain ⟨localId, emitted, hemitted, hpou⟩ :=
      emitAll_mem hresult (mem_map.mpr ⟨entry, hentry, rfl⟩)
    obtain ⟨rungId, drawn, hdrawn, hexported⟩ :=
      emitProgram_covers (hwell.programs entry hentry) hmain hemitted hin
    obtain ⟨kept, hkept, hkeeps⟩ :=
      emitRung_keeps hwell hsite (callableNames_routines hin) htext hemittable rungId
    refine ⟨_, mem_flatMap.mpr ⟨emitted.1, hpou, hexported⟩, rfl, ?_⟩
    rw [hdrawn, Except.ok.injEq] at hkept
    rw [hkept]
    exact hkeeps

end

def singleRoutine (texts : List Text) : Controller :=
  let routine : Routine :=
    ⟨"Main", texts.zipIdx.map (fun (text, number) => ⟨some number, none, some text, []⟩)⟩
  let timer : Tag :=
    { name := "T", dataType := some "TIMER", decoratedMembers := [("PRE", some 500)] }
  ⟨[], [("P", ⟨"P", [("Main", routine)], [("T", timer)], some routine⟩)]⟩

theorem singleRoutine_wellFormed (texts : List Text) :
    ControllerWellFormed (singleRoutine texts) where
  keyed := by simp [singleRoutine]
  distinct := by simp [singleRoutine]
  programs := by
    intro entry hentry
    cases mem_singleton.mp hentry
    exact ⟨by simp, by simp, fun main hmain => by cases hmain; simp⟩

/-- A timer driven by parallel contacts and an accumulator comparison, beside a rung
with nothing to execute. -/
theorem build_keepsRungs_timer : KeepsEveryRung Ascii.database true
    (singleRoutine ["NOP();", "XIC(A)[XIC(B),XIO(C)]LES(T.ACC,250)TON(T,?,?);"]) := by
  apply (build_keepsRungs_iff Ascii.database true _ (singleRoutine_wellFormed _)).mpr
  intro site hsite text htext
  simp only [rungSites, programSites, routineSites, singleRoutine, List.zipIdx_cons,
    List.zipIdx_nil, map_cons, map_nil, flatMap_cons, flatMap_nil,
    append_nil, mem_cons, not_mem_nil, or_false] at hsite
  rcases hsite with rfl | rfl
  · cases htext
    refine ⟨rfl, fun parsed hreaches => ?_⟩
    exact absurd hreaches.operation (by decide)
  · cases htext
    refine ⟨rfl, fun parsed hreaches => ?_⟩
    have hparsed : parseSupportedRung Ascii.database
        (some ("XIC(A)[XIC(B),XIO(C)]LES(T.ACC,250)TON(T,?,?);" : Text)) =
        some ⟨[⟨.XIC, "A"⟩], [[⟨.XIC, "B"⟩], [⟨ Opcode.XIO, "C"⟩]], [⟨.LES, "T.ACC,250"⟩],
          [⟨.TON, "T,?,?"⟩]⟩ := by
      decide +kernel
    cases hparsed.symm.trans hreaches.accepted
    rintro (⟨output, houtput, hmem⟩ | ⟨comparison, hcomparison, hoverflows⟩)
    · cases mem_singleton.mp houtput
      revert hmem
      decide
    · cases mem_singleton.mp hcomparison
      revert hoverflows
      decide +kernel

/-- The parser accepts an off-delay timer, and no emitter takes it. -/
theorem build_keepsRungs_offDelay : ¬ KeepsEveryRung Ascii.database false
    (singleRoutine ["XIC(A)TOF(T,?,?);", "XIC(A)OTE(B);"]) := by
  rintro ⟨project, hbuild, -⟩
  have hraised : (build Ascii.database false
      (singleRoutine ["XIC(A)TOF(T,?,?);", "XIC(A)OTE(B);"])).isOk = false := by
    decide +kernel
  rw [hbuild] at hraised
  cases hraised

end TwinForge.Plcopen
