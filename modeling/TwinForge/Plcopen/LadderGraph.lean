import TwinForge.Plcopen.LadderEmission

/-! # Graphs of rungs

What an executable graph of a rung is, and the rules by which a drawing is shown to
yield one: local ids are consecutive, and every input point is fed by elements
written before it.
-/

namespace TwinForge.Plcopen

open Model List

/-! ## Executable graphs -/

def localIds (elements : List LadderElement) : List Nat := elements.map LadderElement.localId

@[simp] theorem localIds_nil : localIds [] = [] := rfl

@[simp] theorem localIds_cons (element : LadderElement) (elements : List LadderElement) :
    localIds (element :: elements) = element.localId :: localIds elements := rfl

@[simp] theorem localIds_append (first second : List LadderElement) :
    localIds (first ++ second) = localIds first ++ localIds second := map_append

/-- Every input point is fed, and only by known elements or elements written before. -/
def Wired : List Nat → List LadderElement → Prop
  | _, [] => True
  | known, element :: elements =>
    (∀ pin ∈ element.inputs, pin ≠ [] ∧ ∀ connection ∈ pin, connection.refLocalId ∈ known) ∧
      Wired (known ++ [element.localId]) elements

theorem wired_append {known : List Nat} {first second : List LadderElement} :
    Wired known (first ++ second) ↔ Wired known first ∧ Wired (known ++ localIds first) second := by
  induction first generalizing known with
  | nil => simp [Wired]
  | cons element elements ih => simp [Wired, ih, and_assoc]

/-- Elements with local ids of their own, each fed by elements before it. -/
structure IsGraph (elements : List LadderElement) : Prop where
  wired : Wired [] elements
  distinct : (localIds elements).Nodup

def realizes (db : CharacterDatabase) (plan : PLCopenOperandPlan) (instruction : Instruction) :
    LadderElement → Bool
  | .contact _ negated _ symbol =>
    instruction.opcode.isContact && negated == (instruction.opcode == Opcode.XIO) &&
      symbol == plan.portableOperand instruction.operand
  | .coil _ storage _ symbol =>
    instruction.opcode.isCoil && storage == coilStorage instruction.opcode &&
      symbol == plan.portableOperand instruction.operand
  | .block _ typeName instanceName _ _ _ =>
    match instruction.opcode with
    | .ONS => typeName == ("R_TRIG" : Text)
    | .TON => typeName == ("TON" : Text) &&
        instanceName == (splitArguments db instruction.operand).head?
    | .RES => typeName == ("TON" : Text) && instanceName == some instruction.operand
    | opcode => (opcode.isComparison && typeName == comparisonType opcode) ||
        (opcode.isValueBlock && typeName == valueBlockType opcode)
  | _ => false

/-- Exactly one element realizes the instruction, and a contact or coil instruction
is nothing but its element; the others come with the variables, coils, contacts and
rails around their block. -/
structure Fragment (db : CharacterDatabase) (plan : PLCopenOperandPlan) (instruction : Instruction)
    (elements : List LadderElement) : Prop where
  one : elements.countP (realizes db plan instruction) = 1
  alone : (instruction.opcode.isContact || instruction.opcode.isCoil) = true → elements.length = 1

/-- One fragment for each instruction, in order. -/
def Fragments (db : CharacterDatabase) (plan : PLCopenOperandPlan)
    (instructions : List Instruction) (elements : List LadderElement) : Prop :=
  ∃ fragments, List.Forall₂ (Fragment db plan) instructions fragments ∧
    elements = fragments.flatten

/-- Only the rung's comment, if there is one. -/
def IsRungComment (elements : List LadderElement) : Prop :=
  elements = [] ∨ ∃ localId text, elements = [.comment localId text none]

/-- Between two power rails, the fragments of the instructions. -/
def IsExecutable (db : CharacterDatabase) (plan : PLCopenOperandPlan)
    (instructions : List Instruction) (elements : List LadderElement) : Prop :=
  ∃ left comments body right,
    elements = .leftPowerRail left :: (comments ++ (body ++ [.rightPowerRail right])) ∧
      IsRungComment comments ∧ Fragments db plan instructions body

/-- Between two power rails, one call of the action. -/
def IsActionCall (actionName : Text) (elements : List LadderElement) : Prop :=
  ∃ left comments localId inputs outputs callType right,
    elements = .leftPowerRail left :: (comments ++
      [.block localId actionName none inputs outputs callType, .rightPowerRail right]) ∧
      IsRungComment comments

/-! ## Composed drawings -/

namespace Drawing

variable {A B : Type}

theorem bind_run (first : Drawing A) (next : A → Drawing B) (nextLocalId : Nat) :
    (first >>= next) nextLocalId =
      match first nextLocalId with
      | .error raised => .error raised
      | .ok drawn =>
        match next drawn.value drawn.nextLocalId with
        | .error raised => .error raised
        | .ok rest => .ok ⟨rest.value, drawn.elements ++ rest.elements,
            drawn.diagnostics ++ rest.diagnostics, rest.nextLocalId⟩ := rfl

theorem bind_eq_ok {first : Drawing A} {next : A → Drawing B} {nextLocalId : Nat}
    {drawn : Drawn B} (h : (first >>= next) nextLocalId = .ok drawn) :
    ∃ before after, first nextLocalId = .ok before ∧
      next before.value before.nextLocalId = .ok after := by
  rw [bind_run] at h
  split at h
  · cases h
  · next before hbefore =>
      split at h
      · cases h
      · next after hafter => exact ⟨before, after, hbefore, hafter⟩

theorem ofExcept_eq_ok {result : Except Raised A} {nextLocalId : Nat} {drawn : Drawn A}
    (h : ofExcept result nextLocalId = .ok drawn) : result = .ok drawn.value := by
  cases result with
  | error raised => cases h
  | ok value =>
    cases h
    rfl

end Drawing

/-! ## Drawings that yield -/

/-- From any next local id on the drawing goes through, reports nothing, numbers its
elements consecutively and feeds their inputs. -/
def Yields {A : Type} (known : List Nat) (drawing : Drawing A)
    (post : A → List LadderElement → Prop) : Prop :=
  ∀ nextLocalId, ∃ value elements,
    drawing nextLocalId = .ok ⟨value, elements, [], nextLocalId + elements.length⟩ ∧
      localIds elements = List.range' nextLocalId elements.length ∧ Wired known elements ∧
      post value elements

namespace Yields

variable {A B : Type} {known : List Nat} {post : A → List LadderElement → Prop}

theorem graph {drawing : Drawing A} (h : Yields [] drawing post) (nextLocalId : Nat) :
    ∃ value elements, drawing nextLocalId =
        .ok ⟨value, elements, [], nextLocalId + elements.length⟩ ∧
      IsGraph elements ∧ post value elements := by
  obtain ⟨value, elements, hrun, hids, hwired, hpost⟩ := h nextLocalId
  refine ⟨value, elements, hrun, ⟨hwired, ?_⟩, hpost⟩
  rw [hids]
  exact nodup_range'

theorem pure {value : A} (h : post value []) :
    Yields known (pure value : Drawing A) post :=
  fun _ => ⟨value, [], rfl, rfl, trivial, h⟩

theorem mono {drawing : Drawing A} {weak : A → List LadderElement → Prop}
    (h : Yields known drawing weak)
    (hpost : ∀ value elements, weak value elements → post value elements) :
    Yields known drawing post := by
  intro nextLocalId
  obtain ⟨value, elements, hrun, hids, hwired, hweak⟩ := h nextLocalId
  exact ⟨value, elements, hrun, hids, hwired, hpost value elements hweak⟩

theorem draw {element : Nat → LadderElement} (hid : ∀ localId, (element localId).localId = localId)
    (hinputs : ∀ localId, ∀ pin ∈ (element localId).inputs,
      pin ≠ [] ∧ ∀ connection ∈ pin, connection.refLocalId ∈ known) :
    Yields known (Drawing.draw element) (fun value elements => elements = [element value]) := by
  intro nextLocalId
  refine ⟨nextLocalId, [element nextLocalId], rfl, ?_, ⟨hinputs nextLocalId, trivial⟩, rfl⟩
  simp [hid]

theorem ofExcept {result : Except Raised A} {value : A} (h : result = .ok value) :
    Yields known (Drawing.ofExcept result) (fun found elements => found = value ∧ elements = []) := by
  intro nextLocalId
  refine ⟨value, [], ?_, rfl, trivial, rfl, rfl⟩
  rw [h]
  rfl

theorem bind {first : Drawing A} {next : A → Drawing B}
    {m : A → List LadderElement → Prop} {post : B → List LadderElement → Prop}
    (hfirst : Yields known first m) (hnext : ∀ value elements, m value elements →
      Yields (known ++ localIds elements) (next value)
        (fun result rest => post result (elements ++ rest))) :
    Yields known (first >>= next) post := by
  intro nextLocalId
  obtain ⟨value, elements, hrun, hids, hwired, hmiddle⟩ := hfirst nextLocalId
  obtain ⟨result, rest, hrest, hrestIds, hrestWired, hpost⟩ :=
    hnext value elements hmiddle (nextLocalId + elements.length)
  refine ⟨result, elements ++ rest, ?_, ?_, wired_append.mpr ⟨hwired, hrestWired⟩, hpost⟩
  · rw [Drawing.bind_run, hrun]
    simp only [hrest, append_nil, length_append, Nat.add_assoc]
  · rw [localIds_append, hids, hrestIds, length_append, List.range'_append_1]

end Yields

/-! ## Inputs -/

/-- Ids a chain may continue from: at least one, all of known elements. -/
structure Feeds (conditionIds known : List Nat) : Prop where
  nonempty : conditionIds ≠ []
  known : ∀ conditionId ∈ conditionIds, conditionId ∈ known

theorem Feeds.single {localId : Nat} {known : List Nat} (h : localId ∈ known) :
    Feeds [localId] known :=
  ⟨by simp, by simpa using h⟩

variable {conditionIds : List Nat}

theorem Feeds.append {known : List Nat} (h : Feeds conditionIds known)
    (more : List Nat) : Feeds conditionIds (known ++ more) :=
  ⟨h.nonempty, fun conditionId hmem => mem_append_left more (h.known conditionId hmem)⟩

theorem Feeds.wires {known : List Nat} (h : Feeds conditionIds known)
    (formalParameter : Option Text) :
    Plcopen.wires conditionIds formalParameter ≠ [] ∧
      ∀ connection ∈ Plcopen.wires conditionIds formalParameter,
        connection.refLocalId ∈ known := by
  constructor
  · simpa [Plcopen.wires] using h.nonempty
  · intro connection hmem
    obtain ⟨conditionId, hid, rfl⟩ := mem_map.mp hmem
    exact h.known conditionId hid

/-! ## Fragments of the instruction emitters

Each registered emitter, given a fed chain and the state the plan prepared for its
instruction, yields one fragment and leaves a chain that is fed.
-/

/-! ### Kinds of opcodes -/

variable {opcode : Opcode}

theorem Opcode.comparison_apart (h : opcode.isComparison = true) :
    opcode.isContact = false ∧ opcode.isCoil = false ∧ opcode ≠ .ONS := by
  revert h
  cases opcode <;> decide

theorem Opcode.valueBlock_apart (h : opcode.isValueBlock = true) :
    opcode.isContact = false ∧ opcode.isCoil = false ∧ opcode ≠ .TON ∧ opcode ≠ .RES := by
  revert h
  cases opcode <;> decide

theorem Opcode.contact_apart (h : opcode.isContact = true) :
    opcode.isComparison = false ∧ opcode ≠ .ONS := by
  revert h
  cases opcode <;> decide

theorem Opcode.condition_cases (h : opcode.isOutput = false) :
    opcode.isContact = true ∨ opcode = .ONS ∨ opcode.isComparison = true := by
  revert h
  cases opcode <;> decide

section

variable {db : CharacterDatabase} {plan : PLCopenOperandPlan} {known : List Nat}

/-! ### Single elements -/

theorem emitContact_yields {operand : Text} (h : Feeds conditionIds known) :
    Yields known (emitContact plan opcode operand conditionIds) (fun localId elements =>
      elements = [.contact localId (opcode == Opcode.XIO) (wires conditionIds none)
        (plan.portableOperand operand)]) := by
  apply Yields.draw
  · intro localId
    rfl
  · intro localId pin hpin
    cases mem_singleton.mp hpin
    exact h.wires none

theorem emitCoil_yields {operand : Text}
    {formalParameter : Option Text} (h : Feeds conditionIds known) :
    Yields known (emitCoil plan opcode operand conditionIds formalParameter)
      (fun localId elements => elements = [.coil localId (coilStorage opcode)
        (wires conditionIds formalParameter) (plan.portableOperand operand)]) := by
  apply Yields.draw
  · intro localId
    rfl
  · intro localId pin hpin
    cases mem_singleton.mp hpin
    exact h.wires formalParameter

theorem drawSource_yields {element : Nat → LadderElement}
    (hid : ∀ localId, (element localId).localId = localId)
    (hinputs : ∀ localId, (element localId).inputs = []) :
    Yields known (Drawing.draw element) (fun localId elements => elements = [element localId]) := by
  apply Yields.draw hid
  intro localId pin hpin
  rw [hinputs localId] at hpin
  cases hpin

variable {inputs : List (Text × List Connection)} {outputs : List (Text × Option Text)}
  {callType : Option Text}

theorem drawBlock_yields {typeName : Text} {instanceName : Option Text}
    (h : ∀ entry ∈ inputs, ∃ ids formalParameter, Feeds ids known ∧
      entry.2 = wires ids formalParameter) :
    Yields known (Drawing.draw (fun localId =>
        .block localId typeName instanceName inputs outputs callType))
      (fun localId elements =>
        elements = [.block localId typeName instanceName inputs outputs callType]) := by
  apply Yields.draw
  · intro localId
    rfl
  · intro localId pin hpin
    obtain ⟨entry, hentry, rfl⟩ := mem_map.mp hpin
    obtain ⟨ids, formalParameter, hfeeds, heq⟩ := h entry hentry
    rw [heq]
    exact hfeeds.wires formalParameter

def IsInVariable (element : LadderElement) : Prop :=
  ∃ localId expression, element = .inVariable localId expression

theorem emitInVariables_yields (expressions : List Text) :
    Yields known (emitInVariables expressions) (fun ids elements =>
      ids = localIds elements ∧ ∀ element ∈ elements, IsInVariable element) := by
  induction expressions generalizing known with
  | nil => exact Yields.pure ⟨rfl, by simp⟩
  | cons expression expressions ih =>
    refine Yields.bind (drawSource_yields (fun _ => rfl) (fun _ => rfl)) ?_
    rintro localId elements rfl
    refine Yields.bind ih ?_
    rintro ids elements ⟨rfl, hvariables⟩
    refine Yields.pure ⟨by simp [LadderElement.localId], ?_⟩
    intro element helement
    simp only [append_nil, singleton_append, mem_cons] at helement
    rcases helement with rfl | helement
    · exact ⟨localId, expression, rfl⟩
    · exact hvariables element helement

variable {instruction : Instruction}

theorem countP_inVariables {elements : List LadderElement}
    (h : ∀ element ∈ elements, IsInVariable element) :
    elements.countP (realizes db plan instruction) = 0 := by
  rw [countP_eq_zero]
  intro element helement
  obtain ⟨localId, expression, rfl⟩ := h element helement
  simp [realizes]

theorem realizes_comparison {localId : Nat}
    (h : instruction.opcode.isComparison = true) :
    realizes db plan instruction (.block localId (comparisonType instruction.opcode) none inputs
      outputs callType) = true := by
  obtain ⟨opcode, operand⟩ := instruction
  cases opcode <;> simp_all [realizes, Opcode.isComparison]

theorem realizes_valueBlock {localId : Nat}
    (h : instruction.opcode.isValueBlock = true) :
    realizes db plan instruction (.block localId (valueBlockType instruction.opcode) none inputs
      outputs callType) = true := by
  obtain ⟨opcode, operand⟩ := instruction
  cases opcode <;> simp_all [realizes, Opcode.isValueBlock]

theorem feeds_sources {sourceIds : List Nat} {formalParameter : Option Text}
    (hconditions : Feeds conditionIds known) (hsources : ∀ localId ∈ sourceIds, localId ∈ known) :
    ∀ entry ∈ (("EN" : Text), wires conditionIds formalParameter) ::
        sourceIds.map (fun sourceId => (([] : Text), wires [sourceId] none)),
      ∃ ids parameter, Feeds ids known ∧ entry.2 = wires ids parameter := by
  intro entry hentry
  rcases mem_cons.mp hentry with rfl | hentry
  · exact ⟨conditionIds, formalParameter, hconditions, rfl⟩
  · obtain ⟨sourceId, hsource, rfl⟩ := mem_map.mp hentry
    exact ⟨[sourceId], none, Feeds.single (hsources sourceId hsource), rfl⟩

/-! ### Conditions -/

/-- One fragment of the condition, whose end is one of its elements. -/
def EndsFragment (db : CharacterDatabase) (plan : PLCopenOperandPlan) (condition : Instruction)
    (localId : Nat) (elements : List LadderElement) : Prop :=
  Fragment db plan condition elements ∧ localId ∈ localIds elements

variable {codesys : Bool} {condition : Instruction}

theorem emitCondition_contact {auxiliary : Auxiliary} (h : Feeds conditionIds known)
    (hcontact : condition.opcode.isContact = true) :
    Yields known (emitCondition db codesys plan condition conditionIds auxiliary)
      (EndsFragment db plan condition) := by
  unfold emitCondition
  rw [if_pos hcontact]
  refine (emitContact_yields h).mono ?_
  rintro localId elements rfl
  refine ⟨⟨?_, fun _ => rfl⟩, by simp [LadderElement.localId]⟩
  simp [realizes, hcontact]

theorem emitCondition_oneshot {state : PLCopenOneShotExport} (h : Feeds conditionIds known)
    (hopcode : condition.opcode = .ONS) :
    Yields known (emitCondition db codesys plan condition conditionIds (.oneshot state))
      (EndsFragment db plan condition) := by
  obtain ⟨opcode, operand⟩ := condition
  cases hopcode
  have hcontact : Opcode.ONS.isContact = false := rfl
  have hcoil : Opcode.ONS.isCoil = false := rfl
  unfold emitCondition
  simp only [hcontact, Bool.false_eq_true, if_false, if_true]
  unfold emitOneShotBlock
  refine Yields.bind (emitCoil_yields h) ?_
  rintro coilId elements rfl
  refine Yields.bind (drawSource_yields (fun _ => rfl) (fun _ => rfl)) ?_
  rintro rightId elements rfl
  refine Yields.bind (drawSource_yields (fun _ => rfl) (fun _ => rfl)) ?_
  rintro railId elements rfl
  refine Yields.bind (drawSource_yields (fun _ => rfl) (fun _ => rfl)) ?_
  rintro inputId elements rfl
  refine Yields.bind (drawBlock_yields ?_) ?_
  · simp only [mem_cons, not_mem_nil, or_false, forall_eq_or_imp, forall_eq]
    exact ⟨⟨[railId], none, Feeds.single (by simp [LadderElement.localId]), rfl⟩,
      ⟨[inputId], none, Feeds.single (by simp [LadderElement.localId]), rfl⟩⟩
  rintro blockId elements rfl
  refine Yields.bind (emitCoil_yields (Feeds.single (by simp [LadderElement.localId]))) ?_
  rintro executedId elements rfl
  refine Yields.bind (drawSource_yields (fun _ => rfl) (fun _ => rfl)) ?_
  rintro triggerRightId elements rfl
  refine Yields.bind (drawSource_yields (fun _ => rfl) (fun _ => rfl)) ?_
  rintro continuationId elements rfl
  refine (emitContact_yields (Feeds.single (by simp [LadderElement.localId]))).mono ?_
  rintro localId elements rfl
  refine ⟨⟨?_, ?_⟩, by simp [LadderElement.localId]⟩
  · simp [realizes, hcontact, hcoil]
  · simp [hcontact, hcoil]

theorem emitCondition_comparison
    {name : Text} {converted : List Text} (h : Feeds conditionIds known)
    (hcomparison : condition.opcode.isComparison = true)
    (hlength : (splitArguments db condition.operand).length = 2)
    (hconverted : comparisonOperands db plan (splitArguments db condition.operand) =
      .ok converted) :
    Yields known (emitCondition db codesys plan condition conditionIds (.resultVariable name))
      (EndsFragment db plan condition) := by
  obtain ⟨hcontact, hcoil, honeshot⟩ := Opcode.comparison_apart hcomparison
  unfold emitCondition
  simp only [hcontact, Bool.false_eq_true, if_false, honeshot, hcomparison, if_true]
  unfold emitComparison
  simp only [hlength, ne_eq, not_true_eq_false, if_false]
  refine Yields.bind (Yields.ofExcept hconverted) ?_
  rintro found elements ⟨rfl, rfl⟩
  refine Yields.bind (emitInVariables_yields _) ?_
  rintro inputIds sources ⟨rfl, hsources⟩
  refine Yields.bind (drawBlock_yields (feeds_sources ?_ ?_)) ?_
  · exact (h.append _).append _
  · intro localId hid
    exact mem_append_right _ hid
  rintro blockId elements rfl
  refine (emitContact_yields (((h.append _).append _).append _)).mono ?_
  rintro localId elements rfl
  refine ⟨⟨?_, ?_⟩, by simp [LadderElement.localId]⟩
  · simp [countP_cons, countP_inVariables hsources, realizes_comparison hcomparison]
    simp [realizes, hcontact]
  · simp [hcontact, hcoil]

/-! ### Outputs -/

/-- One fragment of the output, behind which the chain is fed. -/
def ContinuesFragment (db : CharacterDatabase) (plan : PLCopenOperandPlan) (output : Instruction)
    (known : List Nat) (chain : List Nat × Bool) (elements : List LadderElement) : Prop :=
  Fragment db plan output elements ∧ Feeds chain.1 (known ++ localIds elements)

variable {output : Instruction} {executionIds : List Nat} {inputFromBlock : Bool}

theorem emitOutput_coil (h : Feeds executionIds known) (hcoil : output.opcode.isCoil = true) :
    Yields known (emitOutput db codesys plan output executionIds inputFromBlock)
      (ContinuesFragment db plan output known) := by
  unfold emitOutput
  rw [if_pos hcoil]
  refine Yields.bind (emitCoil_yields h) ?_
  rintro localId elements rfl
  refine Yields.pure ⟨⟨?_, fun _ => rfl⟩, h.append _⟩
  simp [realizes, hcoil]

theorem emitOutput_timer {timerName : Text} (h : Feeds executionIds known)
    (hopcode : output.opcode = .TON)
    (hname : (splitArguments db output.operand).head? = some timerName)
    (htimer : (plan.timers.lookup timerName).isSome) :
    Yields known (emitOutput db codesys plan output executionIds inputFromBlock)
      (ContinuesFragment db plan output known) := by
  obtain ⟨opcode, operand⟩ := output
  cases hopcode
  have hcontact : Opcode.TON.isContact = false := rfl
  have hcoil : Opcode.TON.isCoil = false := rfl
  obtain ⟨timer, htimer⟩ := Option.isSome_iff_exists.mp htimer
  unfold emitOutput
  simp only [hcoil, Bool.false_eq_true, if_false, if_true]
  unfold emitTimerBlock
  simp only [hname, htimer]
  refine Yields.bind (m := fun _ elements => Fragment db plan ⟨.TON, operand⟩ elements) ?_ ?_
  · refine Yields.bind (emitCoil_yields h) ?_
    rintro coilId elements rfl
    refine Yields.bind (drawSource_yields (fun _ => rfl) (fun _ => rfl)) ?_
    rintro rightId elements rfl
    refine Yields.bind (drawSource_yields (fun _ => rfl) (fun _ => rfl)) ?_
    rintro railId elements rfl
    refine Yields.bind (drawSource_yields (fun _ => rfl) (fun _ => rfl)) ?_
    rintro inputId elements rfl
    refine Yields.bind (drawSource_yields (fun _ => rfl) (fun _ => rfl)) ?_
    rintro presetId elements rfl
    refine Yields.bind (drawBlock_yields ?_) ?_
    · simp only [mem_cons, not_mem_nil, or_false, forall_eq_or_imp, forall_eq]
      exact ⟨⟨[railId], none, Feeds.single (by simp [LadderElement.localId]), rfl⟩,
        ⟨[inputId], none, Feeds.single (by simp [LadderElement.localId]), rfl⟩,
        ⟨[presetId], none, Feeds.single (by simp [LadderElement.localId]), rfl⟩⟩
    rintro blockId elements rfl
    refine (emitCoil_yields (Feeds.single (by simp [LadderElement.localId]))).mono ?_
    rintro localId elements rfl
    refine ⟨?_, ?_⟩
    · simp [realizes, hcoil, hname]
    · simp [hcontact, hcoil]
  · intro localId elements hfragment
    refine Yields.pure ?_
    rw [append_nil]
    exact ⟨hfragment, h.append _⟩

theorem emitOutput_reset (h : Feeds executionIds known) (hopcode : output.opcode = .RES)
    (htimer : (plan.timers.lookup output.operand).isSome) :
    Yields known (emitOutput db codesys plan output executionIds inputFromBlock)
      (ContinuesFragment db plan output known) := by
  obtain ⟨opcode, operand⟩ := output
  cases hopcode
  have hcontact : Opcode.RES.isContact = false := rfl
  have hcoil : Opcode.RES.isCoil = false := rfl
  obtain ⟨timer, htimer⟩ := Option.isSome_iff_exists.mp htimer
  unfold emitOutput
  simp only [hcoil, Bool.false_eq_true, if_false, if_true, reduceCtorEq]
  unfold emitTimerResetBlock
  simp only at htimer
  simp only [htimer]
  refine Yields.bind (m := fun localId elements =>
    Fragment db plan ⟨.RES, operand⟩ elements ∧ localId ∈ localIds elements) ?_ ?_
  · refine Yields.bind (drawSource_yields (fun _ => rfl) (fun _ => rfl)) ?_
    rintro inputId elements rfl
    refine Yields.bind (drawSource_yields (fun _ => rfl) (fun _ => rfl)) ?_
    rintro presetId elements rfl
    refine (drawBlock_yields ?_).mono ?_
    · simp only [mem_cons, not_mem_nil, or_false, forall_eq_or_imp, forall_eq]
      exact ⟨⟨executionIds, enableOutput inputFromBlock, (h.append _).append _, rfl⟩,
        ⟨[inputId], none, Feeds.single (by simp [LadderElement.localId]), rfl⟩,
        ⟨[presetId], none, Feeds.single (by simp [LadderElement.localId]), rfl⟩⟩
    · rintro localId elements rfl
      refine ⟨⟨?_, ?_⟩, by simp [LadderElement.localId]⟩
      · simp [realizes]
      · simp [hcontact, hcoil]
  · rintro localId elements ⟨hfragment, hmem⟩
    refine Yields.pure ?_
    rw [append_nil]
    exact ⟨hfragment, Feeds.single (mem_append_right _ hmem)⟩

theorem emitOutput_value (h : Feeds executionIds known) (hvalue : output.opcode.isValueBlock = true)
    (harguments : splitArguments db output.operand ≠ []) :
    Yields known (emitOutput db codesys plan output executionIds inputFromBlock)
      (ContinuesFragment db plan output known) := by
  obtain ⟨hcontact, hcoil, hton, hres⟩ := Opcode.valueBlock_apart hvalue
  obtain ⟨destination, hdestination⟩ := Option.isSome_iff_exists.mp
    (List.getLast?_isSome.mpr harguments)
  unfold emitOutput
  simp only [hcoil, Bool.false_eq_true, if_false, hton, hres, hvalue, if_true]
  unfold emitValueBlock
  simp only [hdestination]
  refine Yields.bind (m := fun localId elements =>
    Fragment db plan output elements ∧ localId ∈ localIds elements) ?_ ?_
  · refine Yields.bind (emitInVariables_yields _) ?_
    rintro sourceIds sources ⟨rfl, hsources⟩
    refine (drawBlock_yields (feeds_sources (h.append _) ?_)).mono ?_
    · intro localId hid
      exact mem_append_right _ hid
    rintro localId elements rfl
    refine ⟨⟨?_, ?_⟩, by simp [LadderElement.localId]⟩
    · simp [countP_inVariables hsources, realizes_valueBlock hvalue]
    · simp [hcontact, hcoil]
  · rintro localId elements ⟨hfragment, hmem⟩
    refine Yields.pure ?_
    rw [append_nil]
    exact ⟨hfragment, Feeds.single (mem_append_right _ hmem)⟩

end

end TwinForge.Plcopen
