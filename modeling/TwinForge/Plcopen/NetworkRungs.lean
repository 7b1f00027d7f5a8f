import TwinForge.Plcopen.NetworkPreservation

/-! # Rungs of ladder networks

A supported network whose expressions are planned is emitted, and every flow of its graph
gives each coil and each block pin the power that the tree gives it.
-/

namespace TwinForge.Plcopen

open Model Sketching List

/-! ## The finished graph -/

section

variable {plan : NetworkPlan} {sketch : NetworkSketch} {reading : SymbolReading}
  {flow : Connection → Bool}

@[simp] theorem wired_localId (element : NetworkElement) :
    (sketch.wired element).localId = element.localId := by
  cases element <;> rfl

@[simp] theorem wired_power (element : NetworkElement) (output : Connection) :
    (sketch.wired element).power reading flow output = element.power reading flow output := by
  cases element <;> rfl

theorem graph_solves : Solves reading flow sketch.graph ↔ Solves reading flow sketch.elements := by
  simp [Solves, NetworkSketch.graph]

theorem graph_coils : coilDrives flow sketch.graph = coilDrives flow sketch.elements := by
  rw [NetworkSketch.graph, coilDrives, coilDrives, filterMap_map]
  congr 1
  funext element
  cases element <;> rfl

theorem constants_unpowered {elements : List NetworkElement} {sources : List Connection}
    (hsolves : Solves reading flow elements)
    (h : ∀ source ∈ sources, ∃ text, .inVariable source.refLocalId text ∈ elements) :
    sources.any flow = false := by
  rw [any_eq_false]
  intro source hsource
  have ⟨text, hmember⟩ := h source hsource
  have hpower := hsolves _ hmember source rfl
  simpa [NetworkElement.power] using hpower

theorem graph_pins (hdrawn : WellDrawn plan sketch) (hsolves : Solves reading flow sketch.elements)
    (instanceName parameter : Text) :
    pinDriven flow sketch.graph instanceName parameter =
      sketch.pinPower plan flow instanceName parameter := by
  rw [Bool.eq_iff_iff, pinDriven, NetworkSketch.pinPower, NetworkSketch.graph, any_map,
    any_eq_true, any_eq_true]
  constructor
  · rintro ⟨element, helement, hdriven⟩
    cases element with
    | functionBlock localId source declared typeName inputs inOuts outputs =>
      have hdeclared := hdrawn.named _ helement localId source declared typeName inputs inOuts
        outputs rfl
      simp only [Function.comp_apply, NetworkSketch.wired, any_map, Bool.and_eq_true,
        beq_iff_eq, any_eq_true] at hdriven
      have ⟨hname, ⟨pin, constant⟩, hinput, hpin, connection, hconnection, hpower⟩ := hdriven
      rw [mem_append] at hconnection
      rcases hconnection with hconstant | hwire
      · have hunpowered := constants_unpowered hsolves
          (hdrawn.constants _ helement (pin, constant) hinput)
        rw [any_eq_false] at hunpowered
        exact absurd hpower (hunpowered connection hconstant)
      · simp only [NetworkSketch.wiresOf, mem_map, mem_filter, Bool.and_eq_true,
          beq_iff_eq] at hwire
        obtain ⟨written, ⟨hwritten, hinstance, hparameter⟩, hsource⟩ := hwire
        refine ⟨written, hwritten, ?_⟩
        simp only [Bool.and_eq_true, beq_iff_eq]
        refine ⟨⟨?_, hparameter.trans hpin⟩, hsource ▸ hpower⟩
        rw [hinstance, ← hdeclared, hname]
    | _ => cases hdriven
  · rintro ⟨written, hwritten, hpower⟩
    simp only [Bool.and_eq_true, beq_iff_eq] at hpower
    have ⟨block, hblock, interface, _, hof, hinput⟩ := hdrawn.wires written hwritten
    refine ⟨block, hblock, ?_⟩
    cases block with
    | functionBlock localId source declared typeName inputs inOuts outputs =>
      have ⟨hsource, hdeclared, hpins⟩ := hof
      rw [← hpins, mem_map] at hinput
      have ⟨input, hmember, hpin⟩ := hinput
      simp only [Function.comp_apply, NetworkSketch.wired, any_map, Bool.and_eq_true,
        beq_iff_eq, any_eq_true]
      refine ⟨by rw [hdeclared, hpower.1.1], input, hmember, hpin.trans hpower.1.2,
        written.source, mem_append_right _ ?_, hpower.2⟩
      simp only [NetworkSketch.wiresOf, mem_map, mem_filter, Bool.and_eq_true,
        beq_iff_eq]
      exact ⟨written, ⟨hwritten, hsource.symm, hpin.symm⟩, rfl⟩
    | _ => cases hof

end

/-! ## A rung between its rails -/

section

variable {plan : NetworkPlan}

theorem start_wellDrawn (nextLocalId : Nat) : WellDrawn plan { nextLocalId } := by
  constructor
  case distinct => exact nodup_nil
  case fed => exact trivial
  all_goals
    intros
    contradiction

theorem drawComment_carries (comment : Text) (current : List Connection) :
    Carries plan (fun _ => current) (drawComment comment) current passesPower := by
  unfold drawComment
  split
  · exact .pure rfl
  · refine .of_eq (.bind (draw_carries _ (fun _ => current) passesPower (fun _ => rfl)
      (fun _ => rfl) ?_ (fun _ _ h => .inr h) ?_) fun localId => .pure rfl) fun _ _ => rfl
    · intro localId source hsource
      cases hsource
    · exact fun localId reading flow _ => ⟨rfl, rfl, fun _ _ => rfl⟩

theorem leftRail_carries : Carries plan (fun railId => [⟨railId, none⟩]) (draw .leftPowerRail) []
    (fun _ _ => (true, [])) := by
  refine draw_carries _ _ _ (fun _ => rfl) (fun _ => rfl) ?_ ?_ ?_
  · intro localId source hsource
    cases hsource
  · intro localId source hsource
    rw [mem_singleton] at hsource
    exact .inl (hsource ▸ rfl)
  · intro localId reading flow hsolves
    have hpower := hsolves _ mem_cons_self ⟨localId, none⟩ rfl
    exact ⟨by simpa [NetworkElement.power] using hpower, rfl, fun _ _ => rfl⟩

theorem rightRail_carries (current : List Connection) :
    Carries plan (fun _ => []) (draw .rightPowerRail) current (fun _ _ => (false, [])) := by
  refine draw_carries _ _ _ (fun _ => rfl) (fun _ => rfl) ?_ ?_ ?_
  · intro localId source hsource
    cases hsource
  · intro localId source hsource
    cases hsource
  · exact fun localId reading flow _ => ⟨rfl, rfl, fun _ _ => rfl⟩

theorem networkRung_carries (comment : Text) (network : LadderSeries) :
    Carries plan (fun _ => []) (networkRung plan comment network) [] (fun reading _ =>
      (false, networkDrives .ends (plan.reads reading) network)) := by
  refine .of_eq (.bind leftRail_carries fun railId => .bind (drawComment_carries comment _) fun _ =>
    .bind (emitSeries_carries plan network [⟨railId, none⟩]) fun ends =>
      .bind (rightRail_carries _) fun rightId => .pure rfl) fun reading power => ?_
  simp [andThen, passesPower, networkDrives]

/-! ## Emission goes through -/

/-- From every sketch the action goes through. -/
def Succeeds {A : Type} (action : Sketching A) : Prop :=
  ∀ sketch, ∃ value later, action sketch = .ok (value, later)

theorem Succeeds.pure {A : Type} (value : A) : Succeeds (pure value : Sketching A) :=
  fun sketch => ⟨value, sketch, rfl⟩

theorem Succeeds.bind {A B : Type} {first : Sketching A} {next : A → Sketching B}
    (hfirst : Succeeds first) (hnext : ∀ value, Succeeds (next value)) :
    Succeeds (first >>= next) := by
  intro sketch
  have ⟨value, middle, hmiddle⟩ := hfirst sketch
  have ⟨result, later, hlater⟩ := hnext value middle
  refine ⟨result, later, ?_⟩
  show (first sketch).bind _ = _
  rw [hmiddle]
  exact hlater

theorem Succeeds.draw (element : Nat → NetworkElement) : Succeeds (draw element) :=
  fun _ => ⟨_, _, rfl⟩

theorem Succeeds.entry {A : Type} {found : Option A} (h : found.isSome = true) :
    Succeeds (entry found) := by
  have ⟨value, hvalue⟩ := Option.isSome_iff_exists.mp h
  subst hvalue
  exact fun sketch => ⟨value, sketch, rfl⟩

theorem drawInVariables_succeeds (expressions : List Text) :
    Succeeds (drawInVariables expressions) :=
  fun sketch => ⟨_, _, drawInVariables_run expressions sketch⟩

theorem functionCall_succeeds (typeName : Text) (inputs : List Text) (destination : Text)
    (chain : List Connection) : Succeeds (functionCall typeName inputs destination chain) :=
  (drawInVariables_succeeds inputs).bind fun _ => (Succeeds.draw _).bind fun _ => .pure _

theorem drawContact_succeeds (negated : Bool) (edge : Option Edge) (operand : Text)
    (sources : List Connection) : Succeeds (drawContact plan negated edge operand sources) :=
  (Succeeds.draw _).bind fun _ => .pure _

theorem drawCoil_succeeds (negated : Bool) (storage : Option Storage) (operand : Text)
    (sources : List Connection) : Succeeds (drawCoil plan negated storage operand sources) :=
  (Succeeds.draw _).bind fun _ => .pure _

end

namespace NetworkPlan

variable (plan : NetworkPlan)

/-- The shift has its bit string and the temporaries of its two intermediate values. -/
def plansShift (identity : Nat) (dataType : DataType) : Bool :=
  (bitStringType dataType).isSome && (plan.expressionBitTemps.lookup identity).isSome

/-- Every computed node has its function and its temporaries. -/
def plansValue : Expression → Bool
  | .binary identity _ operator left right =>
    (plan.expressionTemps.lookup identity).isSome && (networkFunction operator).isSome &&
      plansValue left && plansValue right
  | .call identity dataType _ left _ =>
    (plan.expressionTemps.lookup identity).isSome && plan.plansShift identity dataType &&
      plansValue left
  | _ => true

/-- The value of an assignment needs no temporary for its own result. -/
def plansAssigned : Expression → Bool
  | .binary _ _ operator left right =>
    (networkFunction operator).isSome && plan.plansValue left && plan.plansValue right
  | .call identity dataType _ left _ => plan.plansShift identity dataType && plan.plansValue left
  | _ => true

/-- A comparison or an assignment whose nodes have what they need. -/
def plansExpression : Expression → Bool
  | .binary identity dataType operator left right =>
    if operator = .assign then plan.plansAssigned right
    else plan.plansValue (.binary identity dataType operator left right)
  | _ => false

/-- The expressions of the network are planned. -/
def Covers (network : LadderSeries) : Prop :=
  ∀ instruction ∈ instructions network, ∀ expression ∈ instruction.expression,
    plan.plansExpression expression = true

end NetworkPlan

section

variable {plan : NetworkPlan}

theorem shiftCalls_succeeds {identity : Nat} {dataType : DataType}
    (h : plan.plansShift identity dataType = true) (operator : ShiftFunction)
    (value count destination : Text) (chain : List Connection) :
    Succeeds (shiftCalls plan identity dataType operator value count destination chain) := by
  rw [NetworkPlan.plansShift, Bool.and_eq_true] at h
  exact (Succeeds.entry h.1).bind fun bits => (Succeeds.entry h.2).bind fun (converted, shifted) =>
    (functionCall_succeeds _ _ _ _).bind fun _ => (functionCall_succeeds _ _ _ _).bind fun _ =>
      functionCall_succeeds _ _ _ _

theorem expressionValue_succeeds {node : Expression} (h : plan.plansValue node = true)
    (chain : List Connection) : Succeeds (expressionValue plan node chain) := by
  induction node generalizing chain with
  | literal dataType text => exact .pure _
  | variable_ dataType text => exact .pure _
  | binary identity dataType operator left right ihl ihr =>
    simp only [NetworkPlan.plansValue, Bool.and_eq_true] at h
    exact (ihl h.1.2 chain).bind fun (first, chain) => (ihr h.2 chain).bind fun (second, chain) =>
      (Succeeds.entry h.1.1.1).bind fun result => (Succeeds.entry h.1.1.2).bind fun function =>
        (functionCall_succeeds _ _ _ _).bind fun _ => .pure _
  | call identity dataType operator left right ihl ihr =>
    simp only [NetworkPlan.plansValue, Bool.and_eq_true] at h
    exact (Succeeds.entry h.1.1).bind fun result => (ihl h.2 chain).bind fun (value, chain) =>
      (shiftCalls_succeeds h.1.2 _ _ _ _ _).bind fun _ => .pure _

theorem assignValue_succeeds {node : Expression} (h : plan.plansAssigned node = true)
    (target : Text) (chain : List Connection) : Succeeds (assignValue plan target chain node) := by
  cases node with
  | literal dataType text => exact (functionCall_succeeds _ _ _ _).bind fun _ => .pure _
  | variable_ dataType text => exact (functionCall_succeeds _ _ _ _).bind fun _ => .pure _
  | binary identity dataType operator left right =>
    simp only [NetworkPlan.plansAssigned, Bool.and_eq_true] at h
    exact (expressionValue_succeeds h.1.2 chain).bind fun (first, chain) =>
      (expressionValue_succeeds h.2 chain).bind fun (second, chain) =>
        (Succeeds.entry h.1.1).bind fun function =>
          (functionCall_succeeds _ _ _ _).bind fun _ => .pure _
  | call identity dataType operator left right =>
    simp only [NetworkPlan.plansAssigned, Bool.and_eq_true] at h
    exact (expressionValue_succeeds h.2 chain).bind fun (value, chain) =>
      (shiftCalls_succeeds h.1 _ _ _ _ _).bind fun _ => .pure _

theorem emitExpression_succeeds {expression : Expression}
    (h : plan.plansExpression expression = true) (chain : List Connection) :
    Succeeds (emitExpression plan expression chain) := by
  cases expression with
  | binary identity dataType operator left right =>
    by_cases hassign : operator = .assign
    · have hemit : emitExpression plan (.binary identity dataType operator left right) chain =
          assignValue plan (plan.portableOperand left.text) chain right := if_pos hassign
      rw [NetworkPlan.plansExpression, if_pos hassign] at h
      rw [hemit]
      exact assignValue_succeeds h _ chain
    · have hemit : emitExpression plan (.binary identity dataType operator left right) chain =
          compareValues plan identity operator left right chain := if_neg hassign
      rw [NetworkPlan.plansExpression, if_neg hassign] at h
      simp only [NetworkPlan.plansValue, Bool.and_eq_true] at h
      rw [hemit]
      exact (expressionValue_succeeds h.1.2 chain).bind fun (first, chain) =>
        (expressionValue_succeeds h.2 chain).bind fun (second, chain) =>
          (Succeeds.entry h.1.1.1).bind fun result => (Succeeds.entry h.1.1.2).bind fun function =>
            (functionCall_succeeds _ _ _ _).bind fun _ => drawContact_succeeds _ _ _ _
  | _ => cases h

theorem networkBlock_succeeds {name : Text} {interface : BlockInterface}
    (h : plan.functionBlockInstances.lookup name = some interface) :
    Succeeds (networkBlock plan name) := by
  intro sketch
  unfold networkBlock
  cases hlookup : sketch.blocks.lookup name with
  | some blockId => exact ⟨blockId, sketch, rfl⟩
  | none =>
    have hrecord : ∀ blockId, Succeeds (recordBlock name blockId) := fun _ _ => ⟨_, _, rfl⟩
    have hfound : (plan.functionBlockInstances.lookup name).isSome = true := by simp [h]
    have hnew := (Succeeds.entry hfound).bind fun found =>
      (drawInVariables_succeeds (found.constants.map Prod.snd)).bind fun constantIds =>
        (Succeeds.draw fun localId => .functionBlock localId name (plan.instanceName name)
          found.typeName (constantInputs found constantIds) (boundInOuts found localId)
          found.outputs).bind fun blockId =>
            (drawInVariables_succeeds
              (found.inOuts.map fun bound => plan.portableOperand bound.2)).bind fun _ =>
                (hrecord blockId).bind fun _ => Succeeds.pure blockId
    exact hnew sketch

theorem Succeeds.pinned {A : Type} {operand : Text} {interface : BlockInterface}
    (hlookup : plan.functionBlockInstances.lookup (partitionPin operand).1 = some interface)
    {next : Text × BlockInterface × Text → Sketching A}
    (h : Succeeds (next ((partitionPin operand).1, interface,
      interface.parameter (partitionPin operand).2))) :
    Succeeds (pinParameter plan operand >>= next) := by
  intro sketch
  have ⟨value, later, hrun⟩ := h sketch
  have hpin : pinParameter plan operand sketch =
      .ok (((partitionPin operand).1, interface, interface.parameter (partitionPin operand).2),
        sketch) := by
    change (Sketching.entry (plan.functionBlockInstances.lookup (partitionPin operand).1) >>=
      fun interface => Pure.pure ((partitionPin operand).1, interface,
        interface.parameter (partitionPin operand).2)) sketch = _
    rw [hlookup]
    rfl
  refine ⟨value, later, ?_⟩
  show (pinParameter plan operand sketch).bind _ = _
  rw [hpin]
  exact hrun

variable {db : CharacterDatabase} {instruction : LadderInstruction}

theorem instructionReason_pin (h : instructionReason db plan.functionBlockInstances instruction = none)
    (hpin : instruction.operation = .FUNCTION_BLOCK_INPUT ∨
      instruction.operation = .BLOCK_OUTPUT_REFERENCE) :
    ∃ interface, plan.functionBlockInstances.lookup
        (partitionPin (instruction.operand.getD [])).1 = some interface ∧
      interface.parameter (partitionPin (instruction.operand.getD [])).2 ∈
        usablePins interface instruction.operation := by
  have hexpression : instruction.operation.isExpression = false := by
    rcases hpin with hpin | hpin <;> rw [hpin] <;> rfl
  have hmember : instruction.operation ∈
      [LadderOperation.FUNCTION_BLOCK_INPUT, .BLOCK_OUTPUT_REFERENCE] := by
    simpa using hpin
  unfold instructionReason at h
  rw [hexpression] at h
  simp only [Bool.false_eq_true, if_false] at h
  split at h
  · cases h
  · rename_i operand hoperand
    rw [if_pos hmember] at h
    simp only [blockPinReason] at h
    split at h
    · cases h
    · rename_i interface hlookup
      split at h
      · rename_i husable
        exact ⟨interface, hlookup, husable⟩
      · cases h

theorem instructionReason_element
    (h : instructionReason db plan.functionBlockInstances instruction = none)
    (hexpression : instruction.expression = none)
    (hinput : instruction.operation ≠ .FUNCTION_BLOCK_INPUT)
    (hreference : instruction.operation ≠ .BLOCK_OUTPUT_REFERENCE) :
    ∃ found, encoding instruction.operation = some found := by
  have hmember : instruction.operation ∉
      [LadderOperation.FUNCTION_BLOCK_INPUT, .BLOCK_OUTPUT_REFERENCE] := by
    simp [hinput, hreference]
  unfold instructionReason at h
  split at h
  · simp [hexpression] at h
  · split at h
    · cases h
    · unfold elementReason at h
      split at h
      · cases h
      · next hencoding => exact Option.ne_none_iff_exists'.mp hencoding

theorem emitInstruction_succeeds
    (h : instructionReason db plan.functionBlockInstances instruction = none)
    (hplans : ∀ expression ∈ instruction.expression, plan.plansExpression expression = true)
    (current : List Connection) : Succeeds (emitInstruction plan instruction current) := by
  cases hexpression : instruction.expression with
  | some expression =>
    simp only [emitInstruction, hexpression]
    exact emitExpression_succeeds (hplans expression hexpression) current
  | none =>
    by_cases hinput : instruction.operation = .FUNCTION_BLOCK_INPUT
    · rcases instructionReason_pin h (.inl hinput) with ⟨interface, hlookup, husable⟩
      have hwired : interface.parameter (partitionPin (instruction.operand.getD [])).2 ∈
          interface.inputs := by
        rw [usablePins, if_pos hinput] at husable
        exact mem_of_mem_filter husable
      have hconnect : ∀ pins, Succeeds (connect pins) := fun _ _ => ⟨_, _, rfl⟩
      simp only [emitInstruction, hexpression, hinput, if_true]
      refine (networkBlock_succeeds hlookup).bind fun blockId => .pinned hlookup ?_
      rw [if_pos (.inl hwired)]
      exact (hconnect _).bind fun _ => .pure []
    by_cases hreference : instruction.operation = .BLOCK_OUTPUT_REFERENCE
    · rcases instructionReason_pin h (.inr hreference) with ⟨interface, hlookup, _⟩
      have hother : LadderOperation.BLOCK_OUTPUT_REFERENCE ≠ .FUNCTION_BLOCK_INPUT := by decide
      simp only [emitInstruction, hexpression, hreference, if_neg hother, if_true]
      exact (networkBlock_succeeds hlookup).bind fun blockId => .pinned hlookup (.pure _)
    rcases instructionReason_element h hexpression hinput hreference with ⟨found, hencoding⟩
    cases hkind : found.element with
    | contact =>
      simp only [emitInstruction, hexpression, hinput, hreference, hencoding, hkind, if_false]
      exact drawContact_succeeds _ _ _ _
    | coil =>
      simp only [emitInstruction, hexpression, hinput, hreference, hencoding, hkind, if_false]
      exact drawCoil_succeeds _ _ _ _

end

section

variable {plan : NetworkPlan}

mutual

theorem emitSeries_succeeds : ∀ (series : LadderSeries) (current : List Connection),
    (∀ instruction ∈ instructions series, ∀ sources,
      Succeeds (emitInstruction plan instruction sources)) →
        Succeeds (emitSeries plan series current)
  | [], current, _ => .pure current
  | node :: rest, current, h =>
    (emitNode_succeeds node current fun instruction hmem =>
      h instruction (mem_append_left _ hmem)).bind fun sources =>
        emitSeries_succeeds rest sources fun instruction hmem =>
          h instruction (mem_append_right _ hmem)

theorem emitNode_succeeds : ∀ (node : LadderNode) (current : List Connection),
    (∀ instruction ∈ nodeInstructions node, ∀ sources,
      Succeeds (emitInstruction plan instruction sources)) →
        Succeeds (emitNode plan node current)
  | .instruction instruction, current, h => h instruction (mem_singleton_self _) current
  | .parallel branches, current, h => emitParallel_succeeds branches current [] h

theorem emitParallel_succeeds : ∀ (branches : List LadderSeries) (current joined : List Connection),
    (∀ instruction ∈ branchInstructions branches, ∀ sources,
      Succeeds (emitInstruction plan instruction sources)) →
        Succeeds (emitParallel plan branches current joined)
  | [], _, joined, _ => .pure joined
  | branch :: rest, current, joined, h =>
    (emitSeries_succeeds branch current fun instruction hmem =>
      h instruction (mem_append_left _ hmem)).bind fun sources =>
        emitParallel_succeeds rest current (joinSources joined sources) fun instruction hmem =>
          h instruction (mem_append_right _ hmem)

end

theorem networkRung_succeeds {db : CharacterDatabase} {network : LadderSeries}
    (hsupported : unsupportedReason db plan.functionBlockInstances network = none)
    (hcovers : plan.Covers network) (comment : Text) :
    Succeeds (networkRung plan comment network) := by
  have hreasons : ∀ instruction ∈ instructions network,
      instructionReason db plan.functionBlockInstances instruction = none := by
    unfold unsupportedReason at hsupported
    dsimp only at hsupported
    split at hsupported
    · cases hsupported
    · split at hsupported
      · cases hsupported
      · next hnone => exact List.findSome?_eq_none_iff.mp hnone
  have hcomment : Succeeds (drawComment comment) := by
    unfold drawComment
    split
    · exact .pure ()
    · exact (Succeeds.draw _).bind fun _ => .pure ()
  exact (Succeeds.draw _).bind fun railId => hcomment.bind fun _ =>
    (emitSeries_succeeds network _ fun instruction hmem sources =>
      emitInstruction_succeeds (hreasons instruction hmem) (hcovers instruction hmem) sources).bind
        fun ends => (Succeeds.draw _).bind fun _ => .pure ()

end

/-- The graph has a flow, and every flow gives the coils in their order and each block pin
the power of the tree. -/
def Follows (rule : PinRule) (plan : NetworkPlan) (network : LadderSeries)
    (graph : List NetworkElement) : Prop :=
  ∀ reading : SymbolReading, (∃ flow, Solves reading flow graph) ∧
    ∀ flow, Solves reading flow graph →
      coilDrives flow graph = plan.coils (networkDrives rule (plan.reads reading) network) ∧
        ∀ instanceName parameter, pinDriven flow graph instanceName parameter =
          plan.drivesPin (networkDrives rule (plan.reads reading) network) instanceName parameter

/-- Every supported network whose expressions are planned is emitted, and its graph follows
the tree. A block input ends its branch, and an output reference starts one. -/
theorem networkRung_follows (db : CharacterDatabase) (plan : NetworkPlan) (comment : Text)
    (network : LadderSeries) (nextLocalId : Nat)
    (hsupported : unsupportedReason db plan.functionBlockInstances network = none) :
    (plan.Covers network → ∃ sketch, sketchNetwork plan comment network nextLocalId = .ok sketch) ∧
      ∀ sketch, sketchNetwork plan comment network nextLocalId = .ok sketch →
        Follows .ends plan network sketch.graph := by
  constructor
  · intro hcovers
    rcases networkRung_succeeds hsupported hcovers comment { nextLocalId } with ⟨_, sketch, hrun⟩
    refine ⟨sketch, ?_⟩
    rw [sketchNetwork, hrun]
    rfl
  · intro sketch hsketch reading
    obtain ⟨value, hrun⟩ : ∃ value, networkRung plan comment network { nextLocalId } =
        .ok (value, sketch) := by
      unfold sketchNetwork at hsketch
      cases hrun : networkRung plan comment network { nextLocalId } with
      | error fault =>
        rw [hrun] at hsketch
        cases hsketch
      | ok result =>
        rw [hrun] at hsketch
        cases hsketch
        exact ⟨result.1, rfl⟩
    obtain ⟨hdrawn, _, _, hmeans⟩ := networkRung_carries comment network { nextLocalId } value
      sketch (start_wellDrawn nextLocalId) (fun _ h => absurd h not_mem_nil) hrun
    constructor
    · exact ⟨_, graph_solves.mpr (flowOf_solves hdrawn.distinct hdrawn.fed)⟩
    · intro flow hflow
      have hsolves := graph_solves.mp hflow
      rcases hmeans reading flow hsolves with ⟨_, hdrives⟩
      constructor
      · rw [graph_coils, hdrives.coils]
        rfl
      · intro instanceName parameter
        rw [graph_pins hdrawn hsolves, hdrives.pins]
        rfl

/-! A timer whose input is a nested condition, and a coil that also lights a lamp. -/

def delayPlan : NetworkPlan where
  operandNames := []
  functionBlockInstances := [("T",
    { typeName := "TON", inputs := ["IN", "PT"], outputs := ["Q", "ET"], boolOutputs := ["Q"]
      constants := [("PT", "T#3s")] })]
  tagNames := []
  expressionTemps := []
  expressionBitTemps := []

def ladder (operation : LadderOperation) (operand : Text) : LadderNode :=
  .instruction { operation, sourceMnemonic := [], operand := some operand }

def delayNetwork : LadderSeries :=
  [ladder .NORMALLY_OPEN_CONTACT "Start",
    .parallel [[ladder .NORMALLY_CLOSED_CONTACT "Stop"], []],
    ladder .COIL "Lamp",
    .parallel [[ladder .FUNCTION_BLOCK_INPUT "T.IN"],
      [ladder .BLOCK_OUTPUT_REFERENCE "T.Q", ladder .SET_COIL "Run"]]]

theorem networkRung_follows_delay :
    (delayPlan.Covers delayNetwork →
      ∃ sketch, sketchNetwork delayPlan [] delayNetwork 1 = .ok sketch) ∧
      ∀ sketch, sketchNetwork delayPlan [] delayNetwork 1 = .ok sketch →
        Follows .ends delayPlan delayNetwork sketch.graph :=
  networkRung_follows Ascii.database delayPlan [] delayNetwork 1 (by decide +kernel)

/-- A contact in front of an output reference. -/
def referenceNetwork : LadderSeries :=
  [ladder .NORMALLY_OPEN_CONTACT "Start", ladder .BLOCK_OUTPUT_REFERENCE "T.Q", ladder .COIL "Run"]

def referenceSketch : NetworkSketch where
  nextLocalId := 7
  elements :=
    [.leftPowerRail 1, .contact 2 false none [⟨1, none⟩] "Start", .inVariable 3 "T#3s",
      .functionBlock 4 "T" "T" "TON" [("IN", []), ("PT", [⟨3, none⟩])] [] ["Q", "ET"],
      .coil 5 false none [⟨4, some "Q"⟩] "Run", .rightPowerRail 6]
  blocks := [("T", 4)]

/-- A coil behind a block input. -/
def inputNetwork : LadderSeries :=
  [ladder .NORMALLY_OPEN_CONTACT "Start", ladder .FUNCTION_BLOCK_INPUT "T.IN", ladder .COIL "Run"]

def inputSketch : NetworkSketch where
  nextLocalId := 7
  elements :=
    [.leftPowerRail 1, .contact 2 false none [⟨1, none⟩] "Start", .inVariable 3 "T#3s",
      .functionBlock 4 "T" "T" "TON" [("IN", []), ("PT", [⟨3, none⟩])] [] ["Q", "ET"],
      .coil 5 false none [] "Run", .rightPowerRail 6]
  pinConnections := [⟨"T", "IN", ⟨2, none⟩⟩]
  blocks := [("T", 4)]

/-- The coil behind the reference runs although the contact to its left is open, and the
coil behind the input does not although its contact is closed. -/
theorem networkRung_pins :
    (unsupportedReason Ascii.database delayPlan.functionBlockInstances referenceNetwork = none ∧
      sketchNetwork delayPlan [] referenceNetwork 1 = .ok referenceSketch ∧
        ¬ Follows .passes delayPlan referenceNetwork referenceSketch.graph) ∧
      unsupportedReason Ascii.database delayPlan.functionBlockInstances inputNetwork = none ∧
        sketchNetwork delayPlan [] inputNetwork 1 = .ok inputSketch ∧
          ¬ Follows .passes delayPlan inputNetwork inputSketch.graph := by
  refine ⟨⟨by decide +kernel, by decide +kernel, fun h => ?_⟩, by decide +kernel,
    by decide +kernel, fun h => ?_⟩
  · rcases h ⟨fun _ _ => false, fun _ _ => true⟩ with ⟨_, hcoils⟩
    have hdistinct : (elementIds referenceSketch.graph).Nodup := by decide
    have hfed : Fed [] referenceSketch.graph := by
      simp [Fed, referenceSketch, NetworkSketch.graph, NetworkSketch.wired,
        NetworkElement.powerSources, NetworkElement.localId]
    have hclaim := (hcoils _ (flowOf_solves hdistinct hfed)).1
    revert hclaim
    decide +kernel
  · rcases h ⟨fun _ _ => true, fun _ _ => false⟩ with ⟨_, hcoils⟩
    have hdistinct : (elementIds inputSketch.graph).Nodup := by decide
    have hfed : Fed [] inputSketch.graph := by
      simp [Fed, inputSketch, NetworkSketch.graph, NetworkSketch.wired,
        NetworkElement.powerSources, NetworkElement.localId]
    have hclaim := (hcoils _ (flowOf_solves hdistinct hfed)).1
    revert hclaim
    decide +kernel

end TwinForge.Plcopen
