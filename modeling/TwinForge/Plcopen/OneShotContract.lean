import TwinForge.Plcopen.EdgeDetection

/-! # The contract of one-shots

Every emitter but that of the one-shot draws no rising edge, so a rung holds one call for
each of its one-shots, all of the instance of the rung. Hence they detect edges exactly when
the rung has at most one, and is emitted as a graph where it has one.
-/

namespace TwinForge.Plcopen

open Model List

section

variable {db : CharacterDatabase} {codesys : Bool} {plan : PLCopenOperandPlan} {id : RungId}

/-! ## Emitters -/

namespace Emits

theorem contact (opcode : Opcode) (operand : Text) (conditionIds : List Nat) :
    Emits codesys plan id 0 (emitContact plan opcode operand conditionIds) :=
  draw fun _ => rfl

theorem coil (opcode : Opcode) (operand : Text) (conditionIds : List Nat)
    (formalParameter : Option Text) :
    Emits codesys plan id 0 (emitCoil plan opcode operand conditionIds formalParameter) :=
  draw fun _ => rfl

theorem block {typeName : Text} {instanceName : Option Text}
    {inputs : Nat → List (Text × List Connection)} {outputs : List (Text × Option Text)}
    {callType : Option Text} (h : instanceName = none ∨ typeName ≠ ("R_TRIG" : Text)) :
    Emits codesys plan id 0 (Drawing.draw fun localId =>
      .block localId typeName instanceName (inputs localId) outputs callType) := by
  refine draw fun localId => ?_
  unfold LadderElement.detector?
  rcases h with rfl | hne
  · exact ite_self none
  · exact if_neg hne

theorem inVariables (expressions : List Text) :
    Emits codesys plan id 0 (emitInVariables expressions) := by
  induction expressions with
  | nil => exact pure []
  | cons expression expressions ih =>
    exact (draw fun _ => rfl).quietly fun _ => ih.quietly fun _ => pure _

theorem comparison (opcode : Opcode) (operandText : Text) (conditionIds : List Nat)
    (resultName : Text) :
    Emits codesys plan id 0
      (emitComparison db plan opcode operandText conditionIds resultName) := by
  unfold emitComparison
  simp only
  split
  · exact raise _ 0
  · refine (ofExcept _).quietly fun _ => (inVariables _).quietly fun _ => ?_
    exact (block (Or.inl rfl)).quietly fun _ => contact _ _ _

theorem timer (operandText : Text) (conditionIds : List Nat) :
    Emits codesys plan id 0 (emitTimerBlock db codesys plan operandText conditionIds) := by
  unfold emitTimerBlock
  split
  · exact raise _ 0
  · split
    · exact raise _ 0
    · refine (coil _ _ _ _).quietly fun _ => (draw fun _ => rfl).quietly fun _ => ?_
      refine (draw fun _ => rfl).quietly fun _ => (draw fun _ => rfl).quietly fun _ => ?_
      refine (draw fun _ => rfl).quietly fun _ => ?_
      exact (block (Or.inr (by decide))).quietly fun _ => coil _ _ _ _

theorem timerReset (timerName : Text) (conditionIds : List Nat) (inputFromBlock : Bool) :
    Emits codesys plan id 0
      (emitTimerResetBlock codesys plan timerName conditionIds inputFromBlock) := by
  unfold emitTimerResetBlock
  split
  · exact raise _ 0
  · refine (draw fun _ => rfl).quietly fun _ => (draw fun _ => rfl).quietly fun _ => ?_
    exact block (Or.inr (by decide))

theorem value (opcode : Opcode) (operandText : Text) (conditionIds : List Nat)
    (inputFromBlock : Bool) :
    Emits codesys plan id 0
      (emitValueBlock db plan opcode operandText conditionIds inputFromBlock) := by
  unfold emitValueBlock
  simp only
  split
  · exact raise _ 0
  · exact (inVariables _).quietly fun _ => block (Or.inl rfl)

theorem oneShot {oneshot : PLCopenOneShotExport} (h : plan.oneshots.lookup id = some oneshot)
    (conditionIds : List Nat) :
    Emits codesys plan id 1 (emitOneShotBlock codesys plan oneshot conditionIds) := by
  intro nextLocalId drawn hdrawn
  rw [emitOneShotBlock_eq] at hdrawn
  cases hdrawn
  exact .fragment h conditionIds nextLocalId

theorem condition (condition : Instruction) (conditionIds : List Nat) {auxiliary : Auxiliary}
    (h : ∀ state, auxiliary ≠ .oneshot state) :
    Emits codesys plan id 0
      (emitCondition db codesys plan condition conditionIds auxiliary) := by
  unfold emitCondition
  split
  · exact contact _ _ _
  · split
    · split
      · rename_i state
        exact absurd rfl (h state)
      · exact raise _ 0
    · split
      · split
        · exact comparison _ _ _ _
        · exact raise _ 0
      · exact raise _ 0

theorem output (output : Instruction) (executionIds : List Nat) (inputFromBlock : Bool) :
    Emits codesys plan id 0
      (emitOutput db codesys plan output executionIds inputFromBlock) := by
  unfold emitOutput
  split
  · exact (coil _ _ _ _).quietly fun _ => pure _
  · split
    · exact (timer _ _).quietly fun _ => pure _
    · split
      · exact (timerReset _ _ _).quietly fun _ => pure _
      · split
        · exact (value _ _ _ _).quietly fun _ => pure _
        · exact raise _ 0

/-! ## Rungs -/

theorem series (conditionIds : List Nat) (conditions : List Instruction) :
    Emits codesys plan id 0 (emitPrefix db codesys plan conditionIds conditions) := by
  induction conditions generalizing conditionIds with
  | nil => exact pure _
  | cons first conditions ih =>
    exact (condition _ _ (by simp)).quietly fun localId => ih [localId]

theorem branch (conditionId : Nat) (conditions : List Instruction) :
    Emits codesys plan id 0 (emitBranch db codesys plan conditionId conditions) := by
  induction conditions generalizing conditionId with
  | nil => exact pure _
  | cons first conditions ih =>
    exact (condition _ _ (by simp)).quietly fun localId => ih localId

theorem group (railId : Nat) (conditionIds : List Nat) (branches : List (List Instruction)) :
    Emits codesys plan id 0 (emitGroup db codesys plan railId conditionIds branches) := by
  have hbranches : ∀ startId, Emits codesys plan id 0
      (emitBranches db codesys plan startId branches) := by
    intro startId
    induction branches with
    | nil => exact pure _
    | cons first branches ih =>
      exact (branch startId first).quietly fun _ => ih.quietly fun _ => pure _
  unfold emitGroup
  split
  · exact pure _
  · exact hbranches _

theorem tailCondition (comparisonIndex : Nat) (instruction : Instruction)
    (conditionIds : List Nat) :
    Emits codesys plan id (if instruction.opcode == .ONS then 1 else 0)
      (emitTailCondition db codesys plan id comparisonIndex instruction conditionIds) := by
  unfold emitTailCondition tailAuxiliary
  by_cases hopcode : instruction.opcode = .ONS
  · have hcontact : instruction.opcode.isContact = false := by
      rw [hopcode]
      rfl
    have hcount : (if instruction.opcode == Opcode.ONS then 1 else 0) = 1 := by simp [hopcode]
    rw [hcount, if_pos hopcode]
    refine ofResult fun auxiliary hauxiliary => ?_
    split at hauxiliary
    · rename_i state hstate
      cases hauxiliary
      unfold emitCondition
      rw [if_neg (by simp [hcontact]), if_pos hopcode]
      exact oneShot hstate conditionIds
    · cases hauxiliary
  · have hcount : (if instruction.opcode == Opcode.ONS then 1 else 0) = 0 := by simp [hopcode]
    rw [hcount, if_neg hopcode]
    refine ofResult fun auxiliary hauxiliary => condition instruction conditionIds fun state hsame => ?_
    subst hsame
    split at hauxiliary
    · split at hauxiliary
      · split at hauxiliary <;> cases hauxiliary
      · cases hauxiliary
    · cases hauxiliary

theorem tail (comparisonIndex : Nat) (conditionIds : List Nat) (conditions : List Instruction) :
    Emits codesys plan id (conditions.countP fun condition => condition.opcode == .ONS)
      (emitTail db codesys plan id comparisonIndex conditionIds conditions) := by
  induction conditions generalizing comparisonIndex conditionIds with
  | nil => exact pure _
  | cons first conditions ih =>
    rw [countP_cons, Nat.add_comm]
    exact (tailCondition _ _ _).bind fun localId => ih _ [localId]

theorem outputs (executionIds : List Nat) (inputFromBlock : Bool) (list : List Instruction) :
    Emits codesys plan id 0
      (emitOutputs db codesys plan executionIds inputFromBlock list) := by
  induction list generalizing executionIds inputFromBlock with
  | nil => exact pure _
  | cons first list ih => exact (output _ _ _).quietly fun _ => ih _ _

theorem comment (text : Text) (rawRll : Option Text) :
    Emits codesys plan id 0 (emitComment text rawRll) :=
  (draw fun _ => rfl).quietly fun _ => pure _

theorem rungComment (rung : LadderRung) : Emits codesys plan id 0 (emitRungComment rung) := by
  unfold emitRungComment
  split
  · exact pure _
  · exact comment _ _

theorem parsedRung (site : RungSite) (parsed : ParsedBooleanRung) :
    Emits codesys plan site.id
      (parsed.tailConditions.countP fun condition => condition.opcode == .ONS)
      (emitParsedRung db codesys plan site parsed) := by
  unfold emitParsedRung
  refine (draw fun _ => rfl).quietly fun railId => (rungComment _).quietly fun _ => ?_
  refine (series _ _).quietly fun conditionIds => (group _ _ _).quietly fun conditionIds => ?_
  refine (tail 0 _ _).before fun executionIds => (outputs _ _ _).quietly fun _ => ?_
  exact (draw fun _ => rfl).quietly fun _ => pure _

theorem diagnose (diagnostic : ConversionDiagnostic) :
    Emits codesys plan id 0 (Drawing.diagnose diagnostic) := by
  intro nextLocalId drawn hdrawn
  cases hdrawn
  exact .quiet rfl

theorem unsupported (site : RungSite) (code message label rawValue : Text) :
    Emits codesys plan id 0 (emitUnsupported site code message label rawValue) :=
  (diagnose _).quietly fun _ => comment _ _

theorem withoutText (site : RungSite) : Emits codesys plan id 0 (emitWithoutText db site) := by
  unfold emitWithoutText
  split
  · exact (diagnose _).quietly fun _ => comment _ _
  · exact (diagnose _).quietly fun _ => comment _ _

theorem actionCall (rung : LadderRung) (actionName : Text) :
    Emits codesys plan id 0 (emitActionCall codesys rung actionName) := by
  unfold emitActionCall
  refine (draw fun _ => rfl).quietly fun _ => (rungComment _).quietly fun _ => ?_
  exact (block (Or.inl rfl)).quietly fun _ => (draw fun _ => rfl).quietly fun _ => pure _

theorem rung (actionNames : List Text) (site : RungSite) :
    ∃ count, Emits codesys plan site.id count (emitRung db codesys plan actionNames site) := by
  unfold emitRung
  split
  · exact ⟨0, withoutText site⟩
  · split
    · exact ⟨0, comment _ _⟩
    · split
      · exact ⟨0, unsupported _ _ _ _ _⟩
      · split
        · split
          · exact ⟨0, actionCall _ _⟩
          · exact ⟨0, unsupported _ _ _ _ _⟩
        · split
          · exact ⟨0, unsupported _ _ _ _ _⟩
          · split
            · exact ⟨_, parsedRung _ _⟩
            · exact ⟨0, unsupported _ _ _ _ _⟩

end Emits

end

/-! ## Accepted rungs -/

section

variable {db : CharacterDatabase} {codesys : Bool} {controller : Controller} {site : RungSite}
  {text : Text} {parsed : ParsedBooleanRung}

theorem oneShots_eq (h : parseSupportedRung db (some text) = some parsed) :
    parsed.oneShots = parsed.tailConditions.countP fun condition => condition.opcode == .ONS := by
  obtain ⟨sequence, haccepted⟩ := accepted_of h
  have hcontact : ∀ instruction : Instruction, instruction.opcode.isContact = true →
      ¬ (instruction.opcode == Opcode.ONS) = true := by
    intro instruction hcontact honeshot
    rw [beq_iff_eq.mp honeshot] at hcontact
    cases hcontact
  have hprefix : parsed.prefixConditions.countP (fun condition => condition.opcode == .ONS) = 0 :=
    countP_eq_zero.mpr fun i hi => hcontact i (haccepted.prefixContacts i hi)
  have hbranches : parsed.branches.flatten.countP (fun condition => condition.opcode == .ONS) =
      0 := by
    refine countP_eq_zero.mpr fun i hi => ?_
    obtain ⟨branch, hbranch, hmember⟩ := mem_flatten.mp hi
    exact hcontact i (haccepted.branchContacts branch hbranch i hmember)
  have houtputs : parsed.outputs.countP (fun condition => condition.opcode == .ONS) = 0 := by
    refine countP_eq_zero.mpr fun i hi honeshot => ?_
    rw [(sortInstructions_some haccepted.sorted).2, mem_filter] at hi
    rw [beq_iff_eq.mp honeshot] at hi
    cases hi.2
  rw [ParsedBooleanRung.oneShots, ParsedBooleanRung.instructions, countP_append,
    countP_append, countP_append, hprefix, hbranches, houtputs]
  omega

theorem emitRung_of_reaches (hwell : ControllerWellFormed controller)
    (hsite : site ∈ rungSites controller) (htext : site.rung.text = some text)
    (h : ReachesEmitters db controller site text parsed) (actionNames : List Text) :
    emitRung db codesys (exportPlan db codesys controller) actionNames site =
      emitParsedRung db codesys (exportPlan db codesys controller) site parsed := by
  have haside : site.id ∉ (exportPlan db codesys controller).unsupportedComparisonRungs := by
    intro hmember
    obtain ⟨other, hother, hunsupported⟩ := (prepare_unsupported _ hwell hsite).mp hmember
    rw [htext, h.accepted, Option.some.injEq] at hother
    subst hother
    rw [h.supported] at hunsupported
    cases hunsupported
  unfold emitRung
  rw [htext]
  simp only [h.operation, Bool.false_eq_true, if_false, haside, h.call, h.accepted,
    (timers_all_iff codesys parsed).mpr h.timers, if_true]

theorem emitRung_of_not_reaches (hwell : ControllerWellFormed controller)
    (hsite : site ∈ rungSites controller) (htext : site.rung.text = some text)
    (haccepted : parseSupportedRung db (some text) = some parsed)
    (h : ¬ ReachesEmitters db controller site text parsed) (actionNames : List Text) :
    Emits codesys (exportPlan db codesys controller) site.id 0
      (emitRung db codesys (exportPlan db codesys controller) actionNames site) := by
  unfold emitRung
  rw [htext]
  simp only
  split
  · exact .comment _ _
  · rename_i hoperation
    split
    · exact .unsupported _ _ _ _ _
    · rename_i haside
      split
      · split
        · exact .actionCall _ _
        · exact .unsupported _ _ _ _ _
      · rename_i hcall
        rw [haccepted]
        simp only
        split
        · rename_i htimers
          have hsupported : comparesUnsupported db controller site.program parsed = false := by
            by_contra hunsupported
            refine haside ((prepare_unsupported _ hwell hsite).mpr ⟨parsed, htext ▸ haccepted, ?_⟩)
            simpa using hunsupported
          exact absurd ⟨by simpa using hoperation, hcall, haccepted, hsupported,
            (timers_all_iff codesys parsed).mp htimers⟩ h
        · exact .unsupported _ _ _ _ _

theorem RungBody.planned {body : List LadderElement}
    (h : RungBody db codesys controller site body) {instanceName : Text}
    (hinstance : instanceName ∈ detectors body) :
    ∃ oneshot, (exportPlan db codesys controller).oneshots.lookup site.id = some oneshot ∧
      oneshot.instanceName = instanceName := by
  obtain ⟨actionNames, nextLocalId, drawn, hdrawn, rfl⟩ := h
  obtain ⟨count, hemits⟩ :=
    @Emits.rung db codesys (exportPlan db codesys controller) actionNames site
  obtain ⟨found, -, -, hnames, hstate⟩ := hemits nextLocalId drawn hdrawn
  rw [← hnames] at hinstance
  obtain ⟨emitted, hemitted, hname⟩ := mem_map.mp hinstance
  exact ⟨emitted.oneshot, hstate emitted hemitted, hname⟩

variable {elements : List LadderElement}

theorem detectsEdges_of_one (hwell : ControllerWellFormed controller)
    (hsite : site ∈ rungSites controller) (hcount : parsed.oneShots = 1)
    (h : HoldsOneShots codesys (exportPlan db codesys controller) site.id 1 elements) :
    ∃ found, DetectsEdges db codesys controller site parsed elements found := by
  obtain ⟨found, hlength, hbody, hnames, hstate⟩ := h
  obtain ⟨emitted, rfl⟩ := length_eq_one_iff.mp hlength
  have hplanned := hstate emitted mem_cons_self
  have hnamed := oneshot_named hplanned
  have hself := hbody emitted mem_cons_self
  have hinstances : detectors elements = [emitted.oneshot.instanceName] := hnames.symm
  -- The one call of the instance stands in the one-shot itself.
  have hsplit : detectors emitted.before ++ (emitted.oneshot.instanceName ::
      detectors emitted.after) = [emitted.oneshot.instanceName] := by
    rw [← hinstances, ← hself, EmittedOneShot.body, detectors_append, detectors_append]
    rfl
  have hbefore : detectors emitted.before = [] := by
    cases hdetectors : detectors emitted.before with
    | nil => rfl
    | cons first rest =>
      rw [hdetectors] at hsplit
      have hlengths := congrArg List.length hsplit
      simp at hlengths
  have hafter : detectors emitted.after = [] := by
    rw [hbefore] at hsplit
    exact (List.cons.inj hsplit).2
  have hapart : ∀ other ∈ rungSites controller, other ≠ site → ∀ body,
      RungBody db codesys controller other body → ∀ instanceName ∈ detectors elements,
        instanceName ∉ detectors body := by
    intro other hother hne body hbody instanceName hinstance hmember
    obtain ⟨oneshot, hlookup, hname⟩ := hbody.planned hmember
    rw [hinstances, mem_singleton] at hinstance
    refine oneshot_instance_ne hlookup hplanned ?_ (hname.trans hinstance)
    exact fun hid => hne (hwell.eq_of_id hother hsite hid)
  refine ⟨[emitted], hcount.symm, ?_, hnames, ?_, hapart, ?_⟩
  · intro other hother
    rw [mem_singleton.mp hother]
    exact hself
  · rw [hinstances]
    exact nodup_singleton _
  · intro other hother scans state hfresh hscans scan hscan
    rw [mem_singleton.mp hother]
    rw [← hself] at hscan
    rw [(emitted.run_spec hnamed hbefore hafter hscan _).1,
      emitted.remembers hnamed hbefore hafter scans state false (hfresh _) ?_]
    intro earlier hearlier
    rcases hscans earlier hearlier with hsame | ⟨other, hother, hne, hrung⟩
    · exact Or.inl (hsame.trans hself.symm)
    · refine Or.inr (hapart other hother hne _ hrung _ ?_)
      rw [hinstances]
      exact mem_singleton_self _

theorem HoldsOneShots.at_most_one {plan : PLCopenOperandPlan} {id : RungId} {count : Nat}
    (h : HoldsOneShots codesys plan id count elements)
    (hown : (detectors elements).Nodup) : count ≤ 1 := by
  obtain ⟨found, hlength, -, hnames, hstate⟩ := h
  match found with
  | [] => simp at hlength; omega
  | [_] => simp at hlength; omega
  | first :: second :: rest =>
    have hfirst := hstate first (by simp)
    have hsecond := hstate second (by simp)
    rw [hfirst, Option.some.injEq] at hsecond
    rw [← hnames, map_cons, map_cons, hsecond, nodup_cons] at hown
    exact absurd mem_cons_self hown.1

theorem detectsEdges_of_none (hcount : parsed.oneShots = 0) (h : detectors elements = []) :
    DetectsEdges db codesys controller site parsed elements [] where
  each := hcount.symm
  emitted := by simp
  instances := h.symm
  own := by simp [h]
  apart := by simp [h]
  edges := by simp

/-- The one-shots of an emitted rung detect edges exactly when there is none, or a single one
in a rung that reaches the emitters. -/
theorem oneShots_detect_edges_iff (hwell : ControllerWellFormed controller)
    (hsite : site ∈ rungSites controller) (htext : site.rung.text = some text)
    (haccepted : parseSupportedRung db (some text) = some parsed) {actionNames : List Text}
    {nextLocalId : Nat} {drawn : Drawn Unit}
    (hdrawn : emitRung db codesys (exportPlan db codesys controller) actionNames site
      nextLocalId = .ok drawn) :
    (∃ found, DetectsEdges db codesys controller site parsed drawn.elements found) ↔
      parsed.oneShots = 0 ∨
        parsed.oneShots = 1 ∧ ReachesEmitters db controller site text parsed := by
  have hcount := oneShots_eq haccepted
  by_cases hreaches : ReachesEmitters db controller site text parsed
  · have hholds : HoldsOneShots codesys (exportPlan db codesys controller) site.id parsed.oneShots
        drawn.elements := by
      rw [hcount]
      rw [emitRung_of_reaches hwell hsite htext hreaches] at hdrawn
      exact Emits.parsedRung site parsed nextLocalId drawn hdrawn
    constructor
    · intro ⟨found, hdetects⟩
      have hmost := hholds.at_most_one hdetects.own
      rcases Nat.le_one_iff_eq_zero_or_eq_one.mp hmost with hzero | hone
      · exact Or.inl hzero
      · exact Or.inr ⟨hone, hreaches⟩
    · intro h
      rcases h with hzero | ⟨hone, -⟩
      · obtain ⟨found, hlength, -, hnames, -⟩ := hholds
        rw [hzero, length_eq_zero_iff] at hlength
        rw [hlength] at hnames
        exact ⟨[], detectsEdges_of_none hzero hnames.symm⟩
      · rw [hone] at hholds
        exact detectsEdges_of_one hwell hsite hone hholds
  · have hnone : detectors drawn.elements = [] := by
      obtain ⟨found, hlength, -, hnames, -⟩ :=
        emitRung_of_not_reaches hwell hsite htext haccepted hreaches actionNames nextLocalId drawn
          hdrawn
      rw [← hnames, length_eq_zero_iff.mp hlength]
      rfl
    constructor
    · intro ⟨found, hdetects⟩
      have hempty : found = [] := by
        have hnames := hdetects.instances
        rw [hnone] at hnames
        exact map_eq_nil_iff.mp hnames
      have hlength := hdetects.each
      rw [hempty] at hlength
      exact Or.inl hlength.symm
    · intro h
      rcases h with hzero | ⟨-, hother⟩
      · exact ⟨[], detectsEdges_of_none hzero hnone⟩
      · exact absurd hother hreaches

end

def firstSite (texts : List Text) : RungSite :=
  let program := ((singleRoutine texts).programs.headD ("P", ⟨"P", [], [], none⟩)).2
  ⟨program, (program.routines.headD ("Main", ⟨"Main", []⟩)).2, 0,
    ⟨some 0, none, texts.head?, []⟩⟩

theorem firstSite_mem (text : Text) : firstSite [text] ∈ rungSites (singleRoutine [text]) :=
  mem_singleton_self _

theorem exists_drawn {result : Except Raised (Drawn Unit)} (h : result.isOk = true) :
    ∃ drawn, result = .ok drawn := by
  cases result with
  | error raised => cases h
  | ok drawn => exact ⟨drawn, rfl⟩

/-- One one-shot between a contact and a coil. -/
theorem oneShots_single : ∃ drawn, emitRung Ascii.database true
      (exportPlan Ascii.database true (singleRoutine ["XIC(A)ONS(S)OTE(B);"])) []
      (firstSite ["XIC(A)ONS(S)OTE(B);"]) 1 = .ok drawn ∧
    ∃ found, DetectsEdges Ascii.database true (singleRoutine ["XIC(A)ONS(S)OTE(B);"])
      (firstSite ["XIC(A)ONS(S)OTE(B);"])
      ⟨[], [], [⟨.XIC, "A"⟩, ⟨.ONS, "S"⟩], [⟨.OTE, "B"⟩]⟩ drawn.elements found := by
  have haccepted : parseSupportedRung Ascii.database (some ("XIC(A)ONS(S)OTE(B);" : Text)) =
      some ⟨[], [], [⟨.XIC, "A"⟩, ⟨.ONS, "S"⟩], [⟨.OTE, "B"⟩]⟩ := by
    decide +kernel
  have hok : (emitRung Ascii.database true
      (exportPlan Ascii.database true (singleRoutine ["XIC(A)ONS(S)OTE(B);"])) []
      (firstSite ["XIC(A)ONS(S)OTE(B);"]) 1).isOk = true := by
    decide +kernel
  obtain ⟨drawn, hdrawn⟩ := exists_drawn hok
  refine ⟨drawn, hdrawn, (oneShots_detect_edges_iff (singleRoutine_wellFormed _)
    (firstSite_mem _) rfl haccepted hdrawn).mpr (Or.inr ⟨by decide, ?_⟩)⟩
  exact ⟨by decide +kernel, by decide +kernel, haccepted, by decide +kernel, by decide +kernel⟩

/-- Two one-shots in one rung share an instance. -/
theorem oneShots_shared : ∃ drawn, emitRung Ascii.database true
      (exportPlan Ascii.database true (singleRoutine ["XIC(A)ONS(S)XIC(B)ONS(R)OTE(C);"])) []
      (firstSite ["XIC(A)ONS(S)XIC(B)ONS(R)OTE(C);"]) 1 = .ok drawn ∧
    parseSupportedRung Ascii.database (some ("XIC(A)ONS(S)XIC(B)ONS(R)OTE(C);" : Text)) =
      some ⟨[], [], [⟨.XIC, "A"⟩, ⟨.ONS, "S"⟩, ⟨.XIC, "B"⟩, ⟨.ONS, "R"⟩], [⟨.OTE, "C"⟩]⟩ ∧
    ¬ ∃ found, DetectsEdges Ascii.database true (singleRoutine ["XIC(A)ONS(S)XIC(B)ONS(R)OTE(C);"])
      (firstSite ["XIC(A)ONS(S)XIC(B)ONS(R)OTE(C);"])
      ⟨[], [], [⟨.XIC, "A"⟩, ⟨.ONS, "S"⟩, ⟨.XIC, "B"⟩, ⟨.ONS, "R"⟩], [⟨.OTE, "C"⟩]⟩
      drawn.elements found := by
  have hshared : (emitRung Ascii.database true
      (exportPlan Ascii.database true (singleRoutine ["XIC(A)ONS(S)XIC(B)ONS(R)OTE(C);"])) []
      (firstSite ["XIC(A)ONS(S)XIC(B)ONS(R)OTE(C);"]) 1).toOption.map (fun drawn =>
        detectors drawn.elements) =
      some (["TF_ONS_P_Main_0_FB", "TF_ONS_P_Main_0_FB"] : List Text) := by
    decide +kernel
  have hok : (emitRung Ascii.database true
      (exportPlan Ascii.database true (singleRoutine ["XIC(A)ONS(S)XIC(B)ONS(R)OTE(C);"])) []
      (firstSite ["XIC(A)ONS(S)XIC(B)ONS(R)OTE(C);"]) 1).isOk = true := by
    decide +kernel
  obtain ⟨drawn, hdrawn⟩ := exists_drawn hok
  rw [hdrawn] at hshared
  refine ⟨drawn, hdrawn, by decide +kernel, ?_⟩
  intro ⟨found, hdetects⟩
  have hown := hdetects.own
  have hinstances : detectors drawn.elements = ["TF_ONS_P_Main_0_FB", "TF_ONS_P_Main_0_FB"] :=
    Option.some.inj hshared
  rw [hinstances] at hown
  revert hown
  decide

end TwinForge.Plcopen
