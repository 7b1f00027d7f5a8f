import TwinForge.Plcopen.RllSource

/-! # When a parsed rung keeps the left-to-right meaning of its text

The symbols of an accepted text are its prefix, its parallel group and one serial
sequence. The parser sorts that sequence into conditions and outputs, which keeps
its meaning exactly when it was sorted already.
-/

namespace TwinForge.Plcopen

open List

variable {db : CharacterDatabase}

/-! ## The symbols of an accepted text -/

variable {text : Text}

theorem splitBranchOpening_eq {depth : Int} {before inside : Text}
    (h : splitBranchOpening depth text = some (before, inside)) :
    text = before ++ '[' :: inside := by
  induction text generalizing depth before with
  | nil => cases h
  | cons c text ih =>
    unfold splitBranchOpening at h
    split at h
    · rename_i hc
      cases h
      rw [hc.1]
      rfl
    · obtain ⟨⟨front, back⟩, hrest, heq⟩ := Option.map_eq_some_iff.mp h
      cases heq
      rw [ih hrest]
      rfl

theorem splitBranchClosing_eq {depth : Int} {paths after : Text}
    (h : splitBranchClosing depth text = some (paths, after)) :
    text = paths ++ ']' :: after := by
  induction text generalizing depth paths with
  | nil => cases h
  | cons c text ih =>
    unfold splitBranchClosing at h
    split at h
    · cases h
    split at h
    · rename_i hc
      cases h
      rw [hc.1]
      rfl
    · obtain ⟨⟨front, back⟩, hrest, heq⟩ := Option.map_eq_some_iff.mp h
      cases heq
      rw [ih hrest]
      rfl

theorem splitBranchPaths_ne_nil (depth : Int) (text : Text) : splitBranchPaths depth text ≠ [] := by
  cases text with
  | nil => simp [splitBranchPaths]
  | cons c text =>
    unfold splitBranchPaths
    split
    · simp
    · split <;> simp

theorem splitBranchPaths_join (depth : Int) (text : Text) :
    intercalate [','] (splitBranchPaths depth text) = text := by
  induction text generalizing depth with
  | nil => rfl
  | cons c text ih =>
    unfold splitBranchPaths
    split
    · rename_i hc
      have hne := splitBranchPaths_ne_nil depth text
      have hjoin := ih depth
      cases hp : splitBranchPaths depth text with
      | nil => exact absurd hp hne
      | cons part parts =>
        rw [hp] at hjoin
        rw [intercalate_cons_cons, hjoin, hc.1]
        rfl
    · have hjoin := ih (depthAfter depth c)
      split
      · rename_i hp
        exact absurd hp (splitBranchPaths_ne_nil _ text)
      · rename_i part parts hp
        rw [hp] at hjoin
        cases parts with
        | nil =>
          rw [intercalate_singleton] at hjoin ⊢
          rw [hjoin]
        | cons next parts =>
          rw [intercalate_cons_cons] at hjoin ⊢
          rw [cons_append, cons_append, hjoin]

def pathSymbols (branches : List (List Instruction)) : List Symbol :=
  intercalate [.comma] (branches.map (fun branch => branch.map .instruction))

def groupSymbols (branches : List (List Instruction)) : List Symbol :=
  if branches.isEmpty then [] else .opening :: (pathSymbols branches ++ [.closing])

theorem parseBranch_some {part : Text} {branch : List Instruction}
    (h : parseBranch db part = some branch) :
    parseInstructionSequence db (db.strip part) = some branch ∧
      ∀ i ∈ branch, i.opcode.isContact = true := by
  unfold parseBranch at h
  simp only [Option.bind_eq_bind, Option.bind_eq_some_iff] at h
  obtain ⟨found, hseq, h⟩ := h
  split at h
  · cases h
  · rename_i hcontacts
    cases h
    simp only [Bool.or_eq_true, any_eq_true, Bool.not_eq_true', not_or, not_exists,
      not_and, Bool.not_eq_false] at hcontacts
    exact ⟨hseq, fun i hi => hcontacts.2 i hi⟩

variable {parts : List Text} {branches : List (List Instruction)}

theorem mapM_cons_some {part : Text} (h : (part :: parts).mapM (parseBranch db) = some branches) :
    ∃ branch rest, branches = branch :: rest ∧ parseBranch db part = some branch ∧
      parts.mapM (parseBranch db) = some rest := by
  simp only [mapM_cons, Option.bind_eq_bind, Option.bind_eq_some_iff] at h
  obtain ⟨branch, hbranch, rest, hrest, heq⟩ := h
  cases heq
  exact ⟨branch, rest, rfl, hbranch, hrest⟩

theorem symbols_paths
    (hne : parts ≠ []) (h : parts.mapM (parseBranch db) = some branches) (more : Text) :
    symbols db (intercalate [','] parts ++ ']' :: more) =
      pathSymbols branches ++ symbols db (']' :: more) := by
  induction parts generalizing branches with
  | nil => exact absurd rfl hne
  | cons part parts ih =>
    obtain ⟨branch, rest, rfl, hbranch, hrest⟩ := mapM_cons_some h
    have hpart := (parseBranch_some hbranch).1
    cases parts with
    | nil =>
      cases hrest
      rw [intercalate_singleton, symbols_stripped hpart]
      simp [pathSymbols, intercalate]
    | cons next parts =>
      have hnext := ih (by simp) hrest
      obtain ⟨second, others, rfl, -, -⟩ := mapM_cons_some hrest
      have hcomma : pathSymbols (branch :: second :: others) =
          branch.map .instruction ++ .comma :: pathSymbols (second :: others) := by
        unfold pathSymbols
        rw [map_cons, map_cons, intercalate_cons_cons, append_assoc]
        rfl
      rw [intercalate_cons_cons, append_assoc, append_assoc,
        singleton_append, symbols_stripped hpart, symbols_sign (by simp), hnext, hcomma]
      simp [branchSymbol]

/-- What the parser knows about an accepted text. -/
structure Accepted (db : CharacterDatabase) (text : Text) (rung : ParsedBooleanRung)
    (sequence : List Instruction) : Prop where
  symbols_eq : symbols db text = rung.prefixConditions.map .instruction ++
    groupSymbols rung.branches ++ sequence.map .instruction
  prefixContacts : ∀ i ∈ rung.prefixConditions, i.opcode.isContact = true
  branchContacts : ∀ branch ∈ rung.branches, ∀ i ∈ branch, i.opcode.isContact = true
  prefixOfBranches : rung.branches = [] → rung.prefixConditions = []
  sorted : sortInstructions false sequence = some (rung.tailConditions, rung.outputs)
  supported : ∀ i ∈ sequence, hasSupportedOperand db i.opcode i.operand = true

theorem parseInstructionLoop_supported {fuel : Nat} {instructions : List Instruction}
    (h : parseInstructionLoop db fuel text = some instructions) :
    ∀ i ∈ instructions, hasSupportedOperand db i.opcode i.operand = true := by
  induction fuel generalizing text instructions with
  | zero =>
    cases text with
    | nil => cases h; simp
    | cons c text => cases h
  | succ fuel ih =>
    cases text with
    | nil => cases h; simp
    | cons c text =>
      rw [parseInstructionLoop] at h
      simp only [Option.bind_eq_bind, Option.bind_eq_some_iff] at h
      obtain ⟨⟨opcode, body, rest⟩, -, h⟩ := h
      simp only at h
      split at h
      · next hsupported =>
          obtain ⟨found, hrest, h⟩ := Option.bind_eq_some_iff.mp h
          cases h
          intro i hi
          rcases mem_cons.mp hi with rfl | hi
          · exact hsupported
          · exact ih hrest i hi
      · cases h

theorem mapM_contacts (h : parts.mapM (parseBranch db) = some branches) :
    ∀ branch ∈ branches, ∀ i ∈ branch, i.opcode.isContact = true := by
  induction parts generalizing branches with
  | nil =>
    cases h
    intro branch hbranch
    cases hbranch
  | cons part parts ih =>
    obtain ⟨branch, rest, rfl, hbranch, hrest⟩ := mapM_cons_some h
    intro other hother
    rcases mem_cons.mp hother with rfl | hother
    · exact (parseBranch_some hbranch).2
    · exact ih hrest other hother

theorem parseBranchGroup_some {before inside : Text} {prefixConditions : List Instruction}
    {branches : List (List Instruction)} {source : Text}
    (h : parseBranchGroup db before inside = some (prefixConditions, branches, source)) :
    (∀ i ∈ prefixConditions, i.opcode.isContact = true) ∧
    (∀ branch ∈ branches, ∀ i ∈ branch, i.opcode.isContact = true) ∧ branches ≠ [] ∧
    ∃ after, source = db.strip after ∧ ∀ more, symbols db (before ++ '[' :: inside ++ more) =
      prefixConditions.map .instruction ++ groupSymbols branches ++ symbols db (after ++ more) := by
  unfold parseBranchGroup at h
  simp only [Option.bind_eq_bind, Option.bind_eq_some_iff] at h
  obtain ⟨contacts, hleading, h⟩ := h
  split at h
  · cases h
  rename_i hcontacts
  obtain ⟨⟨paths, after⟩, hclosing, h⟩ := Option.bind_eq_some_iff.mp h
  simp only at h
  split at h
  · cases h
  rename_i hlen
  obtain ⟨found, hbranches, heq⟩ := Option.bind_eq_some_iff.mp h
  cases heq
  have hne := splitBranchPaths_ne_nil 0 paths
  have hbranchesNe : branches ≠ [] := by
    obtain ⟨part, parts, hparts⟩ := exists_cons_of_ne_nil hne
    rw [hparts] at hbranches
    obtain ⟨branch, rest, rfl, -⟩ := mapM_cons_some hbranches
    simp
  have hgroup : groupSymbols branches = .opening :: (pathSymbols branches ++ [.closing]) := by
    simp [groupSymbols, hbranchesNe]
  refine ⟨?_, mapM_contacts hbranches, hbranchesNe, after, rfl, fun more => ?_⟩
  · intro i hi
    by_contra hi'
    exact hcontacts (any_eq_true.mpr ⟨i, hi, by simpa using hi'⟩)
  · have hpaths := symbols_paths hne hbranches (after ++ more)
    rw [splitBranchPaths_join] at hpaths
    rw [splitBranchClosing_eq hclosing, append_assoc, symbols_sequence hleading,
      cons_append, symbols_sign (by simp), append_assoc, cons_append, hpaths,
      symbols_sign (by simp), hgroup]
    simp [branchSymbol]

theorem getLast?_dropLast {s : Text} {c : Char} (h : s.getLast? = some c) :
    s = s.dropLast ++ [c] := by
  obtain ⟨front, rfl⟩ := List.getLast?_eq_some_iff.mp h
  rw [dropLast_concat]

theorem symbols_blank {blank : Text} (h : ∀ c ∈ blank, db.isSpace c = true) :
    symbols db blank = [] := by
  have hblank := symbols_spaces h []
  rw [append_nil] at hblank
  rw [hblank]
  rfl

theorem symbols_semicolon (h : (db.strip text).getLast? = some ';') :
    ∃ rest, symbols db rest = [] ∧
      symbols db text = symbols db (db.strip (db.strip text).dropLast ++ rest) := by
  obtain ⟨before, last, htext, hbefore, hlast⟩ := strip_split db text
  obtain ⟨lead, after, hsource, hlead, hafter⟩ := strip_split db (db.strip text).dropLast
  refine ⟨after ++ ';' :: last, ?_, ?_⟩
  · rw [symbols_spaces hafter, symbols_sign (by simp), symbols_blank hlast]
    rfl
  · calc symbols db text = symbols db (db.strip text ++ last) := by
          conv => left; rw [htext]
          rw [symbols_spaces hbefore]
      _ = symbols db ((db.strip text).dropLast ++ ';' :: last) := by
          conv => left; rw [getLast?_dropLast h]
          rw [append_assoc, singleton_append]
      _ = symbols db (db.strip (db.strip text).dropLast ++ (after ++ ';' :: last)) := by
          conv => left; rw [hsource]
          rw [append_assoc, symbols_spaces hlead, append_assoc]

theorem symbols_stripped_end {rest : Text} {instructions : List Instruction}
    (h : parseInstructionSequence db (db.strip text) = some instructions)
    (hrest : symbols db rest = []) :
    symbols db (text ++ rest) = instructions.map .instruction := by
  obtain ⟨before, after, htext, hbefore, hafter⟩ := strip_split db text
  rw [htext, append_assoc, symbols_spaces hbefore, append_assoc, symbols_sequence h,
    symbols_spaces hafter, hrest, append_nil]

variable {rung : ParsedBooleanRung}

theorem accepted_of (h : parseSupportedRung db (some text) = some rung) :
    ∃ sequence, Accepted db text rung sequence := by
  unfold parseSupportedRung at h
  simp only [Option.getD_some, Option.bind_eq_bind] at h
  split at h
  · cases h
  rename_i hlast
  simp only [ne_eq, not_not] at hlast
  obtain ⟨rest, hrest, htext⟩ := symbols_semicolon hlast
  obtain ⟨⟨prefixConditions, branches, source⟩, hgroup, h⟩ := Option.bind_eq_some_iff.mp h
  obtain ⟨sequence, hsequence, h⟩ := Option.bind_eq_some_iff.mp h
  obtain ⟨⟨tailConditions, outputs⟩, hsorted, h⟩ := Option.bind_eq_some_iff.mp h
  simp only at h
  split at h
  · cases h
  cases h
  refine ⟨sequence, ?_⟩
  unfold parseConditions at hgroup
  split at hgroup
  · cases hgroup
    refine ⟨?_, by simp, by simp, fun _ => rfl, hsorted, parseInstructionLoop_supported hsequence⟩
    rw [htext, symbols_sequence hsequence, hrest]
    simp [groupSymbols]
  · rename_i before inside hopening
    obtain ⟨hleading, hcontacts, hne, after, rfl, hsymbols⟩ := parseBranchGroup_some hgroup
    refine ⟨?_, hleading, hcontacts, fun hnil => absurd hnil hne, hsorted,
      parseInstructionLoop_supported hsequence⟩
    rw [htext, splitBranchOpening_eq hopening, hsymbols, symbols_stripped_end hsequence hrest]

/-! ## Sorting the sequence -/

variable {sequence : List Instruction}

theorem sortInstructions_some {seen : Bool} {conditions outputs : List Instruction}
    (h : sortInstructions seen sequence = some (conditions, outputs)) :
    conditions = sequence.filter (fun i => !i.opcode.isOutput) ∧
      outputs = sequence.filter (fun i => i.opcode.isOutput) := by
  induction sequence generalizing seen conditions outputs with
  | nil =>
    cases h
    exact ⟨rfl, rfl⟩
  | cons i sequence ih =>
    unfold sortInstructions at h
    split at h
    · cases h
    split at h
    · rename_i hi
      obtain ⟨⟨conditions', outputs'⟩, hrest, heq⟩ := Option.map_eq_some_iff.mp h
      cases heq
      obtain ⟨rfl, rfl⟩ := ih hrest
      simp [hi]
    · rename_i hi
      obtain ⟨⟨conditions', outputs'⟩, hrest, heq⟩ := Option.map_eq_some_iff.mp h
      cases heq
      obtain ⟨rfl, rfl⟩ := ih hrest
      simp [hi]

theorem contact_not_output {opcode : Opcode} (h : opcode.isContact = true) :
    opcode.isOutput = false := by
  cases opcode <;> first | rfl | cases h

theorem conditionsFirst_sorted :
    ConditionsFirst sequence ↔ sequence = sequence.filter (fun i => !i.opcode.isOutput) ++
      sequence.filter (fun i => i.opcode.isOutput) := by
  constructor
  · intro h
    induction sequence with
    | nil => rfl
    | cons i sequence ih =>
      obtain ⟨hi, hrest⟩ := pairwise_cons.mp h
      by_cases ho : i.opcode.isOutput = true
      · have hall : ∀ j ∈ sequence, j.opcode.isOutput = true := fun j hj => hi j hj ho
        have hnone : sequence.filter (fun i => !i.opcode.isOutput) = [] :=
          filter_eq_nil_iff.mpr fun j hj => by simp [hall j hj]
        have hsome : sequence.filter (fun i => i.opcode.isOutput) = sequence :=
          filter_eq_self.mpr hall
        simp [ho, hnone, hsome]
      · have hoff : i.opcode.isOutput = false := by simpa using ho
        simpa [hoff] using ih hrest
  · intro h
    unfold ConditionsFirst
    rw [h, pairwise_append]
    refine ⟨?_, ?_, ?_⟩
    · refine List.Pairwise.imp_of_mem ?_ (pairwise_of_forall (R := fun _ _ => True)
        fun _ _ => trivial)
      intro a b ha _ _ hout
      have := (mem_filter.mp ha).2
      simp [hout] at this
    · refine List.Pairwise.imp_of_mem ?_ (pairwise_of_forall (R := fun _ _ => True)
        fun _ _ => trivial)
      intro a b _ hb _ _
      exact (mem_filter.mp hb).2
    · intro a _ b hb _
      exact (mem_filter.mp hb).2

theorem conditionsFirst_append {contacts : List Instruction}
    (h : ∀ i ∈ contacts, i.opcode.isContact = true) :
    ConditionsFirst (contacts ++ sequence) ↔ ConditionsFirst sequence := by
  unfold ConditionsFirst
  rw [pairwise_append]
  constructor
  · intro hall
    exact hall.2.1
  · intro hseq
    refine ⟨?_, hseq, ?_⟩
    · refine List.Pairwise.imp_of_mem ?_ (pairwise_of_forall (R := fun _ _ => True)
        fun _ _ => trivial)
      intro a b ha _ _ hout
      rw [contact_not_output (h a ha)] at hout
      cases hout
    · intro a ha b _ hout
      rw [contact_not_output (h a ha)] at hout
      cases hout

/-! ## Power flow through the parts of a rung -/

section

variable (conducts : Instruction → Bool)

theorem foldl_contacts {contacts : List Instruction}
    (h : ∀ i ∈ contacts, i.opcode.isOutput = false) (flow : PowerFlow) :
    (contacts.map Symbol.instruction).foldl (PowerFlow.step conducts) flow =
      { flow with power := flow.power && contacts.all conducts } := by
  induction contacts generalizing flow with
  | nil => simp
  | cons i contacts ih =>
    have hi := h i (by simp)
    rw [map_cons, foldl_cons, ih (fun j hj => h j (by simp [hj]))]
    simp [PowerFlow.step, hi, Bool.and_assoc]

theorem foldl_outputs {outputs : List Instruction}
    (h : ∀ i ∈ outputs, i.opcode.isOutput = true) (flow : PowerFlow) :
    (outputs.map Symbol.instruction).foldl (PowerFlow.step conducts) flow =
      { flow with driven := flow.driven ++ outputs.map (fun i => (i, flow.power)) } := by
  induction outputs generalizing flow with
  | nil => simp
  | cons i outputs ih =>
    have hi := h i (by simp)
    rw [map_cons, foldl_cons, ih (fun j hj => h j (by simp [hj]))]
    simp [PowerFlow.step, hi]

theorem foldl_paths (hne : branches ≠ [])
    (h : ∀ branch ∈ branches, ∀ i ∈ branch, i.opcode.isOutput = false) (flow : PowerFlow)
    (hpower : flow.power = flow.entry) :
    ((pathSymbols branches ++ [Symbol.closing]).foldl (PowerFlow.step conducts) flow).power =
      (flow.joined || (flow.entry && branches.any (fun branch => branch.all conducts))) ∧
    ((pathSymbols branches ++ [Symbol.closing]).foldl (PowerFlow.step conducts) flow).driven =
      flow.driven := by
  induction branches generalizing flow with
  | nil => exact absurd rfl hne
  | cons branch branches ih =>
    have hbranch := h branch (by simp)
    cases branches with
    | nil =>
      have hpath : pathSymbols [branch] = branch.map .instruction := by
        simp [pathSymbols, intercalate]
      rw [hpath, foldl_append, foldl_contacts conducts hbranch]
      simp [PowerFlow.step, hpower]
    | cons next branches =>
      have hpath : pathSymbols (branch :: next :: branches) =
          branch.map .instruction ++ .comma :: pathSymbols (next :: branches) := by
        unfold pathSymbols
        rw [map_cons, map_cons, intercalate_cons_cons, append_assoc]
        rfl
      rw [hpath, append_assoc, foldl_append, foldl_contacts conducts hbranch,
        cons_append, foldl_cons]
      have hnext := ih (by simp) (fun other ho => h other (by simp [ho]))
        (PowerFlow.step conducts
          { flow with power := flow.power && branch.all conducts } .comma) rfl
      rw [hnext.1, hnext.2]
      simp [PowerFlow.step, hpower, Bool.and_or_distrib_left, Bool.or_assoc]

theorem drivenOutputs_sorted (hleading : ∀ i ∈ rung.prefixConditions, i.opcode.isOutput = false)
    (hbranches : ∀ branch ∈ rung.branches, ∀ i ∈ branch, i.opcode.isOutput = false)
    (htail : ∀ i ∈ rung.tailConditions, i.opcode.isOutput = false)
    (houtputs : ∀ i ∈ rung.outputs, i.opcode.isOutput = true) :
    drivenOutputs conducts (rung.prefixConditions.map .instruction ++
        groupSymbols rung.branches ++
        (rung.tailConditions ++ rung.outputs).map .instruction) =
      rung.outputs.map (fun output => (output, rung.condition conducts)) := by
  unfold drivenOutputs
  rw [foldl_append, foldl_append, foldl_contacts conducts hleading, Bool.true_and,
    map_append, foldl_append]
  by_cases hempty : rung.branches = []
  · simp only [groupSymbols, hempty, isEmpty_nil, if_true, foldl_nil]
    rw [foldl_contacts conducts htail, foldl_outputs conducts houtputs]
    simp [ParsedBooleanRung.condition, hempty]
  · have hgroup : groupSymbols rung.branches =
        .opening :: (pathSymbols rung.branches ++ [.closing]) := by
      simp [groupSymbols, hempty]
    rw [hgroup, foldl_cons]
    have hpaths := foldl_paths conducts hempty hbranches
      (PowerFlow.step conducts
        ⟨rung.prefixConditions.all conducts, true, false, []⟩ .opening) rfl
    rw [foldl_contacts conducts htail, foldl_outputs conducts houtputs, hpaths.1, hpaths.2]
    have hsome : rung.branches.isEmpty = false := by simpa using hempty
    simp [PowerFlow.step, ParsedBooleanRung.condition, hsome]

end

/-! ## Preservation -/

theorem filterMap_instructions (instructions : List Instruction) :
    (instructions.map Symbol.instruction).filterMap Symbol.instruction? = instructions := by
  induction instructions with
  | nil => rfl
  | cons i instructions ih => simp [Symbol.instruction?, ih]

theorem filterMap_paths (branches : List (List Instruction)) :
    (pathSymbols branches).filterMap Symbol.instruction? = branches.flatten := by
  unfold pathSymbols
  induction branches with
  | nil => rfl
  | cons branch branches ih =>
    cases branches with
    | nil =>
      rw [map_cons, map_nil, intercalate_singleton, filterMap_instructions,
        flatten_singleton]
    | cons next branches =>
      rw [map_cons, map_cons, intercalate_cons_cons, filterMap_append,
        filterMap_append, filterMap_instructions, flatten_cons]
      rw [map_cons] at ih
      rw [ih]
      simp [Symbol.instruction?]

theorem filterMap_group (branches : List (List Instruction)) :
    (groupSymbols branches).filterMap Symbol.instruction? = branches.flatten := by
  unfold groupSymbols
  split
  · rename_i hempty
    rw [isEmpty_iff.mp hempty]
    rfl
  · rw [filterMap_cons_none rfl, filterMap_append, filterMap_paths]
    simp [Symbol.instruction?]

theorem Accepted.sourceInstructions_eq (h : Accepted db text rung sequence) :
    sourceInstructions db text =
      (rung.prefixConditions ++ rung.branches.flatten) ++ sequence := by
  unfold sourceInstructions
  rw [h.symbols_eq, filterMap_append, filterMap_append, filterMap_instructions,
    filterMap_instructions, filterMap_group]

/-- A parsed rung keeps the left-to-right meaning of its text exactly when no
condition is written after an output. -/
theorem parseSupportedRung_preserves_iff (db : CharacterDatabase) (text : Text)
    (rung : ParsedBooleanRung) (h : parseSupportedRung db (some text) = some rung) :
    PreservesRung db text rung ↔ ConditionsFirst (sourceInstructions db text) := by
  obtain ⟨sequence, haccepted⟩ := accepted_of h
  obtain ⟨htail, houtputs⟩ := sortInstructions_some haccepted.sorted
  have hcontacts : ∀ i ∈ rung.prefixConditions ++ rung.branches.flatten,
      i.opcode.isContact = true := by
    intro i hi
    rcases mem_append.mp hi with hi | hi
    · exact haccepted.prefixContacts i hi
    · obtain ⟨branch, hbranch, hi⟩ := mem_flatten.mp hi
      exact haccepted.branchContacts branch hbranch i hi
  have hsource := haccepted.sourceInstructions_eq
  have hsorted : ConditionsFirst (sourceInstructions db text) ↔
      sequence = rung.tailConditions ++ rung.outputs := by
    rw [hsource, conditionsFirst_append hcontacts, conditionsFirst_sorted, ← htail, ← houtputs]
  have horder : rung.instructions = sourceInstructions db text ↔
      sequence = rung.tailConditions ++ rung.outputs := by
    rw [hsource, ParsedBooleanRung.instructions, append_assoc _ rung.tailConditions,
      append_cancel_left_eq]
    exact eq_comm
  rw [hsorted]
  constructor
  · intro hpreserves
    exact horder.mp hpreserves.2
  · intro hsequence
    refine ⟨fun conducts => ?_, horder.mpr hsequence⟩
    rw [haccepted.symbols_eq, hsequence]
    apply drivenOutputs_sorted conducts
    · exact fun i hi => contact_not_output (haccepted.prefixContacts i hi)
    · exact fun branch hb i hi => contact_not_output (haccepted.branchContacts branch hb i hi)
    · intro i hi
      rw [htail] at hi
      simpa using (mem_filter.mp hi).2
    · intro i hi
      rw [houtputs] at hi
      exact (mem_filter.mp hi).2

/-- A rung with parallel paths and two outputs, parsed and preserved. -/
theorem parseSupportedRung_preserves_branches :
    PreservesRung Ascii.database "XIC(A)[XIC(B),XIO(C)]GRT(D,1)OTE(E)OTL(F);"
        ⟨[⟨.XIC, "A"⟩], [[⟨.XIC, "B"⟩], [⟨ Opcode.XIO, "C"⟩]], [⟨.GRT, "D,1"⟩],
          [⟨.OTE, "E"⟩, ⟨.OTL, "F"⟩]⟩ ↔
      ConditionsFirst (sourceInstructions Ascii.database
        "XIC(A)[XIC(B),XIO(C)]GRT(D,1)OTE(E)OTL(F);") :=
  parseSupportedRung_preserves_iff Ascii.database _ _ (by decide +kernel)

/-- The comparison written after the first output ends up in front of it. -/
theorem parseSupportedRung_late_comparison :
    parseSupportedRung Ascii.database (some ("XIC(A)OTE(B)EQU(C,D)OTE(E);" : Text)) =
      some ⟨[], [], [⟨.XIC, "A"⟩, ⟨.EQU, "C,D"⟩], [⟨.OTE, "B"⟩, ⟨.OTE, "E"⟩]⟩ ∧
    ¬PreservesRung Ascii.database "XIC(A)OTE(B)EQU(C,D)OTE(E);"
      ⟨[], [], [⟨.XIC, "A"⟩, ⟨.EQU, "C,D"⟩], [⟨.OTE, "B"⟩, ⟨.OTE, "E"⟩]⟩ := by
  constructor
  · decide +kernel
  · intro hpreserves
    have hdriven := hpreserves.1 (fun i => i.opcode == .XIC)
    revert hdriven
    decide +kernel

end TwinForge.Plcopen
