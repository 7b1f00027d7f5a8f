import TwinForge.Plcopen.Rll

/-! # What rung text means from left to right

The instructions and branch signs of a rung are read off its text without the
parser. Power flows through them from the left: a condition lets it through or
not, a parallel group joins its paths, an output is driven by what reaches it.
-/

namespace TwinForge.Plcopen

open List

inductive Symbol where
  | opening
  | comma
  | closing
  | instruction (instruction : Instruction)
deriving DecidableEq, Repr

def branchSymbol (character : Char) : List Symbol :=
  if character = '[' then [.opening]
  else if character = ',' then [.comma]
  else if character = ']' then [.closing]
  else []

section

variable (db : CharacterDatabase)

/-- Instructions and branch signs in text order; other characters are passed over. -/
def symbolsLoop : Nat → Text → List Symbol
  | 0, _ => []
  | fuel + 1, text =>
    match matchInstruction db text with
    | some (opcode, body, rest) =>
      .instruction ⟨opcode, db.strip body⟩ :: symbolsLoop fuel rest
    | none =>
      match text with
      | [] => []
      | character :: rest => branchSymbol character ++ symbolsLoop fuel rest

def symbols (text : Text) : List Symbol := symbolsLoop db text.length text

def Symbol.instruction? : Symbol → Option Instruction
  | .instruction i => some i
  | _ => none

def sourceInstructions (text : Text) : List Instruction :=
  (symbols db text).filterMap Symbol.instruction?

end

/-! ## Power flow -/

structure PowerFlow where
  /-- Power at the current place of the rung. -/
  power : Bool
  /-- Power where the current parallel group opened. -/
  entry : Bool
  /-- Power at the end of some finished path of the group. -/
  joined : Bool
  /-- The outputs met so far, with the power that reached them. -/
  driven : List (Instruction × Bool)

def PowerFlow.step (conducts : Instruction → Bool) (flow : PowerFlow) : Symbol → PowerFlow
  | .opening => { flow with entry := flow.power, joined := false }
  | .comma => { flow with joined := flow.joined || flow.power, power := flow.entry }
  | .closing => { flow with power := flow.joined || flow.power }
  | .instruction instruction =>
    if instruction.opcode.isOutput then
      { flow with driven := flow.driven ++ [(instruction, flow.power)] }
    else { flow with power := flow.power && conducts instruction }

def drivenOutputs (conducts : Instruction → Bool) (rung : List Symbol) :
    List (Instruction × Bool) :=
  (rung.foldl (PowerFlow.step conducts) ⟨true, true, false, []⟩).driven

def ParsedBooleanRung.condition (rung : ParsedBooleanRung) (conducts : Instruction → Bool) : Bool :=
  rung.prefixConditions.all conducts &&
    (rung.branches.isEmpty || rung.branches.any (fun branch => branch.all conducts)) &&
    rung.tailConditions.all conducts

/-- The parsed rung drives the outputs the text drives, under the same conditions,
and lists the instructions of the text in order. -/
def PreservesRung (db : CharacterDatabase) (text : Text) (rung : ParsedBooleanRung) : Prop :=
  (∀ conducts, drivenOutputs conducts (symbols db text) =
    rung.outputs.map (fun output => (output, rung.condition conducts))) ∧
  rung.instructions = sourceInstructions db text

/-- No condition is written after an output. -/
def ConditionsFirst (instructions : List Instruction) : Prop :=
  instructions.Pairwise (fun earlier later =>
    earlier.opcode.isOutput = true → later.opcode.isOutput = true)

/-! ## The instruction pattern and what surrounds it -/

section

variable {db : CharacterDatabase} {s rest : Text} {c : Char}

theorem dropWhile_append {p : Char → Bool} (h : s.dropWhile p = c :: rest) (more : Text) :
    (s ++ more).dropWhile p = c :: (rest ++ more) := by
  induction s with
  | nil => cases h
  | cons d s ih =>
    by_cases hd : p d = true
    · rw [dropWhile_cons_of_pos hd] at h
      rw [cons_append, dropWhile_cons_of_pos hd]
      exact ih h
    · rw [dropWhile_cons_of_neg hd] at h
      rw [cons_append, dropWhile_cons_of_neg hd]
      cases h
      rfl

theorem takeWhile_append {p : Char → Bool} (h : s.dropWhile p = c :: rest) (more : Text) :
    (s ++ more).takeWhile p = s.takeWhile p := by
  induction s with
  | nil => cases h
  | cons d s ih =>
    by_cases hd : p d = true
    · rw [dropWhile_cons_of_pos hd] at h
      rw [cons_append, takeWhile_cons_of_pos hd, takeWhile_cons_of_pos hd, ih h]
    · rw [cons_append, takeWhile_cons_of_neg hd, takeWhile_cons_of_neg hd]

theorem length_dropWhile_le (p : Char → Bool) (s : Text) : (s.dropWhile p).length ≤ s.length :=
  (dropWhile_sublist p).length_le

/-- What a match of the instruction pattern says about the text. -/
structure Matched (db : CharacterDatabase) (text : Text) (opcode : Opcode) (body rest : Text) :
    Prop where
  word : ∃ a b c tail, text.dropWhile db.isSpace = a :: b :: c :: tail ∧
    Opcode.ofText [a, b, c] = some opcode ∧
    ∃ inner, tail.dropWhile db.isSpace = '(' :: inner ∧
      inner.dropWhile (fun character => !isParenthesis character) = ')' :: rest ∧
      inner.takeWhile (fun character => !isParenthesis character) = body

variable {opcode : Opcode}

theorem ofText_length (h : Opcode.ofText s = some opcode) :
    s.length = 3 := by
  obtain ⟨before, after, hsplit, -⟩ := lookup_eq_some_iff.mp h
  have hall : ∀ entry ∈ Opcode.spellings, entry.1.length = 3 := by decide
  exact hall (s, opcode) (hsplit ▸ by simp)

theorem ofText_head (h : Opcode.ofText s = some opcode)
    (hc : s.head? = some c) : c ∉ ['[', ',', ']', ';'] := by
  obtain ⟨before, after, hsplit, -⟩ := lookup_eq_some_iff.mp h
  have hall : ∀ entry ∈ Opcode.spellings,
      entry.1.head?.all (fun head => decide (head ∉ ['[', ',', ']', ';'])) = true := by decide
  have hhead := hall (s, opcode) (hsplit ▸ by simp)
  rw [hc] at hhead
  exact of_decide_eq_true hhead

variable {text body : Text}

theorem matched_of (h : matchInstruction db text = some (opcode, body, rest)) :
    Matched db text opcode body rest := by
  unfold matchInstruction at h
  simp only [Option.bind_eq_bind, Option.bind_eq_some_iff] at h
  obtain ⟨op, hop, h⟩ := h
  generalize hw : text.dropWhile db.isSpace = word at hop h
  have hlen := ofText_length hop
  rw [length_take] at hlen
  match word, hw with
  | [], _ => simp at hlen
  | [_], _ => simp at hlen
  | [_, _], _ => simp at hlen
  | a :: b :: c :: tail, hw =>
    simp only [drop_succ_cons, drop_zero] at h
    split at h
    · rename_i inner hinner
      split at h
      · rename_i last hlast
        simp only [Option.some.injEq, Prod.mk.injEq] at h
        obtain ⟨rfl, hbody, rfl⟩ := h
        exact ⟨a, b, c, tail, hw, by simpa using hop, inner, hinner, hlast, hbody⟩
      · cases h
    · cases h

theorem Matched.eq (h : Matched db text opcode body rest) :
    matchInstruction db text = some (opcode, body, rest) := by
  obtain ⟨a, b, c, tail, hw, hop, inner, hinner, hlast, hbody⟩ := h.word
  unfold matchInstruction
  simp [hw, hop, hinner, hlast, hbody]

theorem matchInstruction_append
    (h : matchInstruction db text = some (opcode, body, rest)) (more : Text) :
    matchInstruction db (text ++ more) = some (opcode, body, rest ++ more) := by
  obtain ⟨a, b, c, tail, hw, hop, inner, hinner, hlast, hbody⟩ := (matched_of h).word
  have hword : (text ++ more).dropWhile db.isSpace = a :: b :: c :: (tail ++ more) :=
    dropWhile_append hw more
  have hmatched : Matched db (text ++ more) opcode body (rest ++ more) := by
    refine ⟨a, b, c, tail ++ more, hword, hop, inner ++ more, dropWhile_append hinner more,
      dropWhile_append hlast more, ?_⟩
    rw [takeWhile_append hlast more, hbody]
  exact hmatched.eq

theorem matchInstruction_length
    (h : matchInstruction db text = some (opcode, body, rest)) : rest.length < text.length := by
  obtain ⟨a, b, c, tail, hw, hop, inner, hinner, hlast, hbody⟩ := (matched_of h).word
  have h₁ := length_dropWhile_le db.isSpace text
  have h₂ := length_dropWhile_le db.isSpace tail
  have h₃ := length_dropWhile_le (fun character => !isParenthesis character) inner
  rw [hw] at h₁
  rw [hinner] at h₂
  rw [hlast] at h₃
  simp only [length_cons] at h₁ h₂ h₃
  omega

theorem not_space_of_mem (h : c ∈ ['[', ',', ']', ';']) : db.isSpace c = false := by
  have hascii : c.toNat < 128 ∧ Ascii.isSpace c = false := by
    simp only [mem_cons, not_mem_nil, or_false] at h
    rcases h with rfl | rfl | rfl | rfl <;> decide
  rw [db.space_ascii c hascii.1, hascii.2]

theorem matchInstruction_sign (h : c ∈ ['[', ',', ']', ';']) (rest : Text) :
    matchInstruction db (c :: rest) = none := by
  cases hm : matchInstruction db (c :: rest) with
  | none => rfl
  | some found =>
    obtain ⟨opcode, body, after⟩ := found
    obtain ⟨a, b, d, tail, hw, hop, -⟩ := (matched_of hm).word
    rw [dropWhile_cons_of_neg (by simp [not_space_of_mem h])] at hw
    obtain ⟨rfl, -⟩ := List.cons.inj hw
    exact absurd h (ofText_head hop rfl)

theorem matchInstruction_space (h : db.isSpace c = true) (rest : Text) :
    matchInstruction db (c :: rest) = matchInstruction db rest := by
  unfold matchInstruction
  rw [dropWhile_cons_of_pos h]

/-! ## Reading symbols off a text -/

theorem symbolsLoop_eq (fuel : Nat) (text : Text) (h : text.length ≤ fuel) :
    symbolsLoop db fuel text = symbols db text := by
  induction hn : text.length using Nat.strongRecOn generalizing text fuel with
  | ind n ih =>
    cases fuel with
    | zero =>
      have hnil : text = [] := length_eq_zero_iff.mp (by omega)
      rw [hnil]
      rfl
    | succ fuel =>
      cases text with
      | nil =>
        have hnone : matchInstruction db [] = none := rfl
        simp [symbolsLoop, symbols, hnone]
      | cons c rest =>
        simp only [length_cons] at h hn
        rw [symbols, length_cons, symbolsLoop, symbolsLoop]
        cases hm : matchInstruction db (c :: rest) with
        | none =>
          simp only
          rw [ih rest.length (by omega) fuel rest (by omega) rfl,
            ih rest.length (by omega) rest.length rest (Nat.le_refl _) rfl]
        | some found =>
          obtain ⟨opcode, body, after⟩ := found
          have hlen := matchInstruction_length hm
          rw [length_cons] at hlen
          simp only
          rw [ih after.length (by omega) fuel after (by omega) rfl,
            ih after.length (by omega) rest.length after (by omega) rfl]

theorem symbols_match (h : matchInstruction db text = some (opcode, body, rest)) :
    symbols db text = .instruction ⟨opcode, db.strip body⟩ :: symbols db rest := by
  have hlen := matchInstruction_length h
  cases text with
  | nil => exact absurd hlen (Nat.not_lt_zero _)
  | cons c text =>
    rw [length_cons] at hlen
    rw [symbols, length_cons, symbolsLoop, h]
    simp only
    rw [symbolsLoop_eq text.length rest (by omega)]

theorem symbols_skip (h : matchInstruction db (c :: rest) = none) :
    symbols db (c :: rest) = branchSymbol c ++ symbols db rest := by
  rw [symbols, length_cons, symbolsLoop, h]
  rfl

theorem symbols_sign (h : c ∈ ['[', ',', ']', ';']) (rest : Text) :
    symbols db (c :: rest) = branchSymbol c ++ symbols db rest :=
  symbols_skip (matchInstruction_sign h rest)

theorem symbols_space (h : db.isSpace c = true) (rest : Text) :
    symbols db (c :: rest) = symbols db rest := by
  have hsign : branchSymbol c = [] := by
    have hne : ∀ d ∈ ['[', ',', ']', ';'], c ≠ d := by
      intro d hd hcd
      rw [hcd, not_space_of_mem hd] at h
      cases h
    simp [branchSymbol, hne]
  cases hm : matchInstruction db (c :: rest) with
  | none => rw [symbols_skip hm, hsign, nil_append]
  | some found =>
    obtain ⟨opcode, body, after⟩ := found
    rw [symbols_match hm]
    rw [matchInstruction_space h] at hm
    rw [symbols_match hm]

theorem symbols_spaces {blank : Text} (h : ∀ c ∈ blank, db.isSpace c = true) (rest : Text) :
    symbols db (blank ++ rest) = symbols db rest := by
  induction blank with
  | nil => rfl
  | cons c blank ih =>
    rw [cons_append, symbols_space (h c (by simp)), ih (fun d hd => h d (by simp [hd]))]

theorem symbols_sequence {fuel : Nat} {instructions : List Instruction}
    (h : parseInstructionLoop db fuel text = some instructions) (more : Text) :
    symbols db (text ++ more) = instructions.map .instruction ++ symbols db more := by
  induction fuel generalizing text instructions with
  | zero =>
    cases text with
    | nil => cases h; rfl
    | cons c text => cases h
  | succ fuel ih =>
    cases text with
    | nil => cases h; rfl
    | cons c text =>
      rw [parseInstructionLoop] at h
      simp only [Option.bind_eq_bind, Option.bind_eq_some_iff] at h
      obtain ⟨⟨opcode, body, rest⟩, hm, h⟩ := h
      simp only at h
      split at h
      · obtain ⟨found, hrest, h⟩ := Option.bind_eq_some_iff.mp h
        cases h
        rw [symbols_match (matchInstruction_append hm more), ih hrest]
        rfl
      · cases h

theorem strip_split (db : CharacterDatabase) (text : Text) : ∃ before after,
    text = before ++ (db.strip text ++ after) ∧ (∀ c ∈ before, db.isSpace c = true) ∧
    ∀ c ∈ after, db.isSpace c = true := by
  let inner := text.dropWhile db.isSpace
  refine ⟨text.takeWhile db.isSpace, (inner.reverse.takeWhile db.isSpace).reverse, ?_,
    fun c hc => mem_takeWhile_imp hc, ?_⟩
  · have hinner : db.strip text ++ (inner.reverse.takeWhile db.isSpace).reverse = inner := by
      show (inner.reverse.dropWhile db.isSpace).reverse ++ _ = inner
      rw [← reverse_append, takeWhile_append_dropWhile, reverse_reverse]
    rw [hinner, takeWhile_append_dropWhile]
  · intro c hc
    exact mem_takeWhile_imp (mem_reverse.mp hc)

theorem symbols_stripped {instructions : List Instruction} {more : Text}
    (h : parseInstructionSequence db (db.strip text) = some instructions) :
    symbols db (text ++ c :: more) = instructions.map .instruction ++ symbols db (c :: more) := by
  obtain ⟨before, after, htext, hbefore, hafter⟩ := strip_split db text
  rw [htext, append_assoc, symbols_spaces hbefore, append_assoc, symbols_sequence h,
    symbols_spaces hafter]

end

end TwinForge.Plcopen
