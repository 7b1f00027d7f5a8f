import Mathlib.Data.List.Basic

/-! # Infix expressions

A row of operands with operators between them is grouped to a tree by how tightly its operators
bind, from the left where they bind alike. A second order of the operators groups a row in the same
way unless two operators that bind alike in the first one meet in the wrong order.
-/

namespace TwinForge

open List

inductive Infix (Operand Operator : Type) where
  | operand (value : Operand)
  | node (left : Infix Operand Operator) (operator : Operator) (right : Infix Operand Operator)
  deriving DecidableEq, Repr

namespace Infix

variable {Operand Operator : Type}

/-! ## Rows -/

def first : Infix Operand Operator → Operand
  | .operand value => value
  | .node left _ _ => left.first

def rest : Infix Operand Operator → List (Operator × Operand)
  | .operand _ => []
  | .node left operator right => left.rest ++ (operator, right.first) :: right.rest

def operators : Infix Operand Operator → List Operator
  | .operand _ => []
  | .node left operator right => left.operators ++ operator :: right.operators

def operands : Infix Operand Operator → List Operand
  | .operand value => [value]
  | .node left _ right => left.operands ++ right.operands

def map {Other : Type} (change : Operand → Other) :
    Infix Operand Operator → Infix Other Operator
  | .operand value => .operand (change value)
  | .node left operator right => .node (left.map change) operator (right.map change)

def root : Infix Operand Operator → Option Operator
  | .operand _ => none
  | .node _ operator _ => some operator

theorem operators_eq (tree : Infix Operand Operator) : tree.operators = tree.rest.map Prod.fst := by
  induction tree with
  | operand => rfl
  | node left operator right ihleft ihright =>
    rw [operators, rest, map_append, map_cons, ihleft, ihright]

theorem operands_eq (tree : Infix Operand Operator) :
    tree.operands = tree.first :: tree.rest.map Prod.snd := by
  induction tree with
  | operand => rfl
  | node left operator right ihleft ihright =>
    rw [operands, first, rest, map_append, map_cons, ihleft, ihright, cons_append]

theorem operands_map {Other : Type} (change : Operand → Other) (tree : Infix Operand Operator) :
    (tree.map change).operands = tree.operands.map change := by
  induction tree with
  | operand => rfl
  | node left operator right ihleft ihright =>
    rw [map, operands, operands, map_append, ihleft, ihright]

/-! ## Grouping -/

section

variable (strength : Operator → Nat)

/-- Both sides bind at least as tightly as the root, the right one more tightly. -/
inductive Grouped : Infix Operand Operator → Prop where
  | operand (value) : Grouped (.operand value)
  | node {left operator right} (hleft : Grouped left) (hright : Grouped right)
      (hfirst : ∀ inner ∈ left.root, strength operator ≤ strength inner)
      (hlast : ∀ inner ∈ right.root, strength operator < strength inner) :
      Grouped (.node left operator right)

/-- One more operand, behind an operator that takes what binds at least as tightly. -/
def snoc (operator : Operator) (value : Operand) :
    Infix Operand Operator → Infix Operand Operator
  | .operand first => .node (.operand first) operator (.operand value)
  | .node left inner right =>
    if strength inner < strength operator then .node left inner (snoc operator value right)
    else .node (.node left inner right) operator (.operand value)

def group (first : Operand) (rest : List (Operator × Operand)) : Infix Operand Operator :=
  rest.foldl (fun tree step => snoc strength step.1 step.2 tree) (.operand first)

end

variable {strength : Operator → Nat}

theorem first_snoc (operator : Operator) (value : Operand) (tree : Infix Operand Operator) :
    (snoc strength operator value tree).first = tree.first := by
  cases tree with
  | operand => rfl
  | node left inner right =>
    unfold snoc
    split <;> rfl

theorem rest_snoc (operator : Operator) (value : Operand) (tree : Infix Operand Operator) :
    (snoc strength operator value tree).rest = tree.rest ++ [(operator, value)] := by
  induction tree with
  | operand => rfl
  | node left inner right _ ih =>
    unfold snoc
    split
    · rw [rest, ih, first_snoc, rest]
      simp
    · rfl

variable {operator : Operator} {value : Operand} {tree : Infix Operand Operator}

/-- The root after one more operand: the new operator, or an old one that binds less tightly. -/
theorem root_snoc {inner : Operator} (h : inner ∈ (snoc strength operator value tree).root) :
    inner = operator ∨ inner ∈ tree.root := by
  cases tree with
  | operand first =>
    cases h
    exact .inl rfl
  | node left old right =>
    unfold snoc at h
    split at h
    · exact .inr h
    · cases h
      exact .inl rfl

theorem snoc_grouped
    (h : Grouped strength tree) : Grouped strength (snoc strength operator value tree) := by
  induction h with
  | operand first => exact .node (.operand _) (.operand _) (by simp [root]) (by simp [root])
  | @node left inner right hleft hright hfirst hlast _ ih =>
    unfold snoc
    split
    · next htighter =>
      refine .node hleft ih hfirst ?_
      intro found hfound
      cases root_snoc hfound with
      | inl hnew => exact hnew ▸ htighter
      | inr hold => exact hlast found hold
    · next hlooser =>
      refine .node (.node hleft hright hfirst hlast) (.operand _) ?_ (by simp [root])
      intro found hfound
      cases hfound
      omega

theorem foldl_snoc (tree : Infix Operand Operator) (steps : List (Operator × Operand))
    (h : Grouped strength tree) :
    let result := steps.foldl (fun tree step => snoc strength step.1 step.2 tree) tree
    Grouped strength result ∧ result.first = tree.first ∧ result.rest = tree.rest ++ steps := by
  induction steps generalizing tree with
  | nil => exact ⟨h, rfl, (append_nil _).symm⟩
  | cons step steps ih =>
    obtain ⟨hgrouped, hfirst, hrest⟩ := ih (snoc strength step.1 step.2 tree) (snoc_grouped h)
    refine ⟨hgrouped, hfirst.trans (first_snoc ..), ?_⟩
    rw [rest_snoc, append_assoc] at hrest
    exact hrest

theorem group_spec (first : Operand) (rest : List (Operator × Operand)) :
    Grouped strength (group strength first rest) ∧ (group strength first rest).first = first ∧
      (group strength first rest).rest = rest :=
  foldl_snoc (.operand first) rest (.operand first)

theorem root_isSome (h : operator ∈ tree.operators) : ∃ inner, inner ∈ tree.root := by
  cases tree with
  | operand => cases h
  | node left inner right => exact ⟨inner, rfl⟩

theorem root_le (h : Grouped strength tree) {inner : Operator} (hroot : inner ∈ tree.root) :
    ∀ operator ∈ tree.operators, strength inner ≤ strength operator := by
  induction h generalizing inner with
  | operand => cases hroot
  | @node left operator right _ _ hfirst hlast ihleft ihright =>
    cases hroot
    intro found hfound
    rw [operators, mem_append, mem_cons] at hfound
    obtain hbefore | rfl | hafter := hfound
    · obtain ⟨inner, hinner⟩ := root_isSome hbefore
      exact Nat.le_trans (hfirst inner hinner) (ihleft hinner found hbefore)
    · exact Nat.le_refl _
    · obtain ⟨inner, hinner⟩ := root_isSome hafter
      exact Nat.le_trans (Nat.le_of_lt (hlast inner hinner)) (ihright hinner found hafter)

variable {left : Infix Operand Operator}

theorem left_le {right : Infix Operand Operator}
    (h : Grouped strength (.node left operator right)) :
    ∀ inner ∈ left.operators, strength operator ≤ strength inner := by
  intro inner hinner
  exact root_le h rfl inner (mem_append_left _ hinner)

theorem right_lt {right : Infix Operand Operator}
    (h : Grouped strength (.node left operator right)) :
    ∀ inner ∈ right.operators, strength operator < strength inner := by
  cases h with
  | node _ hright _ hlast =>
    intro inner hinner
    obtain ⟨outer, houter⟩ := root_isSome hinner
    exact Nat.lt_of_lt_of_le (hlast outer houter) (root_le hright houter inner hinner)

theorem foldl_snoc_right {steps : List (Operator × Operand)}
    (h : ∀ inner ∈ steps.map Prod.fst, strength operator < strength inner) :
    steps.foldl (fun tree step => snoc strength step.1 step.2 tree) (.node left operator tree) =
      .node left operator
        (steps.foldl (fun tree step => snoc strength step.1 step.2 tree) tree) := by
  induction steps generalizing tree with
  | nil => rfl
  | cons step steps ih =>
    have htighter : strength operator < strength step.1 := h step.1 (by simp)
    rw [foldl_cons, snoc, if_pos htighter]
    exact ih fun inner hinner => h inner (mem_cons_of_mem _ hinner)

theorem snoc_looser (h : ∀ inner ∈ tree.root, strength operator ≤ strength inner) :
    snoc strength operator value tree = .node tree operator (.operand value) := by
  cases tree with
  | operand => rfl
  | node left inner right =>
    have hlooser : ¬ strength inner < strength operator := Nat.not_lt.mpr (h inner rfl)
    rw [snoc, if_neg hlooser]

theorem group_eq (h : Grouped strength tree) :
    group strength tree.first tree.rest = tree := by
  induction h with
  | operand => rfl
  | @node left operator right hleft hright hfirst hlast ihleft ihright =>
    have hright : ∀ inner ∈ right.rest.map Prod.fst, strength operator < strength inner := by
      rw [← operators_eq]
      exact right_lt (.node hleft hright hfirst hlast)
    have hsplit : group strength left.first left.rest = left := ihleft
    unfold group at hsplit ihright ⊢
    rw [first, rest, foldl_append, hsplit, foldl_cons, snoc_looser hfirst,
      foldl_snoc_right hright, ihright]

theorem map_snoc {Other : Type} (change : Operand → Other) (operator : Operator) (value : Operand)
    (tree : Infix Operand Operator) :
    (snoc strength operator value tree).map change =
      snoc strength operator (change value) (tree.map change) := by
  induction tree with
  | operand => rfl
  | node left inner right _ ih =>
    rw [map, snoc, snoc]
    split
    · rw [map, ih]
    · rfl

theorem map_group {Other : Type} (change : Operand → Other) (first : Operand)
    (rest : List (Operator × Operand)) :
    (group strength first rest).map change =
      group strength (change first) (rest.map (Prod.map id change)) := by
  unfold group
  rw [foldl_map, ← map.eq_1 change first]
  generalize Infix.operand first = tree
  induction rest generalizing tree with
  | nil => rfl
  | cons step rest ih =>
    rw [foldl_cons, foldl_cons, ih, map_snoc]
    rfl

/-! ## Two orders -/

variable (coarse fine : Operator → Nat)

/-- Two operators that the coarse order binds alike, of which the fine order binds the later one
more tightly, with nothing between them that binds less tightly. -/
def Conflict (operators : List Operator) : Prop :=
  ∃ before earlier between later after,
    operators = before ++ earlier :: (between ++ later :: after) ∧
      coarse earlier = coarse later ∧ fine earlier < fine later ∧
        ∀ inner ∈ between, coarse earlier ≤ coarse inner

variable {coarse fine}

theorem Conflict.before {operators : List Operator} (h : Conflict coarse fine operators)
    (more : List Operator) : Conflict coarse fine (more ++ operators) := by
  obtain ⟨front, earlier, between, later, back, rfl, hbinds⟩ := h
  exact ⟨more ++ front, earlier, between, later, back, by rw [append_assoc], hbinds⟩

theorem Conflict.after {operators : List Operator} (h : Conflict coarse fine operators)
    (more : List Operator) : Conflict coarse fine (operators ++ more) := by
  obtain ⟨front, earlier, between, later, back, rfl, hbinds⟩ := h
  exact ⟨front, earlier, between, later, back ++ more, by simp, hbinds⟩

theorem fine_of_conflictless (hrefines : ∀ first second : Operator,
      coarse first < coarse second → fine first < fine second) (h : Grouped coarse tree)
    (hconflict : ¬ Conflict coarse fine tree.operators) : Grouped fine tree := by
  induction h with
  | operand value => exact .operand value
  | @node left operator right hleft hright hfirst hlast ihleft ihright =>
    rw [operators] at hconflict
    have hleftFine := ihleft fun h => hconflict (h.after (operator :: right.operators))
    have hrightFine := ihright fun h => hconflict (by
      simpa using h.before (left.operators ++ [operator]))
    refine .node hleftFine hrightFine ?_ fun inner hinner => hrefines _ _ (hlast inner hinner)
    intro inner hinner
    by_contra hless
    rw [Nat.not_le] at hless
    cases left with
    | operand => cases hinner
    | node front root back =>
      cases hinner
      have hsame : coarse inner = coarse operator := by
        have hle := hfirst inner rfl
        by_contra hdifferent
        have hcontrary := hrefines operator inner (by omega)
        omega
      apply hconflict
      refine ⟨front.operators, inner, back.operators, operator, right.operators, ?_, hsame,
        hless, ?_⟩
      · rw [operators, append_assoc, cons_append]
      · exact fun between hbetween => Nat.le_of_lt (right_lt hleft between hbetween)

/-- A row that is cut at its root and at a place of its own is cut before, at or behind the root. -/
theorem cut_cases {Item : Type} {left right before after : List Item} {root item : Item}
    (h : before ++ item :: after = left ++ root :: right) :
    (∃ cut, left = before ++ item :: cut ∧ after = cut ++ root :: right) ∨
      (before = left ∧ item = root ∧ after = right) ∨
      ∃ cut, before = left ++ root :: cut ∧ right = cut ++ item :: after := by
  obtain ⟨cut, hleft, hrest⟩ | ⟨cut, hbefore, hrest⟩ := append_eq_append_iff.mp h
  · cases cut with
    | nil =>
      rw [nil_append, List.cons.injEq] at hrest
      exact .inr (.inl ⟨by rw [hleft, append_nil], hrest.1, hrest.2⟩)
    | cons first cut =>
      rw [cons_append, List.cons.injEq] at hrest
      obtain ⟨rfl, hrest⟩ := hrest
      exact .inl ⟨cut, hleft, hrest⟩
  · cases cut with
    | nil =>
      rw [nil_append, List.cons.injEq] at hrest
      exact .inr (.inl ⟨by rw [hbefore, append_nil], hrest.1.symm, hrest.2.symm⟩)
    | cons first cut =>
      rw [cons_append, List.cons.injEq] at hrest
      obtain ⟨rfl, hrest⟩ := hrest
      exact .inr (.inr ⟨cut, hbefore, hrest⟩)

theorem conflictless_of_fine (h : Grouped coarse tree)
    (hfine : Grouped fine tree) : ¬ Conflict coarse fine tree.operators := by
  induction h with
  | operand =>
    intro hconflict
    obtain ⟨before, earlier, between, later, after, hrow, _⟩ := hconflict
    simp [operators] at hrow
  | @node left operator right hleft hright hfirst hlast ihleft ihright =>
    have hcoarse : Grouped coarse (.node left operator right) := .node hleft hright hfirst hlast
    have hleftFine : Grouped fine left := by
      cases hfine with
      | node hleftFine _ _ _ => exact hleftFine
    have hrightFine : Grouped fine right := by
      cases hfine with
      | node _ hrightFine _ _ => exact hrightFine
    intro hconflict
    obtain ⟨before, earlier, between, later, after, hrow, hsame, hless, hbetween⟩ := hconflict
    rw [operators] at hrow
    obtain ⟨cut, hleftCut, hrest⟩ | ⟨_, rfl, hrest⟩ | ⟨cut, _, hrest⟩ := cut_cases hrow.symm
    · have hearlier : earlier ∈ left.operators := by simp [hleftCut]
      obtain ⟨last, hcut, _⟩ | ⟨_, rfl, _⟩ | ⟨last, hmiddle, hlater⟩ := cut_cases hrest
      · apply ihleft hleftFine
        exact ⟨before, earlier, between, later, last, by rw [hleftCut, hcut], hsame, hless,
          hbetween⟩
      · have hle := left_le hfine earlier hearlier
        omega
      · have hlt := right_lt hcoarse later (by simp [hlater])
        have hle := hbetween operator (by simp [hmiddle])
        omega
    · have hlt := right_lt hcoarse later (by simp [← hrest])
      omega
    · apply ihright hrightFine
      exact ⟨cut, earlier, between, later, after, hrest, hsame, hless, hbetween⟩

theorem group_eq_iff (hrefines : ∀ first second : Operator,
      coarse first < coarse second → fine first < fine second)
    (first : Operand) (rest : List (Operator × Operand)) :
    group coarse first rest = group fine first rest ↔
      ¬ Conflict coarse fine (rest.map Prod.fst) := by
  obtain ⟨hgrouped, hfirst, hrest⟩ := @group_spec _ _ coarse first rest
  have hoperators : (group coarse first rest).operators = rest.map Prod.fst := by
    rw [operators_eq, hrest]
  rw [← hoperators]
  constructor
  · intro hsame
    have hfine := (@group_spec _ _ fine first rest).1
    rw [← hsame] at hfine
    exact conflictless_of_fine hgrouped hfine
  · intro hconflict
    have heq := group_eq (fine_of_conflictless hrefines hgrouped hconflict)
    rw [hfirst, hrest] at heq
    exact heq.symm

end Infix

end TwinForge
