import Mathlib.Logic.Function.Basic
import TwinForge.Foundation.Text

/-! # Bodies of function blocks

A small Structured Text: assignments and conditionals over names that a frame resolves to
places of a memory. A name may be bound to a place outside the block, and several names to
one place. Bodies render to source lines, and an assignment through a reference does what
the assignment itself does as long as the reference is bound to the same place.
-/

namespace TwinForge.BlockBody

variable {Name Place : Type}

inductive Value where
  | bool (b : Bool)
  | int (n : Int)
  | word (w : BitVec 16)
  | words (table : List (BitVec 16))
  deriving DecidableEq

inductive Operator where
  | and | atLeast | equal | different | plus | minus
  deriving DecidableEq

def Operator.text : Operator → Text
  | .and => "AND"
  | .atLeast => ">="
  | .equal => "="
  | .different => "<>"
  | .plus => "+"
  | .minus => "-"

inductive Term (Name : Type) where
  | name (name : Name)
  | bool (b : Bool)
  | int (n : Nat)
  /-- A typed literal, with its spelling. -/
  | word (spelling : Text) (w : BitVec 16)
  | element (table : Name) (position : Term Name)
  | not (operand : Term Name)
  | binary (left : Term Name) (operator : Operator) (right : Term Name)
  | parenthesized (term : Term Name)
  /-- `__ISVALIDREF`: whether a reference is bound. -/
  | valid (name : Name)

mutual

inductive Body (Name : Type) where
  | done
  | assign (target : Name) (value : Term Name) (next : Body Name)
  | branch (chain : Chain Name) (next : Body Name)

/-- The branches of one conditional. -/
inductive Chain (Name : Type) where
  | last
  | otherwise (body : Body Name)
  | when (condition : Term Name) (body : Body Name) (more : Chain Name)

end

def assigns (assignments : List (Name × Term Name)) (next : Body Name) : Body Name :=
  assignments.foldr (fun (target, value) rest => .assign target value rest) next

section Meaning

def Operator.apply : Operator → Value → Value → Option Value
  | .and, .bool a, .bool b => some (.bool (a && b))
  | .and, .word a, .word b => some (.word (a &&& b))
  | .atLeast, .int a, .int b => some (.bool (decide (b ≤ a)))
  | .equal, .int a, .int b => some (.bool (decide (a = b)))
  | .different, .word a, .word b => some (.bool (decide (a ≠ b)))
  | .plus, .int a, .int b => some (.int (a + b))
  | .minus, .int a, .int b => some (.int (a - b))
  | _, _, _ => none

/-- The element at a position of a table, where there is one. -/
def elementAt : Value → Value → Option Value
  | .words table, .int position =>
    if 0 ≤ position then table[position.toNat]?.map .word else none
  | _, _ => none

def negate : Value → Option Value
  | .bool b => some (.bool !b)
  | _ => none

section

variable (a b : Bool) (m n : Int) (v w : BitVec 16)

@[simp] theorem apply_and_bool : Operator.and.apply (.bool a) (.bool b) = some (.bool (a && b)) :=
  rfl

@[simp] theorem apply_and_word : Operator.and.apply (.word v) (.word w) = some (.word (v &&& w)) :=
  rfl

@[simp] theorem apply_atLeast :
    Operator.atLeast.apply (.int m) (.int n) = some (.bool (decide (n ≤ m))) := rfl

@[simp] theorem apply_equal :
    Operator.equal.apply (.int m) (.int n) = some (.bool (decide (m = n))) := rfl

@[simp] theorem apply_different :
    Operator.different.apply (.word v) (.word w) = some (.bool (decide (v ≠ w))) := rfl

@[simp] theorem apply_plus : Operator.plus.apply (.int m) (.int n) = some (.int (m + n)) := rfl

@[simp] theorem apply_minus : Operator.minus.apply (.int m) (.int n) = some (.int (m - n)) := rfl

@[simp] theorem negate_bool : negate (.bool a) = some (.bool !a) := rfl

end

variable (frame : Name → Option Place)

def Term.eval (memory : Place → Value) : Term Name → Option Value
  | .name n => (frame n).map memory
  | .bool b => some (.bool b)
  | .int n => some (.int n)
  | .word _ w => some (.word w)
  | .element table position => do
    let words ← (frame table).map memory
    let index ← position.eval memory
    elementAt words index
  | .not operand => do negate (← operand.eval memory)
  | .binary left operator right => do
    operator.apply (← left.eval memory) (← right.eval memory)
  | .parenthesized term => term.eval memory
  | .valid n => some (.bool (frame n).isSome)

variable [DecidableEq Place]

mutual

/-- The memory a body leaves; `none` where a name is unbound or a value of the wrong type. -/
def Body.exec : Body Name → (Place → Value) → Option (Place → Value)
  | .done, memory => some memory
  | .assign target value next, memory => do
    let result ← value.eval frame memory
    let place ← frame target
    next.exec (Function.update memory place result)
  | .branch chain next, memory => do next.exec (← chain.exec memory)

def Chain.exec : Chain Name → (Place → Value) → Option (Place → Value)
  | .last, memory => some memory
  | .otherwise body, memory => body.exec memory
  | .when condition body more, memory =>
    match condition.eval frame memory with
    | some (.bool true) => body.exec memory
    | some (.bool false) => more.exec memory
    | _ => none

end

end Meaning

section Rendering

variable (spell : Name → Text)

def Term.text : Term Name → Text
  | .name n => spell n
  | .bool b => if b then "TRUE" else "FALSE"
  | .int n => decimal n
  | .word spelling _ => spelling
  | .element table position => spell table ++ ("[" : Text) ++ position.text ++ ("]" : Text)
  | .not operand => ("NOT " : Text) ++ operand.text
  | .binary left operator right =>
    left.text ++ (" " : Text) ++ operator.text ++ (" " : Text) ++ right.text
  | .parenthesized term => ("(" : Text) ++ term.text ++ (")" : Text)
  | .valid n => ("__ISVALIDREF(" : Text) ++ spell n ++ (")" : Text)

def indent (depth : Nat) : Text := List.replicate (4 * depth) ' '

mutual

def Body.lines (depth : Nat) : Body Name → List Text
  | .done => []
  | .assign target value next =>
    (indent depth ++ spell target ++ (" := " : Text) ++ value.text spell ++ (";" : Text)) ::
      next.lines depth
  | .branch chain next => chain.lines depth "IF " ++ next.lines depth

/-- The lines of a conditional, from the keyword of its first branch on. -/
def Chain.lines (depth : Nat) (keyword : Text) : Chain Name → List Text
  | .last => [indent depth ++ ("END_IF;" : Text)]
  | .otherwise body =>
    (indent depth ++ ("ELSE" : Text)) :: body.lines (depth + 1) ++
      [indent depth ++ ("END_IF;" : Text)]
  | .when condition body more =>
    (indent depth ++ keyword ++ condition.text spell ++ (" THEN" : Text)) ::
      body.lines (depth + 1) ++ more.lines depth "ELSIF "

end

end Rendering

section References

variable (redirect : Name → Option Name)

mutual

/-- The body with each assignment to a redirected name made through its reference, where
that is bound. -/
def Body.through : Body Name → Body Name
  | .done => .done
  | .assign target value next =>
    match redirect target with
    | none => .assign target value next.through
    | some reference =>
      .branch (.when (.valid reference) (.assign reference value .done) .last) next.through
  | .branch chain next => .branch chain.through next.through

def Chain.through : Chain Name → Chain Name
  | .last => .last
  | .otherwise body => .otherwise body.through
  | .when condition body more => .when condition body.through more.through

end

variable (known : Name → Bool)

def Term.within : Term Name → Bool
  | .name n | .valid n => known n
  | .bool _ | .int _ | .word _ _ => true
  | .element table position => known table && position.within
  | .not operand => operand.within
  | .binary left _ right => left.within && right.within
  | .parenthesized term => term.within

mutual

/-- Every name read is known, and every name written is known or redirected. -/
def Body.within : Body Name → Bool
  | .done => true
  | .assign target value next =>
    value.within known && ((redirect target).isSome || known target) && next.within
  | .branch chain next => chain.within && next.within

def Chain.within : Chain Name → Bool
  | .last => true
  | .otherwise body => body.within
  | .when condition body more => condition.within known && body.within && more.within

end

/-- The second frame binds each reference to the place of the name it replaces, and the
known names as the first does. -/
structure Redirects (first second : Name → Option Place) : Prop where
  kept : ∀ name, known name = true → second name = first name
  moved : ∀ name reference, redirect name = some reference →
    (first name).isSome = true ∧ second reference = first name

variable {redirect known} {first second : Name → Option Place}

theorem Redirects.eval (h : Redirects redirect known first second) (memory : Place → Value)
    (term : Term Name) (hwithin : term.within known = true) :
    term.eval second memory = term.eval first memory := by
  induction term with
  | name n | valid n => simp only [Term.eval, h.kept n hwithin]
  | bool | int | word => rfl
  | element table position ih =>
    have ⟨htable, hposition⟩ : known table = true ∧ position.within known = true := by
      simpa [Term.within] using hwithin
    simp only [Term.eval, h.kept table htable, ih hposition]
  | not operand ih | parenthesized operand ih => simp only [Term.eval, ih hwithin]
  | binary left operator right ihLeft ihRight =>
    have ⟨hleft, hright⟩ : left.within known = true ∧ right.within known = true := by
      simpa [Term.within] using hwithin
    simp only [Term.eval, ihLeft hleft, ihRight hright]

variable [DecidableEq Place]

mutual

/-- Writing through valid references has the effect of writing the names themselves. -/
theorem Redirects.body (h : Redirects redirect known first second) :
    ∀ (body : Body Name) (memory : Place → Value), body.within redirect known = true →
      (body.through redirect).exec second memory = body.exec first memory
  | .done, _, _ => by simp only [Body.through, Body.exec]
  | .assign target value next, memory, hwithin => by
    have ⟨⟨hvalue, hwritten⟩, hnext⟩ : (value.within known = true ∧
        ((redirect target).isSome = true ∨ known target = true)) ∧
        next.within redirect known = true := by
      simpa [Body.within] using hwithin
    cases htarget : redirect target with
    | none =>
      have hknown : known target = true := by simpa [htarget] using hwritten
      simp only [Body.through, htarget, Body.exec, h.eval memory value hvalue,
        h.kept target hknown, h.body next _ hnext]
    | some reference =>
      have ⟨hbound, hsame⟩ := h.moved target reference htarget
      simp only [Body.through, htarget, Body.exec, Chain.exec, Term.eval,
        hsame, hbound, h.eval memory value hvalue, h.body next _ hnext]
      cases value.eval first memory <;> cases first target <;> rfl
  | .branch chain next, memory, hwithin => by
    have ⟨hchain, hnext⟩ : chain.within redirect known = true ∧
        next.within redirect known = true := by
      simpa [Body.within] using hwithin
    simp only [Body.through, Body.exec, h.chain chain memory hchain, h.body next _ hnext]

theorem Redirects.chain (h : Redirects redirect known first second) :
    ∀ (chain : Chain Name) (memory : Place → Value), chain.within redirect known = true →
      (chain.through redirect).exec second memory = chain.exec first memory
  | .last, _, _ => by simp only [Chain.through, Chain.exec]
  | .otherwise body, memory, hwithin => by
    have hbody : body.within redirect known = true := by simpa [Chain.within] using hwithin
    simp only [Chain.through, Chain.exec, h.body body memory hbody]
  | .when condition body more, memory, hwithin => by
    have ⟨⟨hcondition, hbody⟩, hmore⟩ : (condition.within known = true ∧
        body.within redirect known = true) ∧ more.within redirect known = true := by
      simpa [Chain.within] using hwithin
    simp only [Chain.through, Chain.exec, h.eval memory condition hcondition,
      h.body body memory hbody, h.chain more memory hmore]

end

end References

end TwinForge.BlockBody
