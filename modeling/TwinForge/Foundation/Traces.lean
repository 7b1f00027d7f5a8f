import Mathlib.Data.List.Basic

/-! # Values with a report

A value together with the items reported while it was computed, in order.
-/

namespace TwinForge

structure Reported (Item Value : Type) where
  value : Value
  items : List Item

namespace Reported

variable {Item A B : Type}

instance : Monad (Reported Item) where
  pure value := ⟨value, []⟩
  bind first next := ⟨(next first.value).value, first.items ++ (next first.value).items⟩

def report (item : Item) : Reported Item Unit := ⟨(), [item]⟩

@[simp] theorem pure_value (a : A) : (pure a : Reported Item A).value = a := rfl

@[simp] theorem pure_items (a : A) : (pure a : Reported Item A).items = [] := rfl

@[simp] theorem bind_value (first : Reported Item A) (next : A → Reported Item B) :
    (first >>= next).value = (next first.value).value := rfl

@[simp] theorem bind_items (first : Reported Item A) (next : A → Reported Item B) :
    (first >>= next).items = first.items ++ (next first.value).items := rfl

@[simp] theorem report_items (item : Item) : (report item).items = [item] := rfl

end Reported

end TwinForge
