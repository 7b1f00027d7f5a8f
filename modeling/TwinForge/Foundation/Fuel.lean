import Mathlib.Data.List.Basic

/-! # Results that every large enough fuel gives

A function with fuel converges to a value when it returns that value from some
fuel on. Convergence composes along the calls of a recursive descent, so that a
proof about such a function never counts its fuel.
-/

namespace TwinForge.Fuel

variable {α β γ : Type}

def Converges (f : Nat → Option α) (a : α) : Prop := ∃ n, ∀ m, n ≤ m → f m = some a

variable {f : Nat → Option α} {a : α}

theorem Converges.unique {b : α} (ha : Converges f a) (hb : Converges f b) : a = b := by
  obtain ⟨n, hn⟩ := ha
  obtain ⟨m, hm⟩ := hb
  have h := (hn _ (Nat.le_max_left n m)).symm.trans (hm _ (Nat.le_max_right n m))
  exact Option.some.inj h

theorem converges_of_step (h : ∀ n, f (n + 1) = some a) :
    Converges f a := by
  refine ⟨1, fun m hm => ?_⟩
  obtain ⟨k, rfl⟩ : ∃ k, m = k + 1 := ⟨m - 1, by omega⟩
  exact h k

theorem Converges.step {f : Nat → Option α} {g : Nat → Option β} {a : α} {b : β}
    (hg : Converges g b) (h : ∀ n, g n = some b → f (n + 1) = some a) : Converges f a := by
  obtain ⟨n, hn⟩ := hg
  refine ⟨n + 1, fun m hm => ?_⟩
  obtain ⟨k, rfl⟩ : ∃ k, m = k + 1 := ⟨m - 1, by omega⟩
  exact h k (hn k (by omega))

theorem Converges.both {g : Nat → Option β} {b : β} (hf : Converges f a) (hg : Converges g b) :
    ∃ n, ∀ m, n ≤ m → f m = some a ∧ g m = some b := by
  obtain ⟨n, hn⟩ := hf
  obtain ⟨k, hk⟩ := hg
  exact ⟨max n k, fun m hm =>
    ⟨hn m (Nat.le_trans (Nat.le_max_left n k) hm), hk m (Nat.le_trans (Nat.le_max_right n k) hm)⟩⟩

theorem Converges.step₂ {g : Nat → Option β} {F : Nat → Option γ}
    {b : β} {c : γ} (hf : Converges f a) (hg : Converges g b)
    (h : ∀ n, f n = some a → g n = some b → F (n + 1) = some c) : Converges F c := by
  obtain ⟨n, hn⟩ := hf.both hg
  refine ⟨n + 1, fun m hm => ?_⟩
  obtain ⟨k, rfl⟩ : ∃ k, m = k + 1 := ⟨m - 1, by omega⟩
  exact h k (hn k (by omega)).1 (hn k (by omega)).2

theorem Converges.map (hf : Converges f a) (g : α → β) :
    Converges (fun n => (f n).map g) (g a) := by
  have ⟨n, hn⟩ := hf
  refine ⟨n, fun m hm => ?_⟩
  change (f m).map g = some (g a)
  rw [hn m hm, Option.map_some]

theorem Converges.mapM {f : Nat → α → Option β} {g : α → β} {items : List α}
    (h : ∀ item ∈ items, Converges (fun n => f n item) (g item)) :
    Converges (fun n => items.mapM (f n)) (items.map g) := by
  induction items with
  | nil => exact ⟨0, fun _ _ => rfl⟩
  | cons item items ih =>
    have hrest := ih fun other hother => h other (List.mem_cons_of_mem item hother)
    have ⟨n, hn⟩ := (h item List.mem_cons_self).both hrest
    refine ⟨n, fun m hm => ?_⟩
    have ⟨hhere, hthere⟩ := hn m hm
    change (item :: items).mapM (f m) = _
    rw [List.mapM_cons, hhere, hthere]
    rfl

/-! ## More fuel -/

/-- What the first computation returns the second one returns. -/
def Below (x y : Option α) : Prop := ∀ a, x = some a → y = some a

theorem Below.refl (x : Option α) : Below x x := fun _ h => h

theorem Below.none {y : Option α} : Below .none y := by
  intro a h
  cases h

theorem Below.bind {x y : Option α} {f g : α → Option β} (hxy : Below x y)
    (hfg : ∀ a, Below (f a) (g a)) : Below (x >>= f) (y >>= g) := by
  intro b h
  obtain ⟨a, hx, hf⟩ := Option.bind_eq_some_iff.mp h
  rw [hxy a hx]
  exact hfg a b hf

/-- Where more fuel changes no result, one result is the one of every large enough fuel. -/
theorem converges_of_below (h : ∀ n, Below (f n) (f (n + 1))) {n : Nat}
    (hn : f n = some a) : Converges f a := by
  have hlater : ∀ d, f (n + d) = some a := by
    intro d
    induction d with
    | zero => exact hn
    | succ d ih => exact h (n + d) a ih
  refine ⟨n, fun m hm => ?_⟩
  obtain ⟨d, rfl⟩ := Nat.exists_eq_add_of_le hm
  exact hlater d

end TwinForge.Fuel
