import Mathlib.Data.List.Dedup
import Mathlib.Data.List.Sort
import TwinForge.Foundation.Text

/-! # Sorted copies

The stable sort of a list by a comparison, and the sorted copy of a set of strings.
-/

namespace TwinForge

open List

variable {Item : Type}

/-- `sorted(items, key=key)`, by the comparison of the keys. -/
def sortedBy (order : Item → Item → Ordering) (items : List Item) : List Item :=
  items.insertionSort fun first second => (order first second).isLE = true

/-- `sorted(set(texts))`. -/
def sortedSet (texts : List Text) : List Text := sortedBy compare texts.dedup

theorem sortedBy_perm (order : Item → Item → Ordering) (items : List Item) :
    (sortedBy order items).Perm items :=
  perm_insertionSort _ items

@[simp] theorem mem_sortedBy {order : Item → Item → Ordering} {items : List Item} {item : Item} :
    item ∈ sortedBy order items ↔ item ∈ items :=
  (sortedBy_perm order items).mem_iff

@[simp] theorem mem_sortedSet {texts : List Text} {text : Text} :
    text ∈ sortedSet texts ↔ text ∈ texts := by
  simp [sortedSet]

theorem sortedSet_nodup (texts : List Text) : (sortedSet texts).Nodup :=
  (sortedBy_perm compare texts.dedup).nodup_iff.mpr (nodup_dedup texts)

/-! ## Stability -/

section

variable {order : Item → Item → Ordering} [Std.TransCmp order]

theorem sortedBy_pairwise (items : List Item) :
    (sortedBy order items).Pairwise fun first second => (order first second).isLE = true := by
  have htotal : Std.Total fun first second : Item => (order first second).isLE = true := by
    constructor
    intro first second
    have hswap : order second first = (order first second).swap := Std.OrientedCmp.eq_swap
    rw [hswap]
    cases order first second <;> simp
  have htrans : IsTrans Item fun first second => (order first second).isLE = true :=
    ⟨fun _ _ _ => Std.TransCmp.isLE_trans⟩
  exact pairwise_insertionSort _ items

theorem filter_orderedInsert (item key : Item) (items : List Item) :
    (items.orderedInsert (fun first second => (order first second).isLE = true) item).filter
        (fun other => order key other = .eq) =
      (item :: items).filter fun other => order key other = .eq := by
  induction items with
  | nil => rfl
  | cons first items ih =>
    rw [orderedInsert_cons]
    by_cases hbefore : (order item first).isLE = true
    · rw [if_pos hbefore]
    · rw [if_neg hbefore, filter_cons, ih]
      -- The item goes behind the first one only where their keys differ.
      by_cases hfirst : order key first = .eq
      · have hitem : order key item ≠ .eq := by
          intro hkey
          have hsame := Std.TransCmp.eq_trans (Std.OrientedCmp.eq_symm hkey) hfirst
          exact hbefore (by rw [hsame]; rfl)
        simp [hfirst, hitem]
      · simp [hfirst, filter_cons]

theorem filter_sortedBy (key : Item) (items : List Item) :
    (sortedBy order items).filter (fun other => order key other = .eq) =
      items.filter fun other => order key other = .eq := by
  induction items with
  | nil => rfl
  | cons item items ih =>
    show ((sortedBy order items).orderedInsert _ item).filter _ = _
    rw [filter_orderedInsert, filter_cons, filter_cons, ih]

theorem sorted_ext {first second : List Item}
    (hfirst : first.Pairwise fun a b => (order a b).isLE = true)
    (hsecond : second.Pairwise fun a b => (order a b).isLE = true)
    (h : ∀ key, first.filter (fun other => order key other = .eq) =
      second.filter fun other => order key other = .eq) : first = second := by
  induction first generalizing second with
  | nil =>
    cases second with
    | nil => rfl
    | cons item second =>
      have hitem := h item
      simp [Std.ReflCmp.compare_self] at hitem
  | cons item first ih =>
    have hitem := h item
    rw [filter_cons_of_pos (by simp [Std.ReflCmp.compare_self])] at hitem
    cases second with
    | nil => simp at hitem
    | cons other second =>
      -- Each head stands before the other list's, so their keys agree.
      have hmember : item ∈ other :: second :=
        mem_of_mem_filter (hitem ▸ mem_cons_self)
      have hother := h other
      rw [filter_cons_of_pos (l := second) (by simp [Std.ReflCmp.compare_self])]
        at hother
      have hmember' : other ∈ item :: first :=
        mem_of_mem_filter (hother ▸ mem_cons_self)
      have hheads : order item other = .eq := by
        have hbefore : (order item other).isLE = true := by
          rcases mem_cons.mp hmember' with rfl | hlater
          · simp [Std.ReflCmp.compare_self]
          · exact rel_of_pairwise_cons hfirst hlater
        have hafter : (order other item).isLE = true := by
          rcases mem_cons.mp hmember with rfl | hlater
          · simp [Std.ReflCmp.compare_self]
          · exact rel_of_pairwise_cons hsecond hlater
        have hswap : order other item = (order item other).swap := Std.OrientedCmp.eq_swap
        rw [hswap] at hafter
        cases horder : order item other <;> simp [horder] at hbefore hafter ⊢
      rw [filter_cons_of_pos (by simp [hheads])] at hitem
      have hsame : item = other := (List.cons.inj hitem).1
      subst hsame
      congr 1
      refine ih hfirst.of_cons hsecond.of_cons fun key => ?_
      have hkey := h key
      by_cases hmatch : order key item = .eq
      · simpa [filter_cons, hmatch] using hkey
      · simpa [filter_cons, hmatch] using hkey

theorem sortedBy_unique {first second : List Item} (hfirst : first.Nodup) (hsecond : second.Nodup)
    (hmembers : ∀ item, item ∈ first ↔ item ∈ second)
    (hties : ∀ item ∈ first, ∀ other ∈ first, order item other = .eq → item = other) :
    sortedBy order first = sortedBy order second := by
  refine sorted_ext (sortedBy_pairwise first) (sortedBy_pairwise second) ?_
  intro key
  rw [filter_sortedBy, filter_sortedBy]
  have hperm : first.Perm second := (perm_ext_iff_of_nodup hfirst hsecond).mpr hmembers
  have hgroup := hperm.filter fun other => order key other = .eq
  -- At most one item has the key, so its group is the same list on both sides.
  cases hitems : first.filter (fun other => order key other = .eq) with
  | nil =>
    rw [hitems] at hgroup
    exact (nil_perm.mp hgroup).symm
  | cons item rest =>
    have hrest : rest = [] := by
      rw [eq_nil_iff_forall_not_mem]
      intro other hother
      have hnodup := hfirst.filter fun other => order key other = .eq
      rw [hitems, nodup_cons] at hnodup
      have hkeys : ∀ member ∈ item :: rest, member ∈ first ∧ order key member = .eq := by
        intro member hmember
        rw [← hitems, mem_filter] at hmember
        exact ⟨hmember.1, of_decide_eq_true hmember.2⟩
      have hitem := hkeys item mem_cons_self
      have hlater := hkeys other (mem_cons_of_mem _ hother)
      have htie := Std.TransCmp.eq_trans (Std.OrientedCmp.eq_symm hitem.2) hlater.2
      exact hnodup.1 (hties _ hitem.1 _ hlater.1 htie ▸ hother)
    rw [hitems, hrest] at hgroup
    rw [hrest]
    exact singleton_perm.mp hgroup

end

theorem sortedBy_keyed {Key : Type} [Ord Key] [Std.TransOrd Key] [Std.LawfulEqOrd Key]
    {key : Item → Key} {first second : List Item} (hperm : first.Perm second)
    (honce : (first.map key).Nodup) :
    sortedBy (compareOn key) first = sortedBy (compareOn key) second := by
  have hnodup : first.Nodup := List.Nodup.of_map key honce
  refine sortedBy_unique hnodup (hperm.nodup_iff.mp hnodup) (fun _ => hperm.mem_iff) ?_
  intro item hitem other hother htie
  have hkey : key item = key other := Std.LawfulEqCmp.eq_of_compare htie
  exact inj_on_of_nodup_map honce hitem hother hkey

end TwinForge
