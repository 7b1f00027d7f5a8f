import Mathlib.Data.List.Basic
import Mathlib.Order.Lex

/-! # The preorder of a forest

A forest is given by its roots and the children of a node. A place is the path of child numbers
that leads to a node; the preorder lists the nodes at all places, in the order of the paths.
-/

namespace TwinForge.Forest

open List

variable {Node : Type} (children : Node → List Node)

def nodeAt : List Node → List Nat → Option Node
  | _, [] => none
  | roots, [i] => roots[i]?
  | roots, i :: place => roots[i]?.bind fun node => nodeAt (children node) place

/-- The nodes of a forest, each before its children. -/
inductive Preordered : List Node → List Node → Prop where
  | nil : Preordered [] []
  | cons {node : Node} {roots inner nodes : List Node} (below : Preordered (children node) inner)
      (after : Preordered roots nodes) : Preordered (node :: roots) (node :: (inner ++ nodes))

theorem Preordered.append {children : Node → List Node} {first second nodes others : List Node}
    (hfirst : Preordered children first nodes) (hsecond : Preordered children second others) :
    Preordered children (first ++ second) (nodes ++ others) := by
  induction hfirst with
  | nil => exact hsecond
  | cons below _ _ ih =>
    rw [cons_append, cons_append, append_assoc]
    exact .cons below ih

/-- The nodes that a forest has at its places, listed in the order of the places. -/
structure Places (roots nodes : List Node) (places : List (List Nat)) : Prop where
  ordered : places.Pairwise (· < ·)
  complete : ∀ place, place ∈ places ↔ (nodeAt children roots place).isSome
  listed : nodes.map some = places.map (nodeAt children roots)

/-- The place among the roots behind the first one. -/
def shifted : List Nat → List Nat
  | [] => []
  | i :: place => (i + 1) :: place

variable {children} {roots : List Node}

theorem nodeAt_below {node : Node} {i : Nat} {place : List Nat} :
    nodeAt children (node :: roots) (0 :: i :: place) = nodeAt children (children node) (i :: place) :=
  rfl

theorem nodeAt_shifted {node : Node} (place : List Nat) :
    nodeAt children (node :: roots) (shifted place) = nodeAt children roots place := by
  match place with
  | [] => rfl
  | [i] => rfl
  | i :: j :: place => rfl

theorem shifted_lt {first second : List Nat} (h : first < second) : shifted first < shifted second := by
  cases second with
  | nil => exact absurd h (not_lt_nil first)
  | cons j second =>
    cases first with
    | nil => exact nil_lt_cons _ _
    | cons i first =>
      rw [cons_lt_cons_iff] at h
      apply cons_lt_cons_iff.mpr
      cases h with
      | inl hlt => exact .inl (Nat.succ_lt_succ hlt)
      | inr hrest => exact .inr ⟨congrArg Nat.succ hrest.1, hrest.2⟩

theorem Preordered.places {nodes : List Node} (h : Preordered children roots nodes) :
    ∃ places, Places children roots nodes places := by
  induction h with
  | nil =>
    refine ⟨[], .nil, fun place => ?_, rfl⟩
    match place with
    | [] => simp [nodeAt]
    | [i] => simp [nodeAt]
    | i :: j :: place => simp [nodeAt]
  | @cons node roots inner nodes _ _ ihbelow ihafter =>
    have ⟨below, hbelow⟩ := ihbelow
    have ⟨after, hafter⟩ := ihafter
    have hsome : ∀ place ∈ below, place ≠ [] := by
      intro place hplace hempty
      have hnode := (hbelow.complete place).mp hplace
      rw [hempty] at hnode
      cases hnode
    have hsomeAfter : ∀ place ∈ after, place ≠ [] := by
      intro place hplace hempty
      have hnode := (hafter.complete place).mp hplace
      rw [hempty] at hnode
      cases hnode
    refine ⟨[0] :: (below.map (0 :: ·) ++ after.map shifted), ?_, ?_, ?_⟩
    · rw [pairwise_cons, pairwise_append, pairwise_map, pairwise_map]
      refine ⟨?_, hbelow.ordered.imp ?_, hafter.ordered.imp ?_, ?_⟩
      · intro place hplace
        cases mem_append.mp hplace with
        | inl hmem =>
          have ⟨rest, hrest, hsame⟩ := mem_map.mp hmem
          rw [← hsame]
          cases rest with
          | nil => exact absurd rfl (hsome [] hrest)
          | cons j rest => exact cons_lt_cons_iff.mpr (.inr ⟨rfl, nil_lt_cons j rest⟩)
        | inr hmem =>
          have ⟨rest, hrest, hsame⟩ := mem_map.mp hmem
          rw [← hsame]
          cases rest with
          | nil => exact absurd rfl (hsomeAfter [] hrest)
          | cons j rest => exact cons_lt_cons_iff.mpr (.inl (Nat.succ_pos j))
      · exact fun hlt => cons_lt_cons_iff.mpr (.inr ⟨rfl, hlt⟩)
      · exact shifted_lt
      · intro first hfirst second hsecond
        have ⟨rest, _, hsame⟩ := mem_map.mp hfirst
        have ⟨other, hother, hshifted⟩ := mem_map.mp hsecond
        rw [← hsame, ← hshifted]
        cases other with
        | nil => exact absurd rfl (hsomeAfter [] hother)
        | cons j other => exact cons_lt_cons_iff.mpr (.inl (Nat.succ_pos j))
    · intro place
      rw [mem_cons, mem_append, mem_map, mem_map]
      match place with
      | [] =>
        have hnone : ∀ rest : List Nat, shifted rest = [] → rest = [] := by
          intro rest hempty
          cases rest with
          | nil => rfl
          | cons j rest => cases hempty
        simp only [nodeAt, Option.isSome_none, Bool.false_eq_true, iff_false, not_or]
        refine ⟨by simp, by simp, fun ⟨rest, hrest, hempty⟩ => ?_⟩
        exact hsomeAfter rest hrest (hnone rest hempty)
      | [0] => simp [nodeAt]
      | 0 :: j :: rest =>
        rw [nodeAt_below, ← hbelow.complete]
        constructor
        · intro h
          cases h with
          | inl hroot => cases hroot
          | inr hmore =>
            cases hmore with
            | inl hmem =>
              have ⟨found, hfound, hsame⟩ := hmem
              rw [← (List.cons.inj hsame).2]
              exact hfound
            | inr hmem =>
              have ⟨found, _, hsame⟩ := hmem
              cases found with
              | nil => cases hsame
              | cons k found => exact absurd (List.cons.inj hsame).1 (Nat.succ_ne_zero k)
        · exact fun h => .inr (.inl ⟨_, h, rfl⟩)
      | (i + 1) :: rest =>
        have hshift : nodeAt children (node :: roots) ((i + 1) :: rest) =
            nodeAt children roots (i :: rest) := nodeAt_shifted (i :: rest)
        rw [hshift, ← hafter.complete]
        constructor
        · intro h
          cases h with
          | inl hroot => exact absurd (List.cons.inj hroot).1 (Nat.succ_ne_zero i)
          | inr hmore =>
            cases hmore with
            | inl hmem =>
              have ⟨_, _, hsame⟩ := hmem
              exact absurd (List.cons.inj hsame).1 (Nat.succ_ne_zero i).symm
            | inr hmem =>
              have ⟨found, hfound, hsame⟩ := hmem
              cases found with
              | nil => cases hsame
              | cons k found =>
                have ⟨hfirst, hrest⟩ := List.cons.inj hsame
                rw [← Nat.succ.inj hfirst, ← hrest]
                exact hfound
        · exact fun h => .inr (.inr ⟨_, h, rfl⟩)
    · have hinner : ∀ place ∈ below, nodeAt children (node :: roots) (0 :: place) =
          nodeAt children (children node) place := by
        intro place hplace
        cases place with
        | nil => exact absurd rfl (hsome [] hplace)
        | cons j place => rfl
      rw [map_cons, map_cons, map_append, map_append, hbelow.listed,
        hafter.listed, map_map, map_map]
      refine congrArg _ (congr (congrArg _ ?_) ?_)
      · exact map_congr_left fun place hplace => (hinner place hplace).symm
      · exact map_congr_left fun place _ => (nodeAt_shifted place).symm

end TwinForge.Forest
