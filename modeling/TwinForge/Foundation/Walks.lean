import Mathlib.Data.List.Nodup
import Mathlib.Data.List.Perm.Subperm
import Mathlib.Data.List.Range
import Mathlib.Logic.Relation

/-! # Walks of a partial function

Each node leads to at most one next node. A walk keeps the nodes it has visited and stops
where it has been before or where nothing is next; over finitely many nodes it always stops,
and what it stops at says whether the path from its start revisits a node.
-/

namespace TwinForge.Walks

open List

variable {Node : Type} (next : Node → Option Node)

/-- The node after so many steps. -/
def follow : Nat → Node → Option Node
  | 0, node => some node
  | steps + 1, node => (follow steps node).bind next

/-- The path from the node comes to one node twice. -/
def Revisits (node : Node) : Prop :=
  ∃ earlier later reached, earlier < later ∧ follow next earlier node = some reached ∧
    follow next later node = some reached

/-- The node that is visited again, if any; `none` where the fuel does not suffice. -/
def walk [DecidableEq Node] : Nat → List Node → Node → Option (Option Node)
  | 0, _, _ => none
  | fuel + 1, visited, node =>
    if node ∈ visited then some (some node)
    else
      match next node with
      | none => some none
      | some other => walk fuel (node :: visited) other

variable {next}

theorem follow_none {steps : Nat} {node : Node} (h : follow next steps node = none) {more : Nat}
    (hmore : steps ≤ more) : follow next more node = none := by
  induction more with
  | zero =>
    have hzero : steps = 0 := by omega
    rw [hzero] at h
    exact h
  | succ more ih =>
    by_cases heq : steps = more + 1
    · rw [heq] at h
      exact h
    · rw [follow, ih (by omega)]
      rfl

/-! ## Cycles -/

theorem follow_of_transGen {node reached : Node}
    (h : Relation.TransGen (fun first second => next first = some second) node reached) :
    ∃ steps, 0 < steps ∧ follow next steps node = some reached := by
  induction h with
  | single hstep => exact ⟨1, by omega, hstep⟩
  | tail _ hstep ih =>
    obtain ⟨steps, hpos, hfollow⟩ := ih
    refine ⟨steps + 1, by omega, ?_⟩
    rw [follow, hfollow]
    exact hstep

theorem revisits_of_cycle {node : Node}
    (h : Relation.TransGen (fun first second => next first = some second) node node) :
    Revisits next node := by
  obtain ⟨steps, hpos, hfollow⟩ := follow_of_transGen h
  exact ⟨0, steps, node, hpos, rfl, hfollow⟩

theorem acyclic_of_unvisited {edge : Node → Node → Prop}
    (hnext : ∀ first second, edge first second → next first = some second)
    (hclear : ∀ first second, edge first second → ¬ Revisits next first) (node : Node) :
    ¬ Relation.TransGen edge node node := by
  intro hcycle
  obtain ⟨other, hedge, -⟩ := Relation.TransGen.head'_iff.mp hcycle
  exact hclear node other hedge (revisits_of_cycle (Relation.TransGen.mono hnext node node hcycle))

/-! ## What a walk finds -/

/-- The nodes visited on the way from the start, the last one first, up to the current one. -/
structure Trail (next : Node → Option Node) (start : Node) (visited : List Node) (node : Node) :
    Prop where
  path : visited.reverse.map some =
    (List.range visited.length).map fun steps => follow next steps start
  current : follow next visited.length start = some node
  nodup : visited.Nodup

theorem Trail.start (node : Node) : Trail next node [] node := ⟨rfl, rfl, nodup_nil⟩

theorem Trail.step {start node other : Node} {visited : List Node}
    (h : Trail next start visited node) (hnew : node ∉ visited) (hnext : next node = some other) :
    Trail next start (node :: visited) other where
  path := by
    rw [reverse_cons, map_append, h.path, length_cons, range_succ,
      map_append]
    simp [h.current]
  current := by
    rw [length_cons, follow, h.current]
    exact hnext
  nodup := nodup_cons.mpr ⟨hnew, h.nodup⟩

theorem Trail.visited {start node : Node} {visited : List Node}
    (h : Trail next start visited node) {reached : Node} (hreached : reached ∈ visited) :
    ∃ steps < visited.length, follow next steps start = some reached := by
  have hmem : some reached ∈ visited.reverse.map some :=
    mem_map_of_mem (mem_reverse.mpr hreached)
  rw [h.path] at hmem
  obtain ⟨steps, hsteps, hfollow⟩ := mem_map.mp hmem
  exact ⟨steps, mem_range.mp hsteps, hfollow⟩

theorem Trail.follow_eq {start node : Node} {visited : List Node}
    (h : Trail next start visited node) {steps : Nat} (hsteps : steps < visited.length) :
    visited.reverse[steps]? = follow next steps start := by
  have hpath := congrArg (fun path => path[steps]?) h.path
  simp only [List.getElem?_map, List.getElem?_range hsteps, Option.map_some] at hpath
  cases hget : visited.reverse[steps]? with
  | none =>
    have hlength := List.getElem?_eq_none_iff.mp hget
    rw [length_reverse] at hlength
    omega
  | some reached =>
    rw [hget] at hpath
    exact Option.some.inj hpath

theorem Trail.ends {start node : Node} {visited : List Node} (h : Trail next start visited node)
    (hnew : node ∉ visited) (hend : next node = none) : ¬ Revisits next start := by
  rintro ⟨earlier, later, reached, hlt, hearlier, hlater⟩
  have hstop : follow next (visited.length + 1) start = none := by
    rw [follow, h.current]
    exact hend
  have hbound : later ≤ visited.length := by
    by_contra hbeyond
    rw [follow_none hstop (by omega)] at hlater
    cases hlater
  have hfirst := h.follow_eq (by omega : earlier < visited.length)
  rw [hearlier] at hfirst
  by_cases hlast : later = visited.length
  · rw [hlast, h.current] at hlater
    cases hlater
    exact hnew (mem_reverse.mp (mem_of_getElem? hfirst))
  · have hsecond := h.follow_eq (by omega : later < visited.length)
    rw [hlater] at hsecond
    have hnodup := nodup_reverse.mpr h.nodup
    have hlength : earlier < visited.reverse.length := by
      rw [length_reverse]
      omega
    have hsame := (List.getElem?_inj hlength hnodup).mp (hfirst.trans hsecond.symm)
    omega

variable [DecidableEq Node]

theorem walk_of_trail {fuel : Nat} {visited : List Node} {start node : Node}
    {found : Option Node} (htrail : Trail next start visited node)
    (h : walk next fuel visited node = some found) :
    found.isSome = true ↔ Revisits next start := by
  induction fuel generalizing visited node with
  | zero => cases h
  | succ fuel ih =>
    rw [walk] at h
    split at h
    · rename_i hvisited
      cases h
      obtain ⟨steps, hsteps, hfollow⟩ := htrail.visited hvisited
      exact iff_of_true rfl ⟨steps, visited.length, node, hsteps, hfollow, htrail.current⟩
    · rename_i hnew
      cases hnext : next node with
      | none =>
        rw [hnext] at h
        cases h
        exact iff_of_false Bool.false_ne_true (htrail.ends hnew hnext)
      | some other =>
        rw [hnext] at h
        exact ih (htrail.step hnew hnext) h

/-- A walk stops at a visited node exactly where the path from its start revisits one. -/
theorem walk_spec {fuel : Nat} {node : Node} {found : Option Node}
    (h : walk next fuel [] node = some found) : found.isSome = true ↔ Revisits next node :=
  walk_of_trail (Trail.start node) h

theorem walk_stops {nodes : List Node} (hnodes : ∀ node other, next node = some other → node ∈ nodes)
    {fuel : Nat} {visited : List Node} {node : Node} (hnodup : visited.Nodup)
    (hvisited : ∀ other ∈ visited, other ∈ nodes) (hfuel : nodes.length < fuel + visited.length) :
    ∃ found, walk next fuel visited node = some found := by
  induction fuel generalizing visited node with
  | zero =>
    have hle := (subperm_of_subset hnodup hvisited).length_le
    omega
  | succ fuel ih =>
    rw [walk]
    split
    · exact ⟨_, rfl⟩
    · rename_i hnew
      cases hnext : next node with
      | none => exact ⟨_, rfl⟩
      | some other =>
        refine ih (nodup_cons.mpr ⟨hnew, hnodup⟩) ?_ ?_
        · intro found hfound
          rcases mem_cons.mp hfound with rfl | hfound
          · exact hnodes _ other hnext
          · exact hvisited found hfound
        · simp only [length_cons]
          omega

end TwinForge.Walks
