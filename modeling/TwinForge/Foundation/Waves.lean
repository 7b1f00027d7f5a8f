import Mathlib.Data.Set.Finite.List
import Mathlib.Logic.Relation
import Mathlib.Order.WellFounded
import TwinForge.Foundation.Sorting

/-! # Kahn's algorithm in waves

Each wave releases, in a given order, the nodes that depend on nothing unreleased. The
wave a node is released in is its depth: the length of the longest chain of dependencies
below it. Nodes remain unreleased exactly when some chain closes on itself.
-/

namespace TwinForge.Waves

open List

variable {Node : Type}

/-- Unreleased nodes with their unmet dependencies. -/
abbrev Waiting (Node : Type) := List (Node × List Node)

def ready (waiting : Waiting Node) : List Node :=
  (waiting.filter fun entry => entry.2.isEmpty).map Prod.fst

/-- Drop the released nodes, here and among the unmet dependencies. -/
def release [DecidableEq Node] (released : List Node) (waiting : Waiting Node) : Waiting Node :=
  (waiting.filter fun entry => decide (entry.1 ∉ released)).map fun entry =>
    (entry.1, entry.2.filter fun dependency => decide (dependency ∉ released))

/-- All nodes, wave by wave; `none` where a wave is empty. Every wave releases a node, so
as many waves as there are nodes are enough. -/
def waves [DecidableEq Node] (order : Node → Node → Ordering) : Nat → Waiting Node → Option (List Node)
  | _, [] => some []
  | 0, _ :: _ => none
  | fuel + 1, entry :: waiting =>
    let wave := sortedBy order (ready (entry :: waiting))
    if wave.isEmpty then none
    else (waves order fuel (release wave (entry :: waiting))).map (wave ++ ·)

/-! ## Chains of dependencies -/

def Chain (depends : Node → Node → Prop) : Nat → Node → Prop
  | 0, _ => True
  | length + 1, node => ∃ dependency, depends node dependency ∧ Chain depends length dependency

/-- The longest chain of dependencies that leaves the node has the length `depth`. -/
def HasDepth (depends : Node → Node → Prop) (depth : Nat) (node : Node) : Prop :=
  Chain depends depth node ∧ ¬ Chain depends (depth + 1) node

/-- A finite graph: nodes and what each of them depends on. -/
structure Graph (Node : Type) where
  nodes : List Node
  deps : Node → List Node
  inside : ∀ node, ∀ dependency ∈ deps node, node ∈ nodes ∧ dependency ∈ nodes

namespace Graph

variable (graph : Graph Node)

def DependsOn (node dependency : Node) : Prop := dependency ∈ graph.deps node

/-- `Chain`, evaluated. -/
def chain : Nat → Node → Bool
  | 0, _ => true
  | length + 1, node => (graph.deps node).any (chain length)

/-- `HasDepth`, evaluated. -/
def hasDepth (depth : Nat) (node : Node) : Bool :=
  graph.chain depth node && !graph.chain (depth + 1) node

variable {node : Node}

theorem chain_iff {length : Nat} :
    graph.chain length node = true ↔ Chain graph.DependsOn length node := by
  induction length generalizing node with
  | zero => simp [chain, Chain]
  | succ length ih => simp [chain, Chain, DependsOn, ih]

theorem chain_of_succ {length : Nat} {node : Node} (h : graph.chain (length + 1) node = true) :
    graph.chain length node = true := by
  induction length generalizing node with
  | zero => rfl
  | succ length ih =>
    obtain ⟨dependency, hdependency, hchain⟩ := any_eq_true.mp h
    exact any_eq_true.mpr ⟨dependency, hdependency, ih hchain⟩

theorem chain_of_le {shorter longer : Nat} (hle : shorter ≤ longer)
    (h : graph.chain longer node = true) : graph.chain shorter node = true := by
  induction longer with
  | zero =>
    have hzero : shorter = 0 := by omega
    subst hzero
    exact h
  | succ longer ih =>
    by_cases hlast : shorter = longer + 1
    · subst hlast
      exact h
    · exact ih (by omega) (graph.chain_of_succ h)

variable {depth : Nat}

theorem hasDepth_iff :
    graph.hasDepth depth node = true ↔
      graph.chain depth node = true ∧ graph.chain (depth + 1) node = false := by
  simp [hasDepth]

theorem hasDepth_eq_true :
    graph.hasDepth depth node = true ↔ HasDepth graph.DependsOn depth node := by
  rw [hasDepth_iff, HasDepth, ← chain_iff, ← chain_iff, Bool.not_eq_true]

theorem hasDepth_unique {first second : Nat}
    (hfirst : graph.hasDepth first node = true) (hsecond : graph.hasDepth second node = true) :
    first = second := by
  rw [hasDepth_iff] at hfirst hsecond
  have hbound : ∀ {shorter longer : Nat}, graph.chain (shorter + 1) node = false →
      graph.chain longer node = true → longer ≤ shorter := by
    intro shorter longer hends hreaches
    by_contra hlonger
    have hchain := graph.chain_of_le (by omega : shorter + 1 ≤ longer) hreaches
    rw [hends] at hchain
    cases hchain
  have hle := hbound hsecond.2 hfirst.1
  have hge := hbound hfirst.2 hsecond.1
  omega

theorem depth_lt_of_dependsOn {dependency : Node} {lower upper : Nat}
    (h : graph.DependsOn node dependency) (hlower : graph.hasDepth lower dependency = true)
    (hupper : graph.hasDepth upper node = true) : lower < upper := by
  rw [hasDepth_iff] at hlower hupper
  have hchain : graph.chain (lower + 1) node = true :=
    any_eq_true.mpr ⟨dependency, h, hlower.1⟩
  by_contra hle
  have hlonger := graph.chain_of_le (by omega : upper + 1 ≤ lower + 1) hchain
  rw [hupper.2] at hlonger
  cases hlonger

/-! ## Cycles -/

/-- A chain of dependencies closes on itself. -/
def Cyclic : Prop := ∃ node, Relation.TransGen graph.DependsOn node node

theorem chain_of_cycle (h : Relation.TransGen graph.DependsOn node node)
    (length : Nat) : graph.chain length node = true := by
  induction length generalizing node with
  | zero => rfl
  | succ length ih =>
    obtain ⟨dependency, hstep, hback⟩ := Relation.TransGen.head'_iff.mp h
    exact any_eq_true.mpr ⟨dependency, hstep, ih (Relation.TransGen.tail' hback hstep)⟩

/-- Among finitely many nodes that all depend on one another some cycle runs. -/
theorem cyclic_of_endless {items : List Node} (hitems : items ≠ [])
    (h : ∀ node ∈ items, ∃ dependency ∈ items, graph.DependsOn node dependency) :
    graph.Cyclic := by
  by_contra hacyclic
  let Below : {node // node ∈ items} → {node // node ∈ items} → Prop :=
    fun dependency node => Relation.TransGen graph.DependsOn node.1 dependency.1
  have hfinite : Finite {node // node ∈ items} := finite_toSet items
  have htrans : IsTrans {node // node ∈ items} Below :=
    ⟨fun _ _ _ hfirst hsecond => Relation.TransGen.trans hsecond hfirst⟩
  have hirrefl : Std.Irrefl Below := ⟨fun node hcycle => hacyclic ⟨node.1, hcycle⟩⟩
  have hwell : WellFounded Below := Finite.wellFounded_of_trans_of_irrefl Below
  obtain ⟨first, hfirst⟩ := exists_mem_of_ne_nil items hitems
  -- A least node has something among the nodes that it depends on.
  obtain ⟨least, -, hleast⟩ := hwell.has_min Set.univ ⟨⟨first, hfirst⟩, trivial⟩
  obtain ⟨dependency, hmember, hdepends⟩ := h least.1 least.2
  exact hleast ⟨dependency, hmember⟩ trivial (Relation.TransGen.single hdepends)

/-! ## The waves of a graph -/

/-- What waits when all chains of `depth` dependencies have been cut once. -/
def stage (depth : Nat) : Waiting Node :=
  (graph.nodes.filter (graph.chain depth)).map fun node =>
    (node, (graph.deps node).filter (graph.chain depth))

def wave (order : Node → Node → Ordering) (depth : Nat) : List Node :=
  sortedBy order (graph.nodes.filter (graph.hasDepth depth))

variable {order : Node → Node → Ordering}

theorem mem_wave :
    node ∈ graph.wave order depth ↔ node ∈ graph.nodes ∧ graph.hasDepth depth node = true := by
  simp [wave]

theorem stage_zero : graph.stage 0 = graph.nodes.map fun node => (node, graph.deps node) := by
  have hall : graph.chain 0 = fun _ => true := rfl
  simp [stage, hall]

theorem ready_stage (depth : Nat) :
    ready (graph.stage depth) = graph.nodes.filter (graph.hasDepth depth) := by
  have hunmet : ∀ node, ((graph.deps node).filter (graph.chain depth)).isEmpty =
      !graph.chain (depth + 1) node := by
    intro node
    rw [Bool.eq_iff_iff]
    simp [chain]
  simp only [ready, stage, filter_map, map_map, filter_filter]
  have hid : (Prod.fst ∘ fun node => (node, (graph.deps node).filter (graph.chain depth))) =
      id := rfl
  rw [hid, map_id]
  congr 1
  funext node
  simp [hunmet, hasDepth, Bool.and_comm]

theorem wave_append_perm (order : Node → Node → Ordering) (depth : Nat) :
    (graph.wave order depth ++ graph.nodes.filter (graph.chain (depth + 1))).Perm
      (graph.nodes.filter (graph.chain depth)) := by
  have hsplit := filter_append_perm (graph.hasDepth depth)
    (graph.nodes.filter (graph.chain depth))
  rw [filter_filter, filter_filter] at hsplit
  have hreleased : graph.nodes.filter (fun node =>
      graph.hasDepth depth node && graph.chain depth node) =
        graph.nodes.filter (graph.hasDepth depth) := by
    apply filter_congr
    intro node _
    simp only [hasDepth]
    cases graph.chain depth node <;> simp
  have hkept : graph.nodes.filter (fun node =>
      !graph.hasDepth depth node && graph.chain depth node) =
        graph.nodes.filter (graph.chain (depth + 1)) := by
    apply filter_congr
    intro node _
    have hshorter := @chain_of_succ Node graph depth node
    simp only [hasDepth]
    cases hchain : graph.chain depth node <;> cases hlonger : graph.chain (depth + 1) node <;>
      simp_all
  rw [hreleased, hkept] at hsplit
  exact ((sortedBy_perm order _).append_right _).trans hsplit

theorem flatMap_wave_perm (order : Node → Node → Ordering) (depth count : Nat) :
    ((List.range' depth count).flatMap (graph.wave order) ++
      graph.nodes.filter (graph.chain (depth + count))).Perm
        (graph.nodes.filter (graph.chain depth)) := by
  induction count generalizing depth with
  | zero => exact List.Perm.refl _
  | succ count ih =>
    rw [List.range'_succ, flatMap_cons, append_assoc,
      show depth + (count + 1) = depth + 1 + count by omega]
    exact ((ih (depth + 1)).append_left _).trans (graph.wave_append_perm order depth)

variable [DecidableEq Node]

theorem release_stage (order : Node → Node → Ordering) (depth : Nat) :
    release (graph.wave order depth) (graph.stage depth) = graph.stage (depth + 1) := by
  have hkept : ∀ node ∈ graph.nodes,
      (decide (node ∉ graph.wave order depth) && graph.chain depth node) =
        graph.chain (depth + 1) node := by
    intro node hnode
    rw [Bool.eq_iff_iff, Bool.and_eq_true, decide_eq_true_iff, mem_wave, hasDepth_iff]
    constructor
    · intro h
      cases hlonger : graph.chain (depth + 1) node with
      | true => rfl
      | false => exact absurd ⟨hnode, h.2, hlonger⟩ h.1
    · intro hlonger
      refine ⟨?_, graph.chain_of_succ hlonger⟩
      intro hreleased
      rw [hlonger] at hreleased
      cases hreleased.2.2
  have hunmet : ∀ node, ((graph.deps node).filter (graph.chain depth)).filter
      (fun dependency => decide (dependency ∉ graph.wave order depth)) =
        (graph.deps node).filter (graph.chain (depth + 1)) := by
    intro node
    rw [filter_filter]
    exact filter_congr fun dependency hdependency =>
      hkept dependency (graph.inside node dependency hdependency).2
  simp only [release, stage, filter_map, map_map, filter_filter]
  have hnodes : graph.nodes.filter (fun node =>
      ((fun entry : Node × List Node => decide (entry.1 ∉ graph.wave order depth)) ∘
        fun node => (node, (graph.deps node).filter (graph.chain depth))) node &&
          graph.chain depth node) = graph.nodes.filter (graph.chain (depth + 1)) :=
    filter_congr hkept
  rw [hnodes]
  apply map_congr_left
  intro node _
  exact congrArg (Prod.mk node) (hunmet node)

variable {found : List Node}

/-- An order that is found is a run of consecutive waves that leaves nothing over. -/
theorem waves_eq_some {fuel : Nat} (h : waves order fuel (graph.stage depth) = some found) :
    ∃ count, found = (List.range' depth count).flatMap (graph.wave order) ∧
      graph.nodes.filter (graph.chain (depth + count)) = [] := by
  induction fuel generalizing depth found with
  | zero =>
    cases hstage : graph.stage depth with
    | nil =>
      rw [hstage] at h
      cases h
      exact ⟨0, rfl, map_eq_nil_iff.mp hstage⟩
    | cons entry waiting =>
      rw [hstage] at h
      cases h
  | succ fuel ih =>
    cases hstage : graph.stage depth with
    | nil =>
      rw [hstage] at h
      cases h
      exact ⟨0, rfl, map_eq_nil_iff.mp hstage⟩
    | cons entry waiting =>
      rw [hstage] at h
      unfold waves at h
      rw [← hstage, ready_stage] at h
      have hwave : sortedBy order (graph.nodes.filter (graph.hasDepth depth)) =
          graph.wave order depth := rfl
      simp only [hwave, release_stage] at h
      by_cases hempty : (graph.wave order depth).isEmpty = true
      · rw [if_pos hempty] at h
        cases h
      · rw [if_neg hempty] at h
        obtain ⟨rest, hrest, rfl⟩ := Option.map_eq_some_iff.mp h
        obtain ⟨count, hcount, hover⟩ := ih hrest
        refine ⟨count + 1, ?_, ?_⟩
        · rw [hcount, List.range'_succ, flatMap_cons]
        · rw [show depth + (count + 1) = depth + 1 + count by omega]
          exact hover

theorem waves_eq_none {fuel : Nat} (hfuel : (graph.stage depth).length ≤ fuel)
    (h : waves order fuel (graph.stage depth) = none) :
    ∃ reached, graph.nodes.filter (graph.chain reached) ≠ [] ∧
      graph.nodes.filter (graph.hasDepth reached) = [] := by
  induction fuel generalizing depth with
  | zero =>
    have hstage : graph.stage depth = [] := length_eq_zero_iff.mp (by omega)
    rw [hstage] at h
    cases h
  | succ fuel ih =>
    cases hstage : graph.stage depth with
    | nil =>
      rw [hstage] at h
      cases h
    | cons entry waiting =>
      have hwaits : graph.nodes.filter (graph.chain depth) ≠ [] := by
        intro hnone
        rw [stage, hnone] at hstage
        cases hstage
      rw [hstage] at h
      unfold waves at h
      rw [← hstage, ready_stage] at h
      have hwave : sortedBy order (graph.nodes.filter (graph.hasDepth depth)) =
          graph.wave order depth := rfl
      simp only [hwave, release_stage] at h
      by_cases hempty : (graph.wave order depth).isEmpty = true
      · refine ⟨depth, hwaits, ?_⟩
        have hnil : graph.wave order depth = [] := isEmpty_iff.mp hempty
        rw [eq_nil_iff_forall_not_mem] at hnil ⊢
        intro node hnode
        exact hnil node (graph.mem_wave.mpr (mem_filter.mp hnode))
      · rw [if_neg hempty, Option.map_eq_none_iff] at h
        refine ih ?_ h
        have hlength := (graph.wave_append_perm order depth).length_eq
        rw [length_append] at hlength
        have hpositive : 0 < (graph.wave order depth).length :=
          length_pos_of_ne_nil fun hnil => hempty (by rw [hnil]; rfl)
        simp only [stage, length_map] at hfuel ⊢
        omega

/-! ## Orders -/

variable {order : Node → Node → Ordering}

/-- The whole run: every node with its dependencies, and fuel for as many waves. -/
def sorted (order : Node → Node → Ordering) : Option (List Node) :=
  waves order graph.nodes.length (graph.nodes.map fun node => (node, graph.deps node))

theorem sorted_eq_some (h : graph.sorted order = some found) :
    ∃ count, found = (List.range' 0 count).flatMap (graph.wave order) ∧
      graph.nodes.filter (graph.chain count) = [] := by
  rw [sorted, ← stage_zero] at h
  obtain ⟨count, hfound, hover⟩ := graph.waves_eq_some h
  exact ⟨count, hfound, by simpa using hover⟩

theorem sorted_perm (h : graph.sorted order = some found) :
    found.Perm graph.nodes := by
  obtain ⟨count, rfl, hover⟩ := graph.sorted_eq_some h
  have hperm := graph.flatMap_wave_perm order 0 count
  rw [Nat.zero_add, hover, append_nil] at hperm
  have hall : graph.nodes.filter (graph.chain 0) = graph.nodes :=
    filter_eq_self.mpr fun _ _ => rfl
  rw [hall] at hperm
  exact hperm

theorem sorted_pairwise [Std.TransCmp order] (h : graph.sorted order = some found) :
    found.Pairwise fun earlier later => ∃ lower upper,
      graph.hasDepth lower earlier = true ∧ graph.hasDepth upper later = true ∧
        (lower < upper ∨ lower = upper ∧ (order earlier later).isLE = true) := by
  obtain ⟨count, rfl, -⟩ := graph.sorted_eq_some h
  rw [pairwise_flatMap]
  constructor
  · intro depth _
    have hsorted := @sortedBy_pairwise _ order _
    refine (hsorted _).imp_of_mem ?_
    intro earlier later hearlier hlater hle
    have hfirst := (graph.mem_wave.mp hearlier).2
    have hsecond := (graph.mem_wave.mp hlater).2
    exact ⟨depth, depth, hfirst, hsecond, Or.inr ⟨rfl, hle⟩⟩
  · refine (pairwise_lt_range' (s := 0) (n := count)).imp ?_
    intro lower upper hlt earlier hearlier later hlater
    have hfirst := (graph.mem_wave.mp hearlier).2
    have hsecond := (graph.mem_wave.mp hlater).2
    exact ⟨lower, upper, hfirst, hsecond, Or.inl hlt⟩

theorem sorted_dependencies [Std.TransCmp order]
    (h : graph.sorted order = some found) {dependency : Node}
    (hdepends : graph.DependsOn node dependency) : [dependency, node].Sublist found := by
  have hpairwise := graph.sorted_pairwise h
  have hperm := graph.sorted_perm h
  have hinside := graph.inside node dependency hdepends
  have hfirst : dependency ∈ found := hperm.mem_iff.mpr hinside.2
  have hsecond : node ∈ found := hperm.mem_iff.mpr hinside.1
  obtain ⟨front, back, rfl⟩ := append_of_mem hfirst
  -- The node stands neither at the dependency's place nor in front of it.
  have hdepth : ∃ depth, graph.hasDepth depth dependency = true := by
    obtain ⟨count, hfound, -⟩ := graph.sorted_eq_some h
    rw [hfound, mem_flatMap] at hfirst
    obtain ⟨depth, -, hmember⟩ := hfirst
    exact ⟨depth, (graph.mem_wave.mp hmember).2⟩
  rcases mem_append.mp hsecond with hfront | hback
  · have hbefore := (pairwise_append.mp hpairwise).2.2 node hfront dependency
      mem_cons_self
    obtain ⟨lower, upper, hlower, hupper, hordered⟩ := hbefore
    have hlt := graph.depth_lt_of_dependsOn hdepends hupper hlower
    omega
  · rcases mem_cons.mp hback with rfl | hlater
    · obtain ⟨depth, hself⟩ := hdepth
      have hlt := graph.depth_lt_of_dependsOn hdepends hself hself
      omega
    · have htail : [node].Sublist back := singleton_sublist.mpr hlater
      exact (List.Sublist.cons_cons dependency htail).trans (sublist_append_right front _)

theorem sorted_eq_none_iff : graph.sorted order = none ↔ graph.Cyclic := by
  constructor
  · intro h
    rw [sorted, ← stage_zero] at h
    have hlength : (graph.stage 0).length ≤ graph.nodes.length := by
      rw [stage_zero, length_map]
    obtain ⟨reached, hwaits, hnone⟩ := graph.waves_eq_none hlength h
    refine graph.cyclic_of_endless hwaits ?_
    intro node hnode
    obtain ⟨hmember, hchain⟩ := mem_filter.mp hnode
    -- No wave takes the node, so a longer chain leaves it.
    have hlonger : graph.chain (reached + 1) node = true := by
      cases hends : graph.chain (reached + 1) node with
      | true => rfl
      | false =>
        have hreleased : node ∈ graph.nodes.filter (graph.hasDepth reached) :=
          mem_filter.mpr ⟨hmember, graph.hasDepth_iff.mpr ⟨hchain, hends⟩⟩
        rw [hnone] at hreleased
        cases hreleased
    obtain ⟨dependency, hdependency, hbelow⟩ := any_eq_true.mp hlonger
    have hinside := (graph.inside node dependency hdependency).2
    exact ⟨dependency, mem_filter.mpr ⟨hinside, hbelow⟩, hdependency⟩
  · intro hcyclic
    obtain ⟨node, hcycle⟩ := hcyclic
    cases hfound : graph.sorted order with
    | none => rfl
    | some found =>
      obtain ⟨count, -, hover⟩ := graph.sorted_eq_some hfound
      obtain ⟨dependency, hstep, -⟩ := Relation.TransGen.head'_iff.mp hcycle
      have hmember : node ∈ graph.nodes.filter (graph.chain count) :=
        mem_filter.mpr
          ⟨(graph.inside node dependency hstep).1, graph.chain_of_cycle hcycle count⟩
      rw [hover] at hmember
      cases hmember

end Graph

end TwinForge.Waves
