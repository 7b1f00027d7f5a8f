import TwinForge.ControlExpert.SfcSuccessors

/-! # Connectivity edges and the evidence for them

Every node of a chart is accounted for, and its edges keep to one candidate exactly where
nothing that the lookups pass over competes with what they find.
-/

namespace TwinForge.ControlExpert

open List

section

variable {Item Key Out : Type} [DecidableEq Key]

theorem filter_flatMap_tagged {items : List Item} {key : Item → Key} {tag : Out → Key}
    {contribute : Item → List Out} (hnodup : (items.map key).Nodup)
    (htag : ∀ item ∈ items, ∀ out ∈ contribute item, tag out = key item) {item : Item}
    (h : item ∈ items) :
    (items.flatMap contribute).filter (fun out => tag out = key item) = contribute item := by
  induction items with
  | nil => simp at h
  | cons first rest ih =>
    rw [map_cons, nodup_cons] at hnodup
    have hothers : ∀ wanted : Key, wanted ∉ rest.map key →
        (rest.flatMap contribute).filter (fun out => tag out = wanted) = [] := by
      intro wanted habsent
      rw [filter_eq_nil_iff]
      intro out hout
      obtain ⟨other, hother, hcontributed⟩ := mem_flatMap.mp hout
      have hkey := htag other (mem_cons_of_mem _ hother) out hcontributed
      have hne : key other ≠ wanted := fun heq =>
        habsent (heq ▸ mem_map_of_mem hother)
      simp [hkey, hne]
    have hfirst : ∀ wanted : Key, (contribute first).filter (fun out => tag out = wanted) =
        if key first = wanted then contribute first else [] := by
      intro wanted
      by_cases hwanted : key first = wanted
      · rw [if_pos hwanted, filter_eq_self]
        intro out hout
        simp [htag first (by simp) out hout, hwanted]
      · rw [if_neg hwanted, filter_eq_nil_iff]
        intro out hout
        simp [htag first (by simp) out hout, hwanted]
    rw [flatMap_cons, filter_append, hfirst]
    rcases mem_cons.mp h with rfl | hrest
    · rw [if_pos rfl, hothers _ hnodup.1, append_nil]
    · have hne : key first ≠ key item := fun heq =>
        hnodup.1 (heq ▸ mem_map_of_mem hrest)
      rw [if_neg hne, nil_append]
      exact ih hnodup.2 (fun other hother => htag other (mem_cons_of_mem _ hother)) hrest

end

section

variable {db : CharacterDatabase} {network : SequentialElement} {networkIndex : Nat}

/-- Nothing competes with what is taken for the successor of a node. -/
def NodeClear (db : CharacterDatabase) (network : SequentialElement) (path : ElementPath) : Prop :=
  ∀ position, positionAt db network path.element = some position →
    (kindAt network path.element = some .step →
      StepClear db network path.network path.element position) ∧
    (kindAt network path.element = some .transition →
      TransitionClear db network path.network path.element position)

variable {index : Nat}

theorem flowKind_cases (h : (kindAt network index).any isFlowKind = true) :
    kindAt network index = some .step ∨ kindAt network index = some .transition := by
  cases hkind : kindAt network index with
  | none => simp [hkind] at h
  | some kind => simpa [hkind, isFlowKind] using h

theorem resolveNode_located {edges : List SequentialEdge}
    (h : resolveNode db network networkIndex index = .ok edges) :
    ∃ position, positionAt db network index = some position := by
  cases hposition : positionAt db network index with
  | none => simp [resolveNode, hposition] at h
  | some position => exact ⟨position, rfl⟩

theorem resolveNode_edges {edges : List SequentialEdge}
    (h : resolveNode db network networkIndex index = .ok edges) :
    edges ≠ [] ∧ ∀ edge ∈ edges, edge.sourcePath = ⟨networkIndex, index⟩ := by
  obtain ⟨position, hposition⟩ := resolveNode_located h
  simp only [resolveNode, hposition] at h
  by_cases hstep : kindAt network index = some .step
  · rw [if_pos hstep] at h
    rcases resolveStep_ok.mp h with
      ⟨branch, targets, -, -, htargets, rfl⟩ | ⟨-, ⟨target, -, -, rfl⟩ | ⟨-, path, -, -, -, rfl⟩⟩
    · refine ⟨by simpa using (branchTargets_spec htargets).1, ?_⟩
      intro edge hedge
      obtain ⟨target, -, rfl⟩ := mem_map.mp hedge
      rfl
    · simp [successor]
    · simp
  · rw [if_neg hstep] at h
    rcases resolveTransition_ok.mp h with
      ⟨-, -, target, -, rfl⟩ | ⟨-, ⟨jump, target, -, -, -, rfl⟩ | ⟨-, path, -, hlinked⟩⟩
    · simp [successor]
    · simp [successor]
    · rcases resolveLinkedTransition_ok.mp hlinked with
        ⟨-, ⟨-, rfl⟩ | ⟨-, target, -, rfl⟩⟩ <;> simp [successor]

theorem node_sound {path : ElementPath}
    (hflow : (kindAt network path.element).any isFlowKind = true) :
    (∀ edges, resolveNode db network path.network path.element = .ok edges →
      ∃ position, positionAt db network path.element = some position ∧
        EdgesSound db network path.network path.element position edges) ↔
    NodeClear db network path := by
  have hresolve : ∀ position, positionAt db network path.element = some position →
      (((∀ edges, resolveNode db network path.network path.element = .ok edges →
        EdgesSound db network path.network path.element position edges)) ↔
      (kindAt network path.element = some .step →
        StepClear db network path.network path.element position) ∧
      (kindAt network path.element = some .transition →
        TransitionClear db network path.network path.element position)) := by
    intro position hposition
    simp only [resolveNode, hposition]
    rcases flowKind_cases hflow with hkind | hkind
    · rw [if_pos hkind, step_sound hkind]
      simp [hkind]
    · rw [if_neg (by simp [hkind]), transition_sound hkind]
      simp [hkind]
  constructor
  · intro hsound position hposition
    rw [← hresolve position hposition]
    intro edges hedges
    obtain ⟨found, hfound, hedgesSound⟩ := hsound edges hedges
    rw [hposition] at hfound
    cases hfound
    exact hedgesSound
  · intro hclear edges hedges
    obtain ⟨position, hposition⟩ := resolveNode_located hedges
    exact ⟨position, hposition, (hresolve position hposition).mpr (hclear position hposition)
      edges hedges⟩

/-! ## The nodes of a chart -/

def nodeEdges (db : CharacterDatabase) (node : SequentialElement × ElementPath) :
    List SequentialEdge :=
  match resolveNode db node.1 node.2.network node.2.element with
  | .ok edges => edges
  | .error _ => []

def nodeIssues (db : CharacterDatabase) (node : SequentialElement × ElementPath) :
    List ConnectivityIssue :=
  match resolveNode db node.1 node.2.network node.2.element with
  | .ok _ => []
  | .error (code, detail) => [⟨node.2, code, detail⟩]

def networkNodes (network : SequentialElement) (networkIndex : Nat) :
    List (SequentialElement × ElementPath) :=
  ((indices network).filter fun index => (kindAt network index).any isFlowKind).map
    fun index => (network, ⟨networkIndex, index⟩)

def chartNodes (chart : SequentialChart) : List (SequentialElement × ElementPath) :=
  (chart.elements.zipIdx.filter fun entry => entry.1.kind = .network).flatMap
    fun entry => networkNodes entry.1 entry.2

variable {node : SequentialElement × ElementPath}

theorem mem_networkNodes :
    node ∈ networkNodes network networkIndex ↔ network = node.1 ∧ networkIndex = node.2.network ∧
      (kindAt node.1 node.2.element).any isFlowKind = true := by
  simp only [networkNodes, indices, mem_map, mem_filter, mem_range]
  constructor
  · rintro ⟨index, ⟨-, hflow⟩, rfl⟩
    exact ⟨rfl, rfl, hflow⟩
  · rintro ⟨rfl, rfl, hflow⟩
    have hsome : (kindAt node.1 node.2.element).isSome = true := by
      cases hkind : kindAt node.1 node.2.element with
      | none => simp [hkind] at hflow
      | some kind => rfl
    have hbound : node.2.element < node.1.children.length := by
      by_contra hpast
      have hnone : node.1.children[node.2.element]? = none := by
        rw [List.getElem?_eq_none_iff]
        omega
      simp [kindAt, hnone] at hsome
    exact ⟨node.2.element, ⟨⟨hbound, hsome⟩, hflow⟩, rfl⟩

theorem mem_chartNodes {chart : SequentialChart} :
    node ∈ chartNodes chart ↔ chart.elements[node.2.network]? = some node.1 ∧
      node.1.kind = .network ∧ (kindAt node.1 node.2.element).any isFlowKind = true := by
  simp only [chartNodes, mem_flatMap, mem_filter, mem_networkNodes,
    mem_zipIdx_iff_getElem?, decide_eq_true_eq]
  constructor
  · rintro ⟨entry, ⟨hentry, hkind⟩, hnetwork, hindex, hflow⟩
    rw [hindex, hnetwork] at hentry
    exact ⟨hentry, hnetwork ▸ hkind, hflow⟩
  · rintro ⟨hentry, hkind, hflow⟩
    exact ⟨(node.1, node.2.network), ⟨hentry, hkind⟩, rfl, rfl, hflow⟩

theorem chartNodes_nodup (chart : SequentialChart) : ((chartNodes chart).map Prod.snd).Nodup := by
  rw [chartNodes, map_flatMap, nodup_flatMap]
  constructor
  · intro entry hentry
    rw [networkNodes, map_map]
    refine List.Nodup.map ?_ ((nodup_range.filter _).filter _)
    intro first second heq
    simpa using heq
  · have hdistinct : (chart.elements.zipIdx.map Prod.snd).Nodup := by
      rw [List.zipIdx_map_snd]
      exact nodup_range'
    have hpairwise := (pairwise_map.mp hdistinct).filter fun entry => entry.1.kind = .network
    refine hpairwise.imp ?_
    intro first second hne path hfirst hsecond
    obtain ⟨node, hnode, rfl⟩ := mem_map.mp hfirst
    obtain ⟨other, hother, hpath⟩ := mem_map.mp hsecond
    have hleft := (mem_networkNodes.mp hnode).2.1
    have hright := (mem_networkNodes.mp hother).2.1
    exact hne (by rw [hleft, hright, hpath])

theorem foldl_append_both {Item First Second : Type} (first : Item → List First)
    (second : Item → List Second) (items : List Item) (start : List First × List Second) :
    items.foldl (fun found item => (found.1 ++ first item, found.2 ++ second item)) start =
      (start.1 ++ items.flatMap first, start.2 ++ items.flatMap second) := by
  induction items generalizing start with
  | nil => simp
  | cons item items ih => simp [ih, append_assoc]

theorem flatMap_filter {Item Out : Type} (keep : Item → Bool) (contribute : Item → List Out)
    (items : List Item) :
    (items.filter keep).flatMap contribute =
      items.flatMap fun item => if keep item then contribute item else [] := by
  induction items with
  | nil => rfl
  | cons item items ih =>
    by_cases hkeep : keep item = true <;> simp [hkeep, ih]

theorem resolveNetwork_eq (db : CharacterDatabase) (network : SequentialElement)
    (networkIndex : Nat) : resolveNetwork db network networkIndex =
      ((networkNodes network networkIndex).flatMap (nodeEdges db),
        (networkNodes network networkIndex).flatMap (nodeIssues db)) := by
  have hadd : ∀ (found : List SequentialEdge × List ConnectivityIssue) (index : Nat),
      addNode db network networkIndex found index =
        (found.1 ++ (if (kindAt network index).any isFlowKind then
            nodeEdges db (network, ⟨networkIndex, index⟩) else []),
          found.2 ++ (if (kindAt network index).any isFlowKind then
            nodeIssues db (network, ⟨networkIndex, index⟩) else [])) := by
    intro found index
    unfold addNode
    by_cases hflow : (kindAt network index).any isFlowKind = true
    · simp only [hflow, if_true, nodeEdges, nodeIssues]
      cases resolveNode db network networkIndex index with
      | ok edges => simp
      | error failure => simp
    · simp [hflow]
  have hfold := foldl_append_both
    (fun index => if (kindAt network index).any isFlowKind then
      nodeEdges db (network, ⟨networkIndex, index⟩) else [])
    (fun index => if (kindAt network index).any isFlowKind then
      nodeIssues db (network, ⟨networkIndex, index⟩) else []) (indices network) ([], [])
  rw [resolveNetwork, funext fun found => funext fun index => hadd found index, hfold,
    networkNodes, flatMap_map, flatMap_map, flatMap_filter, flatMap_filter]
  rfl

theorem resolveChart_eq (db : CharacterDatabase) (chart : SequentialChart) :
    (resolveChart db chart).1.connectivityEdges = (chartNodes chart).flatMap (nodeEdges db) ∧
      (resolveChart db chart).2 = (chartNodes chart).flatMap (nodeIssues db) := by
  have hadd : (fun (found : List SequentialEdge × List ConnectivityIssue)
      (entry : SequentialElement × Nat) =>
        if entry.1.kind = .network then
          (found.1 ++ (resolveNetwork db entry.1 entry.2).1,
            found.2 ++ (resolveNetwork db entry.1 entry.2).2)
        else found) =
      fun found entry =>
        (found.1 ++ (if decide (entry.1.kind = .network) then
            (networkNodes entry.1 entry.2).flatMap (nodeEdges db) else []),
          found.2 ++ (if decide (entry.1.kind = .network) then
            (networkNodes entry.1 entry.2).flatMap (nodeIssues db) else [])) := by
    funext found entry
    by_cases hkind : entry.1.kind = .network <;> simp [hkind, resolveNetwork_eq]
  have hfold := foldl_append_both
    (fun entry : SequentialElement × Nat => if decide (entry.1.kind = .network) then
      (networkNodes entry.1 entry.2).flatMap (nodeEdges db) else [])
    (fun entry : SequentialElement × Nat => if decide (entry.1.kind = .network) then
      (networkNodes entry.1 entry.2).flatMap (nodeIssues db) else [])
    chart.elements.zipIdx ([], [])
  simp only [resolveChart]
  rw [hadd, hfold, chartNodes, flatMap_assoc, flatMap_assoc, flatMap_filter,
    flatMap_filter]
  exact ⟨rfl, rfl⟩

/-! ## Evidence -/

/-- Every node has edges or one issue, nothing else has, and the edges of a node lead where
its one candidate leads, from steps to transitions and back. -/
structure NeverGuesses (db : CharacterDatabase) (chart : SequentialChart)
    (edges : List SequentialEdge) (issues : List ConnectivityIssue) : Prop where
  accounted : ∀ node ∈ chartNodes chart,
    (edges.filter (fun edge => edge.sourcePath = node.2) ≠ [] ∧
      issues.filter (fun issue => issue.elementPath = node.2) = []) ∨
    (edges.filter (fun edge => edge.sourcePath = node.2) = [] ∧
      ∃ issue, issues.filter (fun issue => issue.elementPath = node.2) = [issue])
  fromNodes : (∀ edge ∈ edges, ∃ node ∈ chartNodes chart, edge.sourcePath = node.2) ∧
    ∀ issue ∈ issues, ∃ node ∈ chartNodes chart, issue.elementPath = node.2
  evidenced : ∀ node ∈ chartNodes chart,
    edges.filter (fun edge => edge.sourcePath = node.2) ≠ [] →
      ∃ position, positionAt db node.1 node.2.element = some position ∧
        EdgesSound db node.1 node.2.network node.2.element position
          (edges.filter fun edge => edge.sourcePath = node.2)

theorem nodeEdges_source {edge : SequentialEdge}
    (h : edge ∈ nodeEdges db node) : edge.sourcePath = node.2 := by
  unfold nodeEdges at h
  split at h
  · rename_i edges hedges
    exact (resolveNode_edges hedges).2 edge h
  · cases h

theorem nodeIssues_path {issue : ConnectivityIssue}
    (h : issue ∈ nodeIssues db node) : issue.elementPath = node.2 := by
  unfold nodeIssues at h
  split at h
  · cases h
  · rw [mem_singleton.mp h]

/-- The resolver never guesses exactly where nothing it passes over competes with what it
takes. -/
theorem connectivity_evidence (chart : SequentialChart) :
    NeverGuesses db chart (resolveChart db chart).1.connectivityEdges (resolveChart db chart).2 ↔
      ∀ node ∈ chartNodes chart, NodeClear db node.1 node.2 := by
  rw [(resolveChart_eq db chart).1, (resolveChart_eq db chart).2]
  have hedges : ∀ node ∈ chartNodes chart, ((chartNodes chart).flatMap (nodeEdges db)).filter
      (fun edge => edge.sourcePath = node.2) = nodeEdges db node := fun node hnode =>
    filter_flatMap_tagged (chartNodes_nodup chart) (fun _ _ _ h => nodeEdges_source h) hnode
  have hissues : ∀ node ∈ chartNodes chart, ((chartNodes chart).flatMap (nodeIssues db)).filter
      (fun issue => issue.elementPath = node.2) = nodeIssues db node := fun node hnode =>
    filter_flatMap_tagged (chartNodes_nodup chart) (fun _ _ _ h => nodeIssues_path h) hnode
  constructor
  · intro hnever node hnode
    refine (node_sound (mem_chartNodes.mp hnode).2.2).mp ?_
    intro edges hresolved
    have hnodeEdges : nodeEdges db node = edges := by simp [nodeEdges, hresolved]
    have hfound := hnever.evidenced node hnode
    rw [hedges node hnode, hnodeEdges] at hfound
    exact hfound (resolveNode_edges hresolved).1
  · intro hclear
    constructor
    · intro node hnode
      rw [hedges node hnode, hissues node hnode]
      cases hresolved : resolveNode db node.1 node.2.network node.2.element with
      | ok edges =>
        left
        simpa [nodeEdges, nodeIssues, hresolved] using (resolveNode_edges hresolved).1
      | error failure =>
        right
        simp [nodeEdges, nodeIssues, hresolved]
    · constructor
      · intro edge hedge
        obtain ⟨node, hnode, hfound⟩ := mem_flatMap.mp hedge
        exact ⟨node, hnode, nodeEdges_source hfound⟩
      · intro issue hissue
        obtain ⟨node, hnode, hfound⟩ := mem_flatMap.mp hissue
        exact ⟨node, hnode, nodeIssues_path hfound⟩
    · intro node hnode hsome
      rw [hedges node hnode] at hsome ⊢
      cases hresolved : resolveNode db node.1 node.2.network node.2.element with
      | ok edges =>
        have hnodeEdges : nodeEdges db node = edges := by simp [nodeEdges, hresolved]
        rw [hnodeEdges]
        exact (node_sound (mem_chartNodes.mp hnode).2.2).mpr (hclear node hnode) edges hresolved
      | error failure => simp [nodeEdges, hresolved] at hsome

end

def placed (kind : ElementKind) (x y : Text) : SequentialElement :=
  .mk kind {} none none [.mk .position { entries := [("x", x), ("y", y)], nodup := by simp [Text.of] }
    none none []]

def linkBetween (source destination : Nat) : SequentialElement :=
  .mk .explicitLink {} none none
    [.mk .linkSource {} (some .resolved) (some ⟨0, source⟩) [],
      .mk .linkDestination {} (some .resolved) (some ⟨0, destination⟩) []]

/-- A transition with links to two steps. -/
def forked : SequentialElement :=
  .mk .network {} none none
    [placed .transition "1" "1", placed .step "5" "1", placed .step "6" "1",
      linkBetween 0 1, linkBetween 0 2]

theorem second_link_kept :
    ¬ NeverGuesses Ascii.database { elements := [forked] }
      (resolveChart Ascii.database { elements := [forked] }).1.connectivityEdges
      (resolveChart Ascii.database { elements := [forked] }).2 := by
  intro hnever
  have hnode : ((forked, ⟨0, 0⟩) : SequentialElement × ElementPath) ∈
      chartNodes { elements := [forked] } := mem_chartNodes.mpr ⟨rfl, rfl, rfl⟩
  have hedges : (resolveChart Ascii.database { elements := [forked] }).1.connectivityEdges =
      [⟨⟨0, 0⟩, ⟨0, 2⟩, .explicitLink⟩] := by decide +kernel
  rw [hedges] at hnever
  obtain ⟨position, hposition, hsound⟩ := hnever.evidenced _ hnode (by decide)
  have hfirst : position = (1, 1) := by
    have hplace : positionAt Ascii.database forked 0 = some (1, 1) := by decide +kernel
    rw [hplace] at hposition
    exact (Option.some.inj hposition).symm
  obtain ⟨candidate, targets, hone, -⟩ := hsound.sole
  have htwo : (nodeCandidates Ascii.database forked 0 0 (1, 1)).length = 2 := by decide +kernel
  rw [hfirst] at hone
  rw [hone] at htwo
  cases htwo

end TwinForge.ControlExpert
