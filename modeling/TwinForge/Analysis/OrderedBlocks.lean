import TwinForge.Analysis.ExecutionOrder

/-! # Resolved diagrams are in dependency order

The dictionary a diagram is ordered by holds exactly the wires and execution overrides
between its blocks, so the waves over it are those of the dependency relation.
-/

namespace TwinForge.Analysis

open Graphical Waves List

variable {diagram : GraphicalDiagram}

theorem blocks_nodup : (blocks diagram).Nodup := by
  have hindices : (diagram.objects.zipIdx.map Prod.snd).Nodup := by
    rw [List.zipIdx_map_snd]
    exact nodup_range'
  exact hindices.sublist (filter_sublist.map Prod.snd)

theorem enumerate_perm (sets : SetOrder) :
    (sets.enumerate (blocks diagram)).Perm (blocks diagram) := by
  have hperm := sets.perm (blocks diagram)
  rwa [blocks_nodup.dedup] at hperm

/-! ## Dependency dictionaries -/

variable {deps : Dependencies}

theorem mem_unmet_addDependency {destination source block dependency : Nat} :
    dependency ∈ unmet (addDependency deps destination source) block ↔
      dependency ∈ unmet deps block ∨ block = destination ∧ dependency = source := by
  simp only [unmet, addDependency, Dictionary.get?_set]
  by_cases hblock : block = destination
  · subst hblock
    simp [or_comm]
  · simp [hblock]

theorem keys_addDependency {destination source : Nat}
    (h : destination ∈ deps.keys) : (addDependency deps destination source).keys = deps.keys := by
  have hkeys := map_fst_assign destination ((unmet deps destination).insert source) deps.entries
  exact hkeys.trans (if_pos h)

/-- A dictionary with the given blocks as its keys and the pairs of `depends` as its entries. -/
structure Records (deps : Dependencies) (indices : List Nat) (depends : Nat → Nat → Prop) :
    Prop where
  keys : deps.keys = indices
  unmet : ∀ block dependency, dependency ∈ Analysis.unmet deps block ↔ depends block dependency

theorem Records.add {deps : Dependencies} {indices : List Nat} {depends : Nat → Nat → Prop}
    (h : Records deps indices depends) {destination source : Nat}
    (hdestination : destination ∈ indices) :
    Records (addDependency deps destination source) indices fun block dependency =>
      depends block dependency ∨ block = destination ∧ dependency = source where
  keys := by
    rw [keys_addDependency (h.keys ▸ hdestination), h.keys]
  unmet block dependency := by
    rw [mem_unmet_addDependency, h.unmet]

variable {indices : List Nat}

theorem Records.congr {depends depends' : Nat → Nat → Prop} (h : Records deps indices depends)
    (hsame : ∀ block dependency, depends block dependency ↔ depends' block dependency) :
    Records deps indices depends' where
  keys := h.keys
  unmet block dependency := (h.unmet block dependency).trans (hsame block dependency)

theorem records_empty (h : indices.Nodup) :
    Records (Dictionary.ofItems id (fun _ => []) indices) indices fun _ _ => False where
  keys := by
    rw [Dictionary.keys, Dictionary.ofItems_entries (by simpa using h)]
    simp [Function.comp_def]
  unmet block dependency := by
    rw [iff_false]
    intro hdependency
    unfold Analysis.unmet at hdependency
    cases hget : (Dictionary.ofItems id (fun _ => ([] : List Nat)) indices).get? block with
    | none => simp [hget] at hdependency
    | some found =>
      obtain ⟨item, -, -, hempty⟩ := Dictionary.ofItems_get? hget
      simp [hget, ← hempty] at hdependency

theorem Records.addAll
    {depends : Nat → Nat → Prop} (h : Records deps indices depends) {pairs : List (Nat × Nat)}
    (hpairs : ∀ pair ∈ pairs, pair.1 ∈ indices) :
    Records (pairs.foldl (fun deps pair => addDependency deps pair.1 pair.2) deps) indices
      fun block dependency => depends block dependency ∨ (block, dependency) ∈ pairs := by
  induction pairs generalizing deps depends with
  | nil => exact h.congr (by simp)
  | cons pair pairs ih =>
    have hadded := @Records.add _ _ _ h pair.1 pair.2 (hpairs pair mem_cons_self)
    refine (ih hadded fun other hother => hpairs other (mem_cons_of_mem pair hother)).congr ?_
    intro block dependency
    rw [mem_cons, Prod.ext_iff, or_assoc]

/-! ## Wires -/

/-- A resolved wire from an output of the dependency to an input of the block. -/
def Wired (links : List GraphicalLink) (block dependency : Nat) : Prop :=
  ∃ link ∈ links, link.source.status = .resolved ∧ link.destination.status = .resolved ∧
    link.source.objectIndex = some dependency ∧ link.destination.objectIndex = some block

theorem wiredDependencies_records (hindices : indices.Nodup)
    (h : wiredDependencies diagram indices = some deps) :
    Records deps indices fun block dependency =>
      block ∈ indices ∧ dependency ∈ indices ∧ Wired diagram.links block dependency := by
  unfold wiredDependencies at h
  generalize diagram.links = links at h ⊢
  induction links using reverseRecOn generalizing deps with
  | nil =>
    rw [foldlM_nil] at h
    rw [← Option.some.inj h]
    exact (records_empty hindices).congr (by simp [Wired])
  | append_singleton links link ih =>
    rw [foldlM_append] at h
    obtain ⟨before, hbefore, hlast⟩ := Option.bind_eq_some_iff.mp h
    have hrecords := ih hbefore
    simp only [foldlM_cons, foldlM_nil] at hlast
    obtain ⟨after, hlink, hsame⟩ := Option.bind_eq_some_iff.mp hlast
    cases hsame
    have hsplit : ∀ block dependency, Wired (links ++ [link]) block dependency ↔
        Wired links block dependency ∨ Wired [link] block dependency := by
      intro block dependency
      simp [Wired, or_and_right, exists_or]
    by_cases hends : link.source.status ≠ .resolved ∨ link.destination.status ≠ .resolved
    · rw [if_pos hends] at hlink
      cases hlink
    · rw [if_neg hends] at hlink
      push Not at hends
      -- A wire counts only where both its ends are blocks.
      cases hsource : link.source.objectIndex with
      | none =>
        rw [hsource] at hlink
        cases hlink
        refine hrecords.congr fun block dependency => ?_
        rw [hsplit]
        simp [Wired, hsource]
      | some source =>
        cases hdestination : link.destination.objectIndex with
        | none =>
          rw [hsource, hdestination] at hlink
          cases hlink
          refine hrecords.congr fun block dependency => ?_
          rw [hsplit]
          simp [Wired, hdestination]
        | some destination =>
          rw [hsource, hdestination] at hlink
          have hwired : ∀ block dependency, Wired [link] block dependency ↔
              block = destination ∧ dependency = source := by
            intro block dependency
            simp only [Wired, mem_singleton, exists_eq_left, hends, hsource,
              hdestination, Option.some.injEq, true_and]
            constructor
            · intro ⟨hfirst, hsecond⟩
              exact ⟨hsecond.symm, hfirst.symm⟩
            · intro ⟨hfirst, hsecond⟩
              exact ⟨hsecond.symm, hfirst.symm⟩
          by_cases hboth : source ∈ indices ∧ destination ∈ indices
          · simp only [if_pos hboth, Option.some.injEq] at hlink
            subst hlink
            refine (hrecords.add hboth.2).congr fun block dependency => ?_
            have hinside : block = destination ∧ dependency = source →
                block ∈ indices ∧ dependency ∈ indices := by
              intro hends
              exact ⟨hends.1 ▸ hboth.2, hends.2 ▸ hboth.1⟩
            rw [hsplit, hwired]
            tauto
          · simp only [if_neg hboth, Option.some.injEq] at hlink
            subst hlink
            refine hrecords.congr fun block dependency => ?_
            have houtside : block ∈ indices → dependency ∈ indices →
                ¬ (block = destination ∧ dependency = source) := by
              intro hblock hdependency hends
              exact hboth ⟨hends.2 ▸ hdependency, hends.1 ▸ hblock⟩
            rw [hsplit, hwired]
            tauto

theorem dependencyGraph_records (hindices : indices.Nodup)
    (h : dependencyGraph diagram indices = some deps) :
    Records deps indices fun block dependency =>
      block ∈ indices ∧ dependency ∈ indices ∧ Wired diagram.links block dependency := by
  obtain ⟨wired, hwired, hchecked⟩ := Option.bind_eq_some_iff.mp h
  split at hchecked
  · cases hchecked
  · cases hchecked
    exact wiredDependencies_records hindices hwired

/-! ## Execution overrides -/

variable {order : List Nat}

section

variable (db : CharacterDatabase)

/-- The execution override of the block names the other one, ignoring case. -/
def RunsAfter (diagram : GraphicalDiagram) (block dependency : Nat) : Prop :=
  overrideTarget db diagram block ≠ [] ∧ instanceName diagram dependency ≠ [] ∧
    db.casefoldText (instanceName diagram dependency) =
      db.casefoldText (overrideTarget db diagram block)

variable {db}

theorem mem_blocksByName {indices : List Nat} {block : Nat} {name : Text} :
    block ∈ ((blocksByName db diagram indices).get? name).getD [] ↔
      block ∈ indices ∧ instanceName diagram block ≠ [] ∧
        db.casefoldText (instanceName diagram block) = name := by
  have hgroup : ((blocksByName db diagram indices).get? name).getD [] =
      (indices.filter fun block => decide (instanceName diagram block ≠ [])).filter
        fun block => decide (db.casefoldText (instanceName diagram block) = name) := by
    rw [blocksByName, Dictionary.get?_groupBy]
    split
    · rename_i hnone
      simpa using hnone.symm
    · rfl
  rw [hgroup]
  simp only [mem_filter, decide_eq_true_iff, and_assoc]

theorem mem_overridesOf {walked : List Nat} {overrides : List (Nat × Nat)}
    (h : overridesOf db diagram (blocksByName db diagram indices) walked = some overrides)
    {block dependency : Nat} :
    (block, dependency) ∈ overrides ↔
      block ∈ walked ∧ dependency ∈ indices ∧ RunsAfter db diagram block dependency := by
  induction walked generalizing overrides with
  | nil =>
    cases h
    simp
  | cons first rest ih =>
    unfold overridesOf at h
    by_cases htarget : overrideTarget db diagram first = []
    · simp only [if_pos htarget] at h
      rw [ih h, mem_cons]
      constructor
      · intro hlater
        exact ⟨Or.inr hlater.1, hlater.2⟩
      · intro hmember
        refine ⟨hmember.1.resolve_left ?_, hmember.2⟩
        intro hfirst
        exact hmember.2.2.1 (hfirst ▸ htarget)
    · simp only [if_neg htarget] at h
      have hmatches := @mem_blocksByName diagram db indices
      split at h
      · rename_i found hfound
        split at h
        · cases h
        · obtain ⟨later, hlater, rfl⟩ := Option.map_eq_some_iff.mp h
          -- The override of the first block names the one block found.
          have hfirst : ∀ other, other ∈ indices ∧ RunsAfter db diagram first other ↔
              other = found := by
            intro other
            have hother := @hmatches other (db.casefoldText (overrideTarget db diagram first))
            rw [hfound, mem_singleton] at hother
            rw [hother, RunsAfter]
            simp [htarget]
          rw [mem_cons, Prod.ext_iff, ih hlater, mem_cons]
          constructor
          · intro hmember
            cases hmember with
            | inl hhere =>
              have hpair := (hfirst dependency).mpr hhere.2
              have hblock : block = first := hhere.1
              exact ⟨Or.inl hblock, hpair.1, hblock ▸ hpair.2⟩
            | inr hthere => exact ⟨Or.inr hthere.1, hthere.2⟩
          · intro ⟨hmember, hrest⟩
            cases hmember with
            | inl hblock =>
              refine Or.inl ⟨hblock, (hfirst dependency).mp ?_⟩
              exact hblock ▸ hrest
            | inr hthere => exact Or.inr ⟨hthere, hrest⟩
      · cases h

/-! ## The dependency relation -/

variable (db)

/-- The block depends on the other one: by a wire or by an execution override. -/
def DependsOn (diagram : GraphicalDiagram) (block dependency : Nat) : Prop :=
  block ∈ blocks diagram ∧ dependency ∈ blocks diagram ∧
    (Wired diagram.links block dependency ∨ RunsAfter db diagram block dependency)

variable {db}

def graphOf (deps : Dependencies) {indices : List Nat}
    (h : Records deps indices (DependsOn db diagram))
    (hindices : indices.Perm (blocks diagram)) : Graph Nat where
  nodes := deps.keys
  deps := unmet deps
  inside block dependency hdependency := by
    have hdepends := (h.unmet block dependency).mp hdependency
    rw [h.keys, hindices.mem_iff, hindices.mem_iff]
    exact ⟨hdepends.1, hdepends.2.1⟩

theorem graphOf_dependsOn
    (h : Records deps indices (DependsOn db diagram)) (hindices : indices.Perm (blocks diagram)) :
    (graphOf deps h hindices).DependsOn = DependsOn db diagram := by
  funext block dependency
  exact propext (h.unmet block dependency)

theorem topologicalOrder_eq
    (h : Records deps indices (DependsOn db diagram)) (hindices : indices.Perm (blocks diagram))
    (order : Nat → Nat → Ordering) :
    topologicalOrder order deps = (graphOf deps h hindices).sorted order := by
  have hentries : deps.entries = deps.keys.map fun block => (block, unmet deps block) := by
    rw [Dictionary.keys, map_map]
    refine (map_id _).symm.trans (map_congr_left fun entry hentry => ?_)
    have hget := (deps.mem_entries_iff entry.1 entry.2).mp hentry
    simp [unmet, hget]
  have hlength : deps.entries.length = deps.keys.length := by simp [Dictionary.keys]
  show Waves.waves order deps.entries.length deps.entries =
    Waves.waves order deps.keys.length (deps.keys.map fun block => (block, unmet deps block))
  rw [hlength, ← hentries]

/-! ## Verdicts -/

variable (db)

/-- What is checked of a diagram before its blocks are sorted. -/
structure EarlierChecks (sets : SetOrder) (excluded : Bool) (diagram : GraphicalDiagram) :
    Prop where
  unresolved : diagram.executionOrderResolved = false
  language : diagram.language = .fbd
  included : excluded = false
  several : 2 ≤ (blocks diagram).length
  plain : ∀ object ∈ diagram.objects, object.kind = .block ∨ object.kind = ObjectKind.annotation
  overrides : (executionOverrides db diagram (blocks diagram)).isSome
  writers : badPins diagram = true ∨ ambiguousWriters diagram = false
  wires : (dependencyGraph diagram (sets.enumerate (blocks diagram))).isSome
  placed : ∀ block ∈ blocks diagram, position diagram block ≠ none

/-- What an order of a diagram's blocks has to be. -/
structure InExecutionOrder (diagram : GraphicalDiagram) (order : List Nat) : Prop where
  perm : order.Perm (blocks diagram)
  dependencies : ∀ block dependency, DependsOn db diagram block dependency →
    [dependency, block].Sublist order
  positions : order.Pairwise fun earlier later => ∀ depth,
    HasDepth (DependsOn db diagram) depth earlier → HasDepth (DependsOn db diagram) depth later →
      (positionOrder diagram earlier later).isLE = true

variable {db} {sets : SetOrder} {excluded : Bool}

theorem verdict_of_checks (h : EarlierChecks db sets excluded diagram) :
    ∃ deps basis, basis ≠ ExecutionOrderBasis.sharedVariableDataflow ∧
      Records deps (sets.enumerate (blocks diagram)) (DependsOn db diagram) ∧
      verdict db sets excluded diagram =
        match topologicalOrder (positionOrder diagram) deps with
        | none => .report .cyclicBlockDependency
        | some order => .resolve order basis := by
  have ⟨overrides, hoverrides⟩ := Option.isSome_iff_exists.mp h.overrides
  have ⟨wired, hwired⟩ := Option.isSome_iff_exists.mp h.wires
  have hperm := @enumerate_perm diagram sets
  have hrecords := dependencyGraph_records (hperm.nodup_iff.mpr blocks_nodup) hwired
  have hpairs : ∀ pair ∈ overrides, pair.1 ∈ sets.enumerate (blocks diagram) := by
    intro pair hpair
    exact hperm.mem_iff.mpr ((mem_overridesOf hoverrides).mp hpair).1
  have hplain : ¬ diagram.objects.any
      (fun object => decide (object.kind ∉ [ObjectKind.block, ObjectKind.annotation])) = true := by
    rw [Bool.not_eq_true, any_eq_false]
    intro object hobject
    have hkind := h.plain object hobject
    simpa [or_iff_not_imp_left] using hkind
  have hwriters : ¬ (badPins diagram = false ∧ ambiguousWriters diagram = true) := by
    intro hboth
    cases h.writers with
    | inl hbad => simp [hboth.1] at hbad
    | inr hsingle => simp [hboth.2] at hsingle
  have hplaced : ¬ (blocks diagram).any
      (fun block => decide (position diagram block = none)) = true := by
    rw [Bool.not_eq_true, any_eq_false]
    intro block hblock
    simpa using h.placed block hblock
  refine ⟨overrides.foldl (fun deps pair => addDependency deps pair.1 pair.2) wired,
    if overrides.isEmpty then .documentedDependencyOrder else .dependencyOrderWithExecAfter,
    ?_, (hrecords.addAll hpairs).congr ?_, ?_⟩
  · split <;> simp
  · intro block dependency
    rw [mem_overridesOf hoverrides, hperm.mem_iff, hperm.mem_iff, DependsOn]
    tauto
  · unfold verdict
    rw [if_neg (by simp [h.unresolved, h.language]), if_neg (by simp [h.included]),
      if_neg (by have hseveral := h.several; omega), if_neg hplain, hoverrides]
    simp only [if_neg hwriters, hwired]
    exact if_neg hplaced

theorem checks_of_verdict (h : verdict db sets excluded diagram = .report .cyclicBlockDependency ∨
    ∃ order basis, verdict db sets excluded diagram = .resolve order basis) :
    EarlierChecks db sets excluded diagram := by
  unfold verdict at h
  split at h
  · simp at h
  rename_i hlanguage
  split at h
  · simp at h
  rename_i hexcluded
  split at h
  · simp at h
  rename_i hseveral
  split at h
  · simp at h
  rename_i hplain
  split at h
  · simp at h
  rename_i overrides hoverrides
  split at h
  · simp at h
  rename_i hwriters
  split at h
  · simp at h
  rename_i deps hdeps
  split at h
  · simp at h
  rename_i hplaced
  push Not at hlanguage
  exact {
    unresolved := by simpa using hlanguage.1
    language := hlanguage.2
    included := by simpa using hexcluded
    several := by omega
    plain := by simpa [or_iff_not_imp_left] using hplain
    overrides := by rw [hoverrides]; rfl
    writers := by
      cases hbad : badPins diagram with
      | true => exact Or.inl rfl
      | false => exact Or.inr (by simpa [hbad] using hwriters)
    wires := by rw [hdeps]; rfl
    placed := by simpa using hplaced
  }

theorem verdict_order {basis : ExecutionOrderBasis}
    (h : verdict db sets excluded diagram = .resolve order basis) :
    InExecutionOrder db diagram order := by
  obtain ⟨deps, basis', -, hrecords, hverdict⟩ :=
    verdict_of_checks (checks_of_verdict (Or.inr ⟨order, basis, h⟩))
  have hperm := @enumerate_perm diagram sets
  rw [h, topologicalOrder_eq hrecords hperm] at hverdict
  have hdepends := graphOf_dependsOn hrecords hperm
  have hnodes : (graphOf deps hrecords hperm).nodes.Perm (blocks diagram) := by
    show (Dictionary.keys deps).Perm (blocks diagram)
    rw [hrecords.keys]
    exact hperm
  cases hsorted : (graphOf deps hrecords hperm).sorted (positionOrder diagram) with
  | none => simp [hsorted] at hverdict
  | some found =>
    rw [hsorted] at hverdict
    have hsame : order = found := by
      injection hverdict
    subst hsame
    refine ⟨?_, ?_, ?_⟩
    · exact (Graph.sorted_perm _ hsorted).trans hnodes
    · intro block dependency hdependency
      exact Graph.sorted_dependencies _ hsorted (hdepends ▸ hdependency)
    · refine (Graph.sorted_pairwise _ hsorted).imp ?_
      intro earlier later hordered depth hearlier hlater
      obtain ⟨lower, upper, hlower, hupper, hbefore⟩ := hordered
      rw [← hdepends, ← Graph.hasDepth_eq_true] at hearlier hlater
      have hfirst := Graph.hasDepth_unique _ hlower hearlier
      have hsecond := Graph.hasDepth_unique _ hupper hlater
      cases hbefore with
      | inl hlt => omega
      | inr hequal => exact hequal.2

theorem verdict_basis {basis : ExecutionOrderBasis}
    (h : verdict db sets excluded diagram = .resolve order basis) :
    basis ≠ .sharedVariableDataflow := by
  obtain ⟨deps, basis', hbasis, -, hverdict⟩ :=
    verdict_of_checks (checks_of_verdict (Or.inr ⟨order, basis, h⟩))
  rw [h] at hverdict
  split at hverdict
  · cases hverdict
  · cases hverdict
    exact hbasis

theorem verdict_cyclic (h : EarlierChecks db sets excluded diagram) :
    verdict db sets excluded diagram = .report .cyclicBlockDependency ↔
      ∃ block, Relation.TransGen (DependsOn db diagram) block block := by
  obtain ⟨deps, basis, -, hrecords, hverdict⟩ := verdict_of_checks h
  have hperm := @enumerate_perm diagram sets
  have hcycle := @Graph.sorted_eq_none_iff _ (graphOf deps hrecords hperm) _ (positionOrder diagram)
  rw [Graph.Cyclic, graphOf_dependsOn, ← topologicalOrder_eq] at hcycle
  rw [← hcycle, hverdict]
  cases topologicalOrder (positionOrder diagram) deps <;> simp

end

/-! ## Runs of the execution order analysis

Every diagram a run resolves is ordered, exactly the diagrams with a cycle are reported
as cyclic, and a second run changes nothing.
-/

variable {db : CharacterDatabase} {sets : SetOrder}

/-! ### Obsolete orders -/

theorem clearObsolete_basis (diagram : GraphicalDiagram) :
    (clearObsolete diagram).executionOrderBasis ≠ some .sharedVariableDataflow := by
  unfold clearObsolete
  split
  · simp
  · assumption

theorem clearObsolete_of_basis {diagram : GraphicalDiagram}
    (h : diagram.executionOrderBasis ≠ some .sharedVariableDataflow) :
    clearObsolete diagram = diagram :=
  if_neg h

theorem dependsOn_clearObsolete (diagram : GraphicalDiagram) :
    DependsOn db (clearObsolete diagram) = DependsOn db diagram := by
  unfold clearObsolete
  split <;> rfl

theorem inExecutionOrder_clearObsolete {diagram : GraphicalDiagram}
    (h : InExecutionOrder db (clearObsolete diagram) order) :
    InExecutionOrder db diagram order := by
  unfold clearObsolete at h
  split at h
  · exact ⟨h.perm, h.dependencies, h.positions⟩
  · exact h

/-! ### One diagram -/

section

variable {containerName routineName : Text} {scope : IssueScope} {excluded : Exclusions}
  {index : Nat}

theorem resolveDiagram_issues (diagram : GraphicalDiagram) :
    (resolveDiagram db sets containerName routineName scope excluded diagram index).2 = [] ∨
      ∃ code, (resolveDiagram db sets containerName routineName scope excluded diagram index).2 =
        [⟨containerName, routineName, index, code, scope⟩] := by
  cases hverdict : verdict db sets
      (decide ((scope, containerName, routineName, index) ∈ excluded)) (clearObsolete diagram) with
  | leave => exact Or.inl (by simp only [resolveDiagram, hverdict])
  | report code => exact Or.inr ⟨code, by simp only [resolveDiagram, hverdict]⟩
  | resolve order basis => exact Or.inl (by simp only [resolveDiagram, hverdict])

theorem resolveDiagram_of_resolved {diagram : GraphicalDiagram}
    (hbasis : diagram.executionOrderBasis ≠ some .sharedVariableDataflow)
    (hresolved : diagram.executionOrderResolved = true) :
    resolveDiagram db sets containerName routineName scope excluded diagram index =
      (diagram, []) := by
  have hverdict : verdict db sets
      (decide ((scope, containerName, routineName, index) ∈ excluded)) diagram = .leave := by
    unfold verdict
    rw [if_pos (Or.inl hresolved)]
  simp only [resolveDiagram, clearObsolete_of_basis hbasis, hverdict]

theorem resolveDiagram_again (diagram : GraphicalDiagram) :
    resolveDiagram db sets containerName routineName scope excluded
        (resolveDiagram db sets containerName routineName scope excluded diagram index).1 index =
      resolveDiagram db sets containerName routineName scope excluded diagram index := by
  have hcleared := clearObsolete_of_basis (clearObsolete_basis diagram)
  cases hverdict : verdict db sets
      (decide ((scope, containerName, routineName, index) ∈ excluded)) (clearObsolete diagram) with
  | leave => simp only [resolveDiagram, hverdict, hcleared]
  | report code => simp only [resolveDiagram, hverdict, hcleared]
  | resolve order basis =>
    have hfirst : resolveDiagram db sets containerName routineName scope excluded diagram index =
        ({ clearObsolete diagram with
            executionOrder := order, executionOrderResolved := true,
            executionOrderBasis := some basis }, []) := by
      simp only [resolveDiagram, hverdict]
    have hbasis : some basis ≠ some ExecutionOrderBasis.sharedVariableDataflow := by
      intro hobsolete
      exact verdict_basis hverdict (Option.some.inj hobsolete)
    rw [hfirst]
    exact resolveDiagram_of_resolved hbasis rfl

theorem resolveDiagram_order {diagram : GraphicalDiagram}
    (hunresolved : (clearObsolete diagram).executionOrderResolved = false)
    (hresolved : (resolveDiagram db sets containerName routineName scope excluded diagram
      index).1.executionOrderResolved = true) :
    InExecutionOrder db diagram (resolveDiagram db sets containerName routineName scope excluded
      diagram index).1.executionOrder := by
  cases hverdict : verdict db sets
      (decide ((scope, containerName, routineName, index) ∈ excluded)) (clearObsolete diagram) with
  | leave => simp [resolveDiagram, hverdict, hunresolved] at hresolved
  | report code => simp [resolveDiagram, hverdict, hunresolved] at hresolved
  | resolve order basis =>
    have horder := inExecutionOrder_clearObsolete (verdict_order hverdict)
    simpa only [resolveDiagram, hverdict] using horder

theorem resolveDiagram_cyclic {diagram : GraphicalDiagram}
    (h : EarlierChecks db sets (decide ((scope, containerName, routineName, index) ∈ excluded))
      (clearObsolete diagram)) :
    ((resolveDiagram db sets containerName routineName scope excluded diagram
        index).1.executionOrderResolved = false ∧
      (resolveDiagram db sets containerName routineName scope excluded diagram index).2 =
        [⟨containerName, routineName, index, .cyclicBlockDependency, scope⟩]) ↔
      ∃ block, Relation.TransGen (DependsOn db diagram) block block := by
  have hcyclic := verdict_cyclic h
  rw [dependsOn_clearObsolete] at hcyclic
  rw [← hcyclic]
  cases hverdict : verdict db sets
      (decide ((scope, containerName, routineName, index) ∈ excluded)) (clearObsolete diagram) with
  | leave => simp [resolveDiagram, hverdict]
  | report code => simp [resolveDiagram, hverdict, h.unresolved]
  | resolve order basis => simp [resolveDiagram, hverdict]

end

/-! ### Whole controllers -/

theorem zipIdx_again {Item Report : Type} {step : Item → Nat → Item × Report}
    (h : ∀ item index, step (step item index).1 index = step item index) (items : List Item)
    (start : Nat) :
    ((((items.zipIdx start).map fun entry => step entry.1 entry.2).map Prod.fst).zipIdx start).map
        (fun entry => step entry.1 entry.2) =
      (items.zipIdx start).map fun entry => step entry.1 entry.2 := by
  induction items generalizing start with
  | nil => rfl
  | cons item items ih =>
    simp only [List.zipIdx_cons, map_cons, h]
    rw [ih]

theorem resolveRoutineDiagrams_again (diagrams : List GraphicalDiagram)
    (containerName routineName : Text) (scope : IssueScope) (excluded : Exclusions) :
    resolveRoutineDiagrams db sets
        (resolveRoutineDiagrams db sets diagrams containerName routineName scope excluded).1
        containerName routineName scope excluded =
      resolveRoutineDiagrams db sets diagrams containerName routineName scope excluded := by
  have hagain := zipIdx_again (fun diagram index =>
    @resolveDiagram_again db sets containerName routineName scope excluded index diagram)
      diagrams 0
  simp only [resolveRoutineDiagrams]
  rw [hagain]

theorem resolveContainer_again (scope : IssueScope) (excluded : Exclusions)
    (container : Container) :
    resolveContainer db sets scope excluded (resolveContainer db sets scope excluded container).1 =
      resolveContainer db sets scope excluded container := by
  simp only [resolveContainer, map_map, Function.comp_def, resolveRoutineDiagrams_again]

theorem resolveFbdExecutionOrder_again (excluded functionBlockExcluded : List (Text × Text × Nat))
    (controller : Controller) :
    resolveFbdExecutionOrder db sets excluded functionBlockExcluded
        (resolveFbdExecutionOrder db sets excluded functionBlockExcluded controller).1 =
      resolveFbdExecutionOrder db sets excluded functionBlockExcluded controller := by
  simp only [resolveFbdExecutionOrder, map_map, Function.comp_def, resolveContainer_again]

theorem getElem?_resolveRoutineDiagrams {diagrams : List GraphicalDiagram}
    {containerName routineName : Text} {scope : IssueScope} {excluded : Exclusions} {index : Nat}
    {diagram : GraphicalDiagram} (h : diagrams[index]? = some diagram) :
    (resolveRoutineDiagrams db sets diagrams containerName routineName scope excluded).1[index]? =
      some (resolveDiagram db sets containerName routineName scope excluded diagram index).1 := by
  simp [resolveRoutineDiagrams, h]

theorem issues_resolveRoutineDiagrams {diagrams : List GraphicalDiagram}
    {containerName routineName : Text} {scope : IssueScope} {excluded : Exclusions} {index : Nat}
    {diagram : GraphicalDiagram} (h : diagrams[index]? = some diagram)
    (issue : ExecutionOrderIssue) :
    issue ∈ (resolveRoutineDiagrams db sets diagrams containerName routineName scope excluded).2 ∧
        issue.diagramIndex = index ↔
      issue ∈ (resolveDiagram db sets containerName routineName scope excluded diagram index).2 := by
  have hindex : ∀ (other : GraphicalDiagram) (place : Nat), issue ∈ (resolveDiagram db sets
      containerName routineName scope excluded other place).2 → issue.diagramIndex = place := by
    intro other place hissue
    rcases @resolveDiagram_issues db sets containerName routineName
        scope excluded place other with hnone | ⟨code, hone⟩
    · rw [hnone] at hissue
      cases hissue
    · rw [hone] at hissue
      rw [mem_singleton.mp hissue]
  simp only [resolveRoutineDiagrams, map_map, mem_flatten, mem_map,
    Function.comp_apply]
  constructor
  · intro ⟨⟨issues, hissues, hmember⟩, hplace⟩
    obtain ⟨entry, hentry, rfl⟩ := hissues
    have hother := mem_zipIdx_iff_getElem?.mp hentry
    have hsame := hindex entry.1 entry.2 hmember
    rw [← hsame, hplace, h] at hother
    rw [← Option.some.inj hother, ← hsame, hplace] at hmember
    exact hmember
  · intro hissue
    exact ⟨⟨_, ⟨(diagram, index), mem_zipIdx_iff_getElem?.mpr h, rfl⟩, hissue⟩,
      hindex diagram index hissue⟩

/-- A run leaves every diagram it resolves in execution order, reports a cycle exactly where
one is left past the earlier checks, and done again changes nothing; nor does any run change
a resolved diagram. -/
theorem fbd_execution_order (db : CharacterDatabase) (sets : SetOrder) :
    (∀ (diagrams : List GraphicalDiagram) (containerName routineName : Text) (scope : IssueScope)
        (excluded : Exclusions) (index : Nat) (before : GraphicalDiagram),
      diagrams[index]? = some before →
      let run := resolveRoutineDiagrams db sets diagrams containerName routineName scope excluded
      ∃ after, run.1[index]? = some after ∧
        ((clearObsolete before).executionOrderResolved = false →
          after.executionOrderResolved = true →
            InExecutionOrder db before after.executionOrder) ∧
        (EarlierChecks db sets
            (decide ((scope, containerName, routineName, index) ∈ excluded))
            (clearObsolete before) →
          (after.executionOrderResolved = false ∧
              ⟨containerName, routineName, index, .cyclicBlockDependency, scope⟩ ∈ run.2 ↔
            ∃ block, Relation.TransGen (DependsOn db before) block block)) ∧
        (before.executionOrderBasis ≠ some .sharedVariableDataflow →
          before.executionOrderResolved = true → after = before)) ∧
    ∀ (excluded functionBlockExcluded : List (Text × Text × Nat)) (controller : Controller),
      resolveFbdExecutionOrder db sets excluded functionBlockExcluded
          (resolveFbdExecutionOrder db sets excluded functionBlockExcluded controller).1 =
        resolveFbdExecutionOrder db sets excluded functionBlockExcluded controller := by
  refine ⟨?_, resolveFbdExecutionOrder_again⟩
  intro diagrams containerName routineName scope excluded index before hbefore run
  refine ⟨_, getElem?_resolveRoutineDiagrams hbefore, resolveDiagram_order, ?_, ?_⟩
  · intro hchecks
    have hissue := @issues_resolveRoutineDiagrams db sets diagrams containerName routineName scope
      excluded index before hbefore
      ⟨containerName, routineName, index, .cyclicBlockDependency, scope⟩
    rw [← resolveDiagram_cyclic hchecks]
    simp only [and_true] at hissue
    rw [hissue]
    refine and_congr_right fun _ => ?_
    rcases @resolveDiagram_issues db sets containerName routineName scope excluded index before with
      hnone | ⟨code, hone⟩
    · simp [hnone]
    · simp [hone, eq_comm]
  · intro hbasis hresolved
    rw [resolveDiagram_of_resolved hbasis hresolved]

/-- Two blocks, the one further down wired to the one above it. -/
def wiredPair : GraphicalDiagram where
  language := .fbd
  objects := [
    { kind := .block, position := some { column := 0, row := 1 } },
    { kind := .block, position := some { column := 0, row := 0 } }]
  links := [{
    source := { status := .resolved, objectIndex := some 0 }
    destination := { status := .resolved, objectIndex := some 1 } }]

def ascending : SetOrder where
  enumerate := dedup
  perm _ := List.Perm.refl _

theorem wiredPair_in_order :
    ∃ after, (resolveRoutineDiagrams Ascii.database ascending [wiredPair] ("P" : Text) ("R" : Text)
        .program []).1[0]? = some after ∧
      after.executionOrder = [0, 1] ∧
      InExecutionOrder Ascii.database wiredPair after.executionOrder := by
  obtain ⟨after, hafter, horder, -⟩ := (fbd_execution_order Ascii.database ascending).1 [wiredPair]
    ("P" : Text) ("R" : Text) .program [] 0 wiredPair rfl
  have hrun : ((resolveRoutineDiagrams Ascii.database ascending [wiredPair] ("P" : Text)
      ("R" : Text) .program []).1[0]?).map (fun diagram =>
        (diagram.executionOrderResolved, diagram.executionOrder)) = some (true, [0, 1]) := by
    decide +kernel
  rw [hafter, Option.map_some, Option.some.injEq, Prod.ext_iff] at hrun
  exact ⟨after, hafter, hrun.2, horder rfl hrun.1⟩

end TwinForge.Analysis
