import TwinForge.ControlExpert.SfcConnectivity

/-! # Candidates for a successor

What the source offers as successor of a node, and when the connectivity edges keep to it.
-/

namespace TwinForge.ControlExpert

open List

variable (db : CharacterDatabase) (network : SequentialElement) (networkIndex : Nat)

def objectsAt (accepted : ElementKind → Bool) (position : Int × Int) : List Nat :=
  (indices network).filter fun index =>
    positionAt db network index = some position ∧ (kindAt network index).any accepted

/-- The destinations of the links from a node, in the order of the source. -/
def linksFrom (path : ElementPath) : List ElementPath :=
  ((network.children.filterMap (linkPaths networkIndex)).filter fun link =>
    link.1 = path).map Prod.snd

inductive Candidate where
  | object (index : Nat)
  | link (destination : ElementPath)
  deriving DecidableEq, Repr

/-- Below a step a branch, or else a transition; besides them the links from it. -/
def stepCandidates (index : Nat) (position : Int × Int) : List Candidate :=
  let branches := objectsAt db network (· = .alternativeBranch) (below position)
  (if branches = [] then objectsAt db network (· = .transition) (below position)
    else branches).map .object ++
      (linksFrom network networkIndex ⟨networkIndex, index⟩).map .link

/-- Below a transition a step or a jump; besides them the links from it. -/
def transitionCandidates (index : Nat) (position : Int × Int) : List Candidate :=
  (objectsAt db network (· = .step) (below position)).map .object ++
    (objectsAt db network (· = .stepJump) (below position)).map .object ++
      (linksFrom network networkIndex ⟨networkIndex, index⟩).map .link

def nodeCandidates (index : Nat) (position : Int × Int) : List Candidate :=
  if kindAt network index = some .step then
    stepCandidates db network networkIndex index position
  else transitionCandidates db network networkIndex index position

/-- What may follow a join: one step or jump below it. -/
def joinFollowers (position : Int × Int) : List Nat :=
  objectsAt db network (· = .step) (below position) ++
    objectsAt db network (· = .stepJump) (below position)

/-- The nodes a candidate of a node at a position stands for. -/
inductive LeadsTo (position : Int × Int) : Candidate → List Nat → Prop where
  | adjacent {target : Nat} (h : (kindAt network target).any isFlowKind = true) :
      LeadsTo position (.object target) [target]
  | branch {index : Nat} {targets : List Nat}
      (hkind : kindAt network index = some .alternativeBranch)
      (htargets : branchTargets db network index (below position) = some targets) :
      LeadsTo position (.object index) targets
  | jump {index target : Nat} {element : SequentialElement} {name : Text}
      (hkind : kindAt network index = some .stepJump)
      (helement : network.children[index]? = some element)
      (hname : element.properties.get? "step_name" = some name)
      (htarget : stepsNamed db network name = [target]) :
      LeadsTo position (.object index) [target]
  | link {path : ElementPath} (hnetwork : path.network = networkIndex)
      (hkind : (kindAt network path.element).any isFlowKind = true) :
      LeadsTo position (.link path) [path.element]
  | join {path : ElementPath} {joinPosition : Int × Int} {target : Nat}
      (hnetwork : path.network = networkIndex)
      (hkind : kindAt network path.element = some .alternativeJoin)
      (hposition : positionAt db network path.element = some joinPosition)
      (hfollowers : joinFollowers db network joinPosition = [target]) :
      LeadsTo position (.link path) [target]

/-- The edges of a node lead where its one candidate leads, and from steps to transitions
and back. -/
structure EdgesSound (index : Nat) (position : Int × Int) (edges : List SequentialEdge) :
    Prop where
  sole : ∃ candidate targets, nodeCandidates db network networkIndex index position = [candidate] ∧
    LeadsTo db network networkIndex position candidate targets ∧
    edges.map SequentialEdge.destinationPath = targets.map fun target => ⟨networkIndex, target⟩
  fromStep : kindAt network index = some .step → ∀ edge ∈ edges,
    edge.destinationPath.network = networkIndex ∧
      kindAt network edge.destinationPath.element = some .transition
  fromTransition : kindAt network index = some .transition → ∃ edge, edges = [edge] ∧
    edge.destinationPath.network = networkIndex ∧
      kindAt network edge.destinationPath.element = some .step

/-- The only flow object at a position is of a kind. -/
def Plain (kind : ElementKind) (position : Int × Int) (target : Nat) : Prop :=
  objectsAt db network isFlowKind position = [target] ∧ kindAt network target = some kind

/-- Nothing competes with what is taken for the successor of a step. -/
structure StepClear (index : Nat) (position : Int × Int) : Prop where
  plain : ∀ target, (objectsAt db network (· = .alternativeBranch) (below position)).length ≠ 1 →
    Plain db network .transition (below position) target →
    linksFrom network networkIndex ⟨networkIndex, index⟩ = [] →
      objectsAt db network (· = .alternativeBranch) (below position) = []
  link : ∀ path, (objectsAt db network (· = .alternativeBranch) (below position)).length ≠ 1 →
    (∀ target, ¬ Plain db network .transition (below position) target) →
    path ∈ (linksFrom network networkIndex ⟨networkIndex, index⟩).getLast? →
    path.network = networkIndex → kindAt network path.element = some .transition →
      objectsAt db network (· = .alternativeBranch) (below position) = [] ∧
        objectsAt db network (· = .transition) (below position) = [] ∧
        (linksFrom network networkIndex ⟨networkIndex, index⟩).length = 1

/-- A link leads to a step, or to a join with one flow object below. -/
def Followed (path : ElementPath) : Prop :=
  kindAt network path.element = some .step ∨
    ∃ join joinPosition target, kindAt network path.element = some .alternativeJoin ∧
      network.children[path.element]? = some join ∧
      positionAt db network path.element = some joinPosition ∧
      join.properties.get? "relative_position" = some (Text.of "0") ∧
      objectsAt db network isFlowKind (below joinPosition) = [target]

/-- Nothing competes with what is taken for the successor of a transition. -/
structure TransitionClear (index : Nat) (position : Int × Int) : Prop where
  plain : ∀ target, (objectsAt db network (· = .stepJump) (below position)).length ≠ 1 →
    Plain db network .step (below position) target →
    linksFrom network networkIndex ⟨networkIndex, index⟩ = [] →
      objectsAt db network (· = .stepJump) (below position) = []
  jump : ∀ jump element name target,
    objectsAt db network (· = .stepJump) (below position) = [jump] →
    (∀ target, ¬ Plain db network .step (below position) target) →
    linksFrom network networkIndex ⟨networkIndex, index⟩ = [] →
    network.children[jump]? = some element →
    element.properties.get? "step_name" = some name → name ≠ [] →
    stepsNamed db network name = [target] →
      objectsAt db network (· = .step) (below position) = []
  link : ∀ path, (objectsAt db network (· = .stepJump) (below position)).length ≠ 1 →
    (∀ target, ¬ Plain db network .step (below position) target) →
    path ∈ (linksFrom network networkIndex ⟨networkIndex, index⟩).getLast? →
    path.network = networkIndex →
    Followed db network path →
      objectsAt db network (· = .step) (below position) = [] ∧
        objectsAt db network (· = .stepJump) (below position) = [] ∧
        (linksFrom network networkIndex ⟨networkIndex, index⟩).length = 1
  join : ∀ path join joinPosition target,
    (objectsAt db network (· = .stepJump) (below position)).length ≠ 1 →
    (∀ target, ¬ Plain db network .step (below position) target) →
    path ∈ (linksFrom network networkIndex ⟨networkIndex, index⟩).getLast? →
    path.network = networkIndex → kindAt network path.element = some .alternativeJoin →
    network.children[path.element]? = some join →
    positionAt db network path.element = some joinPosition →
    join.properties.get? "relative_position" = some (Text.of "0") →
    objectsAt db network isFlowKind (below joinPosition) = [target] →
      kindAt network target = some .step ∧
        objectsAt db network (· = .stepJump) (below joinPosition) = []

/-! ## What the grid lookups find -/

variable {db network networkIndex}

theorem only_eq_some {Item : Type} {items : List Item} {item : Item} :
    only items = some item ↔ items = [item] := by
  unfold only
  split <;> simp_all

theorem only_eq_none {Item : Type} {items : List Item} :
    only items = none ↔ items.length ≠ 1 := by
  unfold only
  split
  · simp
  · rename_i hother
    simp only [true_iff]
    intro hone
    obtain ⟨item, hitem⟩ := length_eq_one_iff.mp hone
    exact hother item hitem

theorem ne_one {Item : Type} {items : List Item} (h : items.length ≠ 1) (item : Item) :
    items ≠ [item] := fun heq => h (heq ▸ rfl)

theorem candidatesAt_eq (accepted : ElementKind → Bool) (position : Int × Int) :
    candidatesAt db network accepted position = objectsAt db network accepted position := by
  have hgroup : ((byPosition db network).get? (some position)).getD [] =
      ((indices network).filter fun index => (positionAt db network index).isSome).filter
        fun index => positionAt db network index = some position := by
    rw [byPosition, Dictionary.get?_groupBy]
    split
    · rename_i hnone
      rw [hnone]
      rfl
    · rfl
  rw [candidatesAt, hgroup, objectsAt, filter_filter, filter_filter]
  refine filter_congr fun index hindex => ?_
  by_cases hposition : positionAt db network index = some position <;> simp [hposition]

variable {position : Int × Int} {index : Nat}

theorem mem_objectsAt {accepted : ElementKind → Bool}
    (h : index ∈ objectsAt db network accepted position) :
    positionAt db network index = some position ∧ (kindAt network index).any accepted = true := by
  simpa using (mem_filter.mp h).2

variable {kind : ElementKind}

theorem objectsAt_kind (h : index ∈ objectsAt db network (· = kind) position) :
    kindAt network index = some kind := by
  have hkind := (mem_objectsAt h).2
  cases hat : kindAt network index with
  | none => simp [hat] at hkind
  | some found => simpa [hat] using hkind

theorem objectsAt_flow (hkind : isFlowKind kind = true)
    (position : Int × Int) : objectsAt db network (· = kind) position =
      (objectsAt db network isFlowKind position).filter fun index =>
        kindAt network index = some kind := by
  rw [objectsAt, objectsAt, filter_filter]
  refine filter_congr fun index hindex => ?_
  cases hat : kindAt network index with
  | none => simp
  | some found =>
    by_cases hfound : found = kind
    · simp [hfound, hkind]
    · simp [hfound]

variable {target : Nat}

theorem plain_iff :
    (flowAt db network position).filter (fun target => kindAt network target = some kind) =
      some target ↔ Plain db network kind position target := by
  rw [Option.filter_eq_some_iff, flowAt, candidatesAt_eq, only_eq_some]
  simp [Plain]

theorem Plain.unique (h : Plain db network kind position target) (other : Nat) :
    Plain db network kind position other ↔ other = target := by
  constructor
  · intro hother
    have heq := hother.1.symm.trans h.1
    simpa using heq
  · intro heq
    rwa [heq]

theorem plain_none_iff :
    (flowAt db network position).filter (fun target => kindAt network target = some kind) =
      none ↔ ∀ target, ¬ Plain db network kind position target := by
  constructor
  · intro hnone target hplain
    rw [plain_iff.mpr hplain] at hnone
    cases hnone
  · intro hnone
    cases hfound : (flowAt db network position).filter
        (fun target => kindAt network target = some kind) with
    | none => rfl
    | some target => exact absurd (plain_iff.mp hfound) (hnone target)

theorem Plain.objects {kind : ElementKind} (hkind : isFlowKind kind = true)
    {position : Int × Int} {target : Nat} (h : Plain db network kind position target) :
    objectsAt db network (· = kind) position = [target] := by
  rw [objectsAt_flow hkind, h.1]
  simp [h.2]

theorem linked_eq (path : ElementPath) :
    (explicitLinkEdges network networkIndex).get? path =
      (linksFrom network networkIndex path).getLast? := by
  rw [explicitLinkEdges, Dictionary.ofItems_last, linksFrom]

variable {path : ElementPath}

theorem linked_none :
    (explicitLinkEdges network networkIndex).get? path = none ↔
      linksFrom network networkIndex path = [] := by
  rw [linked_eq, List.getLast?_eq_none_iff]

theorem mapM_found {Item Value : Type} {find : Item → Option Value} {items : List Item}
    {values : List Value} (h : items.mapM find = some values) :
    values.length = items.length ∧ ∀ value ∈ values, ∃ item ∈ items, find item = some value := by
  induction items generalizing values with
  | nil =>
    have hnil : values = [] := by simpa using h.symm
    simp [hnil]
  | cons item items ih =>
    simp only [mapM_cons, Option.bind_eq_bind, Option.bind_eq_some_iff, Option.pure_def,
      Option.some.injEq] at h
    obtain ⟨first, hfirst, rest, hrest, rfl⟩ := h
    obtain ⟨hlength, hfound⟩ := ih hrest
    refine ⟨by simp [hlength], ?_⟩
    intro value hvalue
    rcases mem_cons.mp hvalue with rfl | hvalue
    · exact ⟨item, by simp, hfirst⟩
    · obtain ⟨other, hother, hsome⟩ := hfound value hvalue
      exact ⟨other, mem_cons_of_mem _ hother, hsome⟩

theorem branchTargets_spec {targets : List Nat}
    (h : branchTargets db network index position = some targets) :
    targets ≠ [] ∧ ∀ target ∈ targets, kindAt network target = some .transition := by
  simp only [branchTargets, Option.bind_eq_bind, Option.bind_eq_some_iff] at h
  obtain ⟨branch, -, h⟩ := h
  split at h
  · cases h
  · simp only [Option.bind_eq_some_iff] at h
    obtain ⟨width, -, h⟩ := h
    split at h
    · cases h
    · rename_i hpositive
      obtain ⟨hlength, hfound⟩ := mapM_found h
      constructor
      · intro hnil
        rw [hnil, length_range, length_nil] at hlength
        omega
      · intro target htarget
        obtain ⟨column, -, hcolumn⟩ := hfound target htarget
        rw [candidatesAt_eq, only_eq_some] at hcolumn
        exact objectsAt_kind (hcolumn ▸ mem_singleton_self target)

/-! ## The edges of a step -/

variable {edges : List SequentialEdge}

theorem resolveStep_ok {linked : Option ElementPath}
    :
    resolveStep db network networkIndex index position linked = .ok edges ↔
      (∃ branch targets, objectsAt db network (· = .alternativeBranch) (below position) = [branch] ∧
        linked = none ∧ branchTargets db network branch (below position) = some targets ∧
        edges = targets.map fun target => successor networkIndex index target .gridAdjacency) ∨
      ((objectsAt db network (· = .alternativeBranch) (below position)).length ≠ 1 ∧
        ((∃ target, Plain db network .transition (below position) target ∧ linked = none ∧
          edges = [successor networkIndex index target .gridAdjacency]) ∨
        ((∀ target, ¬ Plain db network .transition (below position) target) ∧
          ∃ path, linked = some path ∧ path.network = networkIndex ∧
            kindAt network path.element = some .transition ∧
            edges = [⟨⟨networkIndex, index⟩, path, .explicitLink⟩]))) := by
  unfold resolveStep
  simp only [branchAt, candidatesAt_eq]
  cases hbranch : only (objectsAt db network (· = .alternativeBranch) (below position)) with
  | some branch =>
    rw [only_eq_some] at hbranch
    cases linked with
    | some path => simp [hbranch]
    | none =>
      cases htargets : branchTargets db network branch (below position) with
      | none => simp [hbranch, htargets]
      | some targets => simp [hbranch, htargets, eq_comm]
  | none =>
    rw [only_eq_none] at hbranch
    have hsingle := ne_one hbranch
    cases hplain : (flowAt db network (below position)).filter
        (fun target => kindAt network target = some .transition) with
    | some target =>
      have hunique := (plain_iff.mp hplain).unique
      cases linked with
      | some path => simp [hsingle, hunique]
      | none => simp [hsingle, hbranch, hunique, eq_comm]
    | none =>
      have hnone := plain_none_iff.mp hplain
      cases linked with
      | none => simp [hsingle, hnone]
      | some path =>
        by_cases hfits : path.network = networkIndex ∧
            kindAt network path.element = some .transition
        · simp [hsingle, hbranch, hnone, hfits, eq_comm]
        · simp only [hfits, if_false, reduceCtorEq, false_iff]
          rintro (⟨branch, -, hone, -⟩ | ⟨-, ⟨target, htarget, -⟩ | ⟨-, found, hpath, hnetwork, hkind, -⟩⟩)
          · exact hsingle branch hone
          · exact hnone target htarget
          · cases hpath
            exact hfits ⟨hnetwork, hkind⟩

theorem step_sound (hstep : kindAt network index = some .step) :
    (∀ edges, resolveStep db network networkIndex index position
        ((explicitLinkEdges network networkIndex).get? ⟨networkIndex, index⟩) = .ok edges →
      EdgesSound db network networkIndex index position edges) ↔
    StepClear db network networkIndex index position := by
  have hcandidates : nodeCandidates db network networkIndex index position =
      stepCandidates db network networkIndex index position := if_pos hstep
  have hnever : kindAt network index ≠ some .transition := by
    rw [hstep]
    simp
  constructor
  · intro hsound
    constructor
    · intro target hbranches hplain hlinks
      have hedges := hsound _ (resolveStep_ok.mpr (.inr ⟨hbranches,
        .inl ⟨target, hplain, linked_none.mpr hlinks, rfl⟩⟩))
      obtain ⟨candidate, targets, hone, -⟩ := hedges.sole
      rw [hcandidates, stepCandidates, hlinks] at hone
      by_contra hsome
      have hlength := congrArg List.length hone
      simp [hsome] at hlength
      exact hbranches hlength
    · intro path hbranches hplain hpath hnetwork hkind
      have hedges := hsound _ (resolveStep_ok.mpr (.inr ⟨hbranches,
        .inr ⟨hplain, path, (linked_eq _).trans hpath, hnetwork, hkind, rfl⟩⟩))
      obtain ⟨candidate, targets, hone, -⟩ := hedges.sole
      rw [hcandidates, stepCandidates] at hone
      have hlength := congrArg List.length hone
      have hlinks : (linksFrom network networkIndex ⟨networkIndex, index⟩).length ≠ 0 := by
        intro hzero
        rw [length_eq_zero_iff.mp hzero] at hpath
        cases hpath
      simp only [length_append, length_map, length_singleton] at hlength
      have hzero : (if objectsAt db network (· = .alternativeBranch) (below position) = [] then
          objectsAt db network (· = .transition) (below position)
        else objectsAt db network (· = .alternativeBranch) (below position)) = [] := by
        rw [← length_eq_zero_iff]
        omega
      by_cases hnone : objectsAt db network (· = .alternativeBranch) (below position) = []
      · rw [if_pos hnone] at hzero
        rw [if_pos hnone, hzero] at hlength
        exact ⟨hnone, hzero, by simpa using hlength⟩
      · rw [if_neg hnone] at hzero
        exact absurd hzero hnone
  · intro hclear edges hedges
    rcases resolveStep_ok.mp hedges with
      ⟨branch, targets, hbranch, hlinked, htargets, rfl⟩ |
        ⟨hbranches, ⟨target, hplain, hlinked, rfl⟩ | ⟨hplain, path, hlinked, hnetwork, hkind, rfl⟩⟩
    · have hlinks := linked_none.mp hlinked
      refine ⟨⟨.object branch, targets, ?_, ?_, ?_⟩, ?_, fun h => absurd h hnever⟩
      · rw [hcandidates, stepCandidates, hbranch, hlinks]
        simp
      · exact .branch (objectsAt_kind (hbranch ▸ mem_singleton_self branch)) htargets
      · simp [successor, Function.comp_def]
      · intro hindex edge hedge
        obtain ⟨target, htarget, rfl⟩ := mem_map.mp hedge
        exact ⟨rfl, (branchTargets_spec htargets).2 target htarget⟩
    · have hlinks := linked_none.mp hlinked
      have hnone := hclear.plain target hbranches hplain hlinks
      refine ⟨⟨.object target, [target], ?_, ?_, ?_⟩, ?_, fun h => absurd h hnever⟩
      · rw [hcandidates, stepCandidates, hnone, hlinks, if_pos rfl, hplain.objects rfl]
        simp
      · exact .adjacent (by rw [hplain.2]; rfl)
      · simp [successor]
      · intro hindex edge hedge
        rw [mem_singleton.mp hedge]
        exact ⟨rfl, hplain.2⟩
    · rw [linked_eq] at hlinked
      obtain ⟨hnone, htransitions, hone⟩ :=
        hclear.link path hbranches hplain hlinked hnetwork hkind
      obtain ⟨found, hfound⟩ := length_eq_one_iff.mp hone
      rw [hfound] at hlinked
      have hpath : found = path := by simpa using hlinked
      refine ⟨⟨.link path, [path.element], ?_, ?_, ?_⟩, ?_, fun h => absurd h hnever⟩
      · rw [hcandidates, stepCandidates, hnone, if_pos rfl, htransitions, hfound, hpath]
        simp
      · exact .link hnetwork (by rw [hkind]; rfl)
      · simp [← hnetwork]
      · intro hindex edge hedge
        rw [mem_singleton.mp hedge]
        exact ⟨hnetwork, hkind⟩

/-! ## The edges of a transition -/

theorem stepsNamed_kind {name : Text}
    (h : stepsNamed db network name = [target]) : kindAt network target = some .step := by
  have hmember : target ∈ stepsNamed db network name := h ▸ mem_singleton_self target
  have hboth := (mem_filter.mp hmember).2
  simp only [Bool.decide_and, Bool.and_eq_true, decide_eq_true_eq] at hboth
  exact hboth.1

theorem jumpTarget_eq_some :
    jumpTarget db network index = some target ↔ ∃ element name,
      network.children[index]? = some element ∧
      element.properties.get? "step_name" = some name ∧ name ≠ [] ∧
      stepsNamed db network name = [target] := by
  simp only [jumpTarget, Option.bind_eq_bind, Option.bind_eq_some_iff]
  constructor
  · rintro ⟨element, helement, name, hname, h⟩
    by_cases hnil : name = []
    · simp [hnil] at h
    · rw [if_neg hnil, only_eq_some] at h
      exact ⟨element, name, helement, hname, hnil, h⟩
  · rintro ⟨element, name, helement, hname, hnil, h⟩
    exact ⟨element, helement, name, hname, by rw [if_neg hnil, only_eq_some, h]⟩

theorem joinSuccessor_eq_some :
    joinSuccessor db network index = some target ↔ ∃ join joinPosition,
      network.children[index]? = some join ∧
      positionAt db network index = some joinPosition ∧
      join.properties.get? "relative_position" = some (Text.of "0") ∧
      objectsAt db network isFlowKind (below joinPosition) = [target] := by
  simp only [joinSuccessor, Option.bind_eq_bind, Option.bind_eq_some_iff, flowAt, candidatesAt_eq]
  constructor
  · rintro ⟨join, hjoin, position, hposition, h⟩
    by_cases hanchor : join.properties.get? "relative_position" = some (Text.of "0")
    · rw [if_neg (not_not.mpr hanchor), only_eq_some] at h
      exact ⟨join, position, hjoin, hposition, hanchor, h⟩
    · simp [hanchor] at h
  · rintro ⟨join, position, hjoin, hposition, hanchor, h⟩
    exact ⟨join, hjoin, position, hposition, by rw [if_neg (not_not.mpr hanchor), only_eq_some, h]⟩

theorem resolveLinkedTransition_ok
    :
    resolveLinkedTransition db network networkIndex index path = .ok edges ↔
      path.network = networkIndex ∧
        ((kindAt network path.element = some .step ∧
          edges = [⟨⟨networkIndex, index⟩, path, .explicitLink⟩]) ∨
        (kindAt network path.element = some .alternativeJoin ∧
          ∃ target, joinSuccessor db network path.element = some target ∧
            edges = [successor networkIndex index target .joinIndirection])) := by
  unfold resolveLinkedTransition
  by_cases hnetwork : path.network = networkIndex
  · rw [if_neg (not_not.mpr hnetwork)]
    cases hkind : kindAt network path.element with
    | none => simp
    | some kind =>
      cases kind with
      | step => simp [hnetwork, eq_comm]
      | alternativeJoin =>
        cases hjoin : joinSuccessor db network path.element with
        | none => simp
        | some target => simp [hnetwork, eq_comm]
      | _ => simp
  · simp [hnetwork]

theorem resolveTransition_ok {linked : Option ElementPath}
    :
    resolveTransition db network networkIndex index position linked = .ok edges ↔
      ((objectsAt db network (· = .stepJump) (below position)).length ≠ 1 ∧ linked = none ∧
        ∃ target, Plain db network .step (below position) target ∧
          edges = [successor networkIndex index target .gridAdjacency]) ∨
      ((∀ target, ¬ Plain db network .step (below position) target) ∧
        ((∃ jump target, objectsAt db network (· = .stepJump) (below position) = [jump] ∧
          linked = none ∧ jumpTarget db network jump = some target ∧
          edges = [successor networkIndex index target .namedJumpIndirection]) ∨
        ((objectsAt db network (· = .stepJump) (below position)).length ≠ 1 ∧
          ∃ path, linked = some path ∧
            resolveLinkedTransition db network networkIndex index path = .ok edges))) := by
  unfold resolveTransition
  simp only [jumpAt, candidatesAt_eq]
  cases hjump : only (objectsAt db network (· = .stepJump) (below position)) with
  | some jump =>
    rw [only_eq_some] at hjump
    cases hplain : (flowAt db network (below position)).filter
        (fun target => kindAt network target = some .step) with
    | some target =>
      have hsome : ¬ ∀ target, ¬ Plain db network .step (below position) target :=
        fun hnone => hnone target (plain_iff.mp hplain)
      cases linked <;> simp [hjump, hsome]
    | none =>
      have hnone := plain_none_iff.mp hplain
      cases linked with
      | some path => simp [hjump, hnone]
      | none =>
        cases htarget : jumpTarget db network jump <;> simp [hjump, hnone, htarget, eq_comm]
  | none =>
    rw [only_eq_none] at hjump
    have hsingle := ne_one hjump
    cases hplain : (flowAt db network (below position)).filter
        (fun target => kindAt network target = some .step) with
    | some target =>
      have hunique := (plain_iff.mp hplain).unique
      cases linked <;> simp [hjump, hunique, hsingle, eq_comm]
    | none =>
      have hnone := plain_none_iff.mp hplain
      cases linked <;> simp [hjump, hnone, hsingle]

theorem EdgesSound.one_candidate (htransition : kindAt network index = some .transition)
    (h : EdgesSound db network networkIndex index position edges) :
    (objectsAt db network (· = .step) (below position)).length +
      (objectsAt db network (· = .stepJump) (below position)).length +
      (linksFrom network networkIndex ⟨networkIndex, index⟩).length = 1 := by
  obtain ⟨candidate, targets, hone, -⟩ := h.sole
  have hnever : kindAt network index ≠ some .step := by
    rw [htransition]
    simp
  rw [nodeCandidates, if_neg hnever, transitionCandidates] at hone
  have hlength := congrArg List.length hone
  simp only [length_append, length_map, length_singleton] at hlength
  exact hlength

theorem EdgesSound.joined {joinPosition : Int × Int} {basis : EdgeBasis}
    (htransition : kindAt network index = some .transition)
    (h : EdgesSound db network networkIndex index position
      [successor networkIndex index target basis])
    (hpath : path ∈ (linksFrom network networkIndex ⟨networkIndex, index⟩).getLast?)
    (hjoin : kindAt network path.element = some .alternativeJoin)
    (hposition : positionAt db network path.element = some joinPosition) :
    joinFollowers db network joinPosition = [target] := by
  have hcount := h.one_candidate htransition
  have hlinks : (linksFrom network networkIndex ⟨networkIndex, index⟩).length ≠ 0 := by
    intro hzero
    rw [length_eq_zero_iff.mp hzero] at hpath
    cases hpath
  have hsteps : objectsAt db network (· = .step) (below position) = [] :=
    length_eq_zero_iff.mp (by omega)
  have hjumps : objectsAt db network (· = .stepJump) (below position) = [] :=
    length_eq_zero_iff.mp (by omega)
  obtain ⟨found, hfound⟩ := length_eq_one_iff.mp
    (show (linksFrom network networkIndex ⟨networkIndex, index⟩).length = 1 by omega)
  have hsame : found = path := by simpa [hfound] using hpath
  have hnever : kindAt network index ≠ some .step := by
    rw [htransition]
    simp
  obtain ⟨candidate, targets, hone, hleads, htargets⟩ := h.sole
  rw [nodeCandidates, if_neg hnever, transitionCandidates, hsteps, hjumps, hfound, hsame] at hone
  have hcandidate : candidate = .link path := by simpa using hone.symm
  rw [hcandidate] at hleads
  cases hleads with
  | link hnetwork hkind =>
    rw [hjoin] at hkind
    cases hkind
  | join hnetwork hkind hplace hfollowers =>
    rw [hposition] at hplace
    cases hplace
    have htarget := htargets
    simp only [successor, map_cons, map_nil, List.cons.injEq, ElementPath.mk.injEq,
      true_and, and_true] at htarget
    rw [hfollowers, htarget]

theorem transition_sound (htransition : kindAt network index = some .transition) :
    (∀ edges, resolveTransition db network networkIndex index position
        ((explicitLinkEdges network networkIndex).get? ⟨networkIndex, index⟩) = .ok edges →
      EdgesSound db network networkIndex index position edges) ↔
    TransitionClear db network networkIndex index position := by
  have hnever : kindAt network index ≠ some .step := by
    rw [htransition]
    simp
  have hcandidates : nodeCandidates db network networkIndex index position =
      transitionCandidates db network networkIndex index position := if_neg hnever
  have hlinked : ∀ path,
      path ∈ (linksFrom network networkIndex ⟨networkIndex, index⟩).getLast? →
      (explicitLinkEdges network networkIndex).get? ⟨networkIndex, index⟩ = some path ∧
        (linksFrom network networkIndex ⟨networkIndex, index⟩).length ≠ 0 := by
    intro path hpath
    refine ⟨(linked_eq _).trans hpath, ?_⟩
    intro hzero
    rw [length_eq_zero_iff.mp hzero] at hpath
    cases hpath
  constructor
  · intro hsound
    constructor
    · intro target hjumps hplain hlinks
      have hedges := hsound _ (resolveTransition_ok.mpr (.inl
        ⟨hjumps, linked_none.mpr hlinks, target, hplain, rfl⟩))
      have hcount := hedges.one_candidate htransition
      rw [hplain.objects rfl, length_singleton] at hcount
      exact length_eq_zero_iff.mp (by omega)
    · intro jump element name target hjumps hplain hlinks helement hname hnil htarget
      have hedges := hsound _ (resolveTransition_ok.mpr (.inr ⟨hplain, .inl ⟨jump, target, hjumps,
        linked_none.mpr hlinks,
        jumpTarget_eq_some.mpr ⟨element, name, helement, hname, hnil, htarget⟩, rfl⟩⟩))
      have hcount := hedges.one_candidate htransition
      rw [hjumps, length_singleton] at hcount
      exact length_eq_zero_iff.mp (by omega)
    · intro path hjumps hplain hpath hnetwork hleads
      obtain ⟨hfound, hlinks⟩ := hlinked path hpath
      obtain ⟨edges, hresolved⟩ : ∃ edges,
          resolveLinkedTransition db network networkIndex index path = .ok edges := by
        rcases hleads with hstep | ⟨join, joinPosition, target, hkind, hjoin⟩
        · exact ⟨_, resolveLinkedTransition_ok.mpr ⟨hnetwork, .inl ⟨hstep, rfl⟩⟩⟩
        · exact ⟨_, resolveLinkedTransition_ok.mpr ⟨hnetwork, .inr ⟨hkind, target,
            joinSuccessor_eq_some.mpr ⟨join, joinPosition, hjoin⟩, rfl⟩⟩⟩
      have hedges := hsound _ (resolveTransition_ok.mpr (.inr ⟨hplain, .inr
        ⟨hjumps, path, hfound, hresolved⟩⟩))
      have hcount := hedges.one_candidate htransition
      exact ⟨length_eq_zero_iff.mp (by omega), length_eq_zero_iff.mp (by omega), by omega⟩
    · intro path join joinPosition target hjumps hplain hpath hnetwork hkind hjoin hposition
        hanchor hflow
      have hsuccessor := joinSuccessor_eq_some.mpr
        ⟨join, joinPosition, hjoin, hposition, hanchor, hflow⟩
      have hedges := hsound _ (resolveTransition_ok.mpr (.inr ⟨hplain, .inr
        ⟨hjumps, path, (hlinked path hpath).1, resolveLinkedTransition_ok.mpr
          ⟨hnetwork, .inr ⟨hkind, target, hsuccessor, rfl⟩⟩⟩⟩))
      obtain ⟨edge, hone, -, hstep⟩ := hedges.fromTransition htransition
      have hedge : edge = successor networkIndex index target .joinIndirection := by
        simpa using hone.symm
      rw [hedge] at hstep
      have hfollowers := hedges.joined htransition hpath hkind hposition
      have hsteps := @Plain.objects _ _ .step rfl _ _ ⟨hflow, hstep⟩
      rw [joinFollowers, hsteps] at hfollowers
      exact ⟨hstep, by simpa using hfollowers⟩
  · intro hclear edges hedges
    rcases resolveTransition_ok.mp hedges with
      ⟨hjumps, hnone, target, hplain, rfl⟩ | ⟨hplain,
        ⟨jump, target, hjumps, hnone, htarget, rfl⟩ | ⟨hjumps, path, hfound, hresolved⟩⟩
    · have hlinks := linked_none.mp hnone
      have hnojumps := hclear.plain target hjumps hplain hlinks
      refine ⟨⟨.object target, [target], ?_, ?_, ?_⟩, fun h => absurd h hnever, ?_⟩
      · rw [hcandidates, transitionCandidates, hnojumps, hlinks, hplain.objects rfl]
        rfl
      · exact .adjacent (by rw [hplain.2]; rfl)
      · simp [successor]
      · exact fun _ => ⟨_, rfl, rfl, hplain.2⟩
    · have hlinks := linked_none.mp hnone
      obtain ⟨element, name, helement, hname, hnil, hnamed⟩ := jumpTarget_eq_some.mp htarget
      have hsteps := hclear.jump jump element name target hjumps hplain hlinks helement hname hnil
        hnamed
      refine ⟨⟨.object jump, [target], ?_, ?_, ?_⟩, fun h => absurd h hnever, ?_⟩
      · rw [hcandidates, transitionCandidates, hsteps, hlinks, hjumps]
        rfl
      · exact .jump (objectsAt_kind (hjumps ▸ mem_singleton_self jump)) helement hname hnamed
      · simp [successor]
      · exact fun _ => ⟨_, rfl, rfl, stepsNamed_kind hnamed⟩
    · rw [linked_eq] at hfound
      obtain ⟨hnetwork, hkinds⟩ := resolveLinkedTransition_ok.mp hresolved
      have hlast : Followed db network path →
          transitionCandidates db network networkIndex index position = [.link path] := by
        intro hleads
        obtain ⟨hsteps, hnojumps, hone⟩ := hclear.link path hjumps hplain hfound hnetwork hleads
        obtain ⟨found, hlinks⟩ := length_eq_one_iff.mp hone
        rw [hlinks] at hfound
        have hsame : found = path := by simpa using hfound
        rw [hsame] at hlinks
        rw [transitionCandidates, hsteps, hnojumps, hlinks]
        rfl
      rcases hkinds with ⟨hstep, rfl⟩ | ⟨hkind, target, hsuccessor, rfl⟩
      · have hone := hlast (.inl hstep)
        refine ⟨⟨.link path, [path.element], hcandidates.trans hone, ?_, ?_⟩,
          fun h => absurd h hnever, ?_⟩
        · exact .link hnetwork (by rw [hstep]; rfl)
        · simp [← hnetwork]
        · exact fun _ => ⟨_, rfl, hnetwork, hstep⟩
      · obtain ⟨join, joinPosition, hjoin, hposition, hanchor, hflow⟩ :=
          joinSuccessor_eq_some.mp hsuccessor
        have hone := hlast (.inr ⟨join, joinPosition, target, hkind, hjoin, hposition,
          hanchor, hflow⟩)
        obtain ⟨htarget, hnone⟩ := hclear.join path join joinPosition target hjumps hplain hfound
          hnetwork hkind hjoin hposition hanchor hflow
        refine ⟨⟨.link path, [target], hcandidates.trans hone, ?_, ?_⟩,
          fun h => absurd h hnever, ?_⟩
        · refine .join hnetwork hkind hposition ?_
          rw [joinFollowers, hnone, @Plain.objects _ _ .step rfl _ _ ⟨hflow, htarget⟩]
          rfl
        · simp [successor]
        · exact fun _ => ⟨_, rfl, rfl, htarget⟩

end TwinForge.ControlExpert
