import TwinForge.Foundation.Grouping
import TwinForge.L5X.Corpus

/-! # Who owns a document

Ownership is a partition of the documents, and it depends on the files and not on the order
they are named in as long as their paths differ when case is ignored.
-/

namespace TwinForge.L5X

open List

variable {db : CharacterDatabase}

/-! ## What a workspace holds -/

def controllers (documents : List Document) : List Document :=
  documents.filter fun document => document.targetType = .controller

/-- A document that ownership is resolved for. -/
def IsFragment (document : Document) : Prop :=
  document.targetType ≠ .controller ∧ document.targetType ≠ .addOnInstruction

instance (document : Document) : Decidable (IsFragment document) :=
  inferInstanceAs (Decidable (_ ∧ _))

variable (db) in
def namedControllers (documents : List Document) (key : Text) : List Nat :=
  (List.range (controllers documents).length).filter fun number =>
    ((controllers documents)[number]?).any fun controller =>
      db.casefoldText controller.name = key

variable (db) in
def ownerOf (documents : List Document) (document : Document) : Option WorkspaceRef :=
  if IsFragment document then
    match document.contextControllerNames with
    | [name] =>
      match namedControllers db documents (db.casefoldText name) with
      | [number] => some (.controller number)
      | [] => some (.context (db.casefoldText name))
      | _ => none
    | _ => none
  else none

theorem controllers_append (documents : List Document) (document : Document) :
    controllers (documents ++ [document]) = controllers documents ++
      if document.targetType = .controller then [document] else [] := by
  unfold controllers
  by_cases hcontroller : document.targetType = .controller <;> simp [hcontroller]

variable {document : Document}

theorem namedControllers_append {documents : List Document}
    (h : document.targetType = .controller) (key : Text) :
    namedControllers db (documents ++ [document]) key = namedControllers db documents key ++
      if db.casefoldText document.name = key then [(controllers documents).length] else [] := by
  have hcontrollers : controllers (documents ++ [document]) =
      controllers documents ++ [document] := by
    rw [controllers_append, if_pos h]
  have hearlier : (List.range (controllers documents).length).filter (fun number =>
      ((controllers documents ++ [document])[number]?).any fun controller =>
        db.casefoldText controller.name = key) = namedControllers db documents key := by
    refine filter_congr fun number hnumber => ?_
    rw [List.getElem?_append_left (mem_range.mp hnumber)]
  rw [namedControllers, hcontrollers, length_append, length_singleton,
    range_succ, filter_append, hearlier]
  by_cases hname : db.casefoldText document.name = key <;> simp [hname]

variable (db) in
/-- The workspaces of the controllers among the first documents. -/
structure OwnControllers (documents : List Document) (state : Ownership) : Prop where
  count : state.workspaces.entries.length = (controllers documents).length
  controller : ∀ number, state.workspaces.get? (.controller number) =
    ((controllers documents)[number]?).map controllerWorkspace
  context : ∀ key, state.workspaces.get? (.context key) = none
  named : ∀ key, (state.byControllerName.get? key).getD [] =
    (namedControllers db documents key).map .controller
  rest : state.sharedSoftware = [] ∧ state.unassigned = [] ∧ state.diagnostics = []

theorem length_set {Key Value : Type} [DecidableEq Key] {dictionary : Dictionary Key Value}
    {key : Key} (value : Value) (h : dictionary.get? key = none) :
    (dictionary.set key value).entries.length = dictionary.entries.length + 1 := by
  have habsent : key ∉ dictionary.entries.map Prod.fst := by
    intro hmember
    obtain ⟨found, hfound⟩ := (dictionary.mem_keys_iff key).mp hmember
    rw [h] at hfound
    cases hfound
  have hset : (dictionary.set key value).entries = dictionary.entries ++ [(key, value)] :=
    assign_absent habsent
  rw [hset, length_append, length_singleton]

theorem ownControllers_spec (documents : List Document) :
    OwnControllers db documents (ownControllers db documents) := by
  induction documents using reverseRecOn with
  | nil => exact ⟨rfl, fun _ => rfl, fun _ => rfl, fun _ => rfl, rfl, rfl, rfl⟩
  | append_singleton documents document ih =>
    have hstep : ownControllers db (documents ++ [document]) =
        addController db (ownControllers db documents) document := by
      simp [ownControllers]
    rw [hstep]
    by_cases hcontroller : document.targetType = .controller
    · have hnumber := ih.count
      have hcontrollers : controllers (documents ++ [document]) =
          controllers documents ++ [document] := by
        rw [controllers_append, if_pos hcontroller]
      have hfresh : (ownControllers db documents).workspaces.get?
          (.controller (controllers documents).length) = none := by
        rw [ih.controller]
        simp
      simp only [addController, hcontroller, ne_eq, not_true_eq_false, if_false, hnumber]
      refine ⟨?_, ?_, ?_, ?_, ih.rest⟩
      · rw [length_set _ hfresh, hcontrollers, hnumber, length_append, length_singleton]
      · intro number
        rw [Dictionary.get?_set, hcontrollers, ih.controller]
        by_cases hlast : number = (controllers documents).length
        · simp [hlast]
        · rw [if_neg (by simpa using hlast)]
          by_cases hbefore : number < (controllers documents).length
          · rw [List.getElem?_append_left hbefore]
          · rw [List.getElem?_eq_none (by omega), List.getElem?_eq_none (by
              rw [length_append, length_singleton]
              omega)]
      · intro key
        rw [Dictionary.get?_set, if_neg (by simp)]
        exact ih.context key
      · intro key
        rw [Dictionary.get?_set, namedControllers_append hcontroller]
        by_cases hname : key = db.casefoldText document.name
        · simp [hname, ih.named]
        · rw [if_neg hname, if_neg (Ne.symm hname), append_nil]
          exact ih.named key
    · have hsame : addController db (ownControllers db documents) document =
          ownControllers db documents := by
        simp [addController, hcontroller]
      have hcontrollers : controllers (documents ++ [document]) = controllers documents := by
        rw [controllers_append, if_neg hcontroller, append_nil]
      rw [hsame]
      refine ⟨hcontrollers ▸ ih.count, ?_, ih.context, ?_, ih.rest⟩
      · rw [hcontrollers]
        exact ih.controller
      · intro key
        rw [namedControllers, hcontrollers]
        exact ih.named key

/-! ## The documents of a workspace -/

variable (db) in
def ownedBy (documents seen : List Document) (ref : WorkspaceRef) : List Document :=
  seen.filter fun document => ownerOf db documents document = some ref

def contextWorkspaceOf : List Document → Option ControllerWorkspace
  | [] => none
  | first :: rest =>
    some { contextWorkspace (first.contextControllerNames.headD []) first with
      documents := first :: rest }

variable (db) in
/-- Ownership after some of the documents. -/
structure Owns (documents seen : List Document) (state : Ownership) : Prop where
  named : ∀ key, (state.byControllerName.get? key).getD [] =
    (namedControllers db documents key).map .controller
  controller : ∀ number, state.workspaces.get? (.controller number) =
    ((controllers documents)[number]?).map fun document =>
      { controllerWorkspace document with
        documents := document :: ownedBy db documents seen (.controller number) }
  context : ∀ key, state.workspaces.get? (.context key) =
    contextWorkspaceOf (ownedBy db documents seen (.context key))
  software : state.sharedSoftware = (seen.filter fun document =>
    document.targetType = .addOnInstruction).flatMap fun document =>
      document.softwareComponent.toList
  unassigned : state.unassigned = seen.filter fun document =>
    IsFragment document ∧ ownerOf db documents document = none
  diagnostics : state.diagnostics.map CorpusDiagnostic.sourcePaths =
    state.unassigned.map fun document => [document.sourcePath]

theorem ownerOf_named {documents : List Document} {document : Document} {name : Text}
    (hfragment : IsFragment document) (hname : document.contextControllerNames = [name]) :
    ownerOf db documents document =
      match namedControllers db documents (db.casefoldText name) with
      | [number] => some (.controller number)
      | [] => some (.context (db.casefoldText name))
      | _ => none := by
  rw [ownerOf, if_pos hfragment, hname]

theorem ownedBy_append (documents seen : List Document) (document : Document) (ref : WorkspaceRef) :
    ownedBy db documents (seen ++ [document]) ref = ownedBy db documents seen ref ++
      if ownerOf db documents document = some ref then [document] else [] := by
  unfold ownedBy
  by_cases howner : ownerOf db documents document = some ref <;> simp [howner]

theorem ownedBy_unowned {documents : List Document}
    (h : ownerOf db documents document = none) (seen : List Document) (ref : WorkspaceRef) :
    ownedBy db documents (seen ++ [document]) ref = ownedBy db documents seen ref := by
  rw [ownedBy_append, h]
  simp

variable {seen : List Document} {state : Ownership}

theorem leaveUnassigned_owns {documents : List Document}
    (h : Owns db documents seen state) (hfragment : IsFragment document)
    (howner : ownerOf db documents document = none) (code message : Text) :
    Owns db documents (seen ++ [document]) (leaveUnassigned state document code message) := by
  refine ⟨h.named, ?_, ?_, ?_, ?_, ?_⟩
  · intro number
    rw [ownedBy_unowned howner]
    exact h.controller number
  · intro key
    rw [ownedBy_unowned howner]
    exact h.context key
  · rw [filter_append, flatMap_append]
    simpa [leaveUnassigned, hfragment.2] using h.software
  · rw [filter_append]
    simpa [leaveUnassigned, hfragment, howner] using h.unassigned
  · simpa [leaveUnassigned] using h.diagnostics

variable {workspace : ControllerWorkspace}

theorem contextWorkspaceOf_append {owned : List Document}
    (h : contextWorkspaceOf owned = some workspace) (document : Document) :
    contextWorkspaceOf (owned ++ [document]) =
      some { workspace with documents := workspace.documents ++ [document] } := by
  cases owned with
  | nil => cases h
  | cons first rest =>
    cases h
    rfl

variable {ref : WorkspaceRef}

theorem appendDocument_owns {documents : List Document} (h : Owns db documents seen state)
    (hfragment : IsFragment document) (howner : ownerOf db documents document = some ref)
    (hworkspace : state.workspaces.get? ref = some workspace) :
    Owns db documents (seen ++ [document]) (appendDocument state ref document) := by
  rw [appendDocument, hworkspace]
  have hothers : ∀ other, other ≠ ref →
      ownedBy db documents (seen ++ [document]) other = ownedBy db documents seen other := by
    intro other hother
    rw [ownedBy_append, howner, if_neg (by simpa using Ne.symm hother), append_nil]
  have hown : ownedBy db documents (seen ++ [document]) ref =
      ownedBy db documents seen ref ++ [document] := by
    rw [ownedBy_append, howner, if_pos rfl]
  refine ⟨h.named, ?_, ?_, ?_, ?_, h.diagnostics⟩
  · intro number
    rw [Dictionary.get?_set]
    by_cases hsame : WorkspaceRef.controller number = ref
    · subst hsame
      rw [h.controller] at hworkspace
      obtain ⟨controller, hcontroller, rfl⟩ := Option.map_eq_some_iff.mp hworkspace
      rw [if_pos rfl, hown, hcontroller]
      rfl
    · rw [if_neg hsame, hothers _ hsame]
      exact h.controller number
  · intro key
    rw [Dictionary.get?_set]
    by_cases hsame : WorkspaceRef.context key = ref
    · subst hsame
      rw [h.context] at hworkspace
      rw [if_pos rfl, hown, contextWorkspaceOf_append hworkspace]
    · rw [if_neg hsame, hothers _ hsame]
      exact h.context key
  · rw [filter_append, flatMap_append]
    simpa [hfragment.2] using h.software
  · rw [filter_append]
    simpa [hfragment, howner] using h.unassigned

theorem newContext_owns {documents : List Document}
    (h : Owns db documents seen state) {name key : Text}
    (hfragment : IsFragment document) (hname : document.contextControllerNames = [name])
    (howner : ownerOf db documents document = some (.context key))
    (hnone : state.workspaces.get? (.context key) = none) :
    Owns db documents (seen ++ [document])
      { state with
        workspaces := state.workspaces.set (.context key) (contextWorkspace name document) } := by
  have hothers : ∀ other, other ≠ .context key →
      ownedBy db documents (seen ++ [document]) other = ownedBy db documents seen other := by
    intro other hother
    rw [ownedBy_append, howner, if_neg (by simpa using Ne.symm hother), append_nil]
  have hempty : ownedBy db documents seen (.context key) = [] := by
    rw [h.context] at hnone
    cases howned : ownedBy db documents seen (.context key) with
    | nil => rfl
    | cons first rest => simp [howned, contextWorkspaceOf] at hnone
  have hown : ownedBy db documents (seen ++ [document]) (.context key) = [document] := by
    rw [ownedBy_append, howner, if_pos rfl, hempty, nil_append]
  refine ⟨h.named, ?_, ?_, ?_, ?_, h.diagnostics⟩
  · intro number
    rw [Dictionary.get?_set, if_neg (by simp), hothers _ (by simp)]
    exact h.controller number
  · intro other
    rw [Dictionary.get?_set]
    by_cases hsame : WorkspaceRef.context other = .context key
    · rw [if_pos hsame, hsame, hown]
      simp [contextWorkspaceOf, contextWorkspace, hname]
    · rw [if_neg hsame, hothers _ hsame]
      exact h.context other
  · rw [filter_append, flatMap_append]
    simpa [hfragment.2] using h.software
  · rw [filter_append]
    simpa [hfragment, howner] using h.unassigned

theorem addFragment_owns {documents : List Document}
    (h : Owns db documents seen state) (hfragment : IsFragment document) :
    Owns db documents (seen ++ [document]) (addDocument db state document) := by
  unfold addDocument
  split
  · next htype => exact absurd htype hfragment.1
  · next htype => exact absurd htype hfragment.2
  cases hnames : document.contextControllerNames with
  | nil =>
    refine leaveUnassigned_owns h hfragment ?_ _ _
    rw [ownerOf, if_pos hfragment, hnames]
  | cons name others =>
    cases others with
    | cons second rest =>
      refine leaveUnassigned_owns h hfragment ?_ _ _
      rw [ownerOf, if_pos hfragment, hnames]
    | nil =>
      simp only [h.named]
      have howner := @ownerOf_named db documents _ _ hfragment hnames
      cases hnumbers : namedControllers db documents (db.casefoldText name) with
      | nil =>
        rw [hnumbers] at howner
        simp only [map_nil]
        cases hworkspace : state.workspaces.get? (.context (db.casefoldText name)) with
        | some workspace => exact appendDocument_owns h hfragment howner hworkspace
        | none => exact newContext_owns h hfragment hnames howner hworkspace
      | cons number further =>
        rw [hnumbers] at howner
        cases further with
        | cons second rest => exact leaveUnassigned_owns h hfragment howner _ _
        | nil =>
          have hbound : number < (controllers documents).length := by
            have hmember : number ∈ namedControllers db documents (db.casefoldText name) := by
              simp [hnumbers]
            exact mem_range.mp (mem_filter.mp hmember).1
          have hworkspace := h.controller number
          rw [List.getElem?_eq_getElem hbound] at hworkspace
          exact appendDocument_owns h hfragment howner hworkspace

theorem addDocument_owns {documents : List Document}
    (h : Owns db documents seen state) (document : Document) :
    Owns db documents (seen ++ [document]) (addDocument db state document) := by
  by_cases hfragment : IsFragment document
  · exact addFragment_owns h hfragment
  · have howner : ownerOf db documents document = none := if_neg hfragment
    by_cases hcontroller : document.targetType = .controller
    · have hsame : addDocument db state document = state := by
        simp [addDocument, hcontroller]
      rw [hsame]
      refine ⟨h.named, ?_, ?_, ?_, ?_, h.diagnostics⟩
      · intro number
        rw [ownedBy_unowned howner]
        exact h.controller number
      · intro key
        rw [ownedBy_unowned howner]
        exact h.context key
      · rw [filter_append, flatMap_append]
        simpa [hcontroller] using h.software
      · rw [filter_append]
        simpa [hfragment] using h.unassigned
    · have haddOn : document.targetType = .addOnInstruction := by
        by_contra hother
        exact hfragment ⟨hcontroller, hother⟩
      have hsame : addDocument db state document =
          { state with
            sharedSoftware := state.sharedSoftware ++ document.softwareComponent.toList } := by
        simp [addDocument, haddOn]
      rw [hsame]
      refine ⟨h.named, ?_, ?_, ?_, ?_, h.diagnostics⟩
      · intro number
        rw [ownedBy_unowned howner]
        exact h.controller number
      · intro key
        rw [ownedBy_unowned howner]
        exact h.context key
      · rw [filter_append, flatMap_append, h.software]
        simp [haddOn]
      · rw [filter_append]
        simpa [hfragment] using h.unassigned

theorem ownDocuments_owns (documents : List Document) :
    Owns db documents documents (ownDocuments db documents) := by
  have hcontrollers := @ownControllers_spec db documents
  have hrun : ∀ seen, Owns db documents seen
      (seen.foldl (addDocument db) (ownControllers db documents)) := by
    intro seen
    induction seen using reverseRecOn with
    | nil =>
      refine ⟨hcontrollers.named, ?_, ?_, ?_, ?_, ?_⟩
      · exact hcontrollers.controller
      · exact hcontrollers.context
      · exact hcontrollers.rest.1
      · exact hcontrollers.rest.2.1
      · rw [foldl_nil, hcontrollers.rest.2.1, hcontrollers.rest.2.2]
        rfl
    | append_singleton seen document ih =>
      rw [foldl_append]
      exact addDocument_owns ih document
  exact hrun documents

/-! ## Membership -/

theorem mem_workspace {documents : List Document}
    (h : (ownDocuments db documents).workspaces.get? ref = some workspace) (document : Document) :
    document ∈ workspace.documents ↔
      (∃ number, ref = .controller number ∧ (controllers documents)[number]? = some document) ∨
        (document ∈ documents ∧ ownerOf db documents document = some ref) := by
  have howns := @ownDocuments_owns db documents
  cases ref with
  | controller number =>
    rw [howns.controller] at h
    obtain ⟨controller, hcontroller, rfl⟩ := Option.map_eq_some_iff.mp h
    simp only [mem_cons, ownedBy, mem_filter, decide_eq_true_eq]
    refine or_congr ?_ Iff.rfl
    constructor
    · rintro rfl
      exact ⟨number, rfl, hcontroller⟩
    · rintro ⟨other, hother, hfound⟩
      cases hother
      rw [hcontroller] at hfound
      exact (Option.some.inj hfound).symm
  | context key =>
    rw [howns.context] at h
    have hdocuments : workspace.documents = ownedBy db documents documents (.context key) := by
      cases howned : ownedBy db documents documents (.context key) with
      | nil => simp [howned, contextWorkspaceOf] at h
      | cons first rest =>
        rw [howned] at h
        cases h
        rfl
    simp [hdocuments, ownedBy]

theorem ownerOf_fragment {documents : List Document}
    (h : ownerOf db documents document = some ref) : IsFragment document := by
  by_contra hother
  rw [ownerOf, if_neg hother] at h
  cases h

theorem mem_controllers {documents : List Document} {number : Nat}
    (h : (controllers documents)[number]? = some document) :
    document ∈ documents ∧ document.targetType = .controller := by
  simpa [controllers] using mem_of_getElem? h

theorem mem_namedControllers {documents : List Document} {key : Text} {number : Nat} :
    number ∈ namedControllers db documents key ↔ ∃ controller,
      (controllers documents)[number]? = some controller ∧
        db.casefoldText controller.name = key := by
  rw [namedControllers, mem_filter, mem_range]
  constructor
  · rintro ⟨-, hname⟩
    cases hcontroller : (controllers documents)[number]? with
    | none => simp [hcontroller] at hname
    | some controller => exact ⟨controller, rfl, by simpa [hcontroller] using hname⟩
  · rintro ⟨controller, hcontroller, hname⟩
    exact ⟨(List.getElem?_eq_some_iff.mp hcontroller).1, by simpa [hcontroller] using hname⟩

theorem owner_exists {documents : List Document}
    (hmember : document ∈ documents) (h : ownerOf db documents document = some ref) :
    ∃ workspace, (ownDocuments db documents).workspaces.get? ref = some workspace := by
  have howns := @ownDocuments_owns db documents
  cases ref with
  | controller number =>
    have hfragment := ownerOf_fragment h
    rw [ownerOf, if_pos hfragment] at h
    split at h
    · rename_i name hnames
      split at h
      · rename_i found hnamed
        cases h
        have hmember : number ∈ namedControllers db documents (db.casefoldText name) := by
          simp [hnamed]
        obtain ⟨controller, hcontroller, -⟩ := mem_namedControllers.mp hmember
        exact ⟨_, by rw [howns.controller, hcontroller]; rfl⟩
      · cases h
      · cases h
    · cases h
  | context key =>
    have howned : document ∈ ownedBy db documents documents (.context key) := by
      simp [ownedBy, hmember, h]
    cases hlist : ownedBy db documents documents (.context key) with
    | nil => simp [hlist] at howned
    | cons first rest => exact ⟨_, by rw [howns.context, hlist]; rfl⟩

/-! ## Ownership of a corpus -/

structure DocumentSet where
  documents : List Document
  distinct : (documents.map Document.sourcePath).Nodup

def matching (db : CharacterDatabase) (documents : List Document) (name : Text) : List Document :=
  (controllers documents).filter fun controller =>
    db.casefoldText controller.name = db.casefoldText name

/-- Ownership is a partition of the documents. -/
structure Owned {Evidence : Type} (db : CharacterDatabase) (documents : List Document)
    (corpus : Corpus Evidence) : Prop where
  documents_kept : corpus.documents = documents
  once : ∀ workspace ∈ corpus.workspaces, workspace.documents.Nodup ∧
    ∀ document ∈ workspace.documents, document ∈ documents
  controller : ∀ document ∈ documents, document.targetType = .controller →
    document ∉ corpus.unassignedDocuments ∧ ∃ workspace,
      corpus.workspaces.filter (fun workspace => document ∈ workspace.documents) = [workspace] ∧
      workspace.evidence = .fullController ∧ workspace.controllerDocument = some document ∧
      ∀ other ∈ workspace.documents, other.targetType = .controller → other = document
  addOn : ∀ document ∈ documents, document.targetType = .addOnInstruction →
    document ∉ corpus.unassignedDocuments ∧
      (∃ component ∈ corpus.sharedSoftware, document.softwareComponent = some component) ∧
      corpus.workspaces.filter (fun workspace => document ∈ workspace.documents) = []
  shared : corpus.sharedSoftware = (documents.filter fun document =>
    document.targetType = .addOnInstruction).flatMap fun document =>
      document.softwareComponent.toList
  fragment : ∀ document ∈ documents, IsFragment document →
    (document ∉ corpus.unassignedDocuments ∧ ∃ workspace,
      corpus.workspaces.filter (fun workspace => document ∈ workspace.documents) = [workspace]) ∨
    (corpus.unassignedDocuments.filter (· = document) = [document] ∧
      corpus.workspaces.filter (fun workspace => document ∈ workspace.documents) = [] ∧
      ∃ diagnostic, corpus.diagnostics.filter
        (fun diagnostic => document.sourcePath ∈ diagnostic.sourcePaths) = [diagnostic])
  full : ∀ document ∈ documents, IsFragment document →
    ((∃ workspace ∈ corpus.workspaces, workspace.evidence = .fullController ∧
      document ∈ workspace.documents) ↔
      ∃ name controller, document.contextControllerNames = [name] ∧
        matching db documents name = [controller])
  context : ∀ first ∈ documents, ∀ second ∈ documents, IsFragment first → IsFragment second →
    ((∃ workspace ∈ corpus.workspaces, workspace.evidence = .contextNameOnly ∧
      first ∈ workspace.documents ∧ second ∈ workspace.documents) ↔
      ∃ name other, first.contextControllerNames = [name] ∧
        second.contextControllerNames = [other] ∧
        db.casefoldText name = db.casefoldText other ∧ matching db documents name = [])

section

variable {documents : List Document}

theorem length_filter_range {Item : Type} (wanted : Item → Bool) (items : List Item) :
    ((List.range items.length).filter fun number => (items[number]?).any wanted).length =
      (items.filter wanted).length := by
  induction items using reverseRecOn with
  | nil => rfl
  | append_singleton items item ih =>
    have hearlier : (List.range items.length).filter (fun number =>
        ((items ++ [item])[number]?).any wanted) =
          (List.range items.length).filter fun number => (items[number]?).any wanted := by
      refine filter_congr fun number hnumber => ?_
      rw [List.getElem?_append_left (mem_range.mp hnumber)]
    rw [length_append, length_singleton, range_succ, filter_append,
      length_append, hearlier, ih, filter_append, length_append]
    by_cases hitem : wanted item = true <;> simp [hitem]

theorem length_matching (name : Text) : (matching db documents name).length =
    (namedControllers db documents (db.casefoldText name)).length :=
  (length_filter_range (fun controller : Document =>
    decide (db.casefoldText controller.name = db.casefoldText name)) (controllers documents)).symm

theorem matching_nil (name : Text) : matching db documents name = [] ↔
    namedControllers db documents (db.casefoldText name) = [] := by
  rw [← length_eq_zero_iff, length_matching, length_eq_zero_iff]

theorem matching_one (name : Text) : (∃ controller, matching db documents name = [controller]) ↔
    ∃ number, namedControllers db documents (db.casefoldText name) = [number] := by
  rw [← length_eq_one_iff, length_matching, length_eq_one_iff]

theorem ownerOf_iff {document : Document} (hfragment : IsFragment document) :
    ((∃ number, ownerOf db documents document = some (.controller number)) ↔
      ∃ name controller, document.contextControllerNames = [name] ∧
        matching db documents name = [controller]) ∧
    ∀ key, ownerOf db documents document = some (.context key) ↔
      ∃ name, document.contextControllerNames = [name] ∧ db.casefoldText name = key ∧
        matching db documents name = [] := by
  match hnames : document.contextControllerNames with
  | [] => simp [ownerOf, hfragment, hnames]
  | first :: second :: rest => simp [ownerOf, hfragment, hnames]
  | [name] =>
    have howner := @ownerOf_named db documents _ _ hfragment hnames
    have hone := @matching_one db documents name
    have hnil := @matching_nil db documents name
    match hnumbers : namedControllers db documents (db.casefoldText name) with
    | [] | [number] | first :: second :: rest =>
      rw [hnumbers] at howner hone hnil
      simp [howner, hone, hnil]

theorem workspace_evidence (h : (ownDocuments db documents).workspaces.get? ref = some workspace) :
    (workspace.evidence = .fullController ↔ ∃ number, ref = .controller number) ∧
      (workspace.evidence = .contextNameOnly ↔ ∃ key, ref = .context key) := by
  have howns := @ownDocuments_owns db documents
  cases ref with
  | controller number =>
    rw [howns.controller] at h
    obtain ⟨controller, -, rfl⟩ := Option.map_eq_some_iff.mp h
    simp [controllerWorkspace]
  | context key =>
    rw [howns.context] at h
    cases howned : ownedBy db documents documents (.context key) with
    | nil => simp [howned, contextWorkspaceOf] at h
    | cons first rest =>
      rw [howned] at h
      cases h
      simp [contextWorkspace]

theorem fragment_workspaces {document : Document} (hmember : document ∈ documents)
    (hfragment : IsFragment document) :
    (∀ ref, ownerOf db documents document = some ref → ∃ workspace,
      (ownDocuments db documents).workspaces.get? ref = some workspace ∧
      (ownDocuments db documents).workspaces.values.filter
        (fun workspace => document ∈ workspace.documents) = [workspace]) ∧
    (ownerOf db documents document = none →
      (ownDocuments db documents).workspaces.values.filter
        (fun workspace => document ∈ workspace.documents) = []) := by
  have hholds : ∀ ref workspace,
      (ownDocuments db documents).workspaces.get? ref = some workspace →
        (document ∈ workspace.documents ↔ ownerOf db documents document = some ref) := by
    intro ref workspace hworkspace
    rw [mem_workspace hworkspace]
    constructor
    · rintro (⟨number, -, hcontroller⟩ | ⟨-, howner⟩)
      · exact absurd (mem_controllers hcontroller).2 hfragment.1
      · exact howner
    · exact fun howner => .inr ⟨hmember, howner⟩
  constructor
  · intro ref howner
    obtain ⟨workspace, hworkspace⟩ := owner_exists hmember howner
    refine ⟨workspace, hworkspace, Dictionary.values_filter_one hworkspace ?_⟩
    intro key other hother
    rw [decide_eq_true_eq, hholds key other hother, howner, Option.some.injEq]
    exact eq_comm
  · intro howner
    refine Dictionary.values_filter_none ?_
    intro key other hother
    rw [decide_eq_false_iff_not, hholds key other hother, howner]
    simp

theorem reported_once {documents : List Document} {diagnostics : List CorpusDiagnostic}
    (hreported : diagnostics.map CorpusDiagnostic.sourcePaths =
      documents.map fun document => [document.sourcePath])
    (hdistinct : (documents.map Document.sourcePath).Nodup)
    (hmember : document ∈ documents) :
    ∃ diagnostic, diagnostics.filter
      (fun diagnostic => document.sourcePath ∈ diagnostic.sourcePaths) = [diagnostic] := by
  induction documents generalizing diagnostics with
  | nil => cases hmember
  | cons first rest ih =>
    cases diagnostics with
    | nil => simp at hreported
    | cons diagnostic diagnostics =>
      rw [map_cons, map_cons, List.cons.injEq] at hreported
      rw [map_cons, nodup_cons] at hdistinct
      rcases mem_cons.mp hmember with rfl | hrest
      · have hlater : diagnostics.filter
            (fun diagnostic => document.sourcePath ∈ diagnostic.sourcePaths) = [] := by
          rw [filter_eq_nil_iff]
          intro other hother
          have hpaths := mem_map_of_mem (f := CorpusDiagnostic.sourcePaths) hother
          rw [hreported.2] at hpaths
          obtain ⟨owner, howner, hsame⟩ := mem_map.mp hpaths
          rw [← hsame, decide_eq_true_eq, mem_singleton]
          exact fun hequal => hdistinct.1 (hequal ▸ mem_map_of_mem howner)
        exact ⟨diagnostic, by simp [hreported.1, hlater]⟩
      · have hother : document.sourcePath ≠ first.sourcePath := fun hequal =>
          hdistinct.1 (hequal ▸ mem_map_of_mem hrest)
        obtain ⟨found, hfound⟩ := ih hreported.2 hdistinct.2 hrest
        exact ⟨found, by simpa [hreported.1, hother] using hfound⟩

theorem controllers_nodup (set : DocumentSet) : (controllers set.documents).Nodup :=
  (List.Nodup.of_map _ set.distinct).filter _

theorem controller_workspace (set : DocumentSet) {document : Document}
    (hmember : document ∈ set.documents) (htype : document.targetType = .controller) :
    ∃ number workspace, (controllers set.documents)[number]? = some document ∧
      (ownDocuments db set.documents).workspaces.get? (.controller number) = some workspace ∧
      workspace.controllerDocument = some document ∧
      (ownDocuments db set.documents).workspaces.values.filter
        (fun workspace => document ∈ workspace.documents) = [workspace] := by
  have hfound : document ∈ controllers set.documents := by simp [controllers, hmember, htype]
  obtain ⟨number, hnumber⟩ := List.getElem?_of_mem hfound
  have hworkspace := (@ownDocuments_owns db set.documents).controller number
  rw [hnumber] at hworkspace
  refine ⟨number, _, hnumber, hworkspace, rfl, Dictionary.values_filter_one hworkspace ?_⟩
  intro key other hother
  rw [decide_eq_true_eq, mem_workspace hother]
  constructor
  · rintro (⟨found, rfl, hcontroller⟩ | ⟨-, howner⟩)
    · have hsame : found = number :=
        (List.getElem?_inj (List.getElem?_eq_some_iff.mp hcontroller).1
          (controllers_nodup set)).mp (hcontroller.trans hnumber.symm)
      rw [hsame]
    · exact absurd htype (ownerOf_fragment howner).1
  · rintro rfl
    exact .inl ⟨number, rfl, hnumber⟩

theorem duplicateNames_controllers {path : Text} {diagnostic : CorpusDiagnostic}
    (h : diagnostic ∈ duplicateNames db (ownDocuments db documents))
    (hpath : path ∈ diagnostic.sourcePaths) :
    ∃ controller ∈ documents, controller.targetType = .controller ∧ controller.sourcePath = path := by
  obtain ⟨entry, -, rfl⟩ := mem_map.mp h
  obtain ⟨ref, -, hfound⟩ := mem_filterMap.mp hpath
  obtain ⟨controller, hcontroller, rfl⟩ := Option.map_eq_some_iff.mp hfound
  obtain ⟨workspace, hworkspace, hdocument⟩ := Option.bind_eq_some_iff.mp hcontroller
  have howns := @ownDocuments_owns db documents
  cases ref with
  | controller number =>
    rw [howns.controller] at hworkspace
    obtain ⟨found, hnumber, rfl⟩ := Option.map_eq_some_iff.mp hworkspace
    cases hdocument
    exact ⟨_, (mem_controllers hnumber).1, (mem_controllers hnumber).2, rfl⟩
  | context key =>
    rw [howns.context] at hworkspace
    cases howned : ownedBy db documents documents (.context key) with
    | nil => simp [howned, contextWorkspaceOf] at hworkspace
    | cons first rest =>
      rw [howned] at hworkspace
      cases hworkspace
      cases hdocument

theorem workspace_nodup (set : DocumentSet)
    (h : (ownDocuments db set.documents).workspaces.get? ref = some workspace) :
    workspace.documents.Nodup := by
  have howns := @ownDocuments_owns db set.documents
  have hnodup : ∀ ref, (ownedBy db set.documents set.documents ref).Nodup :=
    fun ref => (List.Nodup.of_map _ set.distinct).filter _
  cases ref with
  | controller number =>
    rw [howns.controller] at h
    obtain ⟨controller, hcontroller, rfl⟩ := Option.map_eq_some_iff.mp h
    refine nodup_cons.mpr ⟨?_, hnodup _⟩
    intro howned
    have howner : ownerOf db set.documents controller = some (.controller number) := by
      simpa [ownedBy] using (mem_filter.mp howned).2
    exact (ownerOf_fragment howner).1 (mem_controllers hcontroller).2
  | context key =>
    rw [howns.context] at h
    have hnodup := hnodup (.context key)
    cases howned : ownedBy db set.documents set.documents (.context key) with
    | nil => simp [howned, contextWorkspaceOf] at h
    | cons first rest =>
      rw [howned] at h hnodup
      cases h
      exact hnodup

theorem workspaces_controllers (documents : List Document) :
    ∀ workspace ∈ (ownDocuments db documents).workspaces.values,
      ∀ document ∈ workspace.controllerDocument, document ∈ workspace.documents := by
  intro workspace hworkspace document hdocument
  obtain ⟨ref, href⟩ := Dictionary.mem_values_iff.mp hworkspace
  have howns := @ownDocuments_owns db documents
  cases ref with
  | controller number =>
    rw [howns.controller] at href
    obtain ⟨found, -, rfl⟩ := Option.map_eq_some_iff.mp href
    cases hdocument
    exact mem_cons_self
  | context key =>
    rw [howns.context] at href
    cases howned : ownedBy db documents documents (.context key) with
    | nil => simp [howned, contextWorkspaceOf] at href
    | cons first rest =>
      rw [howned] at href
      cases href
      cases hdocument

theorem unassigned_reported {Evidence : Type} (stages : SoftwareStages Evidence)
    (set : DocumentSet) (hmember : document ∈ set.documents)
    (hfragment : IsFragment document) (hnone : ownerOf db set.documents document = none) :
    ∃ diagnostic, (resolveCorpus db stages set.documents).diagnostics.filter
      (fun diagnostic => document.sourcePath ∈ diagnostic.sourcePaths) = [diagnostic] := by
  have howns := @ownDocuments_owns db set.documents
  have hsame : ∀ other ∈ set.documents, other.sourcePath = document.sourcePath →
      other = document :=
    fun other hother hpath => inj_on_of_nodup_map set.distinct hother hmember hpath
  have hunassigned : document ∈ (ownDocuments db set.documents).unassigned := by
    rw [howns.unassigned]
    simp [hmember, hfragment, hnone]
  have hdistinct : ((ownDocuments db set.documents).unassigned.map Document.sourcePath).Nodup := by
    rw [howns.unassigned]
    exact set.distinct.sublist (filter_sublist.map _)
  obtain ⟨diagnostic, hdiagnostic⟩ := reported_once howns.diagnostics hdistinct hunassigned
  -- The later diagnostics name controllers and documents of workspaces.
  have hnames : (duplicateNames db (ownDocuments db set.documents)).filter
      (fun diagnostic => document.sourcePath ∈ diagnostic.sourcePaths) = [] := by
    rw [filter_eq_nil_iff]
    intro other hother hpath
    obtain ⟨controller, hcontroller, htype, hequal⟩ :=
      duplicateNames_controllers hother (of_decide_eq_true hpath)
    exact hfragment.1 (hsame controller hcontroller hequal ▸ htype)
  have hstages : ((stages.run (ownDocuments db set.documents).workspaces.values
      (ownDocuments db set.documents).sharedSoftware).2).filter
        (fun diagnostic => document.sourcePath ∈ diagnostic.sourcePaths) = [] := by
    rw [filter_eq_nil_iff]
    intro other hother hpath
    obtain ⟨workspace, hworkspace, owned, howned, hequal⟩ :=
      stages.diagnostics_owned _ _ (workspaces_controllers set.documents) other hother _
        (of_decide_eq_true hpath)
    obtain ⟨ref, href⟩ := Dictionary.mem_values_iff.mp hworkspace
    rcases (mem_workspace href owned).mp howned with ⟨number, -, hnumber⟩ | ⟨hlisted, howner⟩
    · have hcontroller := mem_controllers hnumber
      exact hfragment.1 (hsame owned hcontroller.1 hequal ▸ hcontroller.2)
    · rw [hsame owned hlisted hequal, hnone] at howner
      cases howner
  refine ⟨diagnostic, ?_⟩
  show ((ownDocuments db set.documents).diagnostics ++
    duplicateNames db (ownDocuments db set.documents) ++ _).filter _ = _
  rw [filter_append, filter_append, hdiagnostic, hnames, hstages, append_nil,
    append_nil]

theorem corpus_owned {Evidence : Type} (stages : SoftwareStages Evidence) (set : DocumentSet) :
    Owned db set.documents (resolveCorpus db stages set.documents) := by
  have howns := @ownDocuments_owns db set.documents
  have hunassigned : ∀ document, document ∈ (ownDocuments db set.documents).unassigned ↔
      document ∈ set.documents ∧ IsFragment document ∧
        ownerOf db set.documents document = none := by
    intro document
    rw [howns.unassigned]
    simp
  have hsame : ∀ first ∈ set.documents, ∀ second ∈ set.documents,
      first.sourcePath = second.sourcePath → first = second :=
    fun first hfirst second hsecond => inj_on_of_nodup_map set.distinct hfirst hsecond
  constructor
  · rfl
  · intro workspace hworkspace
    obtain ⟨ref, href⟩ := Dictionary.mem_values_iff.mp hworkspace
    refine ⟨workspace_nodup set href, ?_⟩
    intro document hdocument
    rcases (mem_workspace href document).mp hdocument with ⟨number, -, hnumber⟩ | ⟨hmember, -⟩
    · exact (mem_controllers hnumber).1
    · exact hmember
  · intro document hmember htype
    obtain ⟨number, workspace, hnumber, hworkspace, hdocument, hone⟩ :=
      @controller_workspace db set _ hmember htype
    refine ⟨fun hleft => ((hunassigned document).mp hleft).2.1.1 htype,
      workspace, hone, (workspace_evidence hworkspace).1.mpr ⟨number, rfl⟩, hdocument, ?_⟩
    intro other hother hcontroller
    rcases (mem_workspace hworkspace other).mp hother with ⟨found, hfound, hplace⟩ | ⟨-, howner⟩
    · cases hfound
      rw [hnumber] at hplace
      exact (Option.some.inj hplace).symm
    · exact absurd hcontroller (ownerOf_fragment howner).1
  · intro document hmember htype
    have hfragment : ¬ IsFragment document := fun hfragment => hfragment.2 htype
    refine ⟨fun hleft => hfragment ((hunassigned document).mp hleft).2.1, ?_, ?_⟩
    · obtain ⟨component, hcomponent⟩ := Option.isSome_iff_exists.mp (document.addOn_component htype)
      refine ⟨component, ?_, hcomponent⟩
      change component ∈ (ownDocuments db set.documents).sharedSoftware
      rw [howns.software, mem_flatMap]
      exact ⟨document, by simp [hmember, htype], by simp [hcomponent]⟩
    · refine Dictionary.values_filter_none ?_
      intro ref workspace hworkspace
      rw [decide_eq_false_iff_not, mem_workspace hworkspace]
      rintro (⟨number, -, hnumber⟩ | ⟨-, howner⟩)
      · have hcontroller := (mem_controllers hnumber).2
        rw [htype] at hcontroller
        cases hcontroller
      · exact hfragment (ownerOf_fragment howner)
  · exact howns.software
  · intro document hmember hfragment
    obtain ⟨howned, hleft⟩ := @fragment_workspaces db _ _ hmember hfragment
    cases howner : ownerOf db set.documents document with
    | some ref =>
      left
      obtain ⟨workspace, -, hone⟩ := howned ref howner
      refine ⟨?_, workspace, hone⟩
      intro hunowned
      have hnone := ((hunassigned document).mp hunowned).2.2
      rw [howner] at hnone
      cases hnone
    | none =>
      right
      have hfound := (hunassigned document).mpr ⟨hmember, hfragment, howner⟩
      have hnone := hleft howner
      refine ⟨?_, hnone, ?_⟩
      · have hnodup : (ownDocuments db set.documents).unassigned.Nodup := by
          rw [howns.unassigned]
          exact (List.Nodup.of_map _ set.distinct).filter _
        refine perm_singleton.mp
          ((perm_ext_iff_of_nodup (hnodup.filter _) (by simp)).mpr ?_)
        intro other
        rw [mem_filter, decide_eq_true_eq, mem_singleton]
        exact ⟨fun h => h.2, fun h => ⟨h ▸ hfound, h⟩⟩
      · exact unassigned_reported stages set hmember hfragment howner
  · intro document hmember hfragment
    rw [← (ownerOf_iff hfragment).1]
    constructor
    · rintro ⟨workspace, hworkspace, hevidence, hdocument⟩
      obtain ⟨ref, href⟩ := Dictionary.mem_values_iff.mp hworkspace
      obtain ⟨number, rfl⟩ := (workspace_evidence href).1.mp hevidence
      rcases (mem_workspace href document).mp hdocument with ⟨found, -, hnumber⟩ | ⟨-, howner⟩
      · exact absurd (mem_controllers hnumber).2 hfragment.1
      · exact ⟨number, howner⟩
    · rintro ⟨number, howner⟩
      obtain ⟨workspace, hworkspace⟩ := owner_exists hmember howner
      exact ⟨workspace, Dictionary.mem_values_iff.mpr ⟨_, hworkspace⟩,
        (workspace_evidence hworkspace).1.mpr ⟨number, rfl⟩,
        (mem_workspace hworkspace document).mpr (.inr ⟨hmember, howner⟩)⟩
  · intro first hfirst second hsecond hfragment hother
    have hfirstOwner := (@ownerOf_iff db set.documents _ hfragment).2
    have hsecondOwner := (@ownerOf_iff db set.documents _ hother).2
    constructor
    · rintro ⟨workspace, hworkspace, hevidence, hin, hinOther⟩
      obtain ⟨ref, href⟩ := Dictionary.mem_values_iff.mp hworkspace
      obtain ⟨key, rfl⟩ := (workspace_evidence href).2.mp hevidence
      have howner := ((mem_workspace href first).mp hin).resolve_left (by simp)
      have hotherOwner := ((mem_workspace href second).mp hinOther).resolve_left (by simp)
      obtain ⟨name, hname, hkey, hnone⟩ := (hfirstOwner key).mp howner.2
      obtain ⟨other, hotherName, hotherKey, -⟩ := (hsecondOwner key).mp hotherOwner.2
      exact ⟨name, other, hname, hotherName, hkey.trans hotherKey.symm, hnone⟩
    · rintro ⟨name, other, hname, hotherName, hsameKey, hnone⟩
      have howner := (hfirstOwner _).mpr ⟨name, hname, rfl, hnone⟩
      have hotherNone : matching db set.documents other = [] := by
        rw [← hnone, matching, matching, hsameKey]
      have hotherOwner := (hsecondOwner _).mpr ⟨other, hotherName, hsameKey.symm, hotherNone⟩
      obtain ⟨workspace, hworkspace⟩ := owner_exists hfirst howner
      exact ⟨workspace, Dictionary.mem_values_iff.mpr ⟨_, hworkspace⟩,
        (workspace_evidence hworkspace).2.mpr ⟨_, rfl⟩,
        (mem_workspace hworkspace first).mpr (.inr ⟨hfirst, howner⟩),
        (mem_workspace hworkspace second).mpr (.inr ⟨hsecond, hotherOwner⟩)⟩

end

end TwinForge.L5X
