import TwinForge.L5X.CallArguments
import TwinForge.L5X.Corpus

/-! # The software of a corpus

Tags are bound to the shared definitions their data types name, and the calls of all programs
are resolved. Whatever these stages report stands in a document of a workspace.
-/

namespace TwinForge.L5X.Calls

open List

open Model (SoftwareCallSite)

/-- What the documents and the components were converted to, and the calls that
`extract_program_calls` finds in a program for the path it is given. -/
structure Contents where
  target : L5X.Document → Target
  contextControllerTags : L5X.Document → List Tag := fun _ => []
  implementation : L5X.SoftwareComponent → Implementation
  programCalls : Program → Text → List SoftwareCallSite
  programCalls_path : ∀ program path, ∀ call ∈ programCalls program path,
    call.sourcePath = some path

structure SoftwareBinding where
  definition : SoftwareComponent
  target : Tag
  evidence : Text
  workspaceKey : Text
  controllerName : Text
  programName : Text
  sourcePath : Text

/-- A tag of a program, with the workspace and the document it stands in. -/
structure ProgramTag where
  workspace : L5X.ControllerWorkspace
  program : Program
  sourcePath : Text
  tag : Tag

structure ResolvedInstances where
  bindings : List SoftwareBinding := []
  diagnostics : List CorpusDiagnostic := []

structure SoftwareEvidence where
  softwareIndex : Dictionary Text (List SoftwareComponent)
  softwareBindings : List SoftwareBinding
  callSites : List SoftwareCallSite
  resolvedCalls : List ResolvedSoftwareCall

/-! ## Stages -/

section

variable (db : CharacterDatabase) (contents : Contents)

def Contents.document (source : L5X.Document) : Document where
  targetType := source.targetType
  target := contents.target source
  sourcePath := source.sourcePath
  contextControllerTags := contents.contextControllerTags source

def Contents.component (source : L5X.SoftwareComponent) : SoftwareComponent where
  name := source.name
  implementation := contents.implementation source

def Contents.workspace (workspace : L5X.ControllerWorkspace) : ControllerWorkspace where
  documents := workspace.documents.map contents.document
  controllerDocument := workspace.controllerDocument.map contents.document

def duplicateDefinition (name : Text) (definitions : Nat) : CorpusDiagnostic where
  code := "duplicate_software_definition"
  message := ("software definition " : Text) ++ db.reprText name ++ (" occurs " : Text) ++
    decimal definitions ++ (" times" : Text)

def ambiguousInstance (instanceTag : ProgramTag) (dataType : Text) (definitions : Nat) :
    CorpusDiagnostic where
  code := "ambiguous_software_instance"
  message := ("tag " : Text) ++ instanceTag.program.name ++ ['.'] ++ instanceTag.tag.name ++
    (" datatype " : Text) ++ db.reprText dataType ++ (" matches " : Text) ++
    decimal definitions ++ (" definitions" : Text)
  sourcePaths := [instanceTag.sourcePath]

def duplicateDefinitions (index : Dictionary Text (List SoftwareComponent)) :
    List CorpusDiagnostic :=
  ((sortedBy (compareOn (·.1)) index.entries).filter fun entry => 1 < entry.2.length).map
    fun entry => duplicateDefinition db entry.1 entry.2.length

def programTags (workspaces : List L5X.ControllerWorkspace) : List ProgramTag :=
  workspaces.flatMap fun workspace =>
    (workspacePrograms (contents.workspace workspace)).flatMap fun (program, sourcePath) =>
      program.tags.values.map fun tag => ⟨workspace, program, sourcePath, tag⟩

def bindTag (instanceTag : ProgramTag) (dataType : Text) (definition : SoftwareComponent) :
    SoftwareBinding where
  definition
  target := instanceTag.tag
  evidence := fileName instanceTag.sourcePath ++ (": tag " : Text) ++ instanceTag.program.name ++
    ['.'] ++ instanceTag.tag.name ++ (" declares DataType=" : Text) ++ dataType
  workspaceKey := instanceTag.workspace.key
  controllerName := instanceTag.workspace.controllerName
  programName := instanceTag.program.name
  sourcePath := instanceTag.sourcePath

/-- One turn of the innermost loop of `_resolve_software_instances`. -/
def resolveInstance (index : Dictionary Text (List SoftwareComponent)) (state : ResolvedInstances)
    (instanceTag : ProgramTag) : ResolvedInstances :=
  match instanceTag.tag.dataType with
  | none => state
  | some dataType =>
    match (index.get? (db.casefoldText dataType)).getD [] with
    | [] => state
    | [definition] =>
      { state with bindings := state.bindings ++ [bindTag instanceTag dataType definition] }
    | definitions =>
      { state with
        diagnostics := state.diagnostics ++
          [ambiguousInstance db instanceTag dataType definitions.length] }

def resolveSoftwareInstances (workspaces : List L5X.ControllerWorkspace)
    (index : Dictionary Text (List SoftwareComponent)) : ResolvedInstances :=
  (programTags contents workspaces).foldl (resolveInstance db index)
    { diagnostics := duplicateDefinitions db index }

def extractCallSites (workspaces : List L5X.ControllerWorkspace) : List SoftwareCallSite :=
  workspaces.flatMap fun workspace =>
    (workspacePrograms (contents.workspace workspace)).flatMap fun (program, sourcePath) =>
      contents.programCalls program sourcePath

/-- The stages of `_resolve_corpus` behind the ownership; the module assemblies group what
the resolved calls have. -/
def softwareStages (workspaces : List L5X.ControllerWorkspace)
    (software : List L5X.SoftwareComponent) : SoftwareEvidence × List CorpusDiagnostic :=
  let index := softwareIndex db (software.map contents.component)
  let instances := resolveSoftwareInstances db contents workspaces index
  let callSites := extractCallSites contents workspaces
  let calls := resolveCalls db (workspaces.map contents.workspace) index instances.diagnostics
    callSites
  ({ softwareIndex := index
     softwareBindings := instances.bindings
     callSites
     resolvedCalls := calls.resolved },
    calls.diagnostics)

end

/-! ## Where the diagnostics stand -/

section

variable {db : CharacterDatabase} {contents : Contents}
  {workspaces : List L5X.ControllerWorkspace} {sourcePath : Text}

/-- A path is that of a document of a workspace. -/
def IsOwned (workspaces : List L5X.ControllerWorkspace) (sourcePath : Text) : Prop :=
  ∃ workspace ∈ workspaces, ∃ document ∈ workspace.documents, document.sourcePath = sourcePath

def DiagnosticsOwned (workspaces : List L5X.ControllerWorkspace)
    (diagnostics : List CorpusDiagnostic) : Prop :=
  ∀ diagnostic ∈ diagnostics, ∀ path ∈ diagnostic.sourcePaths, IsOwned workspaces path

theorem DiagnosticsOwned.append {first second : List CorpusDiagnostic}
    (h : DiagnosticsOwned workspaces first) (h' : DiagnosticsOwned workspaces second) :
    DiagnosticsOwned workspaces (first ++ second) := by
  intro diagnostic hdiagnostic
  cases mem_append.mp hdiagnostic with
  | inl hfirst => exact h diagnostic hfirst
  | inr hsecond => exact h' diagnostic hsecond

theorem workspacePrograms_path {workspace : L5X.ControllerWorkspace}
    (hcontroller : ∀ document ∈ workspace.controllerDocument, document ∈ workspace.documents)
    {entry : Program × Text} (h : entry ∈ workspacePrograms (contents.workspace workspace)) :
    ∃ document ∈ workspace.documents, document.sourcePath = entry.2 := by
  unfold workspacePrograms at h
  cases mem_append.mp h with
  | inl hown =>
    cases hdocument : workspace.controllerDocument with
    | none => simp [Contents.workspace, hdocument] at hown
    | some document =>
      refine ⟨document, hcontroller document hdocument, ?_⟩
      simp only [Contents.workspace, hdocument, Option.map_some, Contents.document] at hown
      cases htarget : contents.target document with
      | controller controller =>
        rw [htarget] at hown
        obtain ⟨program, -, rfl⟩ := mem_map.mp hown
        rfl
      | _ => simp [htarget] at hown
  | inr hlisted =>
    obtain ⟨converted, hconverted, hentry⟩ := mem_filterMap.mp hlisted
    obtain ⟨document, hdocument, rfl⟩ := mem_map.mp hconverted
    refine ⟨document, hdocument, ?_⟩
    split at hentry
    · cases hentry
      rfl
    · cases hentry

section

variable (hcontroller : ∀ workspace ∈ workspaces,
  ∀ document ∈ workspace.controllerDocument, document ∈ workspace.documents)

include hcontroller

theorem programTags_owned {instanceTag : ProgramTag}
    (h : instanceTag ∈ programTags contents workspaces) :
    IsOwned workspaces instanceTag.sourcePath := by
  obtain ⟨workspace, hworkspace, hprograms⟩ := mem_flatMap.mp h
  obtain ⟨entry, hentry, htags⟩ := mem_flatMap.mp hprograms
  obtain ⟨tag, -, rfl⟩ := mem_map.mp htags
  exact ⟨workspace, hworkspace, workspacePrograms_path (hcontroller workspace hworkspace) hentry⟩

theorem extractCallSites_owned {call : SoftwareCallSite}
    (h : call ∈ extractCallSites contents workspaces) :
    ∀ path ∈ call.sourcePath, IsOwned workspaces path := by
  obtain ⟨workspace, hworkspace, hprograms⟩ := mem_flatMap.mp h
  obtain ⟨entry, hentry, hcall⟩ := mem_flatMap.mp hprograms
  intro path hpath
  rw [contents.programCalls_path _ _ call hcall, Option.mem_some_iff] at hpath
  have howned := workspacePrograms_path (hcontroller workspace hworkspace) hentry
  exact ⟨workspace, hworkspace, hpath ▸ howned⟩

theorem resolveSoftwareInstances_owned (index : Dictionary Text (List SoftwareComponent)) :
    DiagnosticsOwned workspaces
      (resolveSoftwareInstances db contents workspaces index).diagnostics := by
  have hturns : ∀ (tags : List ProgramTag) (state : ResolvedInstances),
      (∀ instanceTag ∈ tags, IsOwned workspaces instanceTag.sourcePath) →
      DiagnosticsOwned workspaces state.diagnostics →
      DiagnosticsOwned workspaces (tags.foldl (resolveInstance db index) state).diagnostics := by
    intro tags
    induction tags with
    | nil => exact fun _ _ h => h
    | cons instanceTag tags ih =>
      intro state htags h
      refine ih _ (fun other hother => htags other (mem_cons_of_mem _ hother)) ?_
      unfold resolveInstance
      split
      · exact h
      · split
        · exact h
        · exact h
        · refine h.append ?_
          simpa [DiagnosticsOwned, ambiguousInstance] using htags instanceTag mem_cons_self
  refine hturns _ _ (fun _ => programTags_owned hcontroller) ?_
  intro diagnostic hdiagnostic path hpath
  obtain ⟨entry, -, rfl⟩ := mem_map.mp hdiagnostic
  cases hpath

end

theorem bindCallArguments_paths {call : SoftwareCallSite} {scope : CallScope} :
    ∀ diagnostic ∈ (bindCallArguments db call scope).2,
      diagnostic.sourcePaths = call.sourcePath.toList := by
  have hturns : ∀ (arguments : List Model.SoftwareCallArgument) (state : BindingState),
      (∀ diagnostic ∈ state.diagnostics, diagnostic.sourcePaths = call.sourcePath.toList) →
      ∀ diagnostic ∈ (arguments.foldl (bindArgument db call scope) state).diagnostics,
        diagnostic.sourcePaths = call.sourcePath.toList := by
    intro arguments
    induction arguments with
    | nil => exact fun _ h => h
    | cons argument arguments ih =>
      intro state h
      refine ih _ ?_
      unfold bindArgument
      simp only
      split
      · exact h
      · intro diagnostic hdiagnostic
        cases mem_append.mp hdiagnostic with
        | inl hbefore => exact h diagnostic hbefore
        | inr hhere =>
          split at hhere
          · rw [mem_singleton.mp hhere]
            rfl
          · cases hhere
  intro diagnostic hdiagnostic
  cases mem_append.mp hdiagnostic with
  | inl hargument => exact hturns _ {} (fun _ h => absurd h not_mem_nil) diagnostic hargument
  | inr hunbound =>
    obtain ⟨parameter, -, rfl⟩ := mem_map.mp hunbound
    rfl

theorem resolveCall_paths {converted : List ControllerWorkspace}
    {index : Dictionary Text (List SoftwareComponent)} {state : ResolvedCalls}
    {call : SoftwareCallSite} : ∃ found,
      (resolveCall db converted index state call).diagnostics = state.diagnostics ++ found ∧
        ∀ diagnostic ∈ found, diagnostic.sourcePaths = call.sourcePath.toList := by
  unfold resolveCall
  split
  · exact ⟨[], (append_nil _).symm, fun _ h => absurd h not_mem_nil⟩
  · next definition _ =>
    cases hdefinition : definition.implementation with
    | addOnInstruction instruction => exact ⟨_, rfl, bindCallArguments_paths⟩
    | other => exact ⟨[], rfl, fun _ h => absurd h not_mem_nil⟩
  · refine ⟨_, rfl, fun diagnostic hdiagnostic => ?_⟩
    rw [mem_singleton.mp hdiagnostic]
    rfl

theorem resolveCalls_owned {converted : List ControllerWorkspace}
    {index : Dictionary Text (List SoftwareComponent)} {diagnostics : List CorpusDiagnostic}
    {calls : List SoftwareCallSite} (h : DiagnosticsOwned workspaces diagnostics)
    (hcalls : ∀ call ∈ calls, ∀ path ∈ call.sourcePath, IsOwned workspaces path) :
    DiagnosticsOwned workspaces (resolveCalls db converted index diagnostics calls).diagnostics := by
  have hturns : ∀ state : ResolvedCalls, DiagnosticsOwned workspaces state.diagnostics →
      DiagnosticsOwned workspaces
        (calls.foldl (resolveCall db converted index) state).diagnostics := by
    induction calls with
    | nil => exact fun _ h => h
    | cons call calls ih =>
      intro state hstate
      refine ih (fun other hother => hcalls other (mem_cons_of_mem _ hother)) _ ?_
      obtain ⟨found, hfound, hpaths⟩ := @resolveCall_paths db converted index state call
      rw [hfound]
      refine hstate.append fun diagnostic hdiagnostic path hpath => ?_
      rw [hpaths diagnostic hdiagnostic, Option.mem_toList] at hpath
      exact hcalls call mem_cons_self path hpath
  exact hturns _ h

/-- The modelled stages as those of a corpus. -/
def corpusStages (db : CharacterDatabase) (contents : Contents) :
    SoftwareStages SoftwareEvidence where
  run := softwareStages db contents
  diagnostics_owned _ _ hcontroller :=
    resolveCalls_owned (resolveSoftwareInstances_owned hcontroller _)
      fun _ => extractCallSites_owned hcontroller

end

end TwinForge.L5X.Calls
