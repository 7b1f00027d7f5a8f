import TwinForge.Foundation.Dictionary
import TwinForge.Foundation.Sorting

/-! # Corpora of controller exports

Every document of a corpus is owned: a full controller by a workspace of its own, an add-on
instruction by the shared software, and what remains by the workspace its context names.
-/

namespace TwinForge.L5X

/-! ## Documents -/

inductive TargetType where
  | controller | ioModule | program | addOnInstruction
  deriving DecidableEq, Repr

structure SoftwareComponent where
  name : Text
  deriving DecidableEq, Repr

/-- One converted export; the converted target itself enters with its name. -/
structure Document where
  targetType : TargetType
  name : Text
  sourcePath : Text
  contextControllerNames : List Text := []
  softwareComponent : Option SoftwareComponent := none
  /-- An add-on instruction is converted to a component. -/
  addOn_component : targetType = .addOnInstruction → softwareComponent.isSome = true := by simp
  deriving DecidableEq

inductive WorkspaceEvidence where
  | fullController | contextNameOnly
  deriving DecidableEq, Repr

structure ControllerWorkspace where
  key : Text
  controllerName : Text
  evidence : WorkspaceEvidence
  documents : List Document := []
  controllerDocument : Option Document := none
  deriving DecidableEq

structure CorpusDiagnostic where
  code : Text
  message : Text
  sourcePaths : List Text := []
  deriving DecidableEq, Repr

/-! ## Ownership -/

/-- What a workspace was made for: the controller of a number, or a context name. -/
inductive WorkspaceRef where
  | controller (number : Nat)
  | context (key : Text)
  deriving DecidableEq, Repr

structure Ownership where
  workspaces : Dictionary WorkspaceRef ControllerWorkspace := {}
  byControllerName : Dictionary Text (List WorkspaceRef) := {}
  sharedSoftware : List SoftwareComponent := []
  unassigned : List Document := []
  diagnostics : List CorpusDiagnostic := []

/-- `path.name`. -/
def fileName (path : Text) : Text := ((path.splitOn '/').getLast?).getD []

section

variable (db : CharacterDatabase)

def controllerWorkspace (document : Document) : ControllerWorkspace where
  key := ("controller:" : Text) ++ document.sourcePath
  controllerName := document.name
  evidence := .fullController
  documents := [document]
  controllerDocument := some document

def contextWorkspace (name : Text) (document : Document) : ControllerWorkspace where
  key := ("context:" : Text) ++ name
  controllerName := name
  evidence := .contextNameOnly
  documents := [document]

def addController (state : Ownership) (document : Document) : Ownership :=
  if document.targetType ≠ .controller then state
  else
    let ref := WorkspaceRef.controller state.workspaces.entries.length
    let name := db.casefoldText document.name
    { state with
      workspaces := state.workspaces.set ref (controllerWorkspace document)
      byControllerName := state.byControllerName.set name
        ((state.byControllerName.get? name).getD [] ++ [ref]) }

/-- `workspace.documents.append(document)`. -/
def appendDocument (state : Ownership) (ref : WorkspaceRef) (document : Document) : Ownership :=
  match state.workspaces.get? ref with
  | none => state
  | some workspace =>
    { state with
      workspaces := state.workspaces.set ref
        { workspace with documents := workspace.documents ++ [document] } }

def leaveUnassigned (state : Ownership) (document : Document) (code message : Text) : Ownership :=
  { state with
    unassigned := state.unassigned ++ [document]
    diagnostics := state.diagnostics ++ [⟨code, message, [document.sourcePath]⟩] }

def addDocument (state : Ownership) (document : Document) : Ownership :=
  match document.targetType with
  | .controller => state
  | .addOnInstruction =>
    { state with
      sharedSoftware := state.sharedSoftware ++ document.softwareComponent.toList }
  | _ =>
    match document.contextControllerNames with
    | [name] =>
      let key := db.casefoldText name
      match (state.byControllerName.get? key).getD [] with
      | [ref] => appendDocument state ref document
      | [] =>
        match state.workspaces.get? (.context key) with
        | some _ => appendDocument state (.context key) document
        | none =>
          { state with
            workspaces := state.workspaces.set (.context key)
              (contextWorkspace name document) }
      | several =>
        leaveUnassigned state document "ambiguous_controller_context"
          (fileName document.sourcePath ++ (" context " : Text) ++ db.reprText name ++
            (" matches " : Text) ++ decimal several.length ++
            (" controller exports" : Text))
    | names =>
      leaveUnassigned state document "controller_context_not_unique"
        (fileName document.sourcePath ++ (" has " : Text) ++ decimal names.length ++
          (" controller context names" : Text))

def duplicateNames (state : Ownership) : List CorpusDiagnostic :=
  (state.byControllerName.entries.filter fun entry => 1 < entry.2.length).map fun entry =>
    { code := "duplicate_controller_name"
      message := ("controller name " : Text) ++ db.reprText entry.1 ++ (" occurs in " : Text) ++
        decimal entry.2.length ++ (" full controller exports" : Text)
      sourcePaths := entry.2.filterMap fun ref =>
        ((state.workspaces.get? ref).bind ControllerWorkspace.controllerDocument).map
          Document.sourcePath }

def ownControllers (documents : List Document) : Ownership :=
  documents.foldl (addController db) {}

def ownDocuments (documents : List Document) : Ownership :=
  documents.foldl (addDocument db) (ownControllers db documents)

/-- The stages behind the ownership: the software index, its bindings, the calls and the
module assemblies, with diagnostics about documents of the workspaces only. -/
structure SoftwareStages (Evidence : Type) where
  run : List ControllerWorkspace → List SoftwareComponent → Evidence × List CorpusDiagnostic
  diagnostics_owned : ∀ workspaces software,
    (∀ workspace ∈ workspaces, ∀ document ∈ workspace.controllerDocument,
      document ∈ workspace.documents) →
    ∀ diagnostic ∈ (run workspaces software).2, ∀ path ∈ diagnostic.sourcePaths,
      ∃ workspace ∈ workspaces, ∃ document ∈ workspace.documents, document.sourcePath = path

structure Corpus (Evidence : Type) where
  documents : List Document
  workspaces : List ControllerWorkspace
  sharedSoftware : List SoftwareComponent
  software : Evidence
  unassignedDocuments : List Document
  diagnostics : List CorpusDiagnostic

def resolveCorpus {Evidence : Type} (stages : SoftwareStages Evidence)
    (documents : List Document) : Corpus Evidence :=
  let owned := ownDocuments db documents
  let found := stages.run owned.workspaces.values owned.sharedSoftware
  { documents
    workspaces := owned.workspaces.values
    sharedSoftware := owned.sharedSoftware
    software := found.1
    unassignedDocuments := owned.unassigned
    diagnostics := owned.diagnostics ++ duplicateNames db owned ++ found.2 }

/-! ## Files -/

/-- The files of a machine: a path is resolved, and the export at a resolved path parsed. -/
structure ExportFiles where
  resolve : Text → Text
  parse : Text → Document
  parse_path : ∀ path, (parse (resolve path)).sourcePath = resolve path

/-- The set of resolved paths, in one of the orders a set may be iterated in. -/
def Enumerates (files : ExportFiles) (paths order : List Text) : Prop :=
  order.Nodup ∧ ∀ path, path ∈ order ↔ path ∈ paths.map files.resolve

def sortedPaths (order : List Text) : List Text := sortedBy (compareOn db.casefoldText) order

/-- `parse_files(paths)` may answer this corpus. -/
def ParsesTo {Evidence : Type} (stages : SoftwareStages Evidence) (files : ExportFiles)
    (paths : List Text) (corpus : Corpus Evidence) : Prop :=
  ∃ order, Enumerates files paths order ∧
    corpus = resolveCorpus db stages ((sortedPaths db order).map files.parse)

end

end TwinForge.L5X
