import TwinForge.L5X.CorpusOwnership
import TwinForge.L5X.CorpusStages

/-! # The order of the files

The files are sorted by their paths without regard to case. Two paths that this order does not
tell apart keep the order of the set, which is no property of the files.
-/

namespace TwinForge.L5X

open List

variable {db : CharacterDatabase}

variable (db) in
/-- Different files have paths that differ when case is ignored. -/
def CasesDiffer (files : ExportFiles) (paths : List Text) : Prop :=
  ∀ first ∈ paths, ∀ second ∈ paths,
    db.casefoldText (files.resolve first) = db.casefoldText (files.resolve second) →
      files.resolve first = files.resolve second

theorem same_key {key other : Text} : compareOn db.casefoldText key other = .eq ↔
    db.casefoldText key = db.casefoldText other :=
  Std.LawfulEqOrd.compare_eq_iff_eq

theorem sortedPaths_filter (order : List Text) (key : Text) :
    (sortedPaths db order).filter (fun other => db.casefoldText key = db.casefoldText other) =
      order.filter fun other => db.casefoldText key = db.casefoldText other := by
  have hsorted := @filter_sortedBy _ (compareOn db.casefoldText) _ key order
  simp only [same_key] at hsorted
  exact hsorted

variable {files : ExportFiles} {paths : List Text}

theorem parsed_paths {order : List Text} (h : Enumerates files paths order) :
    ((sortedPaths db order).map files.parse).map Document.sourcePath = sortedPaths db order := by
  have hparsed : ∀ path ∈ sortedPaths db order, (files.parse path).sourcePath = path := by
    intro path hpath
    have hmember := (h.2 path).mp (mem_sortedBy.mp hpath)
    obtain ⟨given, -, rfl⟩ := mem_map.mp hmember
    exact files.parse_path given
  rw [map_map]
  exact (map_congr_left hparsed).trans (map_id' _)

theorem enumerates_members {paths' order : List Text}
    (h : Enumerates files paths order) (hmembers : ∀ path, path ∈ paths' ↔ path ∈ paths) :
    Enumerates files paths' order := by
  refine ⟨h.1, ?_⟩
  intro path
  rw [h.2 path, mem_map, mem_map]
  simp only [hmembers]

theorem enumerates_swapped {first second : Text}
    (hfirst : first ∈ paths.map files.resolve) (hsecond : second ∈ paths.map files.resolve)
    (hdifferent : first ≠ second) :
    ∃ rest, Enumerates files paths (first :: second :: rest) ∧
      Enumerates files paths (second :: first :: rest) := by
  let rest := (paths.map files.resolve).dedup.filter fun path => path ≠ first ∧ path ≠ second
  have hrest : ∀ path, path ∈ rest ↔
      path ∈ paths.map files.resolve ∧ path ≠ first ∧ path ≠ second := by
    intro path
    simp only [rest, mem_filter, mem_dedup, decide_eq_true_eq]
  have hnodup : (first :: second :: rest).Nodup := by
    refine nodup_cons.mpr ⟨?_, nodup_cons.mpr ⟨?_, (nodup_dedup _).filter _⟩⟩
    · rw [mem_cons, hrest]
      simp [hdifferent]
    · rw [hrest]
      simp
  have hmembers : ∀ path, path ∈ first :: second :: rest ↔ path ∈ paths.map files.resolve := by
    intro path
    rw [mem_cons, mem_cons, hrest]
    by_cases hequal : path = first
    · simp only [hequal, hfirst, true_or]
    · by_cases hother : path = second
      · simp only [hother, hsecond, true_or, or_true]
      · simp only [hequal, hother, false_or, ne_eq, not_false_eq_true, and_true]
  have hswap := List.Perm.swap second first rest
  refine ⟨rest, ⟨hnodup, hmembers⟩, hswap.nodup_iff.mp hnodup, ?_⟩
  intro path
  rw [← hswap.mem_iff]
  exact hmembers path

theorem corpus_unique {Evidence : Type} {stages : SoftwareStages Evidence}
    {paths' : List Text} (hcases : CasesDiffer db files paths)
    (hmembers : ∀ path, path ∈ paths' ↔ path ∈ paths) {corpus corpus' : Corpus Evidence}
    (h : ParsesTo db stages files paths corpus) (h' : ParsesTo db stages files paths' corpus') :
    corpus = corpus' := by
  obtain ⟨order, horder, rfl⟩ := h
  obtain ⟨order', horder', rfl⟩ := h'
  have hback := enumerates_members horder' fun path => (hmembers path).symm
  have hsame : sortedPaths db order = sortedPaths db order' := by
    refine sortedBy_unique horder.1 hback.1 ?_ ?_
    · intro path
      rw [horder.2, hback.2]
    · intro first hfirst second hsecond hkeys
      obtain ⟨given, hgiven, rfl⟩ := mem_map.mp ((horder.2 first).mp hfirst)
      obtain ⟨other, hother, rfl⟩ := mem_map.mp ((horder.2 second).mp hsecond)
      exact hcases given hgiven other hother (same_key.mp hkeys)
  rw [hsame]

/-- Ownership partitions the documents, and the corpus is one for every order of the paths
exactly when no two of the files have paths equal up to case. -/
theorem corpus_resolved {Evidence : Type} (db : CharacterDatabase)
    (stages : SoftwareStages Evidence) :
    (∀ set : DocumentSet, Owned db set.documents (resolveCorpus db stages set.documents)) ∧
      ∀ files paths, (∀ paths', (∀ path, path ∈ paths' ↔ path ∈ paths) → ∀ corpus corpus',
          ParsesTo db stages files paths corpus → ParsesTo db stages files paths' corpus' →
            corpus = corpus') ↔ CasesDiffer db files paths := by
  refine ⟨corpus_owned stages, ?_⟩
  intro files paths
  constructor
  · intro hone first hfirst second hsecond hkeys
    by_contra hdifferent
    obtain ⟨rest, hforward, hbackward⟩ := enumerates_swapped (mem_map_of_mem hfirst)
      (mem_map_of_mem hsecond) hdifferent
    have hequal := hone paths (fun _ => Iff.rfl) _ _ ⟨_, hforward, rfl⟩ ⟨_, hbackward, rfl⟩
    have hdocuments := congrArg (fun corpus => corpus.documents.map Document.sourcePath) hequal
    simp only [resolveCorpus] at hdocuments
    rw [parsed_paths hforward, parsed_paths hbackward] at hdocuments
    -- The sort is stable, so the first of the two is the one that came first.
    have hgroup := congrArg (List.filter fun other =>
      db.casefoldText (files.resolve first) = db.casefoldText other) hdocuments
    rw [sortedPaths_filter, sortedPaths_filter] at hgroup
    simp only [hkeys, decide_true, filter_cons_of_pos, List.cons.injEq] at hgroup
    exact hdifferent hgroup.1
  · intro hcases paths' hmembers corpus corpus' h h'
    exact corpus_unique hcases hmembers h h'

/-! ## Two files of one name up to case -/

def caseExports : ExportFiles where
  resolve path := path
  parse path := { targetType := .controller, name := path, sourcePath := path }
  parse_path _ := rfl

/-- Controllers without programs. -/
def emptyContents : Calls.Contents where
  target _ := .controller {}
  implementation _ := .other
  programCalls _ _ := []
  programCalls_path _ _ _ h := absurd h not_mem_nil

def emptyStages : SoftwareStages Calls.SoftwareEvidence :=
  Calls.corpusStages Ascii.database emptyContents

def upperPath : Text := "/l5x/Line.L5X"

def lowerPath : Text := "/l5x/line.L5X"

theorem case_exports_reordered :
    ∃ corpus corpus', ParsesTo Ascii.database emptyStages caseExports [upperPath, lowerPath] corpus ∧
      ParsesTo Ascii.database emptyStages caseExports [lowerPath, upperPath] corpus' ∧
        corpus ≠ corpus' := by
  have henumerates : ∀ paths : List Text, paths.Nodup → Enumerates caseExports paths paths := by
    intro paths hnodup
    refine ⟨hnodup, ?_⟩
    intro path
    rw [show caseExports.resolve = id from rfl, map_id]
  have hdiffer : sortedPaths Ascii.database [upperPath, lowerPath] ≠
      sortedPaths Ascii.database [lowerPath, upperPath] := by
    decide +kernel
  have hforward := henumerates [upperPath, lowerPath] (by decide)
  have hbackward := henumerates [lowerPath, upperPath] (by decide)
  refine ⟨_, _, ⟨_, hforward, rfl⟩, ⟨_, hbackward, rfl⟩, ?_⟩
  intro hequal
  have hpaths := congrArg (fun corpus => corpus.documents.map Document.sourcePath) hequal
  simp only [resolveCorpus] at hpaths
  rw [parsed_paths hforward, parsed_paths hbackward] at hpaths
  exact hdiffer hpaths

end TwinForge.L5X
