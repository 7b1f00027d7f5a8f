import TwinForge.Discovery.PhysicalEntities
import TwinForge.Foundation.Delimiters
import TwinForge.Foundation.Grouping
import TwinForge.Foundation.Walks

/-! # Physical containment is a forest

The walk up the parents of a row is a walk of the function from a row to its container. A
row keeps its edge where its parent is observed and the walk revisits nothing, so that the
edges go in no circle.
-/

namespace TwinForge.Discovery.PhysicalEntities

open Walks List

def containerOf (entities : List SnmpPhysicalEntityObservation) (index : Int) : Option Int :=
  (entities.find? fun entity => entity.index = index).bind
    SnmpPhysicalEntityObservation.container

def indexes (entities : List SnmpPhysicalEntityObservation) : List Int :=
  entities.map SnmpPhysicalEntityObservation.index

variable {entity : SnmpPhysicalEntityObservation} {index : Int}

section Rows

variable {entities : List SnmpPhysicalEntityObservation}

theorem find_index (h : (indexes entities).Nodup) (hentity : entity ∈ entities) :
    entities.find? (fun other => other.index = entity.index) = some entity := by
  induction entities with
  | nil => cases hentity
  | cons first entities ih =>
    have ⟨hfirst, hrest⟩ := nodup_cons.mp h
    rcases mem_cons.mp hentity with rfl | hentity
    · simp
    · have hne : first.index ≠ entity.index := by
        intro heq
        exact hfirst (heq ▸ mem_map_of_mem hentity)
      rw [List.find?_cons_of_neg (by simpa using hne)]
      exact ih hrest hentity

theorem byIndex_get? (h : (indexes entities).Nodup) (index : Int) :
    (byIndex entities).get? index = entities.find? fun entity => entity.index = index := by
  have hentries := @Dictionary.ofItems_entries _ _ _ _ SnmpPhysicalEntityObservation.index id
    entities h
  cases hfind : entities.find? fun entity => entity.index = index with
  | none =>
    cases hget : (byIndex entities).get? index with
    | none => rfl
    | some entity =>
      obtain ⟨other, hother, hindex, -⟩ := Dictionary.ofItems_get? hget
      have hplain := List.find?_eq_none.mp hfind other hother
      simp [hindex] at hplain
  | some entity =>
    have hindex : entity.index = index := by
      have hfound := List.find?_some hfind
      simpa using hfound
    apply (Dictionary.mem_entries_iff _ _ _).mp
    rw [byIndex, hentries, mem_map]
    exact ⟨entity, mem_of_find?_eq_some hfind, by simp [hindex]⟩

theorem containerOf_entity (h : (indexes entities).Nodup)
    (hentity : entity ∈ entities) : containerOf entities entity.index = entity.container := by
  rw [containerOf, find_index h hentity]
  rfl

theorem containerOf_mem {parent : Int} (h : containerOf entities index = some parent) :
    index ∈ indexes entities := by
  rw [containerOf, Option.bind_eq_some_iff] at h
  obtain ⟨entity, hfind, -⟩ := h
  have hindex : entity.index = index := by
    have hfound := List.find?_some hfind
    simpa using hfound
  rw [← hindex]
  exact mem_map_of_mem (mem_of_find?_eq_some hfind)

theorem get?_none_iff (h : (indexes entities).Nodup) :
    (byIndex entities).get? index = none ↔ index ∉ indexes entities := by
  rw [byIndex_get? h, List.find?_eq_none]
  simp [indexes]

/-! ## The walk up the parents -/

/-- Rows that are not there are visited by no walk, so testing for the row first changes
nothing. -/
theorem revisited_eq_walk (h : (indexes entities).Nodup) {fuel : Nat} {visited : List Int}
    {current : Int} (hvisited : ∀ index ∈ visited, index ∈ indexes entities) :
    revisited (byIndex entities) fuel visited current =
      walk (containerOf entities) fuel visited current := by
  induction fuel generalizing visited current with
  | zero => rfl
  | succ fuel ih =>
    rw [revisited, walk, byIndex_get? h, containerOf]
    cases hfind : entities.find? fun entity => entity.index = current with
    | none =>
      have habsent : current ∉ visited := by
        intro hmem
        have hpresent := hvisited current hmem
        exact (get?_none_iff h).mp ((byIndex_get? h current).trans hfind) hpresent
      rw [if_neg habsent]
      rfl
    | some entity =>
      have hindex : current ∈ indexes entities := by
        have hfound := List.find?_some hfind
        have hsame : entity.index = current := by simpa using hfound
        rw [← hsame]
        exact mem_map_of_mem (mem_of_find?_eq_some hfind)
      by_cases hseen : current ∈ visited
      · simp [hseen]
      · simp only [if_neg hseen, Option.bind_some]
        cases entity.container with
        | none => rfl
        | some parent =>
          refine ih fun index hmem => ?_
          rcases mem_cons.mp hmem with rfl | hmem
          · exact hindex
          · exact hvisited index hmem

theorem revisited_ends (h : (indexes entities).Nodup) {fuel : Nat} (hfuel : entities.length < fuel)
    (index : Int) : ∃ found, revisited (byIndex entities) fuel [] index = some found ∧
      (found.isSome = true ↔ Revisits (containerOf entities) index) := by
  have hlength : (indexes entities).length < fuel + ([] : List Int).length := by
    simpa [indexes] using hfuel
  obtain ⟨found, hfound⟩ := @walk_stops _ (containerOf entities) _ (indexes entities)
    (fun _ _ hnext => containerOf_mem hnext) fuel [] index nodup_nil (by simp) hlength
  have hsame := @revisited_eq_walk entities h fuel [] index (by simp)
  exact ⟨found, hsame.trans hfound, walk_spec hfound⟩

/-! ## Issues -/

theorem mem_unique {issues : List SnmpEntityContainmentIssue} (entityIndex : Int) :
    (∃ issue ∈ (Dictionary.ofItems SnmpEntityContainmentIssue.key id issues).values,
      issue.entityIndex = entityIndex) ↔ ∃ issue ∈ issues, issue.entityIndex = entityIndex := by
  constructor
  · rintro ⟨issue, hissue, rfl⟩
    obtain ⟨entry, hentry, rfl⟩ := mem_map.mp hissue
    have hget := (Dictionary.mem_entries_iff _ _ _).mp hentry
    obtain ⟨other, hother, -, hsame⟩ := Dictionary.ofItems_get? hget
    exact ⟨entry.2, hsame ▸ hother, rfl⟩
  · rintro ⟨issue, hissue, rfl⟩
    have hlast := Dictionary.ofItems_last SnmpEntityContainmentIssue.key id issues issue.key
    obtain ⟨found, hget⟩ : ∃ found, (Dictionary.ofItems SnmpEntityContainmentIssue.key id
        issues).get? issue.key = some found := by
      have hmem : issue ∈ issues.filter fun other => other.key = issue.key := by simp [hissue]
      rw [hlast, map_id]
      exact ⟨_, List.getLast?_eq_some_getLast (ne_nil_of_mem hmem)⟩
    obtain ⟨other, -, hkey, hsame⟩ := Dictionary.ofItems_get? hget
    refine ⟨found, mem_map.mpr ⟨(issue.key, found), ?_, rfl⟩, ?_⟩
    · exact (Dictionary.mem_entries_iff _ _ _).mpr hget
    · have hindex := congrArg (fun key => key.2.1) hkey
      rw [← hsame]
      exact hindex

theorem parentIssue_index {indexed : EntitiesByIndex}
    {issue : SnmpEntityContainmentIssue} (h : parentIssue indexed entity = some issue) :
    issue.entityIndex = entity.index := by
  unfold parentIssue at h
  split at h
  · cases h
  split at h
  · cases h
    rfl
  split at h
  · cases h
    rfl
  · cases h

theorem parentIssue_isSome (h : (indexes entities).Nodup)
    {parent : Int} (hparent : entity.container = some parent) :
    (parentIssue (byIndex entities) entity).isSome = true ↔
      parent = entity.index ∨ parent ∉ indexes entities := by
  simp only [parentIssue, hparent]
  split
  · rename_i hself
    simp [hself]
  · rename_i hother
    split
    · rename_i hmissing
      simp [(get?_none_iff h).mp hmissing]
    · rename_i hpresent
      have hmem : parent ∈ indexes entities := by
        by_contra habsent
        exact hpresent ((get?_none_iff h).mpr habsent)
      simp [hother, hmem]

theorem revisits_self (h : containerOf entities index = some index) :
    Revisits (containerOf entities) index :=
  ⟨0, 1, index, by omega, rfl, h⟩

/-- What an issue names a row for: its parent is no row, or the way up revisits one. -/
def Misplaced (entities : List SnmpPhysicalEntityObservation)
    (entity : SnmpPhysicalEntityObservation) : Prop :=
  (∃ parent, entity.container = some parent ∧ parent ∉ indexes entities) ∨
    Revisits (containerOf entities) entity.index

theorem cycles_found (h : (indexes entities).Nodup) : ∃ cycles,
    (entities.mapM fun entity => do
      let found ← revisited (byIndex entities) (entities.length + 1) [] entity.index
      return found.map (cycleIssue entity)) = some cycles ∧
    ∀ index, (∃ issue ∈ cycles.filterMap id, issue.entityIndex = index) ↔
      ∃ entity ∈ entities, entity.index = index ∧ Revisits (containerOf entities) index := by
  -- The walks of some of the rows, each through all of them.
  have hsome : ∀ rows : List SnmpPhysicalEntityObservation, ∃ cycles,
      (rows.mapM fun entity => do
        let found ← revisited (byIndex entities) (entities.length + 1) [] entity.index
        return found.map (cycleIssue entity)) = some cycles ∧
      ∀ index, (∃ issue ∈ cycles.filterMap id, issue.entityIndex = index) ↔
        ∃ entity ∈ rows, entity.index = index ∧ Revisits (containerOf entities) index := by
    intro rows
    induction rows with
    | nil => exact ⟨[], rfl, by simp⟩
    | cons entity rows ih =>
      obtain ⟨cycles, hcycles, hissues⟩ := ih
      obtain ⟨found, hfound, hrevisits⟩ :=
        revisited_ends h (Nat.lt_succ_self entities.length) entity.index
      refine ⟨found.map (cycleIssue entity) :: cycles, ?_, fun index => ?_⟩
      · rw [mapM_cons, hcycles, hfound]
        rfl
      · cases found with
        | none =>
          have hclear : ¬ Revisits (containerOf entities) entity.index := by
            intro hbad
            have hfalse := hrevisits.mpr hbad
            cases hfalse
          have hrest := hissues index
          simp only [Option.map_none, filterMap_cons, id_eq] at hrest ⊢
          rw [hrest]
          constructor
          · rintro ⟨other, hother, hindex⟩
            exact ⟨other, mem_cons_of_mem entity hother, hindex⟩
          · rintro ⟨other, hother, hindex, hbad⟩
            rcases mem_cons.mp hother with rfl | hother
            · rw [← hindex] at hbad
              exact absurd hbad hclear
            · exact ⟨other, hother, hindex, hbad⟩
        | some current =>
          have hrevisited := hrevisits.mp rfl
          have hrest := hissues index
          simp only [Option.map_some, filterMap_cons, id_eq, mem_cons] at hrest ⊢
          constructor
          · rintro ⟨issue, rfl | hissue, hindex⟩
            · have hsame : entity.index = index := hindex
              exact ⟨entity, .inl rfl, hsame, hsame ▸ hrevisited⟩
            · obtain ⟨other, hother, hboth⟩ := hrest.mp ⟨issue, hissue, hindex⟩
              exact ⟨other, .inr hother, hboth⟩
          · rintro ⟨other, rfl | hother, hindex, hbad⟩
            · exact ⟨_, .inl rfl, hindex⟩
            · obtain ⟨issue, hissue, hsame⟩ := hrest.mpr ⟨other, hother, hindex, hbad⟩
              exact ⟨issue, .inr hissue, hsame⟩
  exact hsome entities

theorem validateEntityContainment_spec (h : (indexes entities).Nodup) :
    ∃ issues, validateEntityContainment entities = some issues ∧
      ∀ entity ∈ entities, (∃ issue ∈ issues, issue.entityIndex = entity.index) ↔
        Misplaced entities entity := by
  obtain ⟨cycles, hcycles, hissues⟩ := cycles_found h
  refine ⟨_, by rw [validateEntityContainment, hcycles]; rfl, fun entity hentity => ?_⟩
  have hsorted : ∀ issues : List SnmpEntityContainmentIssue,
      (∃ issue ∈ sortedBy compareIssues issues, issue.entityIndex = entity.index) ↔
        ∃ issue ∈ issues, issue.entityIndex = entity.index := by
    intro issues
    simp
  rw [hsorted, mem_unique]
  constructor
  · rintro ⟨issue, hissue, hindex⟩
    rcases mem_append.mp hissue with hissue | hissue
    · obtain ⟨other, hother, hfound⟩ := mem_filterMap.mp hissue
      have hsame : other = entity := by
        have hequal := (parentIssue_index hfound).symm.trans hindex
        have hfirst := find_index h hother
        rw [hequal, find_index h hentity] at hfirst
        exact (Option.some.inj hfirst).symm
      subst hsame
      cases hparent : other.container with
      | none =>
        rw [parentIssue, hparent] at hfound
        cases hfound
      | some parent =>
        rcases (parentIssue_isSome h hparent).mp (by rw [hfound]; rfl) with hself | hmissing
        · refine .inr (revisits_self ?_)
          rw [containerOf_entity h hother, hparent, hself]
        · exact .inl ⟨parent, hparent, hmissing⟩
    · obtain ⟨other, -, -, hbad⟩ := (hissues entity.index).mp ⟨issue, hissue, hindex⟩
      exact .inr hbad
  · rintro (⟨parent, hparent, hmissing⟩ | hbad)
    · have hsome := (parentIssue_isSome h hparent).mpr (.inr hmissing)
      obtain ⟨issue, hissue⟩ := Option.isSome_iff_exists.mp hsome
      exact ⟨issue, mem_append_left _ (mem_filterMap.mpr ⟨entity, hentity, hissue⟩),
        parentIssue_index hissue⟩
    · obtain ⟨issue, hissue, hindex⟩ := (hissues entity.index).mpr ⟨entity, hentity, rfl, hbad⟩
      exact ⟨issue, mem_append_right _ hissue, hindex⟩

end Rows

/-! ## Keys -/

theorem writeInt_plain (n : Int) : ':' ∉ Json.writeInt n := by
  have hdecimal : ':' ∉ decimal n.natAbs := by
    intro hmem
    have hdigit := Nat.isDigit_of_mem_toDigits (by omega) (by omega) hmem
    cases hdigit
  unfold Json.writeInt
  split
  · intro hmem
    rcases mem_cons.mp hmem with hbad | hmem
    · cases hbad
    · exact hdecimal hmem
  · exact hdecimal

theorem writeInt_injective {m n : Int} (h : Json.writeInt m = Json.writeInt n) : m = n := by
  have hminus : ∀ k : Nat, ∀ rest, decimal k ≠ '-' :: rest := by
    intro k rest hbad
    have hmem : '-' ∈ decimal k := by
      rw [hbad]
      exact mem_cons_self
    have hdigit := Nat.isDigit_of_mem_toDigits (by omega) (by omega) hmem
    cases hdigit
  unfold Json.writeInt at h
  split at h
  · rename_i hm
    split at h
    · rename_i hn
      have habs := decimal_injective (List.cons.inj h).2
      omega
    · exact absurd h.symm (hminus _ _)
  · rename_i hm
    split at h
    · exact absurd h (hminus _ _)
    · rename_i hn
      have habs := decimal_injective h
      omega

theorem physicalAssetKey_injective {first second : Text} {other : Int}
    (h : physicalAssetKey first index = physicalAssetKey second other) :
    first = second ∧ index = other := by
  have hfirst : physicalAssetKey first index =
      (("target:" : Text) ++ first ++ ("|entity" : Text)) ++ ':' :: Json.writeInt index := by
    simp [physicalAssetKey, Text.of]
  have hsecond : physicalAssetKey second other =
      (("target:" : Text) ++ second ++ ("|entity" : Text)) ++ ':' :: Json.writeInt other := by
    simp [physicalAssetKey, Text.of]
  rw [hfirst, hsecond] at h
  obtain ⟨hfront, hback⟩ := Delimiters.last_delimiter (writeInt_plain _) (writeInt_plain _) h
  exact ⟨append_cancel_left (append_cancel_right hfront), writeInt_injective hback⟩

/-! ## Candidates of one node -/

def rowKeys (nodes : List SnmpEntityNode) : List (Text × Int) :=
  nodes.flatMap fun node => (indexes node.physicalEntities).map fun index => (node.target.key, index)

/-- An edge of the result, from a row up to the row that contains it. -/
def Contains (result : SnmpPhysicalCandidateResult) (child parent : Text) : Prop :=
  ∃ edge ∈ result.containments, edge.childAssetKey = child ∧ edge.parentAssetKey = parent

section Nodes

variable {nodes : List SnmpEntityNode} {node : SnmpEntityNode}

theorem node_indexes (h : (rowKeys nodes).Nodup) (hnode : node ∈ nodes) :
    (indexes node.physicalEntities).Nodup :=
  List.Nodup.of_map _ ((nodup_flatMap.mp h).1 node hnode)

theorem node_unique (h : (rowKeys nodes).Nodup) {first second : SnmpEntityNode}
    (hfirst : first ∈ nodes) (hsecond : second ∈ nodes)
    (hkey : first.target.key = second.target.key) (hindex : index ∈ indexes first.physicalEntities)
    (hother : index ∈ indexes second.physicalEntities) : first = second := by
  by_contra hne
  have hpairs := (nodup_flatMap.mp h).2
  have hsymm : Std.Symm (Function.onFun List.Disjoint fun node : SnmpEntityNode =>
      (indexes node.physicalEntities).map fun index => (node.target.key, index)) :=
    ⟨fun _ _ hdisjoint => hdisjoint.symm⟩
  have hdisjoint := hpairs.forall hfirst hsecond hne
  refine hdisjoint (mem_map_of_mem hindex) ?_
  rw [hkey]
  exact mem_map_of_mem hother

/-- What a node contributes: an asset to each row, and an edge to each row in place. -/
structure NodeCandidates (node : SnmpEntityNode) (result : SnmpPhysicalCandidateResult) : Prop where
  assets : result.assets = node.physicalEntities.map (assetCandidate node.target.key)
  containments : ∃ edge : SnmpPhysicalEntityObservation → Option SnmpPhysicalContainmentCandidate,
    result.containments = node.physicalEntities.filterMap edge ∧
    ∀ entity ∈ node.physicalEntities, ∀ candidate, edge entity = some candidate ↔
      ∃ parent, entity.container = some parent ∧ ¬ Misplaced node.physicalEntities entity ∧
        candidate = containmentCandidate node.target.key entity parent
  issues : ∀ entity ∈ node.physicalEntities, Misplaced node.physicalEntities entity →
    ∃ issue ∈ result.issues, issue.observationTarget = node.target.key ∧
      issue.entityIndex = entity.index

theorem correlateNode_spec (h : (indexes node.physicalEntities).Nodup) :
    ∃ result, correlateNode node = some result ∧ NodeCandidates node result := by
  obtain ⟨issues, hissues, hnamed⟩ := validateEntityContainment_spec h
  refine ⟨_, by rw [correlateNode, hissues]; rfl, rfl, ⟨_, rfl, fun entity hentity edge => ?_⟩, ?_⟩
  · have hinvalid : entity.index ∈ issues.map SnmpEntityContainmentIssue.entityIndex ↔
        Misplaced node.physicalEntities entity := by
      rw [← hnamed entity hentity, mem_map]
    unfold containmentOf
    cases hparent : entity.container with
    | none => simp
    | some parent =>
      dsimp only
      by_cases hmisplaced : Misplaced node.physicalEntities entity
      · rw [if_pos (.inl (hinvalid.mpr hmisplaced))]
        simp [hmisplaced]
      · have hpresent : (byIndex node.physicalEntities).get? parent ≠ none := by
          intro habsent
          exact hmisplaced (.inl ⟨parent, hparent, (get?_none_iff h).mp habsent⟩)
        have hplain : ¬ (entity.index ∈ issues.map SnmpEntityContainmentIssue.entityIndex ∨
            (byIndex node.physicalEntities).get? parent = none) := by
          rintro (hbad | habsent)
          · exact hmisplaced (hinvalid.mp hbad)
          · exact hpresent habsent
        rw [if_neg hplain]
        simp [hmisplaced, eq_comm]
  · intro entity hentity hmisplaced
    obtain ⟨issue, hissue, hindex⟩ := (hnamed entity hentity).mpr hmisplaced
    exact ⟨candidateIssue node.target.key issue, mem_map_of_mem hissue, rfl, hindex⟩

theorem mapM_forall₂ {A B : Type} {read : A → Option B} {relation : A → B → Prop} {items : List A}
    (h : ∀ item ∈ items, ∃ result, read item = some result ∧ relation item result) :
    ∃ results, items.mapM read = some results ∧ List.Forall₂ relation items results := by
  induction items with
  | nil => exact ⟨[], rfl, .nil⟩
  | cons item items ih =>
    obtain ⟨result, hread, hrelation⟩ := h item mem_cons_self
    obtain ⟨results, hreads, hrelations⟩ :=
      ih fun other hother => h other (mem_cons_of_mem item hother)
    refine ⟨result :: results, ?_, .cons hrelation hrelations⟩
    rw [mapM_cons, hread, hreads]
    rfl

variable {results : List SnmpPhysicalCandidateResult}

theorem mem_containments
    (h : List.Forall₂ NodeCandidates nodes results) (candidate : SnmpPhysicalContainmentCandidate) :
    candidate ∈ results.flatMap SnmpPhysicalCandidateResult.containments ↔
      ∃ node ∈ nodes, ∃ entity ∈ node.physicalEntities, ∃ parent,
        entity.container = some parent ∧ ¬ Misplaced node.physicalEntities entity ∧
          candidate = containmentCandidate node.target.key entity parent := by
  induction h with
  | nil => simp
  | @cons node result nodes results hnode _ ih =>
    obtain ⟨edge, hedges, hedge⟩ := hnode.containments
    rw [flatMap_cons, mem_append, ih, hedges, mem_filterMap]
    constructor
    · rintro (⟨entity, hentity, hfound⟩ | ⟨other, hother, hrow⟩)
      · exact ⟨node, mem_cons_self, entity, hentity, (hedge entity hentity _).mp hfound⟩
      · exact ⟨other, mem_cons_of_mem node hother, hrow⟩
    · rintro ⟨other, hother, entity, hentity, hrow⟩
      rcases mem_cons.mp hother with rfl | hother
      · exact .inl ⟨entity, hentity, (hedge entity hentity _).mpr hrow⟩
      · exact .inr ⟨other, hother, entity, hentity, hrow⟩

theorem assets_eq (h : List.Forall₂ NodeCandidates nodes results) :
    results.flatMap SnmpPhysicalCandidateResult.assets =
      nodes.flatMap fun node => node.physicalEntities.map (assetCandidate node.target.key) := by
  induction h with
  | nil => rfl
  | cons hnode _ ih => rw [flatMap_cons, flatMap_cons, ih, hnode.assets]

theorem mem_findings (h : List.Forall₂ NodeCandidates nodes results) (hnode : node ∈ nodes)
    (hentity : entity ∈ node.physicalEntities)
    (hmisplaced : Misplaced node.physicalEntities entity) :
    ∃ issue ∈ results.flatMap SnmpPhysicalCandidateResult.issues,
      issue.observationTarget = node.target.key ∧ issue.entityIndex = entity.index := by
  induction h with
  | nil => cases hnode
  | cons hfirst _ ih =>
    rcases mem_cons.mp hnode with rfl | hnode
    · obtain ⟨issue, hissue, hnames⟩ := hfirst.issues entity hentity hmisplaced
      exact ⟨issue, mem_append_left _ hissue, hnames⟩
    · obtain ⟨issue, hissue, hnames⟩ := ih hnode
      exact ⟨issue, mem_append_right _ hissue, hnames⟩

theorem children_sublist (h : List.Forall₂ NodeCandidates nodes results) :
    ((results.flatMap SnmpPhysicalCandidateResult.containments).map
        SnmpPhysicalContainmentCandidate.childAssetKey).Sublist
      ((rowKeys nodes).map fun row => physicalAssetKey row.1 row.2) := by
  induction h with
  | nil => exact List.Sublist.refl _
  | @cons node result nodes results hnode _ ih =>
    obtain ⟨edge, hedges, hedge⟩ := hnode.containments
    rw [flatMap_cons, map_append, rowKeys, flatMap_cons, map_append, hedges]
    refine List.Sublist.append ?_ ih
    have hkeys : ∀ entities : List SnmpPhysicalEntityObservation,
        (∀ entity ∈ entities, entity ∈ node.physicalEntities) →
        ((entities.filterMap edge).map SnmpPhysicalContainmentCandidate.childAssetKey).Sublist
          (((indexes entities).map fun index => (node.target.key, index)).map
            fun row => physicalAssetKey row.1 row.2) := by
      intro entities hmem
      induction entities with
      | nil => exact List.Sublist.refl _
      | cons entity entities ihrows =>
        have hrest := ihrows fun other hother => hmem other (mem_cons_of_mem entity hother)
        cases hfound : edge entity with
        | none =>
          rw [filterMap_cons_none hfound]
          exact hrest.cons _
        | some candidate =>
          have hentity := hmem entity mem_cons_self
          obtain ⟨parent, -, -, rfl⟩ := (hedge entity hentity candidate).mp hfound
          rw [filterMap_cons_some hfound]
          exact hrest.cons_cons _
    exact hkeys node.physicalEntities fun _ hentity => hentity

/-! ## The forest -/

theorem contains_within (h : (rowKeys nodes).Nodup) {edge : Text → Text → Prop}
    (hedge : ∀ child parent, edge child parent → ∃ node ∈ nodes,
      ∃ entity ∈ node.physicalEntities, ∃ container, entity.container = some container ∧
        ¬ Misplaced node.physicalEntities entity ∧
        child = physicalAssetKey node.target.key entity.index ∧
        parent = physicalAssetKey node.target.key container)
    {child parent : Text} (hpath : Relation.TransGen edge child parent) :
    ∃ node ∈ nodes, ∃ first last, child = physicalAssetKey node.target.key first ∧
      parent = physicalAssetKey node.target.key last ∧ last ∈ indexes node.physicalEntities ∧
      Relation.TransGen (fun index other => containerOf node.physicalEntities index = some other ∧
        ¬ Revisits (containerOf node.physicalEntities) index) first last := by
  have hstep : ∀ child parent, edge child parent → ∃ node ∈ nodes, ∃ index container,
      child = physicalAssetKey node.target.key index ∧
      parent = physicalAssetKey node.target.key container ∧
      index ∈ indexes node.physicalEntities ∧ container ∈ indexes node.physicalEntities ∧
      containerOf node.physicalEntities index = some container ∧
      ¬ Revisits (containerOf node.physicalEntities) index := by
    intro child parent hchild
    obtain ⟨node, hnode, entity, hentity, container, hcontainer, hplaced, rfl, rfl⟩ :=
      hedge child parent hchild
    have hpresent : container ∈ indexes node.physicalEntities := by
      by_contra habsent
      exact hplaced (.inl ⟨container, hcontainer, habsent⟩)
    refine ⟨node, hnode, entity.index, container, rfl, rfl, mem_map_of_mem hentity, hpresent,
      ?_, fun hbad => hplaced (.inr hbad)⟩
    rw [containerOf_entity (node_indexes h hnode) hentity, hcontainer]
  induction hpath with
  | single hchild =>
    obtain ⟨node, hnode, index, container, rfl, rfl, -, hpresent, hnext⟩ := hstep _ _ hchild
    exact ⟨node, hnode, index, container, rfl, rfl, hpresent, .single hnext⟩
  | tail _ hlast ih =>
    obtain ⟨node, hnode, first, middle, rfl, hmiddle, hpresent, hpath⟩ := ih
    obtain ⟨other, hother, index, container, hchild, rfl, hindex, hcontainer, hnext⟩ :=
      hstep _ _ hlast
    obtain ⟨hkey, rfl⟩ := physicalAssetKey_injective (hmiddle.symm.trans hchild)
    have hsame := node_unique h hnode hother hkey hpresent hindex
    subst hsame
    exact ⟨node, hnode, first, container, rfl, rfl, hcontainer, hpath.tail hnext⟩

/-- Validation ends for rows of distinct indexes. Over nodes whose rows have distinct keys,
each row becomes one asset and at most one edge, the edges go in no circle, and a row that
names a container has its edge exactly where the container is observed and the way up
revisits nothing; where it has none, an issue names the row. -/
theorem physical_containment_forest :
    (∀ entities, (indexes entities).Nodup →
      ∃ issues, validateEntityContainment entities = some issues) ∧
    ∀ nodes : List SnmpEntityNode, (rowKeys nodes).Nodup →
      ∃ result, correlatePhysicalEntities nodes = some result ∧
        result.assets.Perm (nodes.flatMap fun node =>
          node.physicalEntities.map (assetCandidate node.target.key)) ∧
        (result.assets.map SnmpPhysicalAssetCandidate.key).Nodup ∧
        (result.containments.map SnmpPhysicalContainmentCandidate.childAssetKey).Nodup ∧
        (∀ edge ∈ result.containments, ∃ node ∈ nodes, ∃ entity ∈ node.physicalEntities,
          ∃ parent, entity.container = some parent ∧
            edge = containmentCandidate node.target.key entity parent) ∧
        (∀ key, ¬ Relation.TransGen (Contains result) key key) ∧
        ∀ node ∈ nodes, ∀ entity ∈ node.physicalEntities, ∀ parent,
          entity.container = some parent →
          (containmentCandidate node.target.key entity parent ∈ result.containments ↔
            parent ∈ indexes node.physicalEntities ∧
              ¬ Revisits (containerOf node.physicalEntities) entity.index) ∧
          (containmentCandidate node.target.key entity parent ∉ result.containments →
            ∃ issue ∈ result.issues, issue.observationTarget = node.target.key ∧
              issue.entityIndex = entity.index) := by
  refine ⟨fun entities h => ?_, fun nodes h => ?_⟩
  · obtain ⟨issues, hissues, -⟩ := validateEntityContainment_spec h
    exact ⟨issues, hissues⟩
  obtain ⟨results, hresults, hnodes⟩ :=
    mapM_forall₂ fun node hnode => correlateNode_spec (node_indexes h hnode)
  have hkeys : ((rowKeys nodes).map fun row => physicalAssetKey row.1 row.2).Nodup := by
    refine List.Nodup.map_on ?_ h
    intro first _ second _ hsame
    have hparts := physicalAssetKey_injective hsame
    exact Prod.ext hparts.1 hparts.2
  have hmem : ∀ edge, edge ∈ sortedBy (fun first second => compare first.key second.key)
      (results.flatMap SnmpPhysicalCandidateResult.containments) ↔
        ∃ node ∈ nodes, ∃ entity ∈ node.physicalEntities, ∃ parent,
          entity.container = some parent ∧ ¬ Misplaced node.physicalEntities entity ∧
            edge = containmentCandidate node.target.key entity parent := by
    intro edge
    rw [mem_sortedBy, mem_containments hnodes]
  refine ⟨_, by rw [correlatePhysicalEntities, hresults]; rfl, ?_, ?_, ?_, ?_, ?_, ?_⟩
  · exact (sortedBy_perm _ _).trans (by rw [assets_eq hnodes])
  · have hperm := (sortedBy_perm (fun first second : SnmpPhysicalAssetCandidate =>
      compare first.key second.key) (results.flatMap SnmpPhysicalCandidateResult.assets)).map
        SnmpPhysicalAssetCandidate.key
    refine hperm.nodup_iff.mpr ?_
    have hrows : (results.flatMap SnmpPhysicalCandidateResult.assets).map
        SnmpPhysicalAssetCandidate.key =
          (rowKeys nodes).map fun row => physicalAssetKey row.1 row.2 := by
      rw [assets_eq hnodes, rowKeys, map_flatMap, map_flatMap]
      simp [indexes, Function.comp_def, assetCandidate]
    rw [hrows]
    exact hkeys
  · have hperm := (sortedBy_perm (fun first second : SnmpPhysicalContainmentCandidate =>
      compare first.key second.key) (results.flatMap SnmpPhysicalCandidateResult.containments)).map
        SnmpPhysicalContainmentCandidate.childAssetKey
    exact hperm.nodup_iff.mpr (hkeys.sublist (children_sublist hnodes))
  · intro edge hedge
    obtain ⟨node, hnode, entity, hentity, parent, hparent, -, hsame⟩ := (hmem edge).mp hedge
    exact ⟨node, hnode, entity, hentity, parent, hparent, hsame⟩
  · intro key hcycle
    obtain ⟨node, -, first, last, hfirst, hlast, -, hpath⟩ := contains_within h
      (fun child parent hchild => by
        obtain ⟨edge, hedge, hchild, hparent⟩ := hchild
        obtain ⟨node, hnode, entity, hentity, container, hcontainer, hplaced, rfl⟩ :=
          (hmem edge).mp hedge
        exact ⟨node, hnode, entity, hentity, container, hcontainer, hplaced, hchild.symm,
          hparent.symm⟩) hcycle
    have hsame := (physicalAssetKey_injective (hfirst.symm.trans hlast)).2
    subst hsame
    exact acyclic_of_unvisited (fun _ _ hedge => hedge.1) (fun _ _ hedge => hedge.2) first hpath
  · intro node hnode entity hentity parent hparent
    have hplaced : ¬ Misplaced node.physicalEntities entity ↔
        parent ∈ indexes node.physicalEntities ∧
          ¬ Revisits (containerOf node.physicalEntities) entity.index := by
      rw [Misplaced, not_or]
      simp [hparent]
    have hedge : containmentCandidate node.target.key entity parent ∈
        sortedBy (fun first second => compare first.key second.key)
          (results.flatMap SnmpPhysicalCandidateResult.containments) ↔
        ¬ Misplaced node.physicalEntities entity := by
      rw [hmem]
      constructor
      · rintro ⟨other, hother, row, hrow, container, hcontainer, hclear, hsame⟩
        have hchild := congrArg SnmpPhysicalContainmentCandidate.childAssetKey hsame
        obtain ⟨hkey, hindex⟩ := physicalAssetKey_injective hchild
        have hmember : entity.index ∈ indexes other.physicalEntities := by
          rw [hindex]
          exact mem_map_of_mem hrow
        have hone := node_unique h hnode hother hkey (mem_map_of_mem hentity) hmember
        subst hone
        have hfound := find_index (node_indexes h hnode) hentity
        rw [hindex, find_index (node_indexes h hnode) hrow] at hfound
        rw [← Option.some.inj hfound]
        exact hclear
      · intro hclear
        exact ⟨node, hnode, entity, hentity, parent, hparent, hclear, rfl⟩
    refine ⟨hedge.trans hplaced, fun hnone => ?_⟩
    have hmisplaced : Misplaced node.physicalEntities entity := by
      by_contra hclear
      exact hnone (hedge.mpr hclear)
    obtain ⟨issue, hissue, hnames⟩ := mem_findings hnodes hnode hentity hmisplaced
    exact ⟨issue, mem_sortedBy.mpr hissue, hnames⟩

/-- A module in a rack, and two rows that contain each other. -/
def mixedRows : List SnmpEntityNode :=
  [{ target := { address := "10.0.0.1" }
     physicalEntities :=
       [{ index := 1, containedIn := some 0 }, { index := 2, containedIn := some 1 },
        { index := 3, containedIn := some 4 }, { index := 4, containedIn := some 3 }] }]

theorem mixedRows_forest : ∃ result, correlatePhysicalEntities mixedRows = some result ∧
    ∀ key, ¬ Relation.TransGen (Contains result) key key := by
  obtain ⟨result, hresult, -, -, -, -, hforest, -⟩ :=
    physical_containment_forest.2 mixedRows (by decide)
  exact ⟨result, hresult, hforest⟩

example : (correlatePhysicalEntities mixedRows).map (fun result =>
    (result.assets.length, result.containments.length, result.issues.length)) =
      some (4, 1, 2) := by decide +kernel

end Nodes

end TwinForge.Discovery.PhysicalEntities
