import TwinForge.ModelJson.EncoderRuns

/-! # The contract of the encoder

Every graph is written, whatever it shares and whatever cycles it has. The document passes
validation, every reference in it names a container in front of it that encodes the same
object, and to every depth the document unfolds as the graph does.
-/

namespace TwinForge.ModelJson

open List

variable (mappingKey : MapKey → Points) (objects : List HeapObject) (root : Nat)

/-! ## Nodes and objects -/

/-- The operand of the graph that is encoded at a position. -/
inductive Encoded : Position → Operand → Prop
  | root : Encoded [.key documentKey] (.object root)
  | child {position : Position} {identity : Nat} {object : HeapObject}
      {child : Operand × Position} : Encoded position (.object identity) →
      objects[identity]? = some object → child ∈ childrenOf mappingKey object →
      Encoded (position ++ child.2) child.1

/-- A reference that names a container among the nodes in front of it, where the object is
encoded that the reference stands for. -/
def NamesEarlier (front : List (Position × Value)) (place : Position) (reference : Value) : Prop :=
  ∃ first container identity, reference = refValue (pointer first) ∧
    (first, container) ∈ front ∧ IsContainer container ∧
    Encoded mappingKey objects root place (.object identity) ∧
    Encoded mappingKey objects root first (.object identity)

/-- Every reference among the nodes names an earlier one. -/
def RefersBack (front : List (Position × Value)) : List (Position × Value) → Prop
  | [] => True
  | entry :: rest =>
    (IsReference entry.2 → NamesEarlier mappingKey objects root front entry.1 entry.2) ∧
      RefersBack (front ++ [entry]) rest

/-- The value is what the operand is written as: a reference by the path of the table, any
other object by the values of its operands. -/
inductive Written (table : Seen) : Operand → Value → Prop
  | plain {operand : Operand} {value : Value} : WrittenPlain operand value →
      Written table operand value
  | again {identity : Nat} {path : Points} : table.get? identity = some path →
      Written table (.object identity) (refValue path)
  | enter {identity : Nat} {object : HeapObject} {values : List Value} :
      objects[identity]? = some object →
      values.length = (childrenOf mappingKey object).length →
      (∀ (place : Nat) (child : Operand × Position) (value : Value),
        (childrenOf mappingKey object)[place]? = some child → values[place]? = some value →
          Written table child.1 value) →
      Written table (.object identity) (assemble mappingKey object values)

/-- The container is what the object is written as when it is met first. -/
def Entered (table : Seen) (identity : Nat) (container : Value) : Prop :=
  ∃ object values, objects[identity]? = some object ∧
    values.length = (childrenOf mappingKey object).length ∧
    (∀ (place : Nat) (child : Operand × Position) (value : Value),
      (childrenOf mappingKey object)[place]? = some child → values[place]? = some value →
        Written mappingKey objects table child.1 value) ∧
    container = assemble mappingKey object values

/-- The objects met have their containers among the nodes. -/
def Known (table : Seen) (front : List (Position × Value)) (seen : Seen) : Prop :=
  ∀ identity path, seen.get? identity = some path → ∃ first container,
    (first, container) ∈ front ∧ pointer first = path ∧
    Encoded mappingKey objects root first (.object identity) ∧
    Entered mappingKey objects table identity container

def Extends (seen table : Seen) : Prop :=
  ∀ identity path, seen.get? identity = some path → table.get? identity = some path

/-- What a run does: it only adds to the objects met, and under the paths met at the end
every value is as written and every reference names an earlier node. -/
structure RunOf (table : Seen) (operand : Operand) (position : Position) (seen : Seen)
    (value : Value) (seen' : Seen) : Prop where
  grows : Extends seen seen'
  written : Extends seen' table → Written mappingKey objects table operand value
  refers : Extends seen' table → Encoded mappingKey objects root position operand →
    ∀ front, Known mappingKey objects root table front seen →
      RefersBack mappingKey objects root front (nodes value position) ∧
        Known mappingKey objects root table (front ++ nodes value position) seen'

structure RunOfAll (table : Seen) (position : Position) (children : List (Operand × Position))
    (seen : Seen) (values : List Value) (seen' : Seen) : Prop where
  grows : Extends seen seen'
  written : Extends seen' table → ∀ (place : Nat) (child : Operand × Position) (value : Value),
    children[place]? = some child → values[place]? = some value →
      Written mappingKey objects table child.1 value
  refers : Extends seen' table →
    (∀ child ∈ children, Encoded mappingKey objects root (position ++ child.2) child.1) →
    ∀ fronts : List (List (Position × Value)),
      (∀ front ∈ fronts, ∀ entry ∈ front, ¬ IsReference entry.2) →
      ∀ front, Known mappingKey objects root table front seen →
        RefersBack mappingKey objects root front
            (operandNodes position fronts (children.zip values)) ∧
          Known mappingKey objects root table
            (front ++ operandNodes position fronts (children.zip values)) seen'

variable {mappingKey objects root}

theorem refersBack_append {front first second : List (Position × Value)} :
    RefersBack mappingKey objects root front (first ++ second) ↔
      RefersBack mappingKey objects root front first ∧
        RefersBack mappingKey objects root (front ++ first) second := by
  induction first generalizing front with
  | nil => simp [RefersBack]
  | cons entry first ih =>
    rw [cons_append, RefersBack, RefersBack, ih, and_assoc, append_assoc]
    rfl

theorem refersBack_plain {front list : List (Position × Value)}
    (h : ∀ entry ∈ list, ¬ IsReference entry.2) :
    RefersBack mappingKey objects root front list := by
  induction list generalizing front with
  | nil => trivial
  | cons entry list ih =>
    exact ⟨fun hreference => absurd hreference (h entry mem_cons_self),
      ih fun other hother => h other (mem_cons_of_mem _ hother)⟩

theorem Known.append {table seen : Seen} {front : List (Position × Value)}
    (h : Known mappingKey objects root table front seen) (list : List (Position × Value)) :
    Known mappingKey objects root table (front ++ list) seen := by
  intro identity path hpath
  obtain ⟨first, container, hmember, hrest⟩ := h identity path hpath
  exact ⟨first, container, mem_append_left _ hmember, hrest⟩

variable {value : Value}

theorem not_isReference_container (h : IsContainer value) : ¬ IsReference value := by
  intro ⟨members, hmembers, hkeys⟩
  subst hmembers
  rw [h.1] at hkeys
  cases hkeys

theorem Entered.container (hobjects : ∀ object ∈ objects, object.WellFormed) {table : Seen}
    {identity : Nat} {container : Value}
    (h : Entered mappingKey objects table identity container) : IsContainer container := by
  obtain ⟨object, values, hobject, hlength, -, rfl⟩ := h
  exact assemble_container (hobjects object (mem_of_getElem? hobject)) hlength

/-! ## Runs -/

theorem nodes_plain {operand : Operand} (h : WrittenPlain operand value) (position : Position) :
    ∀ entry ∈ nodes value position, ¬ IsReference entry.2 := by
  have hscalar : ∀ scalar : Scalar, ∀ entry ∈ nodes scalar.value position,
      ¬ IsReference entry.2 := by
    intro scalar entry hentry
    have hnodes : nodes scalar.value position = [(position, scalar.value)] := by
      cases scalar <;> rfl
    rw [hnodes] at hentry
    rw [mem_singleton.mp hentry]
    exact not_isReference_scalar scalar
  cases h with
  | scalar value => exact hscalar value
  | member value => exact hscalar value
  | path posix => exact hscalar (.str posix)
  | bytes bytes =>
    intro entry hentry
    have hnodes : nodes (bytesValue bytes) position = [(position, bytesValue bytes),
        (position ++ [.key bytesKey], .str (bytes.flatMap hexOf))] := rfl
    rw [hnodes, mem_cons, mem_singleton] at hentry
    rcases hentry with rfl | rfl
    · intro ⟨members, hmembers, hkeys⟩
      cases hmembers
      have href : refKey ∈ [bytesKey] := (keysAre_mem hkeys).mpr (mem_singleton_self refKey)
      revert href
      decide
    · exact not_isReference_scalar (.str _)

theorem runOf_again {table seen : Seen} {identity : Nat} {path : Points} (position : Position)
    (hobjects : ∀ object ∈ objects, object.WellFormed) (hseen : seen.get? identity = some path) :
    RunOf mappingKey objects root table
      (.object identity) position seen (refValue path) seen := by
  refine ⟨fun _ _ h => h, fun htable => .again (htable identity path hseen), ?_⟩
  intro _ hencoded front hknown
  obtain ⟨first, container, hmember, hpath, hfirst, hentered⟩ := hknown identity path hseen
  have hnodes : nodes (refValue path) position =
      [(position, refValue path), (position ++ [.key refKey], .str path)] := rfl
  have hstr : ¬ IsReference (.str path) := not_isReference_scalar (.str path)
  refine ⟨?_, hknown.append _⟩
  rw [hnodes]
  refine ⟨fun _ => ?_, fun hreference => absurd hreference hstr, trivial⟩
  exact ⟨first, container, identity, by rw [hpath], hmember, hentered.container hobjects,
    hencoded, hfirst⟩

variable {position : Position}

theorem runOf_enter {table seen seen' : Seen} {identity : Nat} {object : HeapObject}
    {values : List Value} (hobjects : ∀ object ∈ objects, object.WellFormed)
    (hseen : seen.get? identity = none) (hobject : objects[identity]? = some object)
    (hlength : values.length = (childrenOf mappingKey object).length)
    (hvalues : RunOfAll mappingKey objects root table position (childrenOf mappingKey object)
      (seen.set identity (pointer position)) values seen') :
    RunOf mappingKey objects root table (.object identity) position seen
      (assemble mappingKey object values) seen' := by
  have hset : Extends seen (seen.set identity (pointer position)) := by
    intro other path hpath
    rw [Dictionary.get?_set, if_neg]
    · exact hpath
    · intro hsame
      rw [hsame, hseen] at hpath
      cases hpath
  refine ⟨fun other path hpath => hvalues.grows other path (hset other path hpath),
    fun htable => .enter hobject hlength (hvalues.written htable), ?_⟩
  intro htable hencoded front hknown
  obtain ⟨lead, fronts, hnodes, hlead, hfronts⟩ :=
    @nodes_assemble mappingKey _ _ hlength position
  have hentered : Entered mappingKey objects table identity (assemble mappingKey object values) :=
    ⟨object, values, hobject, hlength, hvalues.written htable, rfl⟩
  -- In front of the operands stands the container itself.
  have hknown' : Known mappingKey objects root table
      (front ++ (position, assemble mappingKey object values) :: lead)
      (seen.set identity (pointer position)) := by
    intro other path hpath
    rw [Dictionary.get?_set] at hpath
    split at hpath
    · rename_i hsame
      cases hpath
      subst hsame
      exact ⟨position, _, by simp, rfl, hencoded, hentered⟩
    · exact hknown.append _ other path hpath
  have hheads : ∀ entry ∈ (position, assemble mappingKey object values) :: lead,
      ¬ IsReference entry.2 := by
    intro entry hentry
    rcases mem_cons.mp hentry with rfl | hlater
    · exact not_isReference_container (hentered.container hobjects)
    · exact hlead entry hlater
  have hchildren : ∀ child ∈ childrenOf mappingKey object,
      Encoded mappingKey objects root (position ++ child.2) child.1 :=
    fun child hchild => .child hencoded hobject hchild
  have hrest := hvalues.refers htable hchildren fronts hfronts _ hknown'
  rw [hnodes, refersBack_append, ← append_assoc]
  exact ⟨⟨refersBack_plain hheads, hrest.1⟩, hrest.2⟩

theorem runOfAll_nil {table : Seen} (position : Position) (seen : Seen) :
    RunOfAll mappingKey objects root table position [] seen [] seen := by
  refine ⟨fun _ _ h => h, fun _ place child value hchild => by simp at hchild, ?_⟩
  intro _ _ fronts _ front hknown
  have hnone : operandNodes position fronts (([] : List (Operand × Position)).zip []) = [] := by
    cases fronts <;> rfl
  rw [hnone]
  exact ⟨trivial, hknown.append []⟩

theorem runOfAll_cons {table seen seen' seen'' : Seen} {child : Operand × Position}
    {children : List (Operand × Position)} {values : List Value}
    (hvalue : RunOf mappingKey objects root table child.1 (position ++ child.2) seen value seen')
    (hvalues : RunOfAll mappingKey objects root table position children seen' values seen'') :
    RunOfAll mappingKey objects root table position (child :: children) seen (value :: values)
      seen'' := by
  refine ⟨fun other path hpath => hvalues.grows other path (hvalue.grows other path hpath), ?_, ?_⟩
  · intro htable place found item hfound hitem
    cases place with
    | zero =>
      cases hfound
      cases hitem
      exact hvalue.written fun other path hpath => htable other path (hvalues.grows _ _ hpath)
    | succ place => exact hvalues.written htable place found item hfound hitem
  · intro htable hchildren fronts hfronts front hknown
    have htable' : Extends seen' table :=
      fun other path hpath => htable other path (hvalues.grows _ _ hpath)
    have hrest := hvalues.refers htable
      (fun other hother => hchildren other (mem_cons_of_mem _ hother))
    rw [List.zip_cons_cons]
    cases fronts with
    | nil =>
      have hfirst := hvalue.refers htable' (hchildren child mem_cons_self) front hknown
      have hlater := hrest [] (by simp) _ hfirst.2
      rw [operandNodes, refersBack_append, ← append_assoc]
      exact ⟨⟨hfirst.1, hlater.1⟩, hlater.2⟩
    | cons lead fronts =>
      have hlead := hfronts lead mem_cons_self
      have hfirst := hvalue.refers htable' (hchildren child mem_cons_self) (front ++ lead)
        (hknown.append lead)
      have hlater := hrest fronts
        (fun other hother => hfronts other (mem_cons_of_mem _ hother)) _ hfirst.2
      rw [operandNodes, refersBack_append, refersBack_append]
      rw [append_assoc front] at hlater
      refine ⟨⟨⟨refersBack_plain hlead, hfirst.1⟩, hlater.1⟩, ?_⟩
      simpa only [append_assoc] using hlater.2

theorem encode_runOf (hobjects : ∀ object ∈ objects, object.WellFormed) (table : Seen) {fuel : Nat}
    {operand : Operand} {seen seen' : Seen}
    (h : encode mappingKey objects fuel operand (pointer position) seen = some (value, seen')) :
    RunOf mappingKey objects root table operand position seen value seen' := by
  refine encode_induct (RunOf mappingKey objects root table)
    (RunOfAll mappingKey objects root table) ?_ ?_ ?_ runOfAll_nil ?_ h
  · intro operand value position seen hplain
    refine ⟨fun _ _ h => h, fun _ => .plain hplain, fun _ _ front hknown => ?_⟩
    exact ⟨refersBack_plain (nodes_plain hplain position), hknown.append _⟩
  · intro identity path position seen hseen
    exact runOf_again position hobjects hseen
  · intro identity object position seen values seen' hseen hobject hlength hvalues
    exact runOf_enter hobjects hseen hobject hlength hvalues
  · intro position child children seen value seen' values seen'' hvalue hvalues
    exact runOfAll_cons hvalue hvalues

/-! ## Unfolding -/

section

variable {table : Seen} {document : Value}

theorem unfoldNode_entered {identity : Nat} {container : Value} {depth : Nat}
    (hobjects : ∀ object ∈ objects, object.WellFormed)
    (hentered : Entered mappingKey objects table identity container)
    (ih : ∀ operand value, Written mappingKey objects table operand value →
      unfoldNode document depth value = unfoldOperand mappingKey objects depth operand) :
    unfoldNode document (depth + 1) container =
      unfoldOperand mappingKey objects (depth + 1) (.object identity) := by
  obtain ⟨object, values, hobject, hlength, hwritten, rfl⟩ := hentered
  rw [unfoldNode_assemble (hobjects object (mem_of_getElem? hobject)) hlength,
    unfoldOperand_object hobject]
  have htrees : values.map (unfoldNode document depth) =
      (childrenOf mappingKey object).map fun child =>
        unfoldOperand mappingKey objects depth child.1 := by
    apply ext_getElem?
    intro place
    rw [List.getElem?_map, List.getElem?_map]
    by_cases hplace : place < values.length
    · have hvalue := List.getElem?_eq_getElem hplace
      have hchild := List.getElem?_eq_getElem (hlength ▸ hplace)
      rw [hvalue, hchild, Option.map_some, Option.map_some,
        ih _ _ (hwritten place _ _ hchild hvalue)]
    · rw [List.getElem?_eq_none (by omega), List.getElem?_eq_none (by omega)]
      rfl
  rw [htrees]

theorem unfoldNode_ref {path : Points} {container : Value} {depth : Nat}
    (hnode : nodeNamed document path = some container) (hcontainer : IsContainer container) :
    unfoldNode document (depth + 1) (refValue path) =
      unfoldNode document (depth + 1) container := by
  have hkeys : keysAre [(refKey, Value.str path)] [refKey] = true := by simp [keysAre, keys]
  have hreference : dereference document (refValue path) = container := by
    rw [refValue, dereference, hkeys]
    simp only [if_true, lookup_cons, hnode, Option.getD_some]
  rw [unfoldNode, unfoldNode, hreference, dereference_container hcontainer]

theorem unfoldNode_written (hobjects : ∀ object ∈ objects, object.WellFormed)
    (htable : ∀ identity path, table.get? identity = some path → ∃ container,
      nodeNamed document path = some container ∧
        Entered mappingKey objects table identity container) (depth : Nat) {operand : Operand}
    (h : Written mappingKey objects table operand value) :
    unfoldNode document depth value = unfoldOperand mappingKey objects depth operand := by
  induction depth generalizing operand value with
  | zero => rfl
  | succ depth ih =>
    have ih' : ∀ operand value, Written mappingKey objects table operand value →
        unfoldNode document depth value = unfoldOperand mappingKey objects depth operand :=
      fun _ _ hwritten => ih hwritten
    cases h with
    | plain hplain =>
      cases hplain with
      | scalar value => exact unfoldNode_scalar document depth value
      | member value => exact unfoldNode_scalar document depth value
      | path posix => rfl
      | bytes bytes => exact unfoldNode_bytes document depth bytes
    | again hpath =>
      obtain ⟨container, hnode, hentered⟩ := htable _ _ hpath
      rw [unfoldNode_ref hnode (hentered.container hobjects)]
      exact unfoldNode_entered hobjects hentered ih'
    | enter hobject hlength hwritten =>
      exact unfoldNode_entered hobjects ⟨_, _, hobject, hlength, hwritten, rfl⟩ ih'

end

/-! ## Documents -/

theorem distinctKeys_documentWith {root : Value} (h : distinctKeys root = true) :
    distinctKeys (documentWith root) = true := by
  have hnames : keys [(schemaVersionKey, Value.str (Points.of "1.0")),
      (sourceFormatKey, .str (Points.of "l5x")), (documentKey, root)] =
        [schemaVersionKey, sourceFormatKey, documentKey] := rfl
  have hnodup : [schemaVersionKey, sourceFormatKey, documentKey].Nodup := by decide
  simp only [documentWith, distinctKeys, hnames, decide_eq_true hnodup, distinctMembers, h,
    Bool.and_self]

theorem nodes_documentWith (root : Value) :
    nodes (documentWith root) [] =
      [([], documentWith root), ([.key schemaVersionKey], .str (Points.of "1.0")),
        ([.key sourceFormatKey], .str (Points.of "l5x"))] ++ nodes root [.key documentKey] := by
  simp [documentWith, nodes, memberNodes]

theorem nodeNamed_of_mem {document container : Value} {first : Position}
    (hloaded : Loaded document) (h : (first, container) ∈ nodes document []) :
    nodeNamed document (pointer first) = some container := by
  have hplaced : ∀ entry ∈ nodes document [], document.at? entry.1 = some entry.2 := by
    intro entry hentry
    obtain ⟨below, hbelow, hnode⟩ := (mem_nodes hloaded).mp hentry
    rw [hbelow]
    exact hnode
  cases hfound : (nodes document []).find? fun entry => pointer entry.1 = pointer first with
  | none =>
    have hnone := List.find?_eq_none.mp hfound (first, container) h
    simp at hnone
  | some entry =>
    have hentry := hplaced entry (mem_of_find?_eq_some hfound)
    have hfirst := hplaced (first, container) h
    have hpointer : pointer entry.1 = pointer first := by
      simpa using List.find?_some hfound
    have hsame : entry.1 = first := by
      apply @pointer_injective document _ _ _ _ hpointer
      · rw [hentry]
        rfl
      · rw [hfirst]
        rfl
    rw [hsame, hfirst] at hentry
    rw [nodeNamed, hfound, Option.map_some, Option.some.injEq]
    exact (Option.some.inj hentry).symm

theorem validateModelJson_documentWith {root : Value} {paths : List Points}
    (hroot : validateNode root (pointer [.key documentKey]) [] = .ok paths)
    (hrecord : isDocumentRecord root = true) :
    validateModelJson (documentWith root) = .ok () := by
  have hkeys : keysAre [(schemaVersionKey, Value.str (Points.of "1.0")),
      (sourceFormatKey, .str (Points.of "l5x")), (documentKey, root)]
        [schemaVersionKey, sourceFormatKey, documentKey] = true := by
    simp [keysAre, keys]
  have hpath : keyPath (Points.of "#") documentKey = pointer [.key documentKey] := by
    decide
  have hversion : sourceFormatKey ≠ schemaVersionKey := by decide
  have hdocument : documentKey ≠ schemaVersionKey ∧ documentKey ≠ sourceFormatKey := by decide
  simp only [documentWith, validateModelJson, hkeys, lookup_cons, if_true, hversion,
    hdocument.1, hdocument.2, if_false, isText, hpath, hroot, hrecord, decide_true,
    not_true_eq_false]

theorem not_isReference_documentWith (root : Value) : ¬ IsReference (documentWith root) := by
  intro ⟨members, hmembers, hkeys⟩
  cases hmembers
  have href : refKey ∈ [schemaVersionKey, sourceFormatKey, documentKey] :=
    (keysAre_mem hkeys).mpr (mem_singleton_self refKey)
  revert href
  decide

theorem isDocumentRecord_root {identity fuel : Nat} {type : Points} {isAsset : Bool}
    {fields : List (Points × Operand)} {seen' : Seen}
    (hroot : objects[identity]? = some (.record type isAsset fields))
    (htype : isDocumentType type = true)
    (h : encode mappingKey objects fuel (.object identity) (pointer position) {} =
      some (value, seen')) : isDocumentRecord value = true := by
  have hseen : ({} : Seen).get? identity = none := rfl
  cases fuel with
  | zero =>
    rw [encode_stuck hseen (Or.inl rfl)] at h
    cases h
  | succ fuel =>
    rw [encode_enter hseen hroot, encodeObject_eq] at h
    obtain ⟨⟨values, last⟩, -, hassembled⟩ := Option.map_eq_some_iff.mp h
    cases hassembled
    simp only [assemble, isDocumentRecord, lookup_cons, if_true]
    exact htype

/-- The encoder ends on every graph, and keeps it: its document passes validation, refers
back to containers of the same objects only, and unfolds to the tree of the graph. -/
theorem export_keeps_graph (mappingKey : MapKey → Points) (graph : DocumentGraph) :
    ∃ document root, export? mappingKey graph = some document ∧
      validateModelJson document = .ok () ∧
      RefersBack mappingKey graph.objects graph.root [] (nodes document []) ∧
      document.at? [.key documentKey] = some root ∧
      ∀ depth, unfoldNode document depth root =
        unfoldOperand mappingKey graph.objects depth (.object graph.root) := by
  obtain ⟨type, isAsset, fields, hroot, htype⟩ := graph.rootDocument
  have hpath : keyPath (Points.of "#") documentKey = pointer [.key documentKey] := by
    decide
  have hbound : graph.root < graph.objects.length := (List.getElem?_eq_some_iff.mp hroot).1
  have hclosed : ∀ object ∈ graph.objects, ∀ operand ∈ object.operands,
      Closed graph.objects operand := by
    intro object hobject operand hoperand identity hidentity
    subst hidentity
    exact graph.closed object hobject identity hoperand
  -- The run ends.
  obtain ⟨value, seen', hrun, -⟩ := @encode_ends mappingKey _ hclosed
    graph.objects.length (.object graph.root) [.key documentKey] {}
    (fun identity hidentity => by cases hidentity; exact hbound)
    (by
      calc (unseen graph.objects {}).card
          ≤ (Finset.range graph.objects.length).card := Finset.card_filter_le _ _
        _ = graph.objects.length := Finset.card_range _)
  have hdocument : export? mappingKey graph = some (documentWith value) := by
    rw [export?, hpath, hrun]
    rfl
  have hloaded : Loaded (documentWith value) :=
    loaded_of_distinctKeys (distinctKeys_documentWith
      (encode_distinctKeys graph.wellFormed hrun))
  have hrunOf : RunOf mappingKey graph.objects graph.root seen' (.object graph.root)
      [.key documentKey] {} value seen' := encode_runOf graph.wellFormed seen' hrun
  have hwritten := hrunOf.written fun _ _ h => h
  have hnothing : ∀ front, Known mappingKey graph.objects graph.root seen' front {} := by
    intro front identity path hseen
    cases hseen
  have hrefers := hrunOf.refers (fun _ _ h => h) .root
    [([], documentWith value), ([.key schemaVersionKey], .str (Points.of "1.0")),
      ([.key sourceFormatKey], .str (Points.of "l5x"))] (hnothing _)
  rw [← nodes_documentWith] at hrefers
  refine ⟨documentWith value, value, hdocument, ?_, ?_, ?_, ?_⟩
  · have hempty : Validated {} [] := by
      intro identity path hseen
      cases hseen
    obtain ⟨paths, hpaths, -⟩ := encode_valid graph.wellFormed hrun (by simp) hempty
    exact validateModelJson_documentWith hpaths (isDocumentRecord_root hroot htype hrun)
  · rw [nodes_documentWith, refersBack_append]
    refine ⟨refersBack_plain ?_, hrefers.1⟩
    intro entry hentry
    simp only [mem_cons, not_mem_nil, or_false] at hentry
    rcases hentry with rfl | rfl | rfl
    · exact not_isReference_documentWith value
    · exact not_isReference_scalar (.str _)
    · exact not_isReference_scalar (.str _)
  · have hversion : documentKey ≠ schemaVersionKey ∧ documentKey ≠ sourceFormatKey := by decide
    simp only [documentWith, Value.at?, Value.child?, lookup_cons, if_neg hversion.1,
      if_neg hversion.2, if_true, Option.bind_some]
  · intro depth
    refine unfoldNode_written graph.wellFormed ?_ depth hwritten
    intro identity path hseen
    obtain ⟨first, container, hmember, rfl, -, hentered⟩ := hrefers.2 identity path hseen
    exact ⟨container, nodeNamed_of_mem hloaded hmember, hentered⟩

end TwinForge.ModelJson
