import TwinForge.ModelJson.Assembled

/-! # Nodes of assembled values

The nodes of an assembled value are its own, and then those of its operands in order; it is
validated operand by operand, and unfolds to the tree of the operands' trees.
-/

namespace TwinForge.ModelJson

open List

variable {mappingKey : MapKey → Points}

/-! ## Order of nodes -/

theorem itemNodes_eq (items : List Value) (start : Nat) (position : Position) :
    itemNodes items start position =
      (items.zipIdx start).flatMap fun entry => nodes entry.1 (position ++ [.index entry.2]) := by
  induction items generalizing start with
  | nil => rfl
  | cons item items ih =>
    rw [itemNodes, List.zipIdx_cons, flatMap_cons, ih]

theorem memberNodes_eq (members : Members) (position : Position) :
    memberNodes members position =
      members.flatMap fun member => nodes member.2 (position ++ [.key member.1]) := by
  induction members with
  | nil => rfl
  | cons member members ih =>
    have ⟨key, item⟩ := member
    rw [memberNodes, flatMap_cons, ih]

theorem mem_nodes {value : Value} (hloaded : Loaded value) {position place : Position}
    {node : Value} :
    (place, node) ∈ nodes value position ↔
      ∃ below, place = position ++ below ∧ value.at? below = some node := by
  induction value using Value.descend generalizing position place node with
  | _ value ih =>
    have hstep : ∀ (step : Step) (child : Value), value.child? step = some child →
        ((place, node) ∈ nodes child (position ++ [step]) ↔
          ∃ below, place = position ++ step :: below ∧ child.at? below = some node) := by
      intro step child hchild
      have hat : value.at? [step] = some child := by simp [Value.at?, hchild]
      rw [ih [step] child (by simp) hat (hloaded.below hat)]
      simp
    -- Below the node itself are the nodes of its children.
    have hchildren : ((place, node) ∈ nodes value position ↔
        (place, node) = (position, value) ∨ ∃ step child, value.child? step = some child ∧
          (place, node) ∈ nodes child (position ++ [step])) := by
      cases value with
      | arr items =>
        rw [nodes, mem_cons]
        refine or_congr_right ?_
        simp only [itemNodes_eq, mem_flatMap]
        constructor
        · rintro ⟨entry, hentry, hmember⟩
          exact ⟨.index entry.2, entry.1, mem_zipIdx_iff_getElem?.mp hentry, hmember⟩
        · rintro ⟨step, child, hchild, hmember⟩
          cases step with
          | key name => cases hchild
          | index index =>
            exact ⟨(child, index), mem_zipIdx_iff_getElem?.mpr hchild, hmember⟩
      | obj members =>
        rw [nodes, mem_cons]
        refine or_congr_right ?_
        simp only [memberNodes_eq, mem_flatMap]
        constructor
        · rintro ⟨member, hmember, hplace⟩
          exact ⟨.key member.1, member.2, lookup_of_mem hloaded.nodup hmember, hplace⟩
        · rintro ⟨step, child, hchild, hmember⟩
          cases step with
          | index index => cases hchild
          | key name => exact ⟨(name, child), mem_of_lookup hchild, hmember⟩
      | _ => simp [nodes, Value.child?]
    rw [hchildren]
    constructor
    · rintro (hsame | ⟨step, child, hchild, hmember⟩)
      · cases hsame
        exact ⟨[], by simp, rfl⟩
      · obtain ⟨below, hplace, hnode⟩ := (hstep step child hchild).mp hmember
        refine ⟨step :: below, hplace, ?_⟩
        rw [Value.at?, hchild]
        exact hnode
    · rintro ⟨below, hplace, hnode⟩
      cases below with
      | nil =>
        cases hnode
        exact Or.inl (by rw [hplace, append_nil])
      | cons step below =>
        obtain ⟨child, hchild, hrest⟩ := Option.bind_eq_some_iff.mp hnode
        exact Or.inr ⟨step, child, hchild, (hstep step child hchild).mpr ⟨below, hplace, hrest⟩⟩

def IsReference (value : Value) : Prop :=
  ∃ members, value = .obj members ∧ keysAre members [refKey] = true

/-- The nodes of the operands, each after what stands in front of it. -/
def operandNodes (position : Position) :
    List (List (Position × Value)) → List ((Operand × Position) × Value) → List (Position × Value)
  | _, [] => []
  | [], (child, value) :: rest =>
    nodes value (position ++ child.2) ++ operandNodes position [] rest
  | front :: fronts, (child, value) :: rest =>
    front ++ nodes value (position ++ child.2) ++ operandNodes position fronts rest

theorem operandNodes_plain (position : Position) (list : List ((Operand × Position) × Value)) :
    operandNodes position [] list =
      list.flatMap fun entry => nodes entry.2 (position ++ entry.1.2) := by
  induction list with
  | nil => rfl
  | cons entry list ih => rw [operandNodes, ih, flatMap_cons]

variable {values : List Value}

theorem zipIdx_zip {Item : Type} {items : List Item}
    (hlength : values.length = items.length) (start : Nat) :
    ((items.zipIdx start).zip values).map (fun entry => (entry.2, entry.1.2)) =
      values.zipIdx start := by
  induction items generalizing values start with
  | nil =>
    rw [length_eq_zero_iff.mp hlength]
    rfl
  | cons item items ih =>
    cases values with
    | nil => cases hlength
    | cons value values =>
      rw [List.zipIdx_cons, List.zip_cons_cons, map_cons,
        ih (by simpa using hlength), List.zipIdx_cons]

theorem not_isReference_entryObject (key : MapKey) (value : Value) :
    ¬ IsReference (entryObject key value) := by
  intro ⟨members, hmembers, hkeys⟩
  cases hmembers
  have hmember := (keysAre_mem hkeys).mpr (mem_singleton_self refKey)
  revert hmember
  have hnames : keys [(entryKey, key.encoded.value), (entryValue, value)] =
      [entryKey, entryValue] := rfl
  rw [hnames]
  decide

theorem not_isReference_scalar (value : Scalar) : ¬ IsReference value.value := by
  intro ⟨members, hmembers, _⟩
  cases value <;> cases hmembers

variable {ordered : List (MapKey × Operand)}

theorem entryNodes_eq
    (hlength : values.length = ordered.length) (start : Nat) (position : Position) :
    ∃ fronts, itemNodes (List.zipWith (fun entry value => entryObject entry.1 value) ordered values)
        start (position ++ [.key mapKey]) =
      operandNodes position fronts (((ordered.zipIdx start).map fun entry =>
        (entry.1.2, ([.key mapKey, .index entry.2, .key entryValue] : Position))).zip values) ∧
      ∀ front ∈ fronts, ∀ entry ∈ front, ¬ IsReference entry.2 := by
  induction ordered generalizing values start with
  | nil => exact ⟨[], rfl, by simp⟩
  | cons first ordered ih =>
    cases values with
    | nil => cases hlength
    | cons value values =>
      obtain ⟨fronts, hnodes, hfronts⟩ := ih (by simpa using hlength) (start + 1)
      refine ⟨[(position ++ [.key mapKey] ++ [.index start], entryObject first.1 value),
        (position ++ [.key mapKey] ++ [.index start] ++ [.key entryKey],
          first.1.encoded.value)] :: fronts, ?_, ?_⟩
      · rw [List.zipWith_cons_cons, itemNodes, hnodes]
        have hscalar : ∀ (scalar : Scalar) (place : Position),
            nodes scalar.value place = [(place, scalar.value)] := by
          intro scalar place
          cases scalar <;> rfl
        have hentry : nodes (entryObject first.1 value)
            (position ++ [.key mapKey] ++ [.index start]) =
            [(position ++ [.key mapKey] ++ [.index start], entryObject first.1 value),
              (position ++ [.key mapKey] ++ [.index start] ++ [.key entryKey],
                first.1.encoded.value)] ++
              nodes value (position ++ [.key mapKey, .index start, .key entryValue]) := by
          simp only [entryObject, nodes, memberNodes, hscalar, append_assoc,
            cons_append, nil_append, append_nil]
        rw [hentry]
        rfl
      · intro front hfront entry hentry
        rcases mem_cons.mp hfront with rfl | hlater
        · simp only [mem_cons, not_mem_nil, or_false] at hentry
          rcases hentry with rfl | rfl
          · exact not_isReference_entryObject _ _
          · exact not_isReference_scalar _
        · exact hfronts front hlater entry hentry

/-- The nodes of an assembled value: its own, some that are no references, and those of its
operands in order. -/
theorem nodes_assemble {object : HeapObject} {values : List Value}
    (hlength : values.length = (childrenOf mappingKey object).length) (position : Position) :
    ∃ lead fronts, nodes (assemble mappingKey object values) position =
        (position, assemble mappingKey object values) :: lead ++
          operandNodes position fronts ((childrenOf mappingKey object).zip values) ∧
      (∀ entry ∈ lead, ¬ IsReference entry.2) ∧
      ∀ front ∈ fronts, ∀ entry ∈ front, ¬ IsReference entry.2 := by
  cases object with
  | record type isAsset fields =>
    refine ⟨[(position ++ [.key typeKey], .str type)], [], ?_, ?_, by simp⟩
    · rw [operandNodes_plain]
      simp only [childrenOf, assemble, nodes, memberNodes, memberNodes_eq, List.zip_map_left,
        flatMap_map]
      rfl
    · intro entry hentry
      rw [mem_singleton.mp hentry]
      rintro ⟨members, hmembers, _⟩
      cases hmembers
  | mapping entries =>
    cases hnamed : stringEntries entries with
    | some named =>
      refine ⟨[], [], ?_, by simp, by simp⟩
      rw [operandNodes_plain]
      simp only [childrenOf, assemble, hnamed, nodes, memberNodes_eq, List.zip_map_left,
        flatMap_map]
      rfl
    | none =>
      simp only [childrenOf, hnamed, length_map, length_zipIdx] at hlength
      obtain ⟨fronts, hnodes, hfronts⟩ := entryNodes_eq hlength 0 position
      refine ⟨[(position ++ [.key mapKey], .arr (List.zipWith (fun entry value =>
        entryObject entry.1 value) (orderedEntries mappingKey entries) values))], fronts,
        ?_, ?_, hfronts⟩
      · simp only [childrenOf, assemble, hnamed, nodes, memberNodes, append_nil, hnodes]
        rfl
      · intro entry hentry
        rw [mem_singleton.mp hentry]
        rintro ⟨members, hmembers, _⟩
        cases hmembers
  | sequence items =>
    refine ⟨[], [], ?_, by simp, by simp⟩
    rw [childrenOf, length_map, length_zipIdx] at hlength
    rw [operandNodes_plain]
    simp only [childrenOf, assemble, nodes, itemNodes_eq, ← zipIdx_zip hlength 0,
      List.zip_map_left, flatMap_map]
    rfl

/-! ## Validation -/

def validateAll : List (Value × Points) → List Points → Except ValidationError (List Points)
  | [], paths => .ok paths
  | (value, path) :: rest, paths =>
    match validateNode value path paths with
    | .error error => .error error
    | .ok paths => validateAll rest paths

theorem validateItems_eq (items : List Value) (start : Nat) (path : Points) (paths : List Points) :
    validateItems items start path paths =
      validateAll ((items.zipIdx start).map fun entry => (entry.1, indexPath path entry.2))
        paths := by
  induction items generalizing start paths with
  | nil => rfl
  | cons item items ih =>
    rw [validateItems, List.zipIdx_cons, map_cons, validateAll]
    cases validateNode item (indexPath path start) paths with
    | error error => rfl
    | ok paths' => exact ih (start + 1) paths'

variable {members : Members}

theorem validateMembers_eq (skipped : List Points) (path : Points)
    (paths : List Points) (h : ∀ key ∈ keys members, key ∉ skipped) :
    validateMembers skipped members path paths =
      validateAll (members.map fun member => (member.2, keyPath path member.1)) paths := by
  induction members generalizing paths with
  | nil => rfl
  | cons member members ih =>
    have ⟨key, item⟩ := member
    rw [validateMembers, if_neg (h key mem_cons_self), map_cons, validateAll]
    cases validateNode item (keyPath path key) paths with
    | error error => rfl
    | ok paths' => exact ih paths' fun other hother => h other (mem_cons_of_mem _ hother)

theorem validateNode_scalar (value : Scalar) (path : Points) (paths : List Points) :
    validateNode value.value path paths = .ok paths := by
  cases value <;> simp [Scalar.value, validateNode]

theorem validateEntries_eq (hlength : values.length = ordered.length) (start : Nat) (path : Points)
    (paths : List Points) :
    validateEntries (List.zipWith (fun entry value => entryObject entry.1 value) ordered values)
        start path paths =
      validateAll ((values.zipIdx start).map fun entry =>
        (entry.1, keyPath (indexPath path entry.2) entryValue)) paths := by
  induction ordered generalizing values start paths with
  | nil =>
    rw [length_eq_zero_iff.mp hlength]
    rfl
  | cons first ordered ih =>
    cases values with
    | nil => cases hlength
    | cons value values =>
      have hkeys : keysAre [(entryKey, first.1.encoded.value), (entryValue, value)]
          [entryKey, entryValue] = true := by
        simp [keysAre, keys]
      have hne : ¬ entryKey = entryValue := by decide
      have hlast : ∀ paths, validateMember entryValue
          [(entryKey, first.1.encoded.value), (entryValue, value)] (indexPath path start)
          paths = validateNode value (keyPath (indexPath path start) entryValue) paths := by
        intro paths
        rw [validateMember, if_neg hne, validateMember, if_pos rfl]
      rw [List.zipWith_cons_cons, entryObject, validateEntries, if_pos hkeys, validateMember,
        if_pos rfl, validateNode_scalar, List.zipIdx_cons, map_cons, validateAll]
      show (validateMember entryValue _ _ paths >>= _) = _
      rw [hlast]
      cases validateNode value (keyPath (indexPath path start) entryValue) paths with
      | error error => rfl
      | ok paths' => exact ih (by simpa using hlength) (start + 1) paths'

theorem validateNode_plain (path : Points) (paths : List Points)
    (h : ∀ key ∈ keys members, key ∉ reservedKeys) :
    validateNode (.obj members) path paths =
      validateAll (members.map fun member => (member.2, keyPath path member.1))
        (paths ++ [path]) := by
  have hreserved : reservedKeys.filter (· ∈ keys members) = [] := by
    rw [filter_eq_nil_iff]
    intro key hkey
    simp only [decide_eq_true_eq]
    exact fun hmember => h key hmember hkey
  rw [validateNode, hreserved]
  simp only [if_pos]
  exact validateMembers_eq [] path _ (by simp)

theorem validateNode_typed {type : Points} (path : Points)
    (paths : List Points) (htype : type ≠ []) (h : ∀ key ∈ keys members, key ∉ reservedKeys) :
    validateNode (.obj ((typeKey, .str type) :: members)) path paths =
      validateAll (members.map fun member => (member.2, keyPath path member.1))
        (paths ++ [path]) := by
  have hkeys : keys ((typeKey, .str type) :: members) = typeKey :: keys members := rfl
  have hfree : ∀ key ∈ reservedKeys, key ≠ typeKey →
      decide (key ∈ typeKey :: keys members) = false := by
    intro key hkey hne
    rw [decide_eq_false_iff_not]
    intro hmember
    exact h key ((mem_cons.mp hmember).resolve_left hne) hkey
  have hreserved : reservedKeys.filter (· ∈ typeKey :: keys members) = [typeKey] := by
    rw [reservedKeys, filter_cons_of_neg (by rw [hfree bytesKey (by decide) (by decide)]; simp),
      filter_cons_of_neg (by rw [hfree mapKey (by decide) (by decide)]; simp),
      filter_cons_of_neg (by rw [hfree refKey (by decide) (by decide)]; simp),
      filter_cons_of_pos (by simp)]
    rfl
  have hskip : validateMembers [typeKey] ((typeKey, .str type) :: members) path
      (paths ++ [path]) =
        validateAll (members.map fun member => (member.2, keyPath path member.1))
          (paths ++ [path]) := by
    rw [validateMembers, if_pos (by simp)]
    refine validateMembers_eq [typeKey] path _ fun key hkey hsame => ?_
    rw [mem_singleton.mp hsame] at hkey
    exact h typeKey hkey (by decide)
  have hlookup : ((typeKey, Value.str type) :: members).lookup typeKey = some (.str type) := by
    rw [lookup_cons, if_pos rfl]
  rw [validateNode, hkeys, hreserved]
  simp only [hlookup, show ¬ [typeKey] = ([] : List Points) by decide,
    show ¬ [typeKey] = [refKey] by decide, show ¬ [typeKey] = [bytesKey] by decide,
    show ¬ [typeKey] = [mapKey] by decide, false_and, if_false, ne_eq, not_true_eq_false,
    if_neg htype]
  exact hskip

theorem validateNode_map (entries : List Value) (path : Points) (paths : List Points) :
    validateNode (.obj [(mapKey, .arr entries)]) path paths =
      validateEntries entries 0 (keyPath path mapKey) (paths ++ [path]) := by
  have hkeys : keys [(mapKey, Value.arr entries)] = [mapKey] := rfl
  have hreserved : reservedKeys.filter (· ∈ [mapKey]) = [mapKey] := by decide
  have hall : keysAre [(mapKey, Value.arr entries)] [mapKey] = true := by simp [keysAre, hkeys]
  rw [validateNode, hkeys, hreserved]
  simp only [show ¬ [mapKey] = ([] : List Points) by decide,
    show ¬ [mapKey] = [refKey] by decide, show ¬ [mapKey] = [bytesKey] by decide, hall,
    false_and, if_false, and_self, if_true]
  rw [validateMap, if_pos rfl]

variable {object : HeapObject}

theorem validateNode_assemble (hobject : object.WellFormed)
    (hlength : values.length = (childrenOf mappingKey object).length) (position : Position)
    (paths : List Points) :
    validateNode (assemble mappingKey object values) (pointer position) paths =
      validateAll (((childrenOf mappingKey object).zip values).map fun entry =>
        (entry.2, pointer (position ++ entry.1.2))) (paths ++ [pointer position]) := by
  cases object with
  | record type isAsset fields =>
    have hkept := keptFields_keys hobject
    have hkeys : keys (((keptFields isAsset fields).map Prod.fst).zip values) =
        (keptFields isAsset fields).map Prod.fst :=
      keys_zip (by rw [hlength, childrenOf, length_map, length_map])
    rw [assemble, validateNode_typed _ _ hobject.1 (by rw [hkeys]; exact hkept.2)]
    simp only [childrenOf, List.zip_map_left, map_map, Function.comp_def, pointer_key]
    rfl
  | mapping entries =>
    cases hnamed : stringEntries entries with
    | some named =>
      have hordered := orderedStrings_keys hnamed hobject
      have hkeys : keys (((orderedStrings named).map Prod.fst).zip values) =
          (orderedStrings named).map Prod.fst := by
        simp only [childrenOf, hnamed, length_map] at hlength
        exact keys_zip (by rw [hlength, length_map])
      simp only [assemble, childrenOf, hnamed]
      rw [validateNode_plain _ _ (by rw [hkeys]; exact hordered.2)]
      simp only [List.zip_map_left, map_map, Function.comp_def, pointer_key]
      rfl
    | none =>
      simp only [childrenOf, hnamed, length_map, length_zipIdx] at hlength
      simp only [assemble, childrenOf, hnamed]
      rw [validateNode_map, validateEntries_eq hlength, ← zipIdx_zip hlength 0]
      simp only [List.zip_map_left, map_map, Function.comp_def, pointer_key,
        pointer_index, append_assoc, cons_append, nil_append]
      rfl
  | sequence items =>
    rw [childrenOf, length_map, length_zipIdx] at hlength
    rw [assemble, validateNode, validateItems_eq, ← zipIdx_zip hlength 0]
    simp only [childrenOf, List.zip_map_left, map_map, Function.comp_def, pointer_index]
    rfl

/-! ## Trees of assembled values

An object unfolds to its own head over the trees of its operands, and so does the value that
is assembled for it.
-/

def treeOf (mappingKey : MapKey → Points) (object : HeapObject) (trees : List Tree) : Tree :=
  match object with
  | .record type isAsset fields =>
    .record type (((keptFields isAsset fields).map Prod.fst).zip trees)
  | .mapping entries =>
    match stringEntries entries with
    | some named => .mapping (((orderedStrings named).map fun entry =>
      Scalar.str entry.1).zip trees)
    | none => .mapping (((orderedEntries mappingKey entries).map fun entry =>
      entry.1.encoded).zip trees)
  | .sequence _ => .sequence trees

theorem zip_map_beside {Item Name Child : Type} (name : Item → Name) (child : Item → Child)
    (items : List Item) :
    (items.map name).zip (items.map child) = items.map fun item => (name item, child item) := by
  induction items with
  | nil => rfl
  | cons item items ih => rw [map_cons, map_cons, List.zip_cons_cons, ih, map_cons]

theorem map_zipIdx_fst {Item Child : Type} (child : Item → Child) (items : List Item)
    (start : Nat) : (items.zipIdx start).map (fun entry => child entry.1) = items.map child := by
  have hfst : (items.zipIdx start).map Prod.fst = items := by simp
  calc (items.zipIdx start).map (fun entry => child entry.1)
      = ((items.zipIdx start).map Prod.fst).map child := by rw [map_map]; rfl
    _ = items.map child := by rw [hfst]

theorem unfoldOperand_object {objects : List HeapObject} {identity : Nat}
    (hobject : objects[identity]? = some object) (depth : Nat) :
    unfoldOperand mappingKey objects (depth + 1) (.object identity) =
      treeOf mappingKey object ((childrenOf mappingKey object).map fun child =>
        unfoldOperand mappingKey objects depth child.1) := by
  rw [unfoldOperand]
  simp only [hobject]
  cases object with
  | record type isAsset fields =>
    simp only [treeOf, childrenOf, map_map, Function.comp_def, zip_map_beside]
  | mapping entries =>
    cases hnamed : stringEntries entries with
    | some named =>
      simp only [treeOf, childrenOf, hnamed, map_map, Function.comp_def, zip_map_beside]
    | none =>
      simp only [treeOf, childrenOf, hnamed, map_map, Function.comp_def]
      rw [map_zipIdx_fst (fun entry : MapKey × Operand =>
        unfoldOperand mappingKey objects depth entry.2), zip_map_beside]
  | sequence items =>
    simp only [treeOf, childrenOf, map_map, Function.comp_def]
    rw [map_zipIdx_fst (fun item => unfoldOperand mappingKey objects depth item)]

/-! ### Bytes -/

theorem hexDigit_spec {digit : Nat} (h : digit < 16) :
    Points.hexByteValue (UInt8.ofNat (Nat.digitChar digit).toNat) = some digit ∧
      Points.isHexDigit (.scalar (Nat.digitChar digit)) = true ∧
      CodePoint.scalar (Nat.digitChar digit) ∉ ([.scalar ' ', .scalar '\t', .scalar '\n',
        .scalar '\r', .scalar '\x0b', .scalar '\x0c'] : Points) := by
  have hall : ∀ digit < 16,
      Points.hexByteValue (UInt8.ofNat (Nat.digitChar digit).toNat) = some digit ∧
        Points.isHexDigit (.scalar (Nat.digitChar digit)) = true ∧
        CodePoint.scalar (Nat.digitChar digit) ∉ ([.scalar ' ', .scalar '\t', .scalar '\n',
          .scalar '\r', .scalar '\x0b', .scalar '\x0c'] : Points) := by
    decide
  exact hall digit h

theorem hexOf_eq (byte : UInt8) :
    hexOf byte = [.scalar (Nat.digitChar (byte.toNat / 16)),
      .scalar (Nat.digitChar (byte.toNat % 16))] := rfl

theorem hexPair_hexOf (bytes : List UInt8) : hexPair (bytes.flatMap hexOf) = some bytes := by
  induction bytes with
  | nil => rfl
  | cons byte bytes ih =>
    have hbound : byte.toNat < 256 := byte.toNat_lt
    have hhigh := @hexDigit_spec (byte.toNat / 16) (by omega)
    have hlow := @hexDigit_spec (byte.toNat % 16) (by omega)
    have hbyte : UInt8.ofNat (16 * (byte.toNat / 16) + byte.toNat % 16) = byte := by
      rw [Nat.div_add_mod]
      exact UInt8.ofNat_toNat
    rw [flatMap_cons, hexOf_eq]
    simp only [cons_append, nil_append, hexPair, hhigh.1, hlow.1, ih, hbyte]

theorem isHexText_hexOf (bytes : List UInt8) : isHexText (bytes.flatMap hexOf) = true := by
  induction bytes with
  | nil => rfl
  | cons byte bytes ih =>
    have hbound : byte.toNat < 256 := byte.toNat_lt
    have hhigh := @hexDigit_spec (byte.toNat / 16) (by omega)
    have hlow := @hexDigit_spec (byte.toNat % 16) (by omega)
    rw [flatMap_cons, hexOf_eq]
    simp only [cons_append, nil_append]
    rw [isHexText, if_neg hhigh.2.2]
    simp only [hhigh.2.1, hlow.2.1, ih, Bool.and_self]

theorem validateNode_bytes (bytes : List UInt8) (path : Points) (paths : List Points) :
    validateNode (bytesValue bytes) path paths = .ok paths := by
  have hkeys : keys [(bytesKey, Value.str (bytes.flatMap hexOf))] = [bytesKey] := rfl
  have hreserved : reservedKeys.filter (· ∈ [bytesKey]) = [bytesKey] := by decide
  have hall : keysAre [(bytesKey, Value.str (bytes.flatMap hexOf))] [bytesKey] = true := by
    simp [keysAre, hkeys]
  rw [bytesValue, validateNode, hkeys, hreserved]
  simp only [show ¬ [bytesKey] = ([] : List Points) by decide,
    show ¬ [bytesKey] = [refKey] by decide, hall, false_and, if_false, and_self, if_true,
    lookup_cons, validateBytes, isHexText_hexOf]

/-! ### Values -/

theorem dereference_container {document value : Value} (h : IsContainer value) :
    dereference document value = value := by
  cases value with
  | obj members =>
    rw [dereference, h.1]
    rfl
  | _ => rfl

theorem unfoldNode_scalar (document : Value) (depth : Nat) (value : Scalar) :
    unfoldNode document (depth + 1) value.value = .scalar value := by
  cases value <;> rfl

theorem unfoldNode_bytes (document : Value) (depth : Nat) (bytes : List UInt8) :
    unfoldNode document (depth + 1) (bytesValue bytes) = .bytes bytes := by
  have hkeys : keys [(bytesKey, Value.str (bytes.flatMap hexOf))] = [bytesKey] := rfl
  have href : keysAre [(bytesKey, Value.str (bytes.flatMap hexOf))] [refKey] = false := by
    simp [keysAre, hkeys, show bytesKey ≠ refKey by decide]
  have hbytes : keysAre [(bytesKey, Value.str (bytes.flatMap hexOf))] [bytesKey] = true := by
    simp [keysAre, hkeys]
  rw [unfoldNode, bytesValue, dereference, href]
  simp only [hbytes, if_true, Bool.false_eq_true, if_false, lookup_cons, asText, Option.bind_some,
    hexPair_hexOf]

theorem readEntry_entryObject (key : MapKey) (value : Value) :
    readEntry (entryObject key value) = some (key.encoded, value) := by
  have hscalar : scalarOf key.encoded.value = some key.encoded := by
    cases key.encoded <;> rfl
  simp [readEntry, entryObject, lookup_cons, hscalar, show entryValue ≠ entryKey by decide]

theorem filterMap_readEntry (hlength : values.length = ordered.length) :
    (List.zipWith (fun entry value => entryObject entry.1 value) ordered values).filterMap
      readEntry = (ordered.map fun entry => entry.1.encoded).zip values := by
  induction ordered generalizing values with
  | nil => rfl
  | cons first ordered ih =>
    cases values with
    | nil => cases hlength
    | cons value values =>
      rw [List.zipWith_cons_cons,
        filterMap_cons_some (readEntry_entryObject first.1 value), map_cons,
        List.zip_cons_cons, ih (by simpa using hlength)]

theorem keysAre_false {key : Points} (h : key ∉ keys members) :
    keysAre members [key] = false := by
  cases hkeys : keysAre members [key] with
  | false => rfl
  | true => exact absurd ((keysAre_mem hkeys).mpr (mem_singleton_self key)) h

theorem lookup_absent {key : Points} (h : key ∉ keys members) :
    members.lookup key = none := by
  cases hlookup : members.lookup key with
  | none => rfl
  | some item => exact absurd (key_mem_of_lookup hlookup) h

/-- An assembled value unfolds to the tree of its object over the trees of its operands. -/
theorem unfoldNode_assemble (hobject : object.WellFormed)
    (hlength : values.length = (childrenOf mappingKey object).length) (document : Value)
    (depth : Nat) :
    unfoldNode document (depth + 1) (assemble mappingKey object values) =
      treeOf mappingKey object (values.map (unfoldNode document depth)) := by
  have hcontainer := @assemble_container mappingKey _ _ hobject hlength
  rw [unfoldNode, dereference_container hcontainer]
  cases object with
  | record type isAsset fields =>
    have hkept := keptFields_keys hobject
    have hkeys : keys (((keptFields isAsset fields).map Prod.fst).zip values) =
        (keptFields isAsset fields).map Prod.fst :=
      keys_zip (by rw [hlength, childrenOf, length_map, length_map])
    have hall := assemble_keys hobject hlength rfl
    have hmap : mapKey ∉ keys ((typeKey, Value.str type) ::
        ((keptFields isAsset fields).map Prod.fst).zip values) := by
      intro hmember
      rcases mem_cons.mp hmember with hsame | hlater
      · have hne : mapKey ≠ typeKey := by decide
        exact hne hsame
      · have hkey : mapKey ∈ keys (((keptFields isAsset fields).map Prod.fst).zip values) :=
          hlater
        rw [hkeys] at hkey
        exact hkept.2 mapKey hkey (by decide)
    have hrest : (((keptFields isAsset fields).map Prod.fst).zip values).filter
        (fun member => decide (member.1 ≠ typeKey)) =
          ((keptFields isAsset fields).map Prod.fst).zip values := by
      rw [filter_eq_self]
      intro member hmember
      rw [decide_eq_true_eq]
      intro hsame
      have hkey : typeKey ∈ keys (((keptFields isAsset fields).map Prod.fst).zip values) :=
        mem_map.mpr ⟨member, hmember, hsame⟩
      rw [hkeys] at hkey
      exact hkept.2 typeKey hkey (by decide)
    simp only [assemble, keysAre_false hall.2.2, keysAre_false hmap, Bool.false_eq_true,
      if_false, lookup_cons, if_true, treeOf]
    rw [filter_cons_of_neg (by simp), hrest, List.zip_map_right]
    rfl
  | mapping entries =>
    cases hnamed : stringEntries entries with
    | some named =>
      have hordered := orderedStrings_keys hnamed hobject
      have hkeys : keys (((orderedStrings named).map Prod.fst).zip values) =
          (orderedStrings named).map Prod.fst := by
        simp only [childrenOf, hnamed, length_map] at hlength
        exact keys_zip (by rw [hlength, length_map])
      have hfree : ∀ key ∈ reservedKeys,
          key ∉ keys (((orderedStrings named).map Prod.fst).zip values) := by
        intro key hkey hmember
        rw [hkeys] at hmember
        exact hordered.2 key hmember hkey
      simp only [assemble, hnamed, keysAre_false (hfree bytesKey (by decide)),
        keysAre_false (hfree mapKey (by decide)), Bool.false_eq_true, if_false,
        lookup_absent (hfree typeKey (by decide)), treeOf]
      rw [List.zip_map_right, List.zip_map_left, List.zip_map_left, map_map,
        map_map]
      rfl
    | none =>
      simp only [childrenOf, hnamed, length_map, length_zipIdx] at hlength
      have hkeys : keys [(mapKey, Value.arr (List.zipWith (fun entry value =>
          entryObject entry.1 value) (orderedEntries mappingKey entries) values))] =
            [mapKey] := rfl
      have hbytes : bytesKey ∉ keys [(mapKey, Value.arr (List.zipWith (fun entry value =>
          entryObject entry.1 value) (orderedEntries mappingKey entries) values))] := by
        rw [hkeys]
        decide
      have hmap : keysAre [(mapKey, Value.arr (List.zipWith (fun entry value =>
          entryObject entry.1 value) (orderedEntries mappingKey entries) values))]
            [mapKey] = true := by
        simp [keysAre, hkeys]
      simp only [assemble, hnamed, keysAre_false hbytes, hmap, Bool.false_eq_true, if_false,
        if_true, lookup_cons, filterMap_readEntry hlength, treeOf]
      rw [List.zip_map_right]
      rfl
  | sequence items => rfl

end TwinForge.ModelJson
