import TwinForge.Eds.CipInfrastructure

/-! # The assessment of EDS paths

The decoder accepts exactly the byte strings made of the six supported segments. An
assessment ends with an error where a path item is no byte, or where an Assembly path names
the instance zero; otherwise each connection adds one diagnostic or its candidates.
-/

namespace TwinForge.Eds

open Guards List

/-! ## Supported segments -/

inductive SegmentForm : EdsLogicalSegmentType → Nat → List UInt8 → Prop where
  | shortClass (value : UInt8) : SegmentForm .classSegment value.toNat [0x20, value]
  | longClass (pad low high : UInt8) :
      SegmentForm .classSegment (low.toNat + 256 * high.toNat) [0x21, pad, low, high]
  | shortInstance (value : UInt8) : SegmentForm .instanceSegment value.toNat [0x24, value]
  | longInstance (pad low high : UInt8) :
      SegmentForm .instanceSegment (low.toNat + 256 * high.toNat) [0x25, pad, low, high]
  | shortPoint (value : UInt8) : SegmentForm .connectionPoint value.toNat [0x2C, value]
  | longPoint (pad low high : UInt8) :
      SegmentForm .connectionPoint (low.toNat + 256 * high.toNat) [0x2D, pad, low, high]

/-- The segments of the bytes from an offset on, each with its own bytes. -/
inductive Decodes : Nat → List EdsLogicalPathSegment → List UInt8 → Prop where
  | nil {offset : Nat} : Decodes offset [] []
  | cons {offset value : Nat} {segmentType : EdsLogicalSegmentType} {encoded rest : List UInt8}
      {segments : List EdsLogicalPathSegment} (form : SegmentForm segmentType value encoded)
      (more : Decodes (offset + encoded.length) segments rest) :
      Decodes offset ({ segmentType, value, offset, encodedHex := hexText encoded } :: segments)
        (encoded ++ rest)

theorem segmentForm_iff {segmentType : EdsLogicalSegmentType} {value : Nat} {code : UInt8}
    {tail : List UInt8} :
    SegmentForm segmentType value (code :: tail) ↔ ∃ width pad,
      segmentDefinition code = some (segmentType, width, pad) ∧ tail.length = pad + width ∧
        value = littleEndian (tail.drop pad) := by
  constructor
  · intro h
    cases h with
    | shortClass | shortInstance | shortPoint => exact ⟨1, 0, rfl, rfl, by simp [littleEndian]⟩
    | longClass | longInstance | longPoint => exact ⟨2, 1, rfl, rfl, by simp [littleEndian]⟩
  · intro ⟨width, pad, hdefinition, hlength, hvalue⟩
    have hone : ∀ {tail : List UInt8}, tail.length = 0 + 1 → ∃ byte, tail = [byte] :=
      length_eq_one_iff.mp
    have hthree : ∀ {tail : List UInt8}, tail.length = 1 + 2 →
        ∃ pad low high, tail = [pad, low, high] := length_eq_three.mp
    unfold segmentDefinition at hdefinition
    split at hdefinition
    · next hcode =>
      cases hdefinition
      have ⟨byte, htail⟩ := hone hlength
      rw [hcode, hvalue, htail]
      exact .shortClass byte
    split at hdefinition
    · next hcode =>
      cases hdefinition
      have ⟨pad, low, high, htail⟩ := hthree hlength
      rw [hcode, hvalue, htail]
      exact .longClass pad low high
    split at hdefinition
    · next hcode =>
      cases hdefinition
      have ⟨byte, htail⟩ := hone hlength
      rw [hcode, hvalue, htail]
      exact .shortInstance byte
    split at hdefinition
    · next hcode =>
      cases hdefinition
      have ⟨pad, low, high, htail⟩ := hthree hlength
      rw [hcode, hvalue, htail]
      exact .longInstance pad low high
    split at hdefinition
    · next hcode =>
      cases hdefinition
      have ⟨byte, htail⟩ := hone hlength
      rw [hcode, hvalue, htail]
      exact .shortPoint byte
    split at hdefinition
    · next hcode =>
      cases hdefinition
      have ⟨pad, low, high, htail⟩ := hthree hlength
      rw [hcode, hvalue, htail]
      exact .longPoint pad low high
    cases hdefinition

theorem SegmentForm.encoded_cons {segmentType : EdsLogicalSegmentType} {value : Nat}
    {encoded : List UInt8} (h : SegmentForm segmentType value encoded) :
    ∃ code tail, encoded = code :: tail := by
  cases h <;> exact ⟨_, _, rfl⟩

variable {offset : Nat} {segments : List EdsLogicalPathSegment}

theorem decodes_nil :
    Decodes offset segments [] ↔ segments = [] := by
  constructor
  · intro h
    generalize hpath : ([] : List UInt8) = path at h
    cases h with
    | nil => rfl
    | cons form _ =>
      have ⟨_, _, hencoded⟩ := form.encoded_cons
      rw [hencoded] at hpath
      cases hpath
  · intro h
    rw [h]
    exact .nil

theorem decodes_cons {code : UInt8} {rest : List UInt8}
    :
    Decodes offset segments (code :: rest) ↔ ∃ segmentType width pad more,
      segmentDefinition code = some (segmentType, width, pad) ∧ pad + width ≤ rest.length ∧
      Decodes (offset + 1 + pad + width) more (rest.drop (pad + width)) ∧
      segments = { segmentType, value := littleEndian ((rest.take (pad + width)).drop pad), offset
                   encodedHex := hexText (code :: rest.take (pad + width)) } :: more := by
  constructor
  · intro h
    generalize hpath : code :: rest = path at h
    cases h with
    | nil => cases hpath
    | @cons _ value segmentType encoded after more form hmore =>
      have ⟨first, tail, hencoded⟩ := form.encoded_cons
      rw [hencoded] at form hpath hmore ⊢
      have ⟨hcode, hrest⟩ := List.cons.inj hpath
      have ⟨width, pad, hdefinition, hlength, hvalue⟩ := segmentForm_iff.mp form
      have htake : rest.take (pad + width) = tail := by
        rw [hrest, ← hlength]
        simp
      have hdrop : rest.drop (pad + width) = after := by
        rw [hrest, ← hlength]
        simp
      refine ⟨segmentType, width, pad, more, hcode ▸ hdefinition, ?_, ?_, ?_⟩
      · rw [hrest, append_eq, length_append]
        omega
      · have hoffset : offset + 1 + pad + width = offset + (first :: tail).length := by
          rw [length_cons]
          omega
        rw [hdrop, hoffset]
        exact hmore
      · rw [htake, hvalue, hcode]
  · intro ⟨segmentType, width, pad, more, hdefinition, hlength, hmore, hsegments⟩
    have hform : SegmentForm segmentType (littleEndian ((rest.take (pad + width)).drop pad))
        (code :: rest.take (pad + width)) :=
      segmentForm_iff.mpr ⟨width, pad, hdefinition, by rw [length_take]; omega, rfl⟩
    have hpath : code :: rest = (code :: rest.take (pad + width)) ++ rest.drop (pad + width) := by
      rw [cons_append, take_append_drop]
    rw [hsegments, hpath]
    refine .cons hform ?_
    have hoffset : offset + (code :: rest.take (pad + width)).length =
        offset + 1 + pad + width := by
      rw [length_cons, length_take]
      omega
    rw [hoffset]
    exact hmore

/-- The decoder accepts the segments of the six forms, one after the other, and nothing else. -/
theorem decodeFrom_eq_ok {path : List UInt8} :
    decodeFrom offset path = .ok segments ↔ Decodes offset segments path := by
  induction offset, path using decodeFrom.induct generalizing segments with
  | case1 offset =>
    rw [decodeFrom, decodes_nil, Except.ok.injEq, eq_comm]
  | case2 offset code rest hunsupported =>
    rw [decodeFrom, hunsupported, decodes_cons]
    simp only [hunsupported]
    simp
  | case3 offset code rest segmentType width pad hdefinition hshort =>
    rw [decodeFrom, hdefinition, decodes_cons]
    simp only [hdefinition, hshort, if_true]
    constructor
    · intro h
      cases h
    · intro ⟨_, _, _, _, hsame, hlength, _⟩
      cases hsame
      omega
  | case4 offset code rest segmentType width pad hdefinition hlong ih =>
    rw [decodeFrom, hdefinition, decodes_cons]
    simp only [hlong, if_false, bind_eq_ok, pure_eq_ok, ih]
    constructor
    · intro ⟨more, hmore, hsegments⟩
      exact ⟨segmentType, width, pad, more, hdefinition, by omega, hmore, hsegments.symm⟩
    · intro ⟨_, _, _, more, hsame, _, hmore, hsegments⟩
      rw [hdefinition] at hsame
      cases hsame
      exact ⟨more, hmore, hsegments.symm⟩

theorem decodeEdsLogicalPath_eq_ok {path : List UInt8} :
    decodeEdsLogicalPath path = .ok segments ↔ Decodes 0 segments path :=
  decodeFrom_eq_ok

/-! ## Contributions of connections -/

section

variable (db : CharacterDatabase)

def AreBytes (items : List Int) : Prop := ∀ item ∈ items, 0 ≤ item ∧ item < 256

def itemBytes (items : List Int) : List UInt8 := items.map (fun item => UInt8.ofNat item.toNat)

/-- The items of the path are bytes, and an Assembly path has no instance zero. -/
def Assessable (connection : EdsConnection) : Prop :=
  ∀ items, connection.path = some items → AreBytes items ∧
    ∀ segments, Decodes 0 segments (itemBytes items) → isAssemblyPath segments = true →
      ∀ segment ∈ segments, isInstanceSegment segment = true → segment.value ≠ 0

/-- What a connection adds: one diagnostic, or the candidates of its path. -/
inductive Contributes (connection : EdsConnection) :
    List EdsCipInfrastructureCandidate × List EdsCipInfrastructureDiagnostic → Prop where
  | diagnosed {diagnostic : EdsCipInfrastructureDiagnostic}
      (reference : diagnostic.connectionReference = connection.reference) :
      Contributes connection ([], [diagnostic])
  | candidates {items : List Int} {segments : List EdsLogicalPathSegment}
      {found : List EdsCipInfrastructureCandidate} (path : connection.path = some items)
      (bytes : AreBytes items) (decodes : Decodes 0 segments (itemBytes items))
      (each : List.Forall₂ (fun segment candidate =>
          candidate.connectionReference = connection.reference ∧
          candidate.request.instanceId = segment.value ∧
          candidate.segmentType = segment.segmentType)
        (segments.filter isInstanceSegment) found) : Contributes connection (found, [])

variable {db}

theorem bytesOf_eq_ok {items : List Int} {bytes : List UInt8} :
    bytesOf items = .ok bytes ↔ AreBytes items ∧ bytes = itemBytes items := by
  simp only [bytesOf, bind_eq_ok, refuse_eq_ok, exists_unit, pure_eq_ok, AreBytes, not_exists,
    not_and, Classical.not_imp, not_not, itemBytes, @eq_comm _ _ bytes]

theorem validate_eq_ok {request next : CipInfrastructureReadRequest} :
    request.validate db = .ok next ↔ request.instanceId ≠ 0 ∧
      (request.specificationReference ≠ [] ∧
        request.specificationReference = db.strip request.specificationReference) ∧
      (∀ purpose ∈ request.purpose, purpose ≠ [] ∧ purpose = db.strip purpose) ∧
      request.attributeId ≠ 0 ∧ next = request := by
  simp only [CipInfrastructureReadRequest.validate, bind_eq_ok, refuse_eq_ok, exists_unit,
    pure_eq_ok, not_exists, not_and, not_or, not_not, ne_eq, @eq_comm _ _ next]

theorem solid_letter {c : Char} (hascii : c.toNat < 128) (h : Ascii.isSpace c = false) :
    db.isSpace c = false :=
  (db.space_ascii c hascii).trans h

/-- A reference between a letter and a number is trimmed. -/
theorem strip_numbered (db : CharacterDatabase) (middle : Text) (n : Nat) :
    db.strip (('E' :: middle) ++ decimal n) = ('E' :: middle) ++ decimal n := by
  have hsome : decimal n ≠ [] := Nat.toDigits_ne_nil
  refine strip_edges ⟨'E', by simp, solid_letter (by decide) rfl⟩ ⟨(decimal n).getLast hsome, ?_, ?_⟩
  · rw [List.getLast?_append_of_ne_nil _ hsome, Option.mem_def, List.getLast?_eq_some_getLast hsome]
  · exact decimal_solid n _ (List.getLast_mem hsome)

theorem candidateAt_eq_ok {sourcePath : Text} {connection : EdsConnection}
    {entry : EdsLogicalPathSegment × Nat} {candidate : EdsCipInfrastructureCandidate} :
    candidateAt db sourcePath connection entry = .ok candidate → entry.1.value ≠ 0 ∧
      candidate.connectionReference = connection.reference ∧
      candidate.request.instanceId = entry.1.value ∧
      candidate.segmentType = entry.1.segmentType := by
  simp only [candidateAt, bind_eq_ok, pure_eq_ok, validate_eq_ok]
  intro ⟨request, ⟨hinstance, _, _, _, hrequest⟩, hcandidate⟩
  rw [← hcandidate, hrequest]
  exact ⟨hinstance, rfl, rfl, rfl⟩

theorem exists_candidateAt (db : CharacterDatabase) (sourcePath : Text) (connection : EdsConnection)
    {entry : EdsLogicalPathSegment × Nat} (h : entry.1.value ≠ 0) :
    ∃ candidate, candidateAt db sourcePath connection entry = .ok candidate := by
  have hpurpose : db.strip "read EDS-declared Assembly instance data" =
      "read EDS-declared Assembly instance data" :=
    strip_edges ⟨'r', rfl, solid_letter (by decide) rfl⟩ ⟨'a', rfl, solid_letter (by decide) rfl⟩
  have hspecification := strip_numbered db (("DS " : Text) ++ sourcePath ++
    ("; " : Text) ++ connection.reference ++ (" path segment " : Text)) (entry.2 + 1)
  simp only [candidateAt, bind_eq_ok, pure_eq_ok, validate_eq_ok]
  refine ⟨_, _, ⟨h, ⟨?_, hspecification.symm⟩, ?_, by decide, rfl⟩, rfl⟩
  · exact cons_ne_nil 'E' _
  · intro purpose hmem
    cases hmem
    exact ⟨by decide, hpurpose.symm⟩

/-! ## Steps -/

theorem mem_zipIdx_segments :
    (∀ entry ∈ (segments.filter isInstanceSegment).zipIdx, entry.1.value ≠ 0) ↔
      ∀ segment ∈ segments, isInstanceSegment segment = true → segment.value ≠ 0 := by
  constructor
  · intro h segment hsegment hinstance
    have hmem : segment ∈ segments.filter isInstanceSegment :=
      mem_filter.mpr ⟨hsegment, hinstance⟩
    rw [← List.zipIdx_map_fst 0 (segments.filter isInstanceSegment)] at hmem
    have ⟨entry, hentry, hsame⟩ := mem_map.mp hmem
    exact hsame ▸ h entry hentry
  · intro h entry hentry
    have hmem := mem_map_of_mem (f := Prod.fst) hentry
    rw [List.zipIdx_map_fst] at hmem
    have ⟨hsegment, hinstance⟩ := mem_filter.mp hmem
    exact h entry.1 hsegment hinstance

/-- The decoded segments of a path of bytes are assessed, unless an Assembly path names the
instance zero. -/
theorem exists_assessSegments (db : CharacterDatabase) (assessment : EdsCipInfrastructureAssessment)
    (connection : EdsConnection) {items : List Int} (hbytes : AreBytes items)
    (segments : List EdsLogicalPathSegment) :
    (∃ next, assessSegments db assessment connection items segments = .ok next) ↔
      (isAssemblyPath segments = true →
        ∀ segment ∈ segments, isInstanceSegment segment = true → segment.value ≠ 0) := by
  unfold assessSegments
  simp only
  by_cases hassembly : isAssemblyPath segments = true
  · simp only [hassembly, if_true, bind_eq_ok, pure_eq_ok, forall_const, ← mem_zipIdx_segments]
    constructor
    · intro ⟨_, candidates, hcandidates, _⟩ entry hentry
      have ⟨_, hcandidate⟩ := exists_mapM_eq_ok.mp ⟨_, hcandidates⟩ entry hentry
      exact (candidateAt_eq_ok hcandidate).1
    · intro h
      have ⟨candidates, hcandidates⟩ := exists_mapM_eq_ok.mpr fun entry hentry =>
        exists_candidateAt db assessment.sourcePath connection (h entry hentry)
      exact ⟨_, candidates, hcandidates, rfl⟩
  · have hother : isAssemblyPath segments = false := by simpa using hassembly
    simp only [hother, Bool.false_eq_true, if_false, bind_eq_ok, pure_eq_ok, bytesOf_eq_ok]
    exact iff_of_true ⟨_, _, ⟨hbytes, rfl⟩, rfl⟩ nofun

theorem exists_assessConnection (db : CharacterDatabase)
    (assessment : EdsCipInfrastructureAssessment) (connection : EdsConnection) :
    (∃ next, assessConnection db assessment connection = .ok next) ↔ Assessable connection := by
  unfold assessConnection Assessable
  cases hpath : connection.path with
  | none => exact iff_of_true ⟨_, rfl⟩ nofun
  | some items =>
    have hone : ∀ {property : List Int → Prop},
        (∀ other, some items = some other → property other) ↔ property items := by
      intro property
      constructor
      · exact fun h => h items rfl
      · intro h other hsame
        cases hsame
        exact h
    rw [hone]
    simp only
    by_cases hbytes : AreBytes items
    · have hitems : bytesOf items = .ok (itemBytes items) := bytesOf_eq_ok.mpr ⟨hbytes, rfl⟩
      rw [and_iff_right hbytes, hitems]
      have hbind : (Except.ok (itemBytes items) >>= decodeEdsLogicalPath) =
          decodeEdsLogicalPath (itemBytes items) := rfl
      rw [hbind]
      cases hdecoded : decodeEdsLogicalPath (itemBytes items) with
      | error message =>
        refine iff_of_true ⟨_, rfl⟩ fun segments hsegments => ?_
        rw [decodeEdsLogicalPath_eq_ok.mpr hsegments] at hdecoded
        cases hdecoded
      | ok segments =>
        simp only
        rw [exists_assessSegments db assessment connection hbytes]
        have hsegments := decodeEdsLogicalPath_eq_ok.mp hdecoded
        constructor
        · intro h other hother
          rw [decodeEdsLogicalPath_eq_ok.mpr hother] at hdecoded
          cases hdecoded
          exact h
        · exact fun h => h segments hsegments
    · refine iff_of_false ?_ fun h => hbytes h.1
      have herror : ∃ message, bytesOf items = .error message := by
        cases hresult : bytesOf items with
        | error message => exact ⟨message, rfl⟩
        | ok bytes => exact absurd (bytesOf_eq_ok.mp hresult).1 hbytes
      have ⟨message, hmessage⟩ := herror
      rw [hmessage]
      intro ⟨_, h⟩
      cases h

theorem assessConnection_adds {assessment next : EdsCipInfrastructureAssessment}
    {connection : EdsConnection} (h : assessConnection db assessment connection = .ok next) :
    ∃ contribution, Contributes connection contribution ∧
      next.candidates = assessment.candidates ++ contribution.1 ∧
      next.diagnostics = assessment.diagnostics ++ contribution.2 := by
  unfold assessConnection at h
  cases hpath : connection.path with
  | none =>
    rw [hpath] at h
    cases h
    exact ⟨_, .diagnosed rfl, (append_nil _).symm, rfl⟩
  | some items =>
    rw [hpath] at h
    simp only at h
    split at h
    · next segments hsegments =>
      have ⟨bytes, hbytes, hdecoded⟩ := bind_eq_ok.mp hsegments
      have ⟨hare, hsame⟩ := bytesOf_eq_ok.mp hbytes
      rw [hsame] at hdecoded
      unfold assessSegments at h
      simp only at h
      split at h
      · simp only [bind_eq_ok, pure_eq_ok] at h
        have ⟨candidates, hcandidates, hnext⟩ := h
        rw [← hnext]
        have heach : List.Forall₂ (fun segment candidate =>
            candidate.connectionReference = connection.reference ∧
            candidate.request.instanceId = segment.value ∧
            candidate.segmentType = segment.segmentType)
            (segments.filter isInstanceSegment) candidates := by
          rw [← List.zipIdx_map_fst 0 (segments.filter isInstanceSegment),
            forall₂_map_left_iff]
          exact (mapM_eq_ok.mp hcandidates).imp fun _ _ hentry => (candidateAt_eq_ok hentry).2
        exact ⟨(candidates, []), .candidates hpath hare (decodeEdsLogicalPath_eq_ok.mp hdecoded)
          heach, rfl, (append_nil _).symm⟩
      · simp only [bind_eq_ok, pure_eq_ok] at h
        have ⟨_, _, hnext⟩ := h
        rw [← hnext]
        exact ⟨_, .diagnosed rfl, (append_nil _).symm, rfl⟩
    · simp only [bind_eq_ok, pure_eq_ok] at h
      have ⟨_, _, hnext⟩ := h
      rw [← hnext]
      exact ⟨_, .diagnosed rfl, (append_nil _).symm, rfl⟩

end

/-! ## Documents -/

section

variable (db : CharacterDatabase)

def parsedDocument (sourcePath : Text) (connections : List EdsConnection) : EdsDocument where
  sourcePath := sourcePath
  connections := connections.map (fun connection =>
    { connection with path := connectionPath db connection.pathText })

/-- The document is assessed, and each connection adds one diagnostic or its candidates; the
decoder accepts the supported segments and nothing else. -/
def PathsAssessed (document : EdsDocument) : Prop :=
  (∃ assessment contributions, assessEdsCipInfrastructure db document = .ok assessment ∧
    List.Forall₂ Contributes document.connections contributions ∧
    assessment.candidates = contributions.flatMap (·.1) ∧
    assessment.diagnostics = contributions.flatMap (·.2)) ∧
  ∀ path segments, decodeEdsLogicalPath path = .ok segments ↔ Decodes 0 segments path

variable {db}

theorem assess_adds {connections : List EdsConnection}
    {assessment next : EdsCipInfrastructureAssessment}
    (h : connections.foldlM (assessConnection db) assessment = .ok next) :
    ∃ contributions, List.Forall₂ Contributes connections contributions ∧
      next.candidates = assessment.candidates ++ contributions.flatMap (·.1) ∧
      next.diagnostics = assessment.diagnostics ++ contributions.flatMap (·.2) := by
  induction connections generalizing assessment with
  | nil =>
    have hsame : assessment = next := by simpa using h
    exact ⟨[], .nil, by rw [hsame]; simp, by rw [hsame]; simp⟩
  | cons connection connections ih =>
    have ⟨middle, hfirst, hrest⟩ := foldlM_cons_ok.mp h
    have ⟨contribution, hcontributes, hcandidates, hdiagnostics⟩ := assessConnection_adds hfirst
    have ⟨contributions, hmore, hmoreCandidates, hmoreDiagnostics⟩ := ih hrest
    refine ⟨contribution :: contributions, .cons hcontributes hmore, ?_, ?_⟩
    · rw [hmoreCandidates, hcandidates, flatMap_cons, append_assoc]
    · rw [hmoreDiagnostics, hdiagnostics, flatMap_cons, append_assoc]

theorem exists_assess (db : CharacterDatabase) {connections : List EdsConnection}
    (assessment : EdsCipInfrastructureAssessment) :
    (∃ next, connections.foldlM (assessConnection db) assessment = .ok next) ↔
      ∀ connection ∈ connections, Assessable connection := by
  induction connections generalizing assessment with
  | nil => exact iff_of_true ⟨assessment, rfl⟩ (by simp)
  | cons connection connections ih =>
    simp only [foldlM_cons_ok, forall_mem_cons]
    constructor
    · intro ⟨next, middle, hfirst, hrest⟩
      exact ⟨(exists_assessConnection db assessment connection).mp ⟨middle, hfirst⟩,
        (ih middle).mp ⟨next, hrest⟩⟩
    · intro ⟨hfirst, hrest⟩
      have ⟨middle, hmiddle⟩ := (exists_assessConnection db assessment connection).mpr hfirst
      have ⟨next, hnext⟩ := (ih middle).mpr hrest
      exact ⟨next, middle, hmiddle, hnext⟩

end

/-- A document is assessed exactly when every path is made of bytes and no Assembly path
names the instance zero. -/
theorem pathsAssessed_iff (db : CharacterDatabase) (sourcePath : Text)
    (connections : List EdsConnection) :
    PathsAssessed db (parsedDocument db sourcePath connections) ↔
      ∀ connection ∈ (parsedDocument db sourcePath connections).connections,
        Assessable connection := by
  rw [← exists_assess db { sourcePath }]
  constructor
  · intro ⟨⟨assessment, _, h, _⟩, _⟩
    exact ⟨assessment, h⟩
  · intro ⟨assessment, h⟩
    have ⟨contributions, hcontributes, hcandidates, hdiagnostics⟩ := assess_adds h
    exact ⟨⟨assessment, contributions, h, hcontributes, hcandidates, hdiagnostics⟩,
      fun _ _ => decodeEdsLogicalPath_eq_ok⟩

/-- A path item over 255 is no byte, also while the error is reported. -/
theorem pathsAssessed_wide : ¬ ∀ (sourcePath : Text) (connections : List EdsConnection),
    PathsAssessed Ascii.database (parsedDocument Ascii.database sourcePath connections) := by
  intro hall
  have ⟨⟨assessment, _, hassessed, _⟩, _⟩ := hall "device.eds"
    [{ reference := "Connection1", path := none, pathText := some "100 24 01" }]
  have herror : assessEdsCipInfrastructure Ascii.database (parsedDocument Ascii.database "device.eds"
      [{ reference := "Connection1", path := none, pathText := some "100 24 01" }]) =
        .error "bytes must be in range(0, 256)" := by
    rfl
  rw [herror] at hassessed
  cases hassessed

end TwinForge.Eds
