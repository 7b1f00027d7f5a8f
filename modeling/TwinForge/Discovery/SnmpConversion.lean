import TwinForge.Discovery.Snmpwalk

/-! # Conversion of SNMP walks

A declared walk is converted into three files. Each is written to a temporary file, the
temporary files are moved to their destinations one after the other, and at the end the
temporary files on the list of finished ones are removed. The writes and the moves may fail.
-/

namespace TwinForge.Discovery.Snmprec

open Guards List

namespace Conversion

structure Path where
  directory : Text
  name : Text
deriving DecidableEq, Repr

/-- `str(path)`. -/
def Path.str (path : Path) : Text := path.directory ++ '/' :: path.name

/-- `path.with_suffix(path.suffix + suffix)`. -/
def Path.extended (path : Path) (suffix : Text) : Path := { path with name := path.name ++ suffix }

abbrev Files := Path → Option (List UInt8)

namespace Files

def put (files : Files) (path : Path) (content : Option (List UInt8)) : Files :=
  fun other => if other = path then content else files other

/-- `os.replace`. -/
def replace (files : Files) (source destination : Path) : Files :=
  (files.put destination (files source)).put source none

/-- `path.unlink(missing_ok=True)` of each path. -/
def unlinkAll (files : Files) (paths : List Path) : Files :=
  paths.foldl (fun files path => files.put path none) files

end Files

/-- A declaration that one file is Net-SNMP walk text; its paths are resolved. -/
structure SnmpWalkConversionPlan where
  inputPath : Path
  outputPath : Path
  expectedSha256 : Text
  sourceUrl : Text
  license : Text
  deviceCategory : Text
  sanitized : Bool
  approvedBy : Text
  approvedAt : DateTime
  rationale : Text
  maxInputBytes : Nat := 16777216
  allowUnparsedLines : Bool := true

structure SnmpConversionReceipt where
  inputPath : Text
  outputPath : Text
  inputFormat : Text
  outputFormat : Text
  inputSha256 : Text
  outputSha256 : Text
  recordCount : Nat
  unparsedLineCount : Nat
  unparsedSidecarPath : Text
  sourceUrl : Text
  license : Text
  deviceCategory : Text
  sanitized : Bool
  approvedBy : Text
  approvedAt : Text
  rationale : Text
  networkAccess : Bool := false
deriving DecidableEq, Repr

inductive ConversionError where
  | policy (message : Text)
  | value (message : Text)
  | osError
deriving DecidableEq, Repr

/-- What the conversion uses: SHA-256 in hexadecimal digits, the reading of UTF-8 with
replacement characters, `str.lower`, and the hexadecimal text of each `uuid4()` in turn. -/
structure Services where
  sha256 : List UInt8 → Text
  readText : List UInt8 → Text
  lower : Text → Text
  hex : Nat → Text

/-- `read_snmpwalk` of a file with this content. -/
def Services.decoded (services : Services) (db : CharacterDatabase) (content : List UInt8) :
    SnmprecRecording :=
  readSnmpwalk db services.lower (services.readText content)

/-- The step that fails: a write, with what it leaves of its file, or a move. -/
inductive Fault where
  | write (index : Fin 3) (left : Option (List UInt8))
  | replace (index : Fin 3)
deriving DecidableEq, Repr

/-! ## Payloads -/

/-- `tuple(int(part) for part in oid.split("."))`. -/
def oidKey (db : CharacterDatabase) (oid : Text) : Except ConversionError (List Int) :=
  ((splitDots oid).mapM (parseInt db)).mapError fun _ => .value oid

/-- The records in the order of their object identifiers. -/
def canonicalText (db : CharacterDatabase) (records : Records) : Except ConversionError Text := do
  let keyed ← records.entries.mapM fun entry => do
    let key ← oidKey db entry.1
    return (key, entry)
  let ordered := sortedBy (fun first second => compare first.1 second.1) keyed
  return ordered.flatMap fun (_, oid, record) =>
    oid ++ '|' :: record.typeCode ++ '|' :: record.value.str ++ ['\n']

/-- `(json.dumps(value, indent=2) + "\n").encode()`. -/
def jsonBytes (value : Json) : List UInt8 :=
  Points.utf8Bytes (value.write ⟨true, some 2⟩ 0 ++ ['\n'])

def unparsedJson (checksum : Text) (lines : List SnmprecUnparsedLine) : Json :=
  .obj [("input_sha256", .str checksum), ("lines", .arr (lines.map fun line =>
    .obj [("number", .int line.number), ("text", .str line.text), ("reason", .str line.reason)]))]

def SnmpConversionReceipt.json (receipt : SnmpConversionReceipt) : Json :=
  .obj [("input_path", .str receipt.inputPath), ("output_path", .str receipt.outputPath),
    ("input_format", .str receipt.inputFormat), ("output_format", .str receipt.outputFormat),
    ("input_sha256", .str receipt.inputSha256), ("output_sha256", .str receipt.outputSha256),
    ("record_count", .int receipt.recordCount),
    ("unparsed_line_count", .int receipt.unparsedLineCount),
    ("unparsed_sidecar_path", .str receipt.unparsedSidecarPath),
    ("source_url", .str receipt.sourceUrl), ("license", .str receipt.license),
    ("device_category", .str receipt.deviceCategory), ("sanitized", .bool receipt.sanitized),
    ("approved_by", .str receipt.approvedBy), ("approved_at", .str receipt.approvedAt),
    ("rationale", .str receipt.rationale), ("network_access", .bool receipt.networkAccess)]

namespace SnmpWalkConversionPlan

def sidecar (plan : SnmpWalkConversionPlan) : Path := plan.outputPath.extended ".unparsed.json"

def receiptPath (plan : SnmpWalkConversionPlan) : Path := plan.outputPath.extended ".receipt.json"

end SnmpWalkConversionPlan

structure Prepared where
  canonical : List UInt8
  unparsed : List UInt8
  receipt : SnmpConversionReceipt

section

variable (db : CharacterDatabase) (services : Services) (plan : SnmpWalkConversionPlan)

/-- All that is checked and computed before the first write. -/
def prepare (files : Files) : Except ConversionError Prepared :=
  match files plan.inputPath with
  | none => .error (.policy (("input recording does not exist: " : Text) ++ plan.inputPath.str))
  | some content => do
    refuse (plan.maxInputBytes < content.length) (.policy "input recording exceeds max_input_bytes")
    let checksum := services.sha256 content
    refuse (checksum ≠ plan.expectedSha256.map Char.toLower)
      (.policy "input SHA-256 does not match the conversion plan")
    let existing := [plan.outputPath, plan.sidecar, plan.receiptPath].filter
      fun path => (files path).isSome
    refuse (existing ≠ []) (.policy (("conversion outputs already exist: " : Text) ++
      joinText ", " (existing.map Path.str)))
    let decoded := services.decoded db content
    refuse (decoded.unparsedLines ≠ [] ∧ plan.allowUnparsedLines = false)
      (.policy "input contains unparsed lines and the plan does not permit them")
    let text ← canonicalText db decoded.records
    let canonical := Points.utf8Bytes text
    return {
      canonical
      unparsed := jsonBytes (unparsedJson checksum decoded.unparsedLines)
      receipt := {
        inputPath := plan.inputPath.str
        outputPath := plan.outputPath.str
        inputFormat := "net_snmp_walk"
        outputFormat := "snmprec"
        inputSha256 := checksum
        outputSha256 := services.sha256 canonical
        recordCount := decoded.records.entries.length
        unparsedLineCount := decoded.unparsedLines.length
        unparsedSidecarPath := plan.sidecar.str
        sourceUrl := plan.sourceUrl
        license := plan.license
        deviceCategory := plan.deviceCategory
        sanitized := plan.sanitized
        approvedBy := plan.approvedBy
        approvedAt := plan.approvedAt.isoformat
        rationale := plan.rationale } }

/-! ## Writing -/

/-- A file to write: its destination, its temporary file and its content. -/
structure Item where
  destination : Path
  temporary : Path
  content : List UInt8

/-- `destination.with_name(f".{destination.name}.{uuid4().hex}.tmp")`. -/
def temporaryPath (index : Nat) (destination : Path) : Path :=
  { destination with
    name := '.' :: destination.name ++ '.' :: services.hex index ++ (".tmp" : Text) }

def items (prepared : Prepared) : List Item :=
  [⟨plan.outputPath, temporaryPath services 0 plan.outputPath, prepared.canonical⟩,
   ⟨plan.sidecar, temporaryPath services 1 plan.sidecar, prepared.unparsed⟩,
   ⟨plan.receiptPath, temporaryPath services 2 plan.receiptPath, jsonBytes prepared.receipt.json⟩]

/-- The files, the finished temporary files, and whether the steps so far succeeded. -/
structure Progress where
  files : Files
  temporary : List Item := []
  succeeded : Bool := true

/-- The loop over the payloads; a failing write is not on the list. -/
def writeTemporaries (fault : Option Fault) : Nat → List Item → Progress → Progress
  | _, [], progress => progress
  | index, item :: items, progress =>
    match fault with
    | some (.write failing left) =>
      if failing.val = index then
        { progress with files := progress.files.put item.temporary left, succeeded := false }
      else
        writeTemporaries fault (index + 1) items { progress with
          files := progress.files.put item.temporary (some item.content)
          temporary := progress.temporary ++ [item] }
    | _ =>
      writeTemporaries fault (index + 1) items { progress with
        files := progress.files.put item.temporary (some item.content)
        temporary := progress.temporary ++ [item] }

/-- The loop over the finished temporary files. -/
def replaceAll (fault : Option Fault) : Nat → List Item → Progress → Progress
  | _, [], progress => progress
  | index, item :: items, progress =>
    if (∃ failing, fault = some (.replace failing) ∧ failing.val = index) then
      { progress with succeeded := false }
    else
      replaceAll fault (index + 1) items
        { progress with files := progress.files.replace item.temporary item.destination }

/-- `convert_snmp_walk`: the files behind the call, and its receipt or what it raises. -/
def convertSnmpWalk (fault : Option Fault) (files : Files) :
    Files × Except ConversionError SnmpConversionReceipt :=
  match prepare db services plan files with
  | .error error => (files, .error error)
  | .ok prepared =>
    let written := writeTemporaries fault 0 (items services plan prepared) { files }
    let finished := if written.succeeded then replaceAll fault 0 written.temporary written else written
    (finished.files.unlinkAll (written.temporary.map (·.temporary)),
      if finished.succeeded then .ok prepared.receipt else .error .osError)

end

/-! ## All or nothing -/

/-- The digits of a UUID, and no file has the name of a temporary file. -/
structure Fresh (services : Services) (plan : SnmpWalkConversionPlan) (files : Files) : Prop where
  digits : ∀ index, (services.hex index).length = 32
  absent : ∀ prepared, ∀ item ∈ items services plan prepared, files item.temporary = none

/-- The three files are there: the records of the walk in order, the lines that were no
records, and the receipt, which says of them what they are. -/
structure Completed (db : CharacterDatabase) (services : Services) (plan : SnmpWalkConversionPlan)
    (before files : Files) (receipt : SnmpConversionReceipt) : Prop where
  written : ∃ content text, before plan.inputPath = some content ∧
    canonicalText db (services.decoded db content).records = .ok text ∧
    files plan.outputPath = some (Points.utf8Bytes text) ∧
    files plan.sidecar = some (jsonBytes
      (unparsedJson (services.sha256 content) (services.decoded db content).unparsedLines)) ∧
    receipt.inputSha256 = services.sha256 content ∧
    receipt.outputSha256 = services.sha256 (Points.utf8Bytes text) ∧
    receipt.recordCount = (services.decoded db content).records.entries.length ∧
    receipt.unparsedLineCount = (services.decoded db content).unparsedLines.length
  recorded : files plan.receiptPath = some (jsonBytes receipt.json)

/-- A call that raises has changed nothing, and one that returns has written everything. -/
def AllOrNothing (db : CharacterDatabase) (services : Services) (plan : SnmpWalkConversionPlan)
    (fault : Option Fault) (files : Files) : Prop :=
  match convertSnmpWalk db services plan fault files with
  | (after, .error _) => after = files
  | (after, .ok receipt) => Completed db services plan files after receipt

/-- The plan matches the input, no output exists and the records can be written in order. -/
def Accepted (db : CharacterDatabase) (services : Services) (plan : SnmpWalkConversionPlan)
    (files : Files) : Prop :=
  ∃ content, files plan.inputPath = some content ∧
    content.length ≤ plan.maxInputBytes ∧
    services.sha256 content = plan.expectedSha256.map Char.toLower ∧
    (∀ path ∈ [plan.outputPath, plan.sidecar, plan.receiptPath], files path = none) ∧
    ((services.decoded db content).unparsedLines ≠ [] → plan.allowUnparsedLines = true) ∧
    ∀ entry ∈ (services.decoded db content).records.entries, ∃ key, oidKey db entry.1 = .ok key

/-- No step fails, or a write that leaves no file behind, or the first move. -/
def Restorable : Option Fault → Prop
  | none => True
  | some (.write _ left) => left = none
  | some (.replace index) => index = 0

/-! ### Files -/

namespace Files

variable {files : Files} {path other : Path} {content : Option (List UInt8)}

@[simp] theorem put_same : files.put path content path = content := if_pos rfl

theorem put_other (h : other ≠ path) : files.put path content other = files other := if_neg h

theorem unlinkAll_apply (files : Files) (paths : List Path) (path : Path) :
    files.unlinkAll paths path = if path ∈ paths then none else files path := by
  induction paths generalizing files with
  | nil => rfl
  | cons first rest ih =>
    show (files.put first none).unlinkAll rest path = _
    rw [ih]
    by_cases hfirst : path = first
    · simp [hfirst]
    · rw [put_other hfirst]
      simp [hfirst]

end Files

def written (files : Files) (items : List Item) : Files :=
  items.foldl (fun files item => files.put item.temporary (some item.content)) files

def moved (files : Files) (items : List Item) : Files :=
  items.foldl (fun files item => files.replace item.temporary item.destination) files

section

variable {files : Files} {items : List Item} {path : Path}

theorem written_other (h : path ∉ items.map (·.temporary)) : written files items path = files path := by
  induction items generalizing files with
  | nil => rfl
  | cons item items ih =>
    rw [map_cons, mem_cons, not_or] at h
    exact (ih h.2).trans (Files.put_other h.1)

theorem written_temporary (hdistinct : (items.map (·.temporary)).Nodup) {item : Item}
    (hitem : item ∈ items) : written files items item.temporary = some item.content := by
  induction items generalizing files with
  | nil => cases hitem
  | cons first items ih =>
    have ⟨hfirst, hrest⟩ := nodup_cons.mp hdistinct
    cases mem_cons.mp hitem with
    | inl hsame =>
      rw [hsame]
      exact (written_other hfirst).trans Files.put_same
    | inr hmem => exact ih hrest hmem

theorem moved_other (htemporary : path ∉ items.map (·.temporary))
    (hdestination : path ∉ items.map (·.destination)) : moved files items path = files path := by
  induction items generalizing files with
  | nil => rfl
  | cons item items ih =>
    rw [map_cons, mem_cons, not_or] at htemporary hdestination
    exact (ih htemporary.2 hdestination.2).trans
      ((Files.put_other htemporary.1).trans (Files.put_other hdestination.1))

theorem moved_destination (hdistinct : (items.map (·.temporary) ++ items.map (·.destination)).Nodup)
    (hcontent : ∀ item ∈ items, files item.temporary = some item.content) {item : Item}
    (hitem : item ∈ items) : moved files items item.destination = some item.content := by
  induction items generalizing files with
  | nil => cases hitem
  | cons first items ih =>
    have hparts := nodup_append.mp hdistinct
    have ⟨htemporary, htemporaries⟩ : first.temporary ∉ items.map (·.temporary) ∧ _ :=
      nodup_cons.mp hparts.1
    have ⟨hdestination, hdestinations⟩ := nodup_cons.mp hparts.2.1
    have happart : ∀ one ∈ first :: items, ∀ two ∈ first :: items,
        one.temporary ≠ two.destination := fun one hone two htwo =>
      hparts.2.2 _ (mem_map_of_mem hone) _ (mem_map_of_mem htwo)
    cases mem_cons.mp hitem with
    | inl hsame =>
      subst hsame
      have hcrossed : item.destination ∉ items.map (·.temporary) := by
        intro hmem
        have ⟨one, hone, heq⟩ := mem_map.mp hmem
        exact happart one (mem_cons_of_mem _ hone) item (mem_cons_self ..) heq
      have hstep : (files.replace item.temporary item.destination) item.destination =
          files item.temporary :=
        (Files.put_other (happart item hitem item hitem).symm).trans Files.put_same
      exact (moved_other hcrossed hdestination).trans (hstep.trans (hcontent item hitem))
    | inr hmem =>
      refine ih ?_ (fun other hother => ?_) hmem
      · refine nodup_append.mpr ⟨htemporaries, hdestinations, fun one hone two htwo => ?_⟩
        exact hparts.2.2 one (mem_cons_of_mem _ hone) two (mem_cons_of_mem _ htwo)
      · have hother' := mem_cons_of_mem first hother
        have hmem : other.temporary ∈ items.map (·.temporary) := mem_map_of_mem hother
        have hapart : other.temporary ≠ first.temporary := fun heq => htemporary (heq ▸ hmem)
        have hcrossed := happart other hother' first (mem_cons_self ..)
        exact (Files.put_other hapart).trans
          ((Files.put_other hcrossed).trans (hcontent other hother'))

theorem unlinkAll_failed {item : Item} {left : Option (List UInt8)}
    (habsent : ∀ item ∈ items, files item.temporary = none)
    (hother : item.temporary ∉ items.map (·.temporary)) :
    ((written files items).put item.temporary left).unlinkAll (items.map (·.temporary)) =
      files.put item.temporary left := by
  funext path
  rw [Files.unlinkAll_apply]
  by_cases hpath : path = item.temporary
  · rw [hpath, if_neg hother, Files.put_same, Files.put_same]
  · rw [Files.put_other hpath, Files.put_other hpath]
    by_cases hmem : path ∈ items.map (·.temporary)
    · have ⟨one, hone, heq⟩ := mem_map.mp hmem
      rw [if_pos hmem, ← heq, habsent one hone]
    · rw [if_neg hmem, written_other hmem]

theorem unlinkAll_written (habsent : ∀ item ∈ items, files item.temporary = none) :
    (written files items).unlinkAll (items.map (·.temporary)) = files := by
  funext path
  rw [Files.unlinkAll_apply]
  by_cases hmem : path ∈ items.map (·.temporary)
  · have ⟨one, hone, heq⟩ := mem_map.mp hmem
    rw [if_pos hmem, ← heq, habsent one hone]
  · rw [if_neg hmem, written_other hmem]

theorem unlinkAll_destination {done rest : List Item} {item : Item}
    (hdistinct : ((done ++ rest).map (·.temporary) ++ (done ++ rest).map (·.destination)).Nodup)
    (hitem : item ∈ done) :
    ((moved (written files (done ++ rest)) done).unlinkAll ((done ++ rest).map (·.temporary)))
      item.destination = some item.content := by
  have hparts := nodup_append.mp hdistinct
  have hapart : item.destination ∉ (done ++ rest).map (·.temporary) := fun hmem =>
    hparts.2.2 _ hmem _ (mem_map_of_mem (mem_append_left rest hitem)) rfl
  rw [Files.unlinkAll_apply, if_neg hapart]
  refine moved_destination (hdistinct.sublist ?_) (fun other hother => ?_) hitem
  · exact (List.Sublist.map _ (sublist_append_left ..)).append
      (List.Sublist.map _ (sublist_append_left ..))
  · exact written_temporary hparts.1 (mem_append_left rest hother)

end

/-! ### Steps that fail -/

section

variable {fault : Option Fault} {failing : Fin 3} {left : Option (List UInt8)}
  {items before after : List Item} {item : Item} {index : Nat} {progress : Progress}

theorem writeTemporaries_ok (h : ∀ failing left, fault ≠ some (.write failing left)) :
    writeTemporaries fault index items progress = { progress with
      files := written progress.files items
      temporary := progress.temporary ++ items } := by
  induction items generalizing index progress with
  | nil => simp [writeTemporaries, written]
  | cons item items ih =>
    unfold writeTemporaries
    split
    · next failing left => exact absurd rfl (h failing left)
    · rw [ih]
      simp [written]

theorem writeTemporaries_failed (h : index + before.length = failing.val) :
    writeTemporaries (some (.write failing left)) index (before ++ item :: after) progress =
      { files := (written progress.files before).put item.temporary left
        temporary := progress.temporary ++ before
        succeeded := false } := by
  induction before generalizing index progress with
  | nil =>
    have hindex : failing.val = index := h.symm
    simp [writeTemporaries, written, hindex]
  | cons first before ih =>
    rw [length_cons] at h
    have hindex : failing.val ≠ index := by omega
    simp only [cons_append, writeTemporaries, hindex, if_false]
    rw [ih (by omega)]
    simp [written]

theorem replaceAll_ok (h : ∀ failing, fault ≠ some (.replace failing)) :
    replaceAll fault index items progress =
      { progress with files := moved progress.files items } := by
  induction items generalizing index progress with
  | nil => rfl
  | cons item items ih =>
    unfold replaceAll
    rw [if_neg fun ⟨failing, hfault, _⟩ => h failing hfault, ih]
    rfl

theorem replaceAll_failed (h : index + before.length = failing.val) :
    replaceAll (some (.replace failing)) index (before ++ item :: after) progress =
      { progress with files := moved progress.files before, succeeded := false } := by
  induction before generalizing index progress with
  | nil =>
    have hindex : failing.val = index := h.symm
    simp [replaceAll, moved, hindex]
  | cons first before ih =>
    rw [length_cons] at h
    have hindex : failing.val ≠ index := by omega
    simp only [cons_append, replaceAll, Option.some.injEq, Fault.replace.injEq,
      exists_eq_left', hindex, if_false]
    rw [ih (by omega)]
    rfl

end

section

variable {db : CharacterDatabase} {services : Services} {plan : SnmpWalkConversionPlan}
  {files : Files} {prepared : Prepared} {fault : Option Fault}

theorem items_distinct (h : Fresh services plan files) (prepared : Prepared) :
    ((items services plan prepared).map (·.temporary) ++
      (items services plan prepared).map (·.destination)).Nodup := by
  have hsidecar : (".unparsed.json" : Text).length = 14 := rfl
  have hreceipt : (".receipt.json" : Text).length = 13 := rfl
  refine List.Nodup.of_map (fun path : Path => path.name.length) ?_
  simp only [items, temporaryPath, SnmpWalkConversionPlan.sidecar,
    SnmpWalkConversionPlan.receiptPath, Path.extended, h.digits, map_cons, map_nil,
    cons_append, nil_append, length_cons, length_append, nodup_cons,
    mem_cons, not_mem_nil, nodup_nil, hsidecar, hreceipt, not_or, or_false,
    not_false_eq_true, and_true]
  omega

theorem exists_canonicalText {records : Records} :
    (∃ text, canonicalText db records = .ok text) ↔
      ∀ entry ∈ records.entries, ∃ key, oidKey db entry.1 = .ok key := by
  unfold canonicalText
  rw [exists_returned, exists_mapM_eq_ok]
  simp only [exists_returned]

theorem exists_prepare : (∃ prepared, prepare db services plan files = .ok prepared) ↔
    Accepted db services plan files := by
  unfold prepare Accepted
  cases files plan.inputPath with
  | none => simp
  | some content =>
    have hexisting : ¬ [plan.outputPath, plan.sidecar, plan.receiptPath].filter
          (fun path => (files path).isSome) ≠ [] ↔
        ∀ path ∈ [plan.outputPath, plan.sidecar, plan.receiptPath], files path = none := by
      simp [filter_eq_nil_iff]
    simp only [bind_eq_ok, refuse_eq_ok, exists_unit, pure_eq_ok, hexisting, not_lt]
    constructor
    · intro ⟨_, hsize, hsum, hnone, hlines, text, htext, _⟩
      exact ⟨content, rfl, hsize, not_not.mp hsum, hnone, by simpa using hlines,
        exists_canonicalText.mp ⟨text, htext⟩⟩
    · rintro ⟨_, ⟨rfl⟩, hsize, hsum, hnone, hlines, hkeys⟩
      have ⟨text, htext⟩ := exists_canonicalText.mpr hkeys
      exact ⟨_, hsize, not_not.mpr hsum, hnone, by simpa using hlines, text, htext, rfl⟩

theorem prepare_reports (h : prepare db services plan files = .ok prepared) :
    ∃ content text, files plan.inputPath = some content ∧
      canonicalText db (services.decoded db content).records = .ok text ∧
      prepared.canonical = Points.utf8Bytes text ∧
      prepared.unparsed = jsonBytes
        (unparsedJson (services.sha256 content) (services.decoded db content).unparsedLines) ∧
      prepared.receipt.inputSha256 = services.sha256 content ∧
      prepared.receipt.outputSha256 = services.sha256 (Points.utf8Bytes text) ∧
      prepared.receipt.recordCount = (services.decoded db content).records.entries.length ∧
      prepared.receipt.unparsedLineCount = (services.decoded db content).unparsedLines.length := by
  unfold prepare at h
  split at h
  · cases h
  · next content hcontent =>
    simp only [bind_eq_ok, refuse_eq_ok, exists_unit, pure_eq_ok] at h
    obtain ⟨_, _, _, _, text, htext, rfl⟩ := h
    exact ⟨content, text, hcontent, htext, rfl, rfl, rfl, rfl, rfl, rfl⟩

theorem items_split (services : Services) (plan : SnmpWalkConversionPlan) (prepared : Prepared)
    (failing : Fin 3) : ∃ before item after,
      items services plan prepared = before ++ item :: after ∧ before.length = failing.val :=
  match failing with
  | ⟨0, _⟩ => ⟨[], _, _, rfl, rfl⟩
  | ⟨1, _⟩ => ⟨[_], _, _, rfl, rfl⟩
  | ⟨2, _⟩ => ⟨[_, _], _, _, rfl, rfl⟩

section

variable (hfresh : Fresh services plan files)
  (hprepared : prepare db services plan files = .ok prepared)
include hfresh hprepared

theorem completed_prepared : AllOrNothing db services plan none files := by
  have hdistinct := items_distinct hfresh prepared
  unfold AllOrNothing convertSnmpWalk
  simp only [hprepared]
  rw [writeTemporaries_ok (by simp)]
  simp only [nil_append, if_true]
  rw [replaceAll_ok (by simp)]
  have hkept : ∀ item ∈ items services plan prepared,
      ((moved (written files (items services plan prepared)) (items services plan prepared)).unlinkAll
        ((items services plan prepared).map (·.temporary))) item.destination = some item.content := by
    intro item hitem
    have h := @unlinkAll_destination files (items services plan prepared) [] item
    rw [append_nil] at h
    exact h hdistinct hitem
  have ⟨content, text, hcontent, htext, hcanonical, hunparsed, hreceipt⟩ :=
    prepare_reports hprepared
  refine ⟨⟨content, text, hcontent, htext, ?_, ?_, hreceipt⟩, ?_⟩
  · rw [← hcanonical]
    exact hkept ⟨plan.outputPath, _, _⟩ (mem_cons_self ..)
  · rw [← hunparsed]
    exact hkept ⟨plan.sidecar, _, _⟩ (mem_cons_of_mem _ (mem_cons_self ..))
  · exact hkept ⟨plan.receiptPath, _, _⟩
      (mem_cons_of_mem _ (mem_cons_of_mem _ (mem_cons_self ..)))

/-- The temporary file of a failing write is on no list. -/
theorem write_restores_iff {failing : Fin 3} {left : Option (List UInt8)} :
    AllOrNothing db services plan (some (.write failing left)) files ↔ left = none := by
  have hdistinct := items_distinct hfresh prepared
  have habsent := hfresh.absent prepared
  have ⟨before, item, after, hsplit, hlength⟩ := items_split services plan prepared failing
  unfold AllOrNothing convertSnmpWalk
  simp only [hprepared]
  rw [hsplit] at hdistinct habsent ⊢
  rw [writeTemporaries_failed ((Nat.zero_add _).trans hlength)]
  have hother : item.temporary ∉ before.map (·.temporary) := by
    have htemporaries := (nodup_append.mp hdistinct).1
    rw [map_append, map_cons] at htemporaries
    intro hmem
    exact (nodup_append.mp htemporaries).2.2 _ hmem _ (mem_cons_self ..) rfl
  have hnone : files item.temporary = none := habsent item (by simp)
  simp only [nil_append, Bool.false_eq_true, if_false]
  rw [unlinkAll_failed (fun other hother => habsent other (mem_append_left _ hother)) hother]
  constructor
  · intro h
    rw [← hnone, ← congrFun h item.temporary, Files.put_same]
  · intro h
    funext path
    by_cases hpath : path = item.temporary
    · rw [hpath, Files.put_same, hnone, h]
    · exact Files.put_other hpath

theorem replace_restores_iff {failing : Fin 3}
    (hnone : ∀ path ∈ [plan.outputPath, plan.sidecar, plan.receiptPath], files path = none) :
    AllOrNothing db services plan (some (.replace failing)) files ↔ failing = 0 := by
  have hdistinct := items_distinct hfresh prepared
  have habsent := hfresh.absent prepared
  have houtputs : ∀ item ∈ items services plan prepared, files item.destination = none :=
    fun item hitem => hnone item.destination
      (mem_map_of_mem (f := fun item : Item => item.destination) hitem)
  have ⟨before, item, after, hsplit, hlength⟩ := items_split services plan prepared failing
  unfold AllOrNothing convertSnmpWalk
  simp only [hprepared]
  rw [writeTemporaries_ok (by simp)]
  simp only [nil_append, if_true]
  rw [hsplit] at hdistinct habsent houtputs ⊢
  rw [replaceAll_failed ((Nat.zero_add _).trans hlength)]
  simp only [Bool.false_eq_true, if_false]
  match before, hlength with
  | [], hlength =>
    have hfirst : failing = 0 := Fin.ext hlength.symm
    exact iff_of_true (unlinkAll_written habsent) hfirst
  | first :: before, hlength =>
    have hlater : failing ≠ 0 := fun h => by simp [h] at hlength
    refine iff_of_false (fun h => ?_) hlater
    have hkept := @unlinkAll_destination files _ _ _ hdistinct (mem_cons_self ..)
    have habsent' : files first.destination = none := houtputs first (by simp)
    rw [h, habsent'] at hkept
    cases hkept

end

/-- A failed call leaves the files as they were exactly where nothing had to be restored. -/
theorem convertSnmpWalk_allOrNothing_iff (h : Fresh services plan files) :
    AllOrNothing db services plan fault files ↔
      (Accepted db services plan files → Restorable fault) := by
  cases hprepared : prepare db services plan files with
  | error error =>
    refine iff_of_true (by simp [AllOrNothing, convertSnmpWalk, hprepared]) fun haccepted => ?_
    have ⟨_, hok⟩ := exists_prepare.mpr haccepted
    rw [hprepared] at hok
    cases hok
  | ok prepared =>
    have haccepted := exists_prepare.mp ⟨prepared, hprepared⟩
    have ⟨_, _, _, _, hnone, _⟩ := haccepted
    rw [forall_prop_of_true haccepted]
    match fault with
    | none => exact iff_of_true (completed_prepared h hprepared) trivial
    | some (.write _ _) => exact write_restores_iff h hprepared
    | some (.replace _) => exact replace_restores_iff h hprepared hnone

end

/-! ### A walk of two records -/

def switchWalk : Text := "iso.3.6.1.2.1.1.5.0 = STRING: core\nIF-MIB::ifIndex.2 = INTEGER: 2\nend of walk\n"

def switchRecords : Text := "1.3.6.1.2.1.1.5.0|4|core\n1.3.6.1.2.1.2.2.1.1.2|2|2\n"

def switchSha256 : Text := "81c8410ca9fdf4301837f6e6ee178b5be038276d98739191ea6845ad64fff7a8"

/-- SHA-256 of the walk and of its records, and three UUIDs. -/
def switchServices : Services where
  sha256 content := if content = Points.utf8Bytes switchWalk then switchSha256
    else "983b1bfb843dfcd106f4b50de956f4a8d104d6125ab0e2a6b8ac521abe9df495"
  readText content := (Points.decodeUtf8 content).getD []
  lower text := text.map Char.toLower
  hex
    | 0 => "6fa459eaee8a4ca4894edb77e160355e"
    | 1 => "886313e13b8a4372b8e81a2a0a6a6f5c"
    | _ => "16fd2706b80d4a6b9d3b6f2e1c3d5a70"

def switchPlan : SnmpWalkConversionPlan where
  inputPath := ⟨"/captures", "switch.walk"⟩
  outputPath := ⟨"/converted", "switch.snmprec"⟩
  expectedSha256 := switchSha256
  sourceUrl := "vendor capture library"
  license := "CC0"
  deviceCategory := "switch"
  sanitized := true
  approvedBy := "operator"
  approvedAt := .epoch
  rationale := "declared walk"

def switchFiles : Files := fun path =>
  if path = switchPlan.inputPath then some (Points.utf8Bytes switchWalk) else none

theorem switchFiles_absent {path : Path} (h : path.directory = "/converted") :
    switchFiles path = none :=
  if_neg fun heq => absurd (h.symm.trans (congrArg Path.directory heq)) (by decide)

theorem switchServices_fresh : Fresh switchServices switchPlan switchFiles where
  digits index := by
    match index with
    | 0 | 1 | _ + 2 => rfl
  absent prepared item hitem := switchFiles_absent (by
    simp only [items, mem_cons, not_mem_nil, or_false] at hitem
    rcases hitem with rfl | rfl | rfl <;> rfl)

def switchRecording : SnmprecRecording where
  records := ⟨[("1.3.6.1.2.1.1.5.0", ⟨"4", .text "core"⟩),
    ("1.3.6.1.2.1.2.2.1.1.2", ⟨"2", .integer 2⟩)], by decide⟩
  unparsedLines := [⟨3, "end of walk", "syntax"⟩]

theorem switchWalk_decoded :
    switchServices.decoded Ascii.database (Points.utf8Bytes switchWalk) = switchRecording := by
  have htext : switchServices.readText (Points.utf8Bytes switchWalk) = switchWalk := by
    show (Points.decodeUtf8 (Points.utf8Bytes switchWalk)).getD [] = switchWalk
    rw [Points.decodeUtf8_utf8Bytes, Option.getD_some]
  rw [Services.decoded, htext]
  rfl

example : canonicalText Ascii.database switchRecording.records = .ok switchRecords := by rfl

theorem switchPlan_accepted : Accepted Ascii.database switchServices switchPlan switchFiles := by
  refine ⟨Points.utf8Bytes switchWalk, if_pos rfl, by decide +kernel, by decide +kernel,
    fun path hpath => ?_, fun _ => rfl, ?_⟩
  · refine switchFiles_absent ?_
    simp only [mem_cons, not_mem_nil, or_false] at hpath
    rcases hpath with rfl | rfl | rfl <;> rfl
  · rw [switchWalk_decoded]
    intro entry hentry
    simp only [switchRecording, mem_cons, not_mem_nil, or_false] at hentry
    rcases hentry with rfl | rfl
    · exact ⟨_, rfl⟩
    · exact ⟨_, rfl⟩

/-- The accepted walk with no failing step, and with steps that fail before anything is there. -/
theorem convertSnmpWalk_allOrNothing_switch :
    Accepted Ascii.database switchServices switchPlan switchFiles ∧
    ∀ fault ∈ [none, some (.write 1 none), some (.replace 0)],
      AllOrNothing Ascii.database switchServices switchPlan fault switchFiles := by
  refine ⟨switchPlan_accepted, fun fault hfault => ?_⟩
  refine (convertSnmpWalk_allOrNothing_iff switchServices_fresh).mpr fun _ => ?_
  simp only [mem_cons, not_mem_nil, or_false] at hfault
  rcases hfault with rfl | rfl | rfl
  · trivial
  · rfl
  · rfl

/-- A write that leaves a partial file, and a second move that fails. -/
theorem failed_call_leaves_files : Fresh switchServices switchPlan switchFiles ∧
    ¬ AllOrNothing Ascii.database switchServices switchPlan (some (.write 0 (some [])))
      switchFiles ∧
    ¬ AllOrNothing Ascii.database switchServices switchPlan (some (.replace 1)) switchFiles := by
  have ⟨prepared, hprepared⟩ := exists_prepare.mpr switchPlan_accepted
  have ⟨_, _, _, _, hnone, _⟩ := switchPlan_accepted
  refine ⟨switchServices_fresh, fun h => ?_, fun h => ?_⟩
  · cases (write_restores_iff switchServices_fresh hprepared).mp h
  · exact absurd ((replace_restores_iff switchServices_fresh hprepared hnone).mp h) (by decide)

end Conversion

end TwinForge.Discovery.Snmprec
