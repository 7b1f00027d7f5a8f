import TwinForge.Assembly.PromotionRepository
import TwinForge.Discovery.DocumentRestoring

/-! # The promotion repository in a database

Every call reads its rows and their documents anew. A batch is applied to the repository
in memory of all rows and written back in one transaction, or the table stays as it was.
-/

namespace TwinForge.Assembly

open Discovery Guards Json

/-! ## Documents -/

def documentLayout : Layout := { asciiOnly := true, indent := none }

def assetMembers : Asset → List (Text × Json)
  | .device id name deviceType manufacturer model catalogNumber =>
    [("kind", .str "device"), ("id", .str id), ("name", .str name),
      ("device_type", .str deviceType.value), ("manufacturer", ofOptional manufacturer),
      ("model", ofOptional model), ("catalog_number", ofOptional catalogNumber)]
  | .asset id name =>
    [("kind", .str "asset"), ("id", .str id), ("name", .str name), ("device_type", .null),
      ("manufacturer", .null), ("model", .null), ("catalog_number", .null)]

def recordMembers (record : CorePromotionRecord) : List (Text × Json) :=
  [("asset", .obj (assetMembers record.coreAsset)),
    ("durable_identity_key", .str record.durableIdentityKey),
    ("generation_numbers", .arr (record.generationNumbers.map .int)),
    ("target_keys", textsData record.targetKeys),
    ("promoted_by", .str record.promotedBy),
    ("promoted_at", .str record.promotedAt.isoformat),
    ("rationale", .str record.rationale),
    ("evidence", .arr (record.evidence.map fun item => .obj (evidenceMembers item))),
    ("acknowledged_conflict_override", .bool record.acknowledgedConflictOverride)]

def recordData (record : CorePromotionRecord) : Json := .obj (recordMembers record)

/-- `json.dumps(_record_data(record), sort_keys=True)`. -/
def recordDocument (record : CorePromotionRecord) : Text :=
  dumps documentLayout (sortKeys (recordData record))

def readAsset (data : Json) : Option Asset := do
  let kind ← field asText "kind" data
  let id ← field asText "id" data
  let name ← field asText "name" data
  if kind = "device" then
    let deviceType ← field readDeviceType "device_type" data
    let manufacturer ← field (asOptional asText) "manufacturer" data
    let model ← field (asOptional asText) "model" data
    let catalogNumber ← field (asOptional asText) "catalog_number" data
    some (.device id name deviceType manufacturer model catalogNumber)
  else some (.asset id name)

/-- `datetime.fromisoformat` of a text. -/
def readTime (data : Json) : Option DateTime := (asText data).bind DateTime.fromisoformat

/-- `_record`. -/
def readRecord (data : Json) : Option CorePromotionRecord := do
  let coreAsset ← field readAsset "asset" data
  let durableIdentityKey ← field asText "durable_identity_key" data
  let generationNumbers ← field (asList asInt) "generation_numbers" data
  let targetKeys ← field (asList asText) "target_keys" data
  let promotedBy ← field asText "promoted_by" data
  let promotedAt ← field readTime "promoted_at" data
  let rationale ← field asText "rationale" data
  let evidence ← field (asList readEvidence) "evidence" data
  let acknowledgedConflictOverride ← field asBool "acknowledged_conflict_override" data
  some {
    coreAsset, durableIdentityKey, generationNumbers, targetKeys, promotedBy, promotedAt,
    rationale, evidence, acknowledgedConflictOverride }

/-! ## The table -/

structure PromotionRow where
  identityKey : Text
  document : Text
  deriving DecidableEq, Repr

/-- The rows by their asset identifiers, the primary key. -/
abbrev PromotionTable := Dictionary Text PromotionRow

/-- The database file: without the table before it was opened for the first time. -/
abbrev Database := Option PromotionTable

inductive SqliteFailure where
  | sqlite (message : Text)
  | document (text : Text)
  | repository (error : PromotionRepositoryError)
  deriving DecidableEq, Repr

def noTable : Text := "no such table: promotion"

def readDocument (text : Text) : Except SqliteFailure CorePromotionRecord :=
  match (loads text).bind readRecord with
  | none => .error (.document text)
  | some record => .ok record

namespace PromotionTable

variable (table : PromotionTable)

/-- `SELECT document FROM promotion ORDER BY asset_id`, read. -/
def records : Except SqliteFailure (List CorePromotionRecord) :=
  (sortedBy (fun first second => compare first.1 second.1) table.entries).mapM
    fun entry => readDocument entry.2.document

/-- `INSERT … ON CONFLICT(asset_id) DO UPDATE`, on a table of unique identities. -/
def upsert (record : CorePromotionRecord) : Except SqliteFailure PromotionTable := do
  refuse (∃ entry ∈ table.entries, entry.1 ≠ record.coreAsset.id ∧
    entry.2.identityKey = record.durableIdentityKey)
    (.sqlite "UNIQUE constraint failed: promotion.identity_key")
  return table.set record.coreAsset.id ⟨record.durableIdentityKey, recordDocument record⟩

def transaction (result : CorePromotionResult) :
    Except SqliteFailure (PromotionTable × PromotionPersistenceResult) := do
  let records ← table.records
  let reference ← (InMemoryPromotionRepository.ofRecords none records).mapError .repository
  let outcome ← (reference.apply result).2.mapError .repository
  let rows ← (reference.apply result).1.records.foldlM upsert table
  return (rows, outcome)

end PromotionTable

namespace SqlitePromotionRepository

/-- `CREATE TABLE IF NOT EXISTS`. -/
def initializeDatabase (database : Database) : Database := some (database.getD {})

/-- Apply one batch: the database afterwards, and what the call returns or raises. -/
def apply (database : Database) (result : CorePromotionResult) :
    Database × Except SqliteFailure PromotionPersistenceResult :=
  match database with
  | none => (none, .error (.repository (.transactionFailed noTable)))
  | some table =>
    match table.transaction result with
    | .ok (rows, outcome) => (some rows, .ok outcome)
    | .error (.sqlite message) =>
      (some table, .error (.repository (.transactionFailed message)))
    | .error failure => (some table, .error failure)

def fetchone (found : Option PromotionRow) : Except SqliteFailure (Option CorePromotionRecord) :=
  match found with
  | none => .ok none
  | some row => (readDocument row.document).map some

def getByAssetId (database : Database) (assetId : Text) :
    Except SqliteFailure (Option CorePromotionRecord) :=
  match database with
  | none => .error (.sqlite noTable)
  | some table => fetchone (table.get? assetId)

def getByIdentityKey (database : Database) (durableIdentityKey : Text) :
    Except SqliteFailure (Option CorePromotionRecord) :=
  match database with
  | none => .error (.sqlite noTable)
  | some table =>
    fetchone (table.values.find? fun row => row.identityKey = durableIdentityKey)

end SqlitePromotionRepository

/-! ## Documents of promotion records

A stored record is read back from its document as it was.
-/

open Discovery Json

theorem readAsset_assetMembers (asset : Asset) :
    readAsset (sortKeys (.obj (assetMembers asset))) = some asset := by
  have h := reorders_sortKeys
  have hfields : (["kind", "id", "name", "device_type", "manufacturer", "model",
      "catalog_number"] : List Text).Nodup := by decide
  unfold readAsset
  cases asset with
  | asset id name =>
    have hnames : ((assetMembers (.asset id name)).map Prod.fst).Nodup := hfields
    refine h.next hnames rfl (h.text _) ?_
    refine h.next hnames rfl (h.text _) ?_
    exact h.next hnames rfl (h.text _) rfl
  | device id name deviceType manufacturer model catalogNumber =>
    have hnames : ((assetMembers
      (.device id name deviceType manufacturer model catalogNumber)).map Prod.fst).Nodup := hfields
    have htype : readDeviceType (sortKeys (.str deviceType.value)) = some deviceType :=
      readEnum_view h (by cases deviceType <;> decide)
    refine h.next hnames rfl (h.text _) ?_
    refine h.next hnames rfl (h.text _) ?_
    refine h.next hnames rfl (h.text _) ?_
    refine h.next hnames rfl htype ?_
    refine h.next hnames rfl (h.optional _) ?_
    refine h.next hnames rfl (h.optional _) ?_
    exact h.next hnames rfl (h.optional _) rfl

theorem readRecord_recordData (record : CorePromotionRecord) :
    readRecord (sortKeys (recordData record)) = some record := by
  have h := reorders_sortKeys
  have hfields : (["asset", "durable_identity_key", "generation_numbers", "target_keys",
      "promoted_by", "promoted_at", "rationale", "evidence",
      "acknowledged_conflict_override"] : List Text).Nodup := by decide
  have hnames : ((recordMembers record).map Prod.fst).Nodup := hfields
  have hat : readTime (sortKeys (.str record.promotedAt.isoformat)) = some record.promotedAt := by
    rw [readTime, h.text, Option.bind_some, DateTime.fromisoformat_isoformat]
  refine h.next hnames rfl (readAsset_assetMembers record.coreAsset) ?_
  refine h.next hnames rfl (h.text _) ?_
  refine h.next hnames rfl (h.ints _) ?_
  refine h.next hnames rfl (h.texts _) ?_
  refine h.next hnames rfl (h.text _) ?_
  refine h.next hnames rfl hat ?_
  refine h.next hnames rfl (h.text _) ?_
  refine h.next hnames rfl (h.known (readEvidence_members h) _) ?_
  exact h.next hnames rfl (h.truth _) rfl

theorem readDocument_recordDocument (record : CorePromotionRecord) :
    readDocument (recordDocument record) = .ok record := by
  have hloads : loads (recordDocument record) = some (sortKeys (recordData record)) := by
    rw [← List.append_nil (recordDocument record)]
    exact loads_dumps documentLayout _ (by simp)
  rw [readDocument, hloads, Option.bind_some, readRecord_recordData]

end TwinForge.Assembly
