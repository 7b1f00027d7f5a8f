import TwinForge.Discovery.SoftwareInventory
import TwinForge.Foundation.CodePoints

/-! # Logix symbol pages

One page of the Symbol Object enumeration: the records in a reply, and the structural items they
are lowered to. `unicodeError` is the text of a failed decoding of a name.
-/

namespace TwinForge.Discovery

open Guards List

/-! ## Requests and records -/

def logixSymbolClass : Nat := 0x6B

def getInstanceAttributeList : Nat := 0x55

def statusSuccess : Nat := 0

def statusPartialTransfer : Nat := 6

def externalAccessAttribute : Nat := 10

def baseAttributes : List Nat := [1, 2, 3, 5, 6, 8]

/-- `pack("<H", value)`. -/
def packUint16 (value : Nat) : List UInt8 := [UInt8.ofNat value, UInt8.ofNat (value / 256)]

/-- `pack("<I", value)`. -/
def packUint32 (value : Nat) : List UInt8 := packUint16 value ++ packUint16 (value / 65536)

def symbolAttributes (includeExternalAccess : Bool) : List Nat :=
  baseAttributes ++ if includeExternalAccess then [externalAccessAttribute] else []

def symbolRequestData (includeExternalAccess : Bool) : List UInt8 :=
  packUint16 (symbolAttributes includeExternalAccess).length ++
    (symbolAttributes includeExternalAccess).flatMap packUint16

structure LogixSymbolRecord where
  instanceId : Nat
  name : Text
  symbolType : Nat
  symbolAddress : Nat
  symbolObjectAddress : Nat
  softwareControl : Nat
  dimensions : Nat × Nat × Nat
  externalAccess : Option Nat
  rawHex : Text
  deriving DecidableEq, Repr

/-- What a page fails with: a provider's error, or the refusal of a value. -/
inductive CaptureFailure where
  | provider (error : DiscoveryProviderError)
  | value (message : Text)
  deriving DecidableEq, Repr

def providerFailure (code message : Text) : CaptureFailure := .provider ⟨code, message⟩

/-! ## Reading a page -/

/-- Why a page cannot be read, and how many of its bytes were left. -/
structure PageFault where
  left : Nat
  reason : Text
  deriving DecidableEq, Repr

def readUint16 (bytes : List UInt8) : Except PageFault (Nat × List UInt8) :=
  match bytes with
  | first :: second :: rest => .ok (first.toNat + 256 * second.toNat, rest)
  | _ => .error ⟨bytes.length, "UINT exceeds page payload"⟩

def readUint32 (bytes : List UInt8) : Except PageFault (Nat × List UInt8) :=
  match bytes with
  | first :: second :: third :: fourth :: rest =>
    .ok (first.toNat + 256 * second.toNat + 65536 * (third.toNat + 256 * fourth.toNat), rest)
  | _ => .error ⟨bytes.length, "UDINT exceeds page payload"⟩

/-- `bytes.decode("utf-8")`. -/
def decodeUtf8 (bytes : List UInt8) : Option Text :=
  bytes.toByteArray.utf8Decode?.map Array.toList

/-- `text.encode("utf-8")`. -/
def encodeUtf8 (text : Text) : List UInt8 := text.flatMap String.utf8EncodeChar

section

variable (unicodeError : List UInt8 → Text)

def readName (bytes : List UInt8) : Except PageFault (Text × List UInt8) := do
  let (nameLength, rest) ← readUint16 bytes
  refuse (rest.length < nameLength) ⟨rest.length, "symbol name exceeds page payload"⟩
  match decodeUtf8 (rest.take nameLength) with
  | none => .error ⟨rest.length, unicodeError (rest.take nameLength)⟩
  | some name => pure (name, rest.drop nameLength)

def readExternalAccess (includeExternalAccess : Bool) (bytes : List UInt8) :
    Except PageFault (Option Nat × List UInt8) :=
  if includeExternalAccess then
    match bytes with
    | [] => .error ⟨0, "external access byte is missing"⟩
    | access :: rest => .ok (some access.toNat, rest)
  else .ok (none, bytes)

def decodeRecord (includeExternalAccess : Bool) (bytes : List UInt8) :
    Except PageFault (LogixSymbolRecord × List UInt8) := do
  let (instanceId, rest) ← readUint32 bytes
  let (name, rest) ← readName unicodeError rest
  let (symbolType, rest) ← readUint16 rest
  let (symbolAddress, rest) ← readUint32 rest
  let (symbolObjectAddress, rest) ← readUint32 rest
  let (softwareControl, rest) ← readUint32 rest
  let (dim1, rest) ← readUint32 rest
  let (dim2, rest) ← readUint32 rest
  let (dim3, rest) ← readUint32 rest
  let (externalAccess, rest) ← readExternalAccess includeExternalAccess rest
  pure ({ instanceId, name, symbolType, symbolAddress, symbolObjectAddress, softwareControl
          dimensions := (dim1, dim2, dim3)
          externalAccess
          rawHex := hexText (bytes.take (bytes.length - rest.length)) }, rest)

/-- The records of a payload; every record takes bytes, so the payload's length is fuel enough. -/
def readRecords (includeExternalAccess : Bool) :
    Nat → List UInt8 → Except PageFault (List LogixSymbolRecord)
  | _, [] => pure []
  | 0, _ :: _ => pure []
  | fuel + 1, byte :: bytes => do
    let (record, rest) ← decodeRecord unicodeError includeExternalAccess (byte :: bytes)
    let records ← readRecords includeExternalAccess fuel rest
    pure (record :: records)

def decodeRecords (payload : List UInt8) (includeExternalAccess : Bool) :
    Except CaptureFailure (List LogixSymbolRecord) :=
  match readRecords unicodeError includeExternalAccess payload.length payload with
  | .ok records => .ok records
  | .error fault =>
    .error (providerFailure "logix_symbol_page_malformed"
      (("could not decode Symbol Object page at offset " : Text) ++
        decimal (payload.length - fault.left) ++ (": " : Text) ++ fault.reason))

/-! ## Lowering -/

/-- What a symbol's name says it is, and the name without the word that says so. -/
def symbolKind (name : Text) : CipSoftwareInventoryCapability × Text :=
  if ("Program:" : Text).isPrefixOf name then (.programs, name.drop 8)
  else if ("Routine:" : Text).isPrefixOf name then (.routines, name.drop 8)
  else if ("Task:" : Text).isPrefixOf name then (.tasks, name.drop 5)
  else (.tagDefinitions, name)

def symbolParent (capability : CipSoftwareInventoryCapability) (scopeProgram : Option Text) :
    Option Text :=
  match capability with
  | .routines => scopeProgram
  | .tagDefinitions => scopeProgram
  | .programs => none
  | .tasks => none

variable {db : CharacterDatabase}

/-- A structural item; the checks of its name may refuse it. -/
def inventoryItem (capability : CipSoftwareInventoryCapability) (name : Text)
    (parent : Option Text) (instanceId : Nat) :
    Except CaptureFailure (CipSoftwareInventoryItem db) :=
  if hname : name ≠ [] ∧ Trimmed db name then
    .ok { capability, name, parent
          instanceId := some instanceId
          name_nonempty := hname.1
          name_trimmed := hname.2 }
  else .error (.value "software inventory item name must be trimmed")

def lowerRecord (scopeProgram : Option Text) (record : LogixSymbolRecord) :
    Except CaptureFailure (CipSoftwareInventoryItem db) :=
  let kind := symbolKind record.name
  inventoryItem kind.1 kind.2 (symbolParent kind.1 scopeProgram) record.instanceId

/-- A decoded page: its items, the instance to continue from, and the source records. -/
structure DecodedLogixSymbolPage (db : CharacterDatabase) where
  items : List (CipSoftwareInventoryItem db)
  nextCursor : Option Text
  records : List LogixSymbolRecord

def decodeLogixSymbolPage (payload : List UInt8) (generalStatus : Nat)
    (requestedCapabilities : List CipSoftwareInventoryCapability) (scopeProgram : Option Text)
    (includeExternalAccess : Bool) : Except CaptureFailure (DecodedLogixSymbolPage db) := do
  refuse (generalStatus ≠ statusSuccess ∧ generalStatus ≠ statusPartialTransfer)
    (providerFailure "logix_symbol_page_failed"
      (("Symbol Object page returned CIP status " : Text) ++ decimal generalStatus))
  let records ← decodeRecords unicodeError payload includeExternalAccess
  refuse (generalStatus = statusPartialTransfer ∧ records = [])
    (providerFailure "logix_symbol_partial_without_cursor"
      "partial Symbol Object page contained no continuation instance")
  let items ← records.mapM (lowerRecord scopeProgram)
  pure {
    items := items.filter fun item => item.capability ∈ requestedCapabilities
    nextCursor :=
      if generalStatus = statusPartialTransfer then
        records.getLast?.map fun last => decimal (last.instanceId + 1)
      else none
    records }

end

/-! ## A record on the wire -/

def externalAccessBytes : Option Nat → List UInt8
  | some access => [UInt8.ofNat access]
  | none => []

/-- The fields of a record, as a page holds them. -/
def LogixSymbolRecord.encode (record : LogixSymbolRecord) : List UInt8 :=
  packUint32 record.instanceId ++ (packUint16 (encodeUtf8 record.name).length ++
    (encodeUtf8 record.name ++ (packUint16 record.symbolType ++
      (packUint32 record.symbolAddress ++ (packUint32 record.symbolObjectAddress ++
        (packUint32 record.softwareControl ++ (packUint32 record.dimensions.1 ++
          (packUint32 record.dimensions.2.1 ++ (packUint32 record.dimensions.2.2 ++
            externalAccessBytes record.externalAccess)))))))))

/-- Every field fits its place on the wire, and the raw bytes are those of the fields. -/
structure LogixSymbolRecord.OnWire (includeExternalAccess : Bool) (record : LogixSymbolRecord) :
    Prop where
  instanceId_lt : record.instanceId < 2 ^ 32
  name_length : (encodeUtf8 record.name).length < 2 ^ 16
  type_lt : record.symbolType < 2 ^ 16
  address_lt : record.symbolAddress < 2 ^ 32
  objectAddress_lt : record.symbolObjectAddress < 2 ^ 32
  control_lt : record.softwareControl < 2 ^ 32
  first_lt : record.dimensions.1 < 2 ^ 32
  second_lt : record.dimensions.2.1 < 2 ^ 32
  third_lt : record.dimensions.2.2 < 2 ^ 32
  access_present : record.externalAccess.isSome = includeExternalAccess
  access_lt : ∀ access ∈ record.externalAccess, access < 2 ^ 8
  raw : record.rawHex = hexText record.encode

/-! ## A symbol on the wire -/

/-- A symbol of a controller, with the attributes a page reports. -/
structure LogixSymbol (db : CharacterDatabase) where
  instanceId : Nat
  name : Text
  symbolType : Nat := 0
  symbolAddress : Nat := 0
  symbolObjectAddress : Nat := 0
  softwareControl : Nat := 0
  dimensions : Nat × Nat × Nat := (0, 0, 0)
  externalAccess : UInt8 := 0
  instanceId_lt : instanceId < 2 ^ 32
  name_length : (encodeUtf8 name).length < 2 ^ 16
  name_nonempty : (symbolKind name).2 ≠ []
  name_trimmed : Trimmed db (symbolKind name).2
  type_lt : symbolType < 2 ^ 16 := by decide
  attributes_lt : symbolAddress < 2 ^ 32 ∧ symbolObjectAddress < 2 ^ 32 ∧
    softwareControl < 2 ^ 32 := by decide
  dimensions_lt : dimensions.1 < 2 ^ 32 ∧ dimensions.2.1 < 2 ^ 32 ∧
    dimensions.2.2 < 2 ^ 32 := by decide
  deriving DecidableEq

variable {db : CharacterDatabase}

def LogixSymbol.bytes (symbol : LogixSymbol db) (includeExternalAccess : Bool) : List UInt8 :=
  packUint32 symbol.instanceId ++ (packUint16 (encodeUtf8 symbol.name).length ++
    (encodeUtf8 symbol.name ++ (packUint16 symbol.symbolType ++
      (packUint32 symbol.symbolAddress ++ (packUint32 symbol.symbolObjectAddress ++
        (packUint32 symbol.softwareControl ++ (packUint32 symbol.dimensions.1 ++
          (packUint32 symbol.dimensions.2.1 ++ (packUint32 symbol.dimensions.2.2 ++
            if includeExternalAccess then [symbol.externalAccess] else [])))))))))

def LogixSymbol.record (symbol : LogixSymbol db) (includeExternalAccess : Bool) :
    LogixSymbolRecord where
  instanceId := symbol.instanceId
  name := symbol.name
  symbolType := symbol.symbolType
  symbolAddress := symbol.symbolAddress
  symbolObjectAddress := symbol.symbolObjectAddress
  softwareControl := symbol.softwareControl
  dimensions := symbol.dimensions
  externalAccess := if includeExternalAccess then some symbol.externalAccess.toNat else none
  rawHex := hexText (symbol.bytes includeExternalAccess)

def LogixSymbol.item (symbol : LogixSymbol db) (scopeProgram : Option Text) :
    CipSoftwareInventoryItem db where
  capability := (symbolKind symbol.name).1
  name := (symbolKind symbol.name).2
  parent := symbolParent (symbolKind symbol.name).1 scopeProgram
  instanceId := some symbol.instanceId
  name_nonempty := symbol.name_nonempty
  name_trimmed := symbol.name_trimmed

/-! ## Reading back -/

theorem readUint16_pack {value : Nat} (h : value < 2 ^ 16) (rest : List UInt8) :
    readUint16 (packUint16 value ++ rest) = .ok (value, rest) := by
  have hvalue : (UInt8.ofNat value).toNat + 256 * (UInt8.ofNat (value / 256)).toNat = value := by
    simp only [UInt8.toNat_ofNat']
    omega
  simp only [packUint16, cons_append, nil_append, readUint16, hvalue]

theorem readUint32_pack {value : Nat} (h : value < 2 ^ 32) (rest : List UInt8) :
    readUint32 (packUint32 value ++ rest) = .ok (value, rest) := by
  have hvalue : (UInt8.ofNat value).toNat + 256 * (UInt8.ofNat (value / 256)).toNat +
      65536 * ((UInt8.ofNat (value / 65536)).toNat +
        256 * (UInt8.ofNat (value / 65536 / 256)).toNat) = value := by
    simp only [UInt8.toNat_ofNat']
    omega
  simp only [packUint32, packUint16, cons_append, nil_append, readUint32, hvalue]

theorem decodeUtf8_encode (text : Text) : decodeUtf8 (encodeUtf8 text) = some text := by
  have hencode : (encodeUtf8 text).toByteArray = utf8Encode text := rfl
  rw [decodeUtf8, hencode, utf8Decode?_utf8Encode]
  simp

section

variable {unicodeError : List UInt8 → Text}

theorem readName_encode {name : Text} (h : (encodeUtf8 name).length < 2 ^ 16) (rest : List UInt8) :
    readName unicodeError (packUint16 (encodeUtf8 name).length ++ (encodeUtf8 name ++ rest)) =
      .ok (name, rest) := by
  have hlength := readUint16_pack h (encodeUtf8 name ++ rest)
  have hfits : ¬ (encodeUtf8 name ++ rest).length < (encodeUtf8 name).length := by
    rw [length_append]
    omega
  have htake : (encodeUtf8 name ++ rest).take (encodeUtf8 name).length = encodeUtf8 name :=
    take_left
  have hdrop : (encodeUtf8 name ++ rest).drop (encodeUtf8 name).length = rest := drop_left
  rw [readName, hlength]
  simp only [bind, Except.bind, refuse, if_neg hfits, htake, hdrop, decodeUtf8_encode]
  rfl

theorem readExternalAccess_bytes {includeExternalAccess : Bool} {externalAccess : Option Nat}
    (hpresent : externalAccess.isSome = includeExternalAccess)
    (hlt : ∀ access ∈ externalAccess, access < 2 ^ 8) (rest : List UInt8) :
    readExternalAccess includeExternalAccess (externalAccessBytes externalAccess ++ rest) =
      .ok (externalAccess, rest) := by
  cases externalAccess with
  | none =>
    rw [← hpresent]
    rfl
  | some access =>
    have hvalue : (UInt8.ofNat access).toNat = access := by
      have hbound := hlt access rfl
      rw [UInt8.toNat_ofNat']
      omega
    rw [← hpresent]
    show Except.ok (some (UInt8.ofNat access).toNat, rest) = _
    rw [hvalue]

theorem decodeRecord_encode {includeExternalAccess : Bool} {record : LogixSymbolRecord}
    (h : record.OnWire includeExternalAccess) (rest : List UInt8) :
    decodeRecord unicodeError includeExternalAccess (record.encode ++ rest) =
      .ok (record, rest) := by
  have hraw : (record.encode ++ rest).take ((record.encode ++ rest).length - rest.length) =
      record.encode := by
    rw [length_append, Nat.add_sub_cancel]
    exact take_left
  have hbytes : record.encode ++ rest =
      packUint32 record.instanceId ++ (packUint16 (encodeUtf8 record.name).length ++
        (encodeUtf8 record.name ++ (packUint16 record.symbolType ++
          (packUint32 record.symbolAddress ++ (packUint32 record.symbolObjectAddress ++
            (packUint32 record.softwareControl ++ (packUint32 record.dimensions.1 ++
              (packUint32 record.dimensions.2.1 ++ (packUint32 record.dimensions.2.2 ++
                (externalAccessBytes record.externalAccess ++ rest)))))))))) := by
    simp only [LogixSymbolRecord.encode, append_assoc]
  rw [hbytes] at hraw ⊢
  unfold decodeRecord
  rw [readUint32_pack h.instanceId_lt]
  simp only [bind, Except.bind, readName_encode h.name_length, readUint16_pack h.type_lt,
    readUint32_pack h.address_lt, readUint32_pack h.objectAddress_lt,
    readUint32_pack h.control_lt, readUint32_pack h.first_lt, readUint32_pack h.second_lt,
    readUint32_pack h.third_lt, readExternalAccess_bytes h.access_present h.access_lt, hraw,
    ← h.raw]
  rfl

variable (symbol : LogixSymbol db) (includeExternalAccess : Bool)

theorem record_encode :
    (symbol.record includeExternalAccess).encode = symbol.bytes includeExternalAccess := by
  cases includeExternalAccess <;>
    simp [LogixSymbolRecord.encode, LogixSymbol.record, LogixSymbol.bytes, externalAccessBytes]

theorem record_onWire :
    (symbol.record includeExternalAccess).OnWire includeExternalAccess where
  instanceId_lt := symbol.instanceId_lt
  name_length := symbol.name_length
  type_lt := symbol.type_lt
  address_lt := symbol.attributes_lt.1
  objectAddress_lt := symbol.attributes_lt.2.1
  control_lt := symbol.attributes_lt.2.2
  first_lt := symbol.dimensions_lt.1
  second_lt := symbol.dimensions_lt.2.1
  third_lt := symbol.dimensions_lt.2.2
  access_present := by cases includeExternalAccess <;> rfl
  access_lt := by
    intro access haccess
    cases includeExternalAccess with
    | false => cases haccess
    | true =>
      cases haccess
      exact symbol.externalAccess.toNat_lt
  raw := by
    rw [record_encode]
    rfl

theorem decodeRecord_bytes (rest : List UInt8) :
    decodeRecord unicodeError includeExternalAccess (symbol.bytes includeExternalAccess ++ rest) =
      .ok (symbol.record includeExternalAccess, rest) := by
  rw [← record_encode]
  exact decodeRecord_encode (record_onWire symbol includeExternalAccess) rest

theorem bytes_cons (rest : List UInt8) : ∃ byte bytes,
      symbol.bytes includeExternalAccess ++ rest = byte :: bytes := by
  simp only [LogixSymbol.bytes, packUint32, packUint16, cons_append]
  exact ⟨_, _, rfl⟩

theorem readRecords_bytes (symbols : List (LogixSymbol db)) {fuel : Nat}
    (hfuel : symbols.length ≤ fuel) :
    readRecords unicodeError includeExternalAccess fuel
        (symbols.flatMap fun symbol => symbol.bytes includeExternalAccess) =
      .ok (symbols.map fun symbol => symbol.record includeExternalAccess) := by
  induction symbols generalizing fuel with
  | nil =>
    cases fuel <;> rfl
  | cons symbol symbols ih =>
    cases fuel with
    | zero => simp at hfuel
    | succ fuel =>
      have hlater := ih (show symbols.length ≤ fuel by simpa using hfuel)
      have hrecord := @decodeRecord_bytes _ unicodeError symbol includeExternalAccess
        (symbols.flatMap fun symbol => symbol.bytes includeExternalAccess)
      obtain ⟨byte, bytes, hbytes⟩ := bytes_cons symbol includeExternalAccess
        (symbols.flatMap fun symbol => symbol.bytes includeExternalAccess)
      rw [hbytes] at hrecord
      rw [flatMap_cons, hbytes, readRecords, hrecord]
      simp only [bind, Except.bind, hlater]
      rfl

theorem length_le_bytes (symbols : List (LogixSymbol db)) :
    symbols.length ≤
      (symbols.flatMap fun symbol => symbol.bytes includeExternalAccess).length := by
  induction symbols with
  | nil => simp
  | cons symbol symbols ih =>
    obtain ⟨byte, bytes, hbytes⟩ := bytes_cons symbol includeExternalAccess
      (symbols.flatMap fun symbol => symbol.bytes includeExternalAccess)
    have hlength := congrArg List.length hbytes
    rw [length_append] at hlength
    have hpositive : 0 < (symbol.bytes includeExternalAccess).length := by
      simp [LogixSymbol.bytes, packUint32, packUint16]
    rw [flatMap_cons, length_append, length_cons]
    omega

theorem decodeRecords_bytes (symbols : List (LogixSymbol db)) :
    decodeRecords unicodeError (symbols.flatMap fun symbol => symbol.bytes includeExternalAccess)
        includeExternalAccess =
      .ok (symbols.map fun symbol => symbol.record includeExternalAccess) := by
  rw [decodeRecords, readRecords_bytes includeExternalAccess symbols
    (length_le_bytes includeExternalAccess symbols)]

theorem lowerRecord_record (scopeProgram : Option Text) :
    lowerRecord scopeProgram (symbol.record includeExternalAccess) =
      .ok (symbol.item scopeProgram) := by
  have hname : (symbolKind symbol.name).2 ≠ [] ∧ Trimmed db (symbolKind symbol.name).2 :=
    ⟨symbol.name_nonempty, symbol.name_trimmed⟩
  exact dif_pos hname

theorem mapM_lowerRecord (symbols : List (LogixSymbol db)) (includeExternalAccess : Bool)
    (scopeProgram : Option Text) :
    (symbols.map fun symbol => symbol.record includeExternalAccess).mapM
        (lowerRecord scopeProgram) =
      .ok (symbols.map fun symbol => symbol.item scopeProgram) := by
  induction symbols with
  | nil => rfl
  | cons symbol symbols ih =>
    rw [map_cons, mapM_cons, ih, lowerRecord_record]
    rfl

theorem decodeLogixSymbolPage_bytes (symbols : List (LogixSymbol db)) {generalStatus : Nat}
    (hstatus : generalStatus = statusSuccess ∨ generalStatus = statusPartialTransfer ∧ symbols ≠ [])
    (requested : List CipSoftwareInventoryCapability) (scopeProgram : Option Text)
    (includeExternalAccess : Bool) :
    decodeLogixSymbolPage unicodeError
        (symbols.flatMap fun symbol => symbol.bytes includeExternalAccess) generalStatus requested
        scopeProgram includeExternalAccess =
      .ok {
        items := (symbols.map fun symbol => symbol.item scopeProgram).filter
          fun item => item.capability ∈ requested
        nextCursor :=
          if generalStatus = statusPartialTransfer then
            symbols.getLast?.map fun last => decimal (last.instanceId + 1)
          else none
        records := symbols.map fun symbol => symbol.record includeExternalAccess } := by
  have hknown : ¬ (generalStatus ≠ statusSuccess ∧ generalStatus ≠ statusPartialTransfer) := by
    rcases hstatus with h | h <;> simp [h]
  have hcontinued : ¬ (generalStatus = statusPartialTransfer ∧
      symbols.map (fun symbol => symbol.record includeExternalAccess) = []) := by
    rintro ⟨hshort, hnone⟩
    rcases hstatus with h | h
    · rw [h] at hshort
      cases hshort
    · exact h.2 (map_eq_nil_iff.mp hnone)
  simp only [decodeLogixSymbolPage, bind, Except.bind, refuse, if_neg hknown,
    decodeRecords_bytes, if_neg hcontinued, mapM_lowerRecord, List.getLast?_map]
  cases symbols.getLast? <;> rfl

end

end TwinForge.Discovery
