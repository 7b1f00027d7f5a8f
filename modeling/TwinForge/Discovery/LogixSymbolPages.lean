import TwinForge.Discovery.LogixSymbolCodec

/-! # What a page was read from

Reading a page loses nothing: the records of a payload are the only ones whose fields are encoded
as its bytes. Lowering a record has a check of its own, which not every name on the wire passes.
-/

namespace TwinForge.Discovery

open Guards List

/-! ## Fields -/

variable {bytes rest : List UInt8}

theorem readUint16_ok {value : Nat} (h : readUint16 bytes = .ok (value, rest)) :
    value < 2 ^ 16 ∧ bytes = packUint16 value ++ rest := by
  unfold readUint16 at h
  split at h
  · next first second tail =>
    cases h
    have hfirst := first.toNat_lt
    have hsecond := second.toNat_lt
    have hlow : UInt8.ofNat (first.toNat + 256 * second.toNat) = first := by
      apply UInt8.toNat_inj.mp
      rw [UInt8.toNat_ofNat']
      omega
    have hhigh : UInt8.ofNat ((first.toNat + 256 * second.toNat) / 256) = second := by
      apply UInt8.toNat_inj.mp
      rw [UInt8.toNat_ofNat']
      omega
    have hbytes : first :: second :: rest =
        packUint16 (first.toNat + 256 * second.toNat) ++ rest := by
      rw [packUint16, hlow, hhigh]
      rfl
    exact ⟨by omega, hbytes⟩
  · cases h

theorem readUint32_ok {value : Nat} (h : readUint32 bytes = .ok (value, rest)) :
    value < 2 ^ 32 ∧ bytes = packUint32 value ++ rest := by
  unfold readUint32 at h
  split at h
  · next first second third fourth tail =>
    cases h
    have hlow : readUint16 [first, second] = .ok (first.toNat + 256 * second.toNat, []) := rfl
    have hhigh : readUint16 [third, fourth] = .ok (third.toNat + 256 * fourth.toNat, []) := rfl
    have ⟨hlowBound, hlowBytes⟩ := readUint16_ok hlow
    have ⟨hhighBound, hhighBytes⟩ := readUint16_ok hhigh
    -- The two halves do not overlap, so each is packed as on its own.
    have hlowPack : packUint16 (first.toNat + 256 * second.toNat +
        65536 * (third.toNat + 256 * fourth.toNat)) =
          packUint16 (first.toNat + 256 * second.toNat) := by
      unfold packUint16
      congr 1
      · apply UInt8.toNat_inj.mp
        simp only [UInt8.toNat_ofNat']
        omega
      · congr 1
        apply UInt8.toNat_inj.mp
        simp only [UInt8.toNat_ofNat']
        omega
    have hquotient : (first.toNat + 256 * second.toNat +
        65536 * (third.toNat + 256 * fourth.toNat)) / 65536 =
          third.toNat + 256 * fourth.toNat := by
      omega
    rw [append_nil] at hlowBytes hhighBytes
    have hbytes : first :: second :: third :: fourth :: rest =
        packUint32 (first.toNat + 256 * second.toNat +
          65536 * (third.toNat + 256 * fourth.toNat)) ++ rest := by
      rw [packUint32, hlowPack, hquotient, ← hlowBytes, ← hhighBytes]
      rfl
    exact ⟨by omega, hbytes⟩
  · cases h

section

variable {unicodeError : List UInt8 → Text}

theorem readName_ok {name : Text} (h : readName unicodeError bytes = .ok (name, rest)) :
    (encodeUtf8 name).length < 2 ^ 16 ∧
      bytes = packUint16 (encodeUtf8 name).length ++ (encodeUtf8 name ++ rest) := by
  obtain ⟨⟨nameLength, tail⟩, hlength, h⟩ := bind_eq_ok.mp h
  have ⟨hbound, hbytes⟩ := readUint16_ok hlength
  obtain ⟨_, hfits, h⟩ := bind_eq_ok.mp h
  rw [refuse_eq_ok, not_lt] at hfits
  split at h
  · cases h
  · next decoded hdecoded =>
    cases h
    have hname : tail.take nameLength = encodeUtf8 name := Points.decodeUtf8_eq_some hdecoded
    have hsize : (encodeUtf8 name).length = nameLength := by
      rw [← hname, length_take]
      omega
    rw [hsize, ← hname, take_append_drop]
    exact ⟨hbound, hbytes⟩

theorem readExternalAccess_ok {includeExternalAccess : Bool} {externalAccess : Option Nat}
    (h : readExternalAccess includeExternalAccess bytes = .ok (externalAccess, rest)) :
    externalAccess.isSome = includeExternalAccess ∧
      (∀ access ∈ externalAccess, access < 2 ^ 8) ∧
        bytes = externalAccessBytes externalAccess ++ rest := by
  cases includeExternalAccess with
  | false =>
    cases h
    exact ⟨rfl, by simp, rfl⟩
  | true =>
    cases bytes with
    | nil => cases h
    | cons access tail =>
      cases h
      have hlt : ∀ value ∈ some access.toNat, value < 2 ^ 8 := by
        intro value hvalue
        cases hvalue
        exact access.toNat_lt
      have hbytes : access :: rest = externalAccessBytes (some access.toNat) ++ rest := by
        simp [externalAccessBytes]
      exact ⟨rfl, hlt, hbytes⟩

theorem decodeRecord_ok {includeExternalAccess : Bool} {record : LogixSymbolRecord}
    (h : decodeRecord unicodeError includeExternalAccess bytes = .ok (record, rest)) :
    record.OnWire includeExternalAccess ∧ bytes = record.encode ++ rest := by
  obtain ⟨⟨instanceId, bytes₁⟩, hinstance, h⟩ := bind_eq_ok.mp h
  obtain ⟨⟨name, bytes₂⟩, hname, h⟩ := bind_eq_ok.mp h
  obtain ⟨⟨symbolType, bytes₃⟩, htype, h⟩ := bind_eq_ok.mp h
  obtain ⟨⟨symbolAddress, bytes₄⟩, haddress, h⟩ := bind_eq_ok.mp h
  obtain ⟨⟨objectAddress, bytes₅⟩, hobject, h⟩ := bind_eq_ok.mp h
  obtain ⟨⟨control, bytes₆⟩, hcontrol, h⟩ := bind_eq_ok.mp h
  obtain ⟨⟨first, bytes₇⟩, hfirst, h⟩ := bind_eq_ok.mp h
  obtain ⟨⟨second, bytes₈⟩, hsecond, h⟩ := bind_eq_ok.mp h
  obtain ⟨⟨third, bytes₉⟩, hthird, h⟩ := bind_eq_ok.mp h
  obtain ⟨⟨access, tail⟩, haccess, h⟩ := bind_eq_ok.mp h
  cases h
  have ⟨hinstanceBound, hinstanceBytes⟩ := readUint32_ok hinstance
  have ⟨hnameBound, hnameBytes⟩ := readName_ok hname
  have ⟨htypeBound, htypeBytes⟩ := readUint16_ok htype
  have ⟨haddressBound, haddressBytes⟩ := readUint32_ok haddress
  have ⟨hobjectBound, hobjectBytes⟩ := readUint32_ok hobject
  have ⟨hcontrolBound, hcontrolBytes⟩ := readUint32_ok hcontrol
  have ⟨hfirstBound, hfirstBytes⟩ := readUint32_ok hfirst
  have ⟨hsecondBound, hsecondBytes⟩ := readUint32_ok hsecond
  have ⟨hthirdBound, hthirdBytes⟩ := readUint32_ok hthird
  have ⟨hpresent, haccessBound, haccessBytes⟩ := readExternalAccess_ok haccess
  let fields : LogixSymbolRecord :=
    { instanceId, name, symbolType, symbolAddress
      symbolObjectAddress := objectAddress
      softwareControl := control
      dimensions := (first, second, third)
      externalAccess := access
      rawHex := [] }
  have hbytes : bytes = fields.encode ++ rest := by
    subst hinstanceBytes hnameBytes htypeBytes haddressBytes hobjectBytes hcontrolBytes
      hfirstBytes hsecondBytes hthirdBytes haccessBytes
    simp only [LogixSymbolRecord.encode, append_assoc, fields]
  have hraw : bytes.take (bytes.length - rest.length) = fields.encode := by
    rw [hbytes, length_append, Nat.add_sub_cancel]
    exact take_left
  constructor
  · exact {
      instanceId_lt := hinstanceBound
      name_length := hnameBound
      type_lt := htypeBound
      address_lt := haddressBound
      objectAddress_lt := hobjectBound
      control_lt := hcontrolBound
      first_lt := hfirstBound
      second_lt := hsecondBound
      third_lt := hthirdBound
      access_present := hpresent
      access_lt := haccessBound
      raw := congrArg hexText hraw }
  · exact hbytes

/-! ## Records -/

/-- The records of a payload fit the wire one after another, with no byte left over. -/
def Encodes (includeExternalAccess : Bool) (payload : List UInt8)
    (records : List LogixSymbolRecord) : Prop :=
  (∀ record ∈ records, record.OnWire includeExternalAccess) ∧
    records.flatMap LogixSymbolRecord.encode = payload

theorem encode_pos (record : LogixSymbolRecord) : 0 < record.encode.length := by
  simp [LogixSymbolRecord.encode, packUint32, packUint16]

theorem readRecords_ok {includeExternalAccess : Bool} {fuel : Nat} {payload : List UInt8}
    {records : List LogixSymbolRecord} (hfuel : payload.length ≤ fuel)
    (h : readRecords unicodeError includeExternalAccess fuel payload = .ok records) :
    Encodes includeExternalAccess payload records := by
  induction fuel generalizing payload records with
  | zero =>
    have hempty : payload = [] := length_eq_zero_iff.mp (by omega)
    subst hempty
    cases h
    exact ⟨by simp, rfl⟩
  | succ fuel ih =>
    cases payload with
    | nil =>
      cases h
      exact ⟨by simp, rfl⟩
    | cons byte bytes =>
      obtain ⟨⟨record, rest⟩, hrecord, h⟩ := bind_eq_ok.mp h
      obtain ⟨later, hlater, h⟩ := bind_eq_ok.mp h
      cases h
      have ⟨honWire, hbytes⟩ := decodeRecord_ok hrecord
      have hshorter : rest.length ≤ fuel := by
        have hlength := congrArg List.length hbytes
        have hpos := encode_pos record
        rw [length_append] at hlength
        omega
      have ⟨hrest, hpayload⟩ := ih hshorter hlater
      constructor
      · exact forall_mem_cons.mpr ⟨honWire, hrest⟩
      · rw [flatMap_cons, hpayload, hbytes]

theorem readRecords_encodes {includeExternalAccess : Bool} {fuel : Nat} {payload : List UInt8}
    {records : List LogixSymbolRecord} (hfuel : payload.length ≤ fuel)
    (h : Encodes includeExternalAccess payload records) :
    readRecords unicodeError includeExternalAccess fuel payload = .ok records := by
  induction records generalizing fuel payload with
  | nil =>
    obtain ⟨-, rfl⟩ := h
    cases fuel <;> rfl
  | cons record records ih =>
    obtain ⟨honWire, rfl⟩ := h
    have hpos := encode_pos record
    rw [flatMap_cons, length_append] at hfuel
    have hrecord := @decodeRecord_encode unicodeError includeExternalAccess record
      (honWire record (mem_cons_self ..)) (records.flatMap LogixSymbolRecord.encode)
    have hlater : Encodes includeExternalAccess (records.flatMap LogixSymbolRecord.encode)
        records :=
      ⟨fun later hmember => honWire later (mem_cons_of_mem _ hmember), rfl⟩
    rw [flatMap_cons]
    cases hbytes : record.encode ++ records.flatMap LogixSymbolRecord.encode with
    | nil =>
      have hlength := congrArg List.length hbytes
      rw [length_append, length_nil] at hlength
      omega
    | cons byte bytes =>
      cases fuel with
      | zero => omega
      | succ fuel =>
        rw [hbytes] at hrecord
        have hrest := @ih fuel (records.flatMap LogixSymbolRecord.encode) (by omega) hlater
        rw [readRecords, hrecord]
        simp only [bind, Except.bind, hrest]
        rfl

theorem decodeRecords_eq_ok {includeExternalAccess : Bool} {payload : List UInt8}
    {records : List LogixSymbolRecord} :
    decodeRecords unicodeError payload includeExternalAccess = .ok records ↔
      Encodes includeExternalAccess payload records := by
  unfold decodeRecords
  constructor
  · intro h
    split at h
    · next read hread =>
      cases h
      exact readRecords_ok le_rfl hread
    · cases h
  · intro h
    rw [readRecords_encodes le_rfl h]

theorem decodeRecords_error {includeExternalAccess : Bool} {payload : List UInt8}
    {failure : CaptureFailure}
    (h : decodeRecords unicodeError payload includeExternalAccess = .error failure) :
    ∃ error, failure = .provider error := by
  unfold decodeRecords at h
  split at h
  · cases h
  · cases h
    exact ⟨_, rfl⟩

end

/-! ## Items -/

variable {db : CharacterDatabase}

/-- A name that an item may have, once the word for its kind is taken off. -/
def Nameable (db : CharacterDatabase) (record : LogixSymbolRecord) : Prop :=
  (symbolKind record.name).2 ≠ [] ∧ Trimmed db (symbolKind record.name).2

structure Lowers (scopeProgram : Option Text) (record : LogixSymbolRecord)
    (item : CipSoftwareInventoryItem db) : Prop where
  capability : item.capability = (symbolKind record.name).1
  name : item.name = (symbolKind record.name).2
  parent : item.parent = symbolParent (symbolKind record.name).1 scopeProgram
  instanceId : item.instanceId = some record.instanceId

theorem lowerRecord_ok {scopeProgram : Option Text} {record : LogixSymbolRecord}
    {item : CipSoftwareInventoryItem db} (h : lowerRecord scopeProgram record = .ok item) :
    Nameable db record ∧ Lowers scopeProgram record item := by
  simp only [lowerRecord, inventoryItem] at h
  split at h
  · next hname =>
    cases h
    exact ⟨hname, ⟨rfl, rfl, rfl, rfl⟩⟩
  · cases h

theorem lowerRecord_error {scopeProgram : Option Text} {record : LogixSymbolRecord}
    {failure : CaptureFailure}
    (h : (lowerRecord scopeProgram record : Except _ (CipSoftwareInventoryItem db)) =
      .error failure) :
    ¬ Nameable db record ∧ failure = .value "software inventory item name must be trimmed" := by
  simp only [lowerRecord, inventoryItem] at h
  split at h
  · cases h
  · next hname =>
    cases h
    exact ⟨hname, rfl⟩

theorem mapM_lowerRecord_cases (scopeProgram : Option Text) (records : List LogixSymbolRecord) :
    ((∀ record ∈ records, Nameable db record) ∧
      ∃ items : List (CipSoftwareInventoryItem db),
        records.mapM (lowerRecord scopeProgram) = .ok items ∧
          List.Forall₂ (Lowers scopeProgram) records items) ∨
    ((¬ ∀ record ∈ records, Nameable db record) ∧
      (records.mapM (lowerRecord scopeProgram) : Except _ (List (CipSoftwareInventoryItem db))) =
        .error (.value "software inventory item name must be trimmed")) := by
  induction records with
  | nil => exact .inl ⟨by simp, [], rfl, .nil⟩
  | cons record records ih =>
    rw [mapM_cons, forall_mem_cons]
    cases hrecord : (lowerRecord scopeProgram record :
        Except _ (CipSoftwareInventoryItem db)) with
    | error failure =>
      obtain ⟨hname, rfl⟩ := lowerRecord_error hrecord
      exact .inr ⟨fun hall => hname hall.1, rfl⟩
    | ok item =>
      have ⟨hname, hlowers⟩ := lowerRecord_ok hrecord
      obtain ⟨hnames, items, hitems, hbeside⟩ | ⟨hunnamed, hfailed⟩ := ih
      · left
        refine ⟨⟨hname, hnames⟩, item :: items, ?_, .cons hlowers hbeside⟩
        simp only [bind, Except.bind, hitems]
        rfl
      · right
        refine ⟨fun hall => hunnamed hall.2, ?_⟩
        simp only [bind, Except.bind, hfailed]

/-! ## Pages -/

/-- The page of a payload: every byte is in a record, and every requested record has its item. -/
structure LosslessPage (payload : List UInt8)
    (requestedCapabilities : List CipSoftwareInventoryCapability) (scopeProgram : Option Text)
    (includeExternalAccess : Bool) (page : DecodedLogixSymbolPage db) : Prop where
  records : Encodes includeExternalAccess payload page.records
  raw : page.records.flatMap LogixSymbolRecord.rawHex = hexText payload
  items : List.Forall₂ (Lowers scopeProgram)
    (page.records.filter fun record => (symbolKind record.name).1 ∈ requestedCapabilities)
    page.items

/-- A page is lossless, or it is refused with a provider's error. -/
def TotalAndLossless (payload : List UInt8)
    (requestedCapabilities : List CipSoftwareInventoryCapability) (scopeProgram : Option Text)
    (includeExternalAccess : Bool) : Except CaptureFailure (DecodedLogixSymbolPage db) → Prop
  | .ok page => LosslessPage payload requestedCapabilities scopeProgram includeExternalAccess page
  | .error failure => ∃ error, failure = .provider error

theorem rawHex_encodes {includeExternalAccess : Bool} {payload : List UInt8}
    {records : List LogixSymbolRecord} (h : Encodes includeExternalAccess payload records) :
    records.flatMap LogixSymbolRecord.rawHex = hexText payload := by
  obtain ⟨honWire, rfl⟩ := h
  rw [hexText, flatMap_assoc]
  exact flatMap_congr fun record hmember => (honWire record hmember).raw

theorem filter_lowers {scopeProgram : Option Text}
    (requested : List CipSoftwareInventoryCapability) {records : List LogixSymbolRecord}
    {items : List (CipSoftwareInventoryItem db)}
    (h : List.Forall₂ (Lowers scopeProgram) records items) :
    List.Forall₂ (Lowers scopeProgram)
      (records.filter fun record => (symbolKind record.name).1 ∈ requested)
      (items.filter fun item => item.capability ∈ requested) := by
  induction h with
  | nil => exact .nil
  | @cons record item records items hlowers _ ih =>
    simp only [filter_cons, hlowers.capability]
    split
    · exact .cons hlowers ih
    · exact ih

/-- A page is read without loss, or refused with a provider's error, exactly when every name it
holds is one that an item may have: the lowering's own check of a name is not caught. -/
theorem decodeLogixSymbolPage_lossless_iff (unicodeError : List UInt8 → Text)
    (payload : List UInt8) (generalStatus : Nat)
    (requestedCapabilities : List CipSoftwareInventoryCapability) (scopeProgram : Option Text)
    (includeExternalAccess : Bool) :
    TotalAndLossless payload requestedCapabilities scopeProgram includeExternalAccess
        (decodeLogixSymbolPage unicodeError payload generalStatus requestedCapabilities
          scopeProgram includeExternalAccess : Except _ (DecodedLogixSymbolPage db)) ↔
      (generalStatus = statusSuccess ∨ generalStatus = statusPartialTransfer →
        ∀ records, Encodes includeExternalAccess payload records →
          ∀ record ∈ records, Nameable db record) := by
  unfold decodeLogixSymbolPage
  by_cases hstatus : generalStatus = statusSuccess ∨ generalStatus = statusPartialTransfer
  · have hknown : ¬ (generalStatus ≠ statusSuccess ∧ generalStatus ≠ statusPartialTransfer) := by
      tauto
    simp only [refuse, if_neg hknown]
    cases hrecords : decodeRecords unicodeError payload includeExternalAccess with
    | error failure =>
      have hprovider := decodeRecords_error hrecords
      constructor
      · intro _ _ records hencodes
        rw [decodeRecords_eq_ok.mpr hencodes] at hrecords
        cases hrecords
      · intro _
        exact hprovider
    | ok records =>
      have hencodes := decodeRecords_eq_ok.mp hrecords
      -- The records that a payload encodes are those that are read from it.
      have hnames : (∀ encoded, Encodes includeExternalAccess payload encoded →
          ∀ record ∈ encoded, Nameable db record) ↔ ∀ record ∈ records, Nameable db record := by
        constructor
        · intro h
          exact h records hencodes
        · intro h encoded hencoded
          have hsame := (@decodeRecords_eq_ok unicodeError includeExternalAccess payload _).mpr hencoded
          rw [hrecords] at hsame
          cases hsame
          exact h
      rw [imp_iff_right hstatus, hnames]
      by_cases hempty : generalStatus = statusPartialTransfer ∧ records = []
      · have hnone : ∀ record ∈ records, Nameable db record := by
          rw [hempty.2]
          simp
        simp only [bind, Except.bind, if_pos hempty]
        exact ⟨fun _ => hnone, fun _ => ⟨_, rfl⟩⟩
      · simp only [bind, Except.bind, if_neg hempty]
        obtain ⟨hnamed, items, hitems, hlowers⟩ | ⟨hunnamed, hfailed⟩ :=
          @mapM_lowerRecord_cases db scopeProgram records
        · have hpage : LosslessPage payload requestedCapabilities scopeProgram
              includeExternalAccess {
                items := items.filter fun item => item.capability ∈ requestedCapabilities
                nextCursor :=
                  if generalStatus = statusPartialTransfer then
                    records.getLast?.map fun last => decimal (last.instanceId + 1)
                  else none
                records } :=
            ⟨hencodes, rawHex_encodes hencodes, filter_lowers requestedCapabilities hlowers⟩
          simp only [hitems]
          exact ⟨fun _ => hnamed, fun _ => hpage⟩
        · have hrefused : ¬ ∃ error, CaptureFailure.value
              "software inventory item name must be trimmed" = .provider error := by
            intro hprovider
            obtain ⟨error, herror⟩ := hprovider
            cases herror
          simp only [hfailed]
          exact ⟨fun h => absurd h hrefused, fun h => absurd h hunnamed⟩
  · have hunknown : generalStatus ≠ statusSuccess ∧ generalStatus ≠ statusPartialTransfer := by
      tauto
    simp only [refuse, if_pos hunknown]
    exact ⟨fun _ h => absurd h hstatus, fun _ => ⟨_, rfl⟩⟩

/-- A symbol without a name is refused by the lowering, with an error that is not a provider's. -/
theorem unnamedSymbol_not_lossless :
    ¬ TotalAndLossless (List.replicate 32 0) [] none false
      (decodeLogixSymbolPage (fun _ => []) (List.replicate 32 0) statusSuccess [] none false :
        Except _ (DecodedLogixSymbolPage Ascii.database)) := by
  have hpage : (decodeLogixSymbolPage (fun _ => []) (List.replicate 32 0) statusSuccess [] none
      false : Except _ (DecodedLogixSymbolPage Ascii.database)) =
        .error (.value "software inventory item name must be trimmed") := by
    rfl
  rw [hpage]
  intro h
  obtain ⟨error, herror⟩ := h
  cases herror

end TwinForge.Discovery
