import TwinForge.Discovery.CipRoutes
import TwinForge.Discovery.SnmprecLinks

/-! # Hardware addresses of a live device

A PySNMP octet string becomes text where its bytes are printable UTF-8 and hexadecimal digits
elsewhere. The lowering puts colons into whichever it gets, so an address whose octets are
printable is not reported by its octets; the index of a forwarding table always is.
-/

namespace TwinForge.Discovery.Snmprec

open List

/-- A PySNMP value: its class, and what `int`, `prettyPrint` and `asOctets` give. -/
structure PySnmpRecord where
  typeName : Text
  integer : Int := 0
  prettyPrint : Text := []
  octets : List UInt8 := []
deriving DecidableEq, Repr

def integerTypeNames : List Text :=
  ["Integer", "Integer32", "Counter32", "Counter64", "Gauge32", "TimeTicks", "Unsigned32"]

def typeCodes : List (Text × Text) :=
  [("Counter32", "65"), ("Gauge32", "66"), ("Unsigned32", "66"), ("TimeTicks", "67"),
   ("Counter64", "70")]

/-- A control character other than tab, line feed and return. -/
def isControl (c : Char) : Bool := c < ' ' && !(c = '\t' || c = '\r' || c = '\n')

def value (record : PySnmpRecord) : SnmprecValue :=
  if record.typeName ∈ integerTypeNames then
    ⟨(typeCodes.lookup record.typeName).getD "2", .integer record.integer⟩
  else if record.typeName = "ObjectIdentifier" then ⟨"6", .text record.prettyPrint⟩
  else if record.typeName = "IpAddress" then ⟨"64", .text record.prettyPrint⟩
  else if record.typeName = "OctetString" then
    match Points.decodeUtf8 record.octets with
    | none => ⟨"4x", .text (hexText record.octets)⟩
    | some text =>
      if text.any isControl then ⟨"4x", .text (hexText record.octets)⟩ else ⟨"4", .text text⟩
  else ⟨record.typeName, .text record.prettyPrint⟩

/-- The records of a walk: `records[oid.prettyPrint()] = _value(value)` for each varbind. -/
def liveRecords (varBinds : List (Text × PySnmpRecord)) : Records :=
  Dictionary.ofItems Prod.fst (fun varBind => value varBind.2) varBinds

/-! ## Addresses -/

structure MacAddress where
  octets : List UInt8
  six : octets.length = 6

namespace MacAddress

/-- The octets in two hexadecimal digits each, with colons. -/
def text (address : MacAddress) : Text :=
  joinText ":" (address.octets.map fun octet => Ascii.hexByte octet.toNat)

/-- The octets as the index of a table row. -/
def index (address : MacAddress) : Text :=
  joinText "." (address.octets.map fun octet => decimal octet.toNat)

def reported (address : MacAddress) : PySnmpRecord :=
  { typeName := "OctetString", octets := address.octets }

/-- The octets are text without control characters. -/
def Printable (address : MacAddress) : Prop :=
  ∃ text, Points.decodeUtf8 address.octets = some text ∧ text.any isControl = false

/-- The live reader gives the address its text at an interface, as a chassis and in the
forwarding table. -/
def Faithful (db : CharacterDatabase) (address : MacAddress) : Prop :=
  ∀ varBinds target capturedAt node,
    buildSnmpNode db target capturedAt (liveRecords varBinds) = .ok node →
    (∀ interface ∈ node.interfaces,
      (liveRecords varBinds).get? (below (below ifTable "6") (Json.writeInt interface.index)) =
        some (value address.reported) → interface.macAddress = some address.text) ∧
    (∀ neighbour ∈ node.neighbours, ∀ oid, neighbour.rawOids.map Prod.fst = [oid] →
      (liveRecords varBinds).get? oid = some (value address.reported) →
        neighbour.remoteChassisId = address.text) ∧
    ∀ entry ∈ node.forwardingEntries, ∀ oid, entry.rawOids.map Prod.fst = [oid] →
      suffixOf oid (below bridgeFdb "1") = some address.index → entry.macAddress = address.text

variable {address : MacAddress}

theorem value_reported : value address.reported =
    match Points.decodeUtf8 address.octets with
    | none => ⟨"4x", .text (hexText address.octets)⟩
    | some text =>
      if text.any isControl then ⟨"4x", .text (hexText address.octets)⟩ else ⟨"4", .text text⟩ := by
  have hinteger : ("OctetString" : Text) ∉ integerTypeNames := by decide
  have hidentifier : ("OctetString" : Text) ≠ "ObjectIdentifier" := by decide
  have haddress : ("OctetString" : Text) ≠ "IpAddress" := by decide
  unfold value
  show (if ("OctetString" : Text) ∈ integerTypeNames then _ else _) = _
  rw [if_neg hinteger]
  show (if ("OctetString" : Text) = "ObjectIdentifier" then _ else _) = _
  rw [if_neg hidentifier]
  show (if ("OctetString" : Text) = "IpAddress" then _ else _) = _
  rw [if_neg haddress]
  exact if_pos rfl

theorem value_hex (h : ¬ address.Printable) :
    value address.reported = ⟨"4x", .text (hexText address.octets)⟩ := by
  rw [value_reported]
  cases hdecode : Points.decodeUtf8 address.octets with
  | none => rfl
  | some text =>
    have hcontrol : text.any isControl = true := by
      cases hany : text.any isControl with
      | true => rfl
      | false => exact absurd ⟨text, hdecode, hany⟩ h
    exact if_pos hcontrol

/-! ## Text -/

theorem joinText_cons (separator first second : Text) (rest : List Text) :
    joinText separator (first :: second :: rest) =
      first ++ (separator ++ joinText separator (second :: rest)) := by
  simp [joinText, intercalate]

theorem pairs_hexText (octets : List UInt8) :
    pairs (hexText octets) = octets.map fun octet => Ascii.hexByte octet.toNat := by
  induction octets with
  | nil => rfl
  | cons octet octets ih =>
    show Ascii.hexByte octet.toNat :: pairs (hexText octets) = _
    rw [ih]
    rfl

theorem hexText_length (octets : List UInt8) : (hexText octets).length = 2 * octets.length := by
  induction octets with
  | nil => rfl
  | cons octet octets ih =>
    show (hexText octets).length + 2 = 2 * (octets.length + 1)
    omega

theorem macText_hexText (octets : List UInt8) : macText (hexText octets) =
    joinText ":" (octets.map fun octet => Ascii.hexByte octet.toNat) := by
  have hlength := hexText_length octets
  rw [macText, if_neg (by omega), pairs_hexText]

/-- A separator of one character makes the pairs of a text at most half as long again. -/
theorem pairs_length (s : Text) : (joinText ":" (pairs s)).length ≤ 2 * s.length := by
  induction s using pairs.induct with
  | case1 first second rest ih =>
    rw [pairs]
    cases hrest : pairs rest with
    | nil => simp [joinText, intercalate]
    | cons pair more =>
      rw [hrest] at ih
      rw [joinText_cons, length_append, length_append]
      show 2 + (1 + (joinText ":" (pair :: more)).length) ≤ 2 * (rest.length + 1 + 1)
      omega
  | case2 s hshort =>
    have hnone : pairs s = [] := by
      rcases s with _ | ⟨first, _ | ⟨second, rest⟩⟩
      · rfl
      · rfl
      · exact absurd rfl (hshort first second rest)
    rw [hnone]
    exact Nat.zero_le _

theorem macText_length (s : Text) : (macText s).length ≤ 2 * s.length := by
  unfold macText
  split
  · omega
  · exact pairs_length s

theorem text_length (address : MacAddress) : address.text.length = 17 := by
  have ⟨octets, hsix⟩ := address
  match octets, hsix with
  | [a, b, c, d, e, f], _ => rfl

theorem length_le_octets {octets : List UInt8} {s : Text} (h : Points.decodeUtf8 octets = some s) :
    s.length ≤ octets.length := by
  rw [Points.decodeUtf8_eq_some h]
  clear h
  induction s with
  | nil => exact Nat.zero_le _
  | cons c s ih =>
    have hpos : 0 < (String.utf8EncodeChar c).length := by
      rw [String.length_utf8EncodeChar]
      exact Char.utf8Size_pos c
    show s.length + 1 ≤ (String.utf8EncodeChar c ++ Points.utf8Bytes s).length
    rw [length_append]
    omega

/-! ## Indexes -/

theorem hexOctet_byte (octet : UInt8) : hexOctet (octet.toNat : Int) = Ascii.hexByte octet.toNat := by
  have hbytes : ∀ n : Fin 256, hexOctet (n.val : Int) = Ascii.hexByte n.val := by decide +kernel
  exact hbytes ⟨octet.toNat, octet.toNat_lt⟩

theorem splitDots_decimals {numbers : List Nat} (h : numbers ≠ []) :
    splitDots (joinText "." (numbers.map decimal)) = numbers.map decimal := by
  have hplain : ∀ n : Nat, ∀ c ∈ decimal n, (c == '.') = false := by
    intro n c hc
    cases hdot : c == '.' with
    | false => rfl
    | true =>
      rw [beq_iff_eq.mp hdot] at hc
      exact absurd hc (decimal_free (by decide))
  induction numbers with
  | nil => exact absurd rfl h
  | cons n numbers ih =>
    cases numbers with
    | nil =>
      have hsingle : joinText "." [decimal n] = decimal n := by
        simp [joinText, intercalate]
      show splitDots (joinText "." [decimal n]) = [decimal n]
      rw [hsingle]
      exact Lines.pieces_whole (hplain n)
    | cons other numbers =>
      have hrest := ih (cons_ne_nil _ _)
      show splitDots (joinText "." (decimal n :: decimal other :: numbers.map decimal)) = _
      rw [joinText_cons]
      show Lines.pieces (· == '.') (decimal n ++ '.' :: _) = _
      rw [Lines.pieces_cut (hplain n) (by decide)]
      show decimal n :: splitDots (joinText "." ((other :: numbers).map decimal)) = _
      rw [hrest]
      rfl

theorem mapM_decimals (db : CharacterDatabase) (octets : List UInt8) :
    (octets.map fun octet => decimal octet.toNat).mapM (parseInt db) =
      .ok (octets.map fun octet => (octet.toNat : Int)) := by
  induction octets with
  | nil => rfl
  | cons octet octets ih =>
    have hfirst : parseInt db (decimal octet.toNat) = .ok (octet.toNat : Int) :=
      parseInt_eq_ok.mpr (readInt_decimal octet.toNat)
    rw [map_cons, mapM_cons, hfirst, ih]
    rfl

theorem index_octets (db : CharacterDatabase) (address : MacAddress) :
    (splitDots address.index).mapM (parseInt db) =
      .ok (address.octets.map fun octet => (octet.toNat : Int)) := by
  have hnonempty : address.octets.map UInt8.toNat ≠ [] := by
    have hsix := address.six
    intro hnil
    rw [map_eq_nil_iff.mp hnil] at hsix
    cases hsix
  have hsplit := splitDots_decimals hnonempty
  rw [map_map] at hsplit
  have hindex : splitDots address.index = address.octets.map fun octet => decimal octet.toNat := hsplit
  rw [hindex, mapM_decimals]

/-! ## The three places -/

variable {db : CharacterDatabase} {records : Records}

theorem interface_text (h : ¬ address.Printable) {interface : SnmpInterfaceObservation}
    (hmem : interface ∈ interfaces db records)
    (hrecord : records.get? (below (below ifTable "6") (Json.writeInt interface.index)) =
      some (value address.reported)) : interface.macAddress = some address.text := by
  have ⟨index, _, hinterface⟩ := mem_map.mp hmem
  subst hinterface
  have hcolumn : records.get? (below (below ifTable "6") (Json.writeInt index)) =
      some (value address.reported) := hrecord
  show (stringAt records (below (below ifTable "6") (Json.writeInt index))).map macText = _
  rw [stringAt, hcolumn, value_hex h]
  show some (macText (hexText address.octets)) = _
  rw [macText_hexText]
  rfl

theorem text_ne_nil (address : MacAddress) : address.text ≠ [] := by
  intro hnil
  have hlength := text_length address
  rw [hnil] at hlength
  cases hlength

theorem neighbour_text (h : ¬ address.Printable) {found : List SnmpInterfaceObservation}
    {all : List SnmpNeighbourObservation} (hall : neighbours db records found = .ok all)
    {neighbour : SnmpNeighbourObservation} (hmem : neighbour ∈ all) {oid : Text}
    (hoid : neighbour.rawOids.map Prod.fst = [oid])
    (hrecord : records.get? oid = some (value address.reported)) :
    neighbour.remoteChassisId = address.text := by
  simp only [neighbours, Guards.bind_eq_ok] at hall
  rcases hall with ⟨ports, _, hfound⟩
  rcases Guards.exists_item (Guards.mapM_eq_ok.mp hfound) hmem with ⟨row, hrow, hread⟩
  rcases mem_filterMap.mp hrow with ⟨⟨source, record⟩, hentry, hmatch⟩
  simp only [Snmprec.neighbour, Guards.bind_eq_ok, Guards.pure_eq_ok] at hread
  rcases hread with ⟨_, _, hneighbour⟩
  simp only at hmatch
  have hsource : row.1 = source ∧ row.2.1 = record := by
    split at hmatch
    · cases hmatch
    · split at hmatch
      · cases hmatch
        exact ⟨rfl, rfl⟩
      · cases hmatch
  have hsame : row.1 = oid := by
    rw [← hneighbour] at hoid
    exact (List.cons.inj hoid).1
  have hvalue : record = value address.reported := by
    have hstored := (Dictionary.mem_entries_iff records source record).mp hentry
    rw [← hsource.1, hsame, hrecord] at hstored
    exact (Option.some.inj hstored).symm
  have hraw : row.2.1.value.str = hexText address.octets := by
    rw [hsource.2, hvalue, value_hex h]
    rfl
  have htext : macText (hexText address.octets) = address.text := macText_hexText _
  rw [← hneighbour]
  show (if macText row.2.1.value.str = [] then row.2.1.value.str else macText row.2.1.value.str) = _
  rw [hraw, htext, if_neg (text_ne_nil address)]

theorem forwarding_text {entries : List SnmpForwardingEntryObservation}
    (hall : forwardingEntries db records = .ok entries) {entry : SnmpForwardingEntryObservation}
    (hmem : entry ∈ entries) {oid : Text} (hoid : entry.rawOids.map Prod.fst = [oid])
    (hindex : suffixOf oid (below bridgeFdb "1") = some address.index) :
    entry.macAddress = address.text := by
  simp only [forwardingEntries, Guards.bind_eq_ok] at hall
  rcases hall with ⟨ports, _, hfound⟩
  rcases Guards.exists_item (Guards.mapM_eq_ok.mp hfound) hmem with ⟨row, hrow, hread⟩
  rcases mem_filterMap.mp hrow with ⟨⟨source, record⟩, _, hmatch⟩
  simp only at hmatch
  have hsource : suffixOf row.1 (below bridgeFdb "1") = some row.2.2.1 := by
    split at hmatch
    · cases hmatch
    · next suffix hsuffix =>
      split at hmatch
      · cases hmatch
      · cases hmatch
        exact hsuffix
  simp only [forwardingEntry, Guards.bind_eq_ok, Guards.pure_eq_ok] at hread
  rcases hread with ⟨octets, hoctets, hentry⟩
  have hsame : row.1 = oid := by
    rw [← hentry] at hoid
    exact (List.cons.inj hoid).1
  rw [hsame, hindex] at hsource
  rw [← Option.some.inj hsource, index_octets, Except.ok.injEq] at hoctets
  rw [← hentry, ← hoctets]
  show joinText ":" (List.map hexOctet _) = _
  rw [map_map, text]
  refine congrArg (joinText ":") (map_congr_left fun octet _ => hexOctet_byte octet)

/-! ## A device with a printable address -/

def oneInterface (address : MacAddress) : List (Text × PySnmpRecord) :=
  [(below (below ifTable "1") "1", { typeName := "Integer", integer := 1 }),
   (below (below ifTable "6") "1", address.reported)]

theorem oneInterface_entries (address : MacAddress) : (liveRecords (oneInterface address)).entries =
    [(below (below ifTable "1") "1", ⟨"2", .integer 1⟩),
     (below (below ifTable "6") "1", value address.reported)] := by
  have hkeys : ((oneInterface address).map Prod.fst).Nodup := by
    show [below (below ifTable "1") "1", below (below ifTable "6") "1"].Nodup
    decide
  have hinteger : value { typeName := "Integer", integer := 1 } = ⟨"2", .integer 1⟩ := by decide
  rw [liveRecords, Dictionary.ofItems_entries hkeys, ← hinteger]
  rfl

theorem oneInterface_node (db : CharacterDatabase) (address : MacAddress) (target : DiscoveryTarget)
    {capturedAt : DateTime} (h : capturedAt.isAware = true) : ∃ node,
    buildSnmpNode db target capturedAt (liveRecords (oneInterface address)) = .ok node := by
  have hentries := oneInterface_entries address
  have hports : localPortRows (liveRecords (oneInterface address)) = [] := by
    rw [localPortRows, hentries]
    rfl
  have hremote : remoteRows (liveRecords (oneInterface address)) = [] := by
    rw [remoteRows, hentries]
    rfl
  have hbridge : bridgePortRows (liveRecords (oneInterface address)) = [] := by
    rw [bridgePortRows, hentries]
    rfl
  have hforwarding : forwardingRows (liveRecords (oneInterface address)) = [] := by
    rw [forwardingRows, hentries]
    rfl
  have huptime : (liveRecords (oneInterface address)).get? (systemOid "3") = none := by
    rw [Dictionary.get?, hentries]
    rfl
  refine (exists_buildSnmpNode db _ target capturedAt).mpr ⟨?_, ?_, h, ?_⟩
  · refine (exists_neighbours _ _).mpr ⟨?_, ?_⟩
    · rw [hports]
      exact fun row hrow => absurd hrow not_mem_nil
    · rw [hremote]
      exact fun row hrow => absurd hrow not_mem_nil
  · refine (exists_forwardingEntries _).mpr ⟨?_, ?_⟩
    · rw [hbridge]
      exact fun row hrow => absurd hrow not_mem_nil
    · rw [hforwarding]
      exact fun row hrow => absurd hrow not_mem_nil
  · intro ticks hticks
    rw [integerAt, huptime] at hticks
    cases hticks

theorem printable_unfaithful (h : address.Printable) : ¬ Faithful db address := by
  intro hfaithful
  have ⟨s, hdecode, hplain⟩ := h
  have haware : ({ year := 2026, month := 1, day := 1, offset := some 0 } : DateTime).isAware = true :=
    rfl
  have ⟨node, hnode⟩ := oneInterface_node db address { address := "10.0.0.1" } haware
  have hinterfaces := (buildSnmpNode_parts hnode).2.2
  have hentries := oneInterface_entries address
  have hget : (liveRecords (oneInterface address)).get? (below (below ifTable "6") (Json.writeInt 1)) =
      some (value address.reported) := by
    refine (Dictionary.mem_entries_iff _ _ _).mp ?_
    rw [hentries]
    exact mem_cons_of_mem _ mem_cons_self
  have hmem : interfaceAt db (liveRecords (oneInterface address)) 1 ∈ node.interfaces := by
    rw [hinterfaces]
    refine mem_map_of_mem ?_
    rw [interfaceIndexes, mem_sortedBy, hentries]
    exact mem_cons_self
  have hmac := (hfaithful _ _ _ node hnode).1 _ hmem hget
  have hvalue : value address.reported = ⟨"4", .text s⟩ := by
    rw [value_reported, hdecode]
    show (if s.any isControl = true then _ else _) = _
    rw [hplain]
    rfl
  have hmapped : (stringAt (liveRecords (oneInterface address))
      (below (below ifTable "6") (Json.writeInt 1))).map macText = some address.text := hmac
  rw [stringAt, hget, hvalue] at hmapped
  have htext : macText s = address.text := Option.some.inj hmapped
  have hbytes := length_le_octets hdecode
  have hshort := macText_length s
  have hlong := text_length address
  rw [address.six] at hbytes
  rw [htext] at hshort
  omega

theorem unprintable_faithful (h : ¬ address.Printable) : Faithful db address := by
  intro varBinds target capturedAt node hnode
  have ⟨hneighbours, hforwarding, hinterfaces⟩ := buildSnmpNode_parts hnode
  refine ⟨fun interface hmem hrecord => ?_, fun neighbour hmem oid hoid hrecord => ?_,
    fun entry hmem oid hoid hindex => ?_⟩
  · rw [hinterfaces] at hmem
    exact interface_text h hmem hrecord
  · exact neighbour_text h hneighbours hmem hoid hrecord
  · exact forwarding_text hforwarding hmem hoid hindex

/-- An address is reported by its octets in all three places unless these are printable. -/
theorem faithful_iff (db : CharacterDatabase) (address : MacAddress) :
    Faithful db address ↔ ¬ address.Printable :=
  ⟨fun hfaithful hprintable => printable_unfaithful hprintable hfaithful, unprintable_faithful⟩

/-- The octets of `ABCDEF`. -/
def letters : MacAddress := ⟨[65, 66, 67, 68, 69, 70], rfl⟩

theorem letters_misreported : ¬ ∀ address : MacAddress, Faithful Ascii.database address := by
  intro hall
  refine printable_unfaithful ⟨"ABCDEF", ?_, by decide⟩ (hall letters)
  exact Points.decodeUtf8_utf8Bytes "ABCDEF"

end MacAddress

end TwinForge.Discovery.Snmprec
