import TwinForge.Discovery.SnmprecRecording
import TwinForge.Foundation.Grouping

/-! # Failures and links of the lowering of SNMP records

A node is built unless an unguarded part of an object identifier is no integer, or the
node refuses its time stamp or uptime. The links of a node are those the records state, but
for an interface that has the name of a missing port identifier.
-/

namespace TwinForge.Discovery.Snmprec

open Guards List

section

variable (db : CharacterDatabase)

def IsInteger (text : Text) : Prop := ∃ value, readInt db text = some value

/-- A neighbour at an interface has the name of the interface as its local port identifier. -/
def NeighbourRecorded (records : Records) (node : SnmpNodeObservation)
    (neighbour : SnmpNeighbourObservation) : Prop :=
  ∀ index, neighbour.localInterfaceIndex = some index →
    ∃ oid record port, records.get? oid = some record ∧ suffixOf oid lldpLocalPortId = some port ∧
      readInt db port = some neighbour.localPortNumber ∧
      ∃ interface ∈ node.interfaces, interface.index = index ∧
        interface.name = some record.value.str

/-- A forwarding entry at an interface has its bridge port mapped to it. -/
def ForwardingRecorded (records : Records) (entry : SnmpForwardingEntryObservation) : Prop :=
  ∀ index, entry.interfaceIndex = some index →
    ∃ oid record port, records.get? oid = some record ∧ suffixOf oid bridgePortIfIndex = some port ∧
      readInt db port = some entry.bridgePort ∧ record.value = .integer index

/-- A result that is a node without invented links, or an error of the provider. -/
def FailClosed (records : Records) : Except SnmpNodeError SnmpNodeObservation → Prop
  | .ok node => (∀ neighbour ∈ node.neighbours, NeighbourRecorded db records node neighbour) ∧
      ∀ entry ∈ node.forwardingEntries, ForwardingRecorded db records entry
  | .error (.provider _ _) => True
  | .error (.value _) => False

/-- The records whose lowering stays closed. -/
structure Lowerable (capturedAt : DateTime) (records : Records) : Prop where
  aware : capturedAt.isAware = true
  uptime : ∀ ticks, integerAt records (systemOid "3") = some ticks → 0 ≤ ticks
  bridgePorts : ∀ row ∈ bridgePortRows records, IsInteger db row.1
  octets : ∀ row ∈ forwardingRows records, ∀ octet ∈ splitDots row.2.2.1, IsInteger db octet
  localPorts : ∀ row ∈ localPortRows records, IsInteger db row.1
  remotePorts : ∀ row ∈ remoteRows records, IsInteger db row.2.2.2
  /-- A local port without an identifier, while an interface is called `None`. -/
  stated : ∀ row ∈ remoteRows records,
    (∃ other ∈ localPortRows records, readInt db other.1 = readInt db row.2.2.2) ∨
      ∀ index ∈ interfaceIndexes records,
        stringAt records (below ifName (Json.writeInt index)) ≠ some ("None" : Text)

end

/-! ## Integers of keys -/

section

variable {db : CharacterDatabase}

theorem parseInt_eq_ok {text : Text} {value : Int} :
    parseInt db text = .ok value ↔ readInt db text = some value := by
  unfold parseInt
  split
  · next h => simp [h]
  · next h => simp [h]

theorem exists_parseInt {text : Text} : (∃ value, parseInt db text = .ok value) ↔
    IsInteger db text := by
  simp only [parseInt_eq_ok, IsInteger]

theorem keyedRows_eq_ok {Value : Type} {rows : List (Text × Value)} {keyed : List (Int × Value)} :
    keyedRows db rows = .ok keyed ↔
      List.Forall₂ (fun row entry => readInt db row.1 = some entry.1 ∧ entry.2 = row.2) rows
        keyed := by
  unfold keyedRows
  rw [mapM_eq_ok]
  have hrow : ∀ (row : Text × Value) (entry : Int × Value),
      (do
        let key ← parseInt db row.1
        return (key, row.2)) = Except.ok entry ↔
      readInt db row.1 = some entry.1 ∧ entry.2 = row.2 := by
    intro row entry
    simp only [bind_eq_ok, parseInt_eq_ok, pure_eq_ok]
    constructor
    · intro ⟨key, hkey, hentry⟩
      rw [← hentry]
      exact ⟨hkey, rfl⟩
    · intro ⟨hkey, hvalue⟩
      exact ⟨_, hkey, by rw [← hvalue]⟩
  simp only [hrow]

theorem exists_keyedRows {Value : Type} {rows : List (Text × Value)} :
    (∃ keyed, keyedRows db rows = .ok keyed) ↔ ∀ row ∈ rows, IsInteger db row.1 := by
  unfold keyedRows
  rw [exists_mapM_eq_ok]
  refine forall₂_congr fun row _ => ?_
  simp only [bind_eq_ok, parseInt_eq_ok, pure_eq_ok]
  constructor
  · intro ⟨_, value, hvalue, _⟩
    exact ⟨value, hvalue⟩
  · intro ⟨value, hvalue⟩
    exact ⟨_, value, hvalue, rfl⟩

theorem exists_result {A B : Type} {relation : A → B → Prop} {items : List A} {results : List B}
    {item : A} (h : List.Forall₂ relation items results) (hitem : item ∈ items) :
    ∃ result ∈ results, relation item result :=
  exists_item h.flip hitem

theorem keyed_get? {Value : Type} {rows : List (Text × Value)} {keyed : List (Int × Value)}
    (h : keyedRows db rows = .ok keyed) {key : Int} {value : Value}
    (hfound : (Dictionary.ofItems Prod.fst Prod.snd keyed).get? key = some value) :
    ∃ row ∈ rows, readInt db row.1 = some key ∧ row.2 = value := by
  have ⟨entry, hentry, hkey, hvalue⟩ := Dictionary.ofItems_get? hfound
  have ⟨row, hrow, hread, hsame⟩ := exists_item (keyedRows_eq_ok.mp h) hentry
  exact ⟨row, hrow, hkey ▸ hread, hsame.symm.trans hvalue⟩

theorem keyed_isSome {Value : Type} {rows : List (Text × Value)} {keyed : List (Int × Value)}
    (h : keyedRows db rows = .ok keyed) {key : Int} {row : Text × Value} (hrow : row ∈ rows)
    (hkey : readInt db row.1 = some key) :
    ∃ value, (Dictionary.ofItems Prod.fst Prod.snd keyed).get? key = some value := by
  have ⟨entry, hentry, hread, _⟩ := exists_result (keyedRows_eq_ok.mp h) hrow
  have hsame : entry.1 = key := Option.some.inj (hread.symm.trans hkey)
  have hmem : entry ∈ keyed.filter (fun entry => entry.1 = key) := by
    rw [mem_filter]
    exact ⟨hentry, by simpa using hsame⟩
  rw [Dictionary.ofItems_last]
  exact ⟨_, List.getLast?_eq_some_getLast (ne_nil_of_mem (mem_map_of_mem hmem))⟩

/-! ## Rows -/

theorem mem_bridgePortRows {records : Records} {row : Text × Int}
    (h : row ∈ bridgePortRows records) : ∃ oid record, records.get? oid = some record ∧
      suffixOf oid bridgePortIfIndex = some row.1 ∧ record.value = .integer row.2 := by
  have ⟨⟨oid, record⟩, hmem, hrow⟩ := mem_filterMap.mp h
  refine ⟨oid, record, (records.mem_entries_iff oid record).mp hmem, ?_⟩
  simp only at hrow
  split at hrow
  · next port index hport hindex =>
    rw [← Option.some.inj hrow]
    refine ⟨hport, ?_⟩
    cases hvalue : record.value with
    | text text => rw [hvalue] at hindex; cases hindex
    | integer value => rw [hvalue] at hindex; cases hindex; rfl
  · cases hrow

theorem mem_localPortRows {records : Records} {row : Text × SnmprecScalar}
    (h : row ∈ localPortRows records) : ∃ oid record, records.get? oid = some record ∧
      suffixOf oid lldpLocalPortId = some row.1 ∧ record.value = row.2 := by
  have ⟨⟨oid, record⟩, hmem, hrow⟩ := mem_filterMap.mp h
  have ⟨port, hport, hsame⟩ := Option.map_eq_some_iff.mp hrow
  refine ⟨oid, record, (records.mem_entries_iff oid record).mp hmem, ?_⟩
  rw [← hsame]
  exact ⟨hport, rfl⟩

theorem localPortRows_of_record {records : Records} {oid port : Text} {record : SnmprecValue}
    (hrecord : records.get? oid = some record) (hsuffix : suffixOf oid lldpLocalPortId = some port) :
    (port, record.value) ∈ localPortRows records :=
  mem_filterMap.mpr ⟨(oid, record), (records.mem_entries_iff oid record).mpr hrecord, by
    simp only [hsuffix, Option.map_some]⟩

/-! ## Failures -/

section

variable (records : Records)

theorem exists_forwardingEntry (ports : Dictionary Int Int)
    (row : Text × SnmprecValue × Text × Int) :
    (∃ entry, forwardingEntry db records ports row = .ok entry) ↔
      ∀ octet ∈ splitDots row.2.2.1, IsInteger db octet := by
  simp only [← exists_parseInt, ← exists_mapM_eq_ok, forwardingEntry, bind_eq_ok, pure_eq_ok]
  constructor
  · rintro ⟨_, octets, hoctets, _⟩
    exact ⟨octets, hoctets⟩
  · rintro ⟨octets, hoctets⟩
    exact ⟨_, octets, hoctets, rfl⟩

theorem exists_forwardingEntries : (∃ entries, forwardingEntries db records = .ok entries) ↔
    (∀ row ∈ bridgePortRows records, IsInteger db row.1) ∧
      ∀ row ∈ forwardingRows records, ∀ octet ∈ splitDots row.2.2.1, IsInteger db octet := by
  simp only [← exists_keyedRows, forwardingEntries, bind_eq_ok]
  constructor
  · intro ⟨_, ports, hports, hentries⟩
    refine ⟨⟨ports, hports⟩, fun row hrow => ?_⟩
    exact (exists_forwardingEntry records _ row).mp (exists_mapM_eq_ok.mp ⟨_, hentries⟩ row hrow)
  · intro ⟨⟨ports, hports⟩, hrows⟩
    have ⟨entries, hentries⟩ := exists_mapM_eq_ok.mpr fun row hrow =>
      (exists_forwardingEntry records (Dictionary.ofItems Prod.fst Prod.snd ports) row).mpr
        (hrows row hrow)
    exact ⟨entries, ports, hports, hentries⟩

theorem exists_neighbour (names : Dictionary Text Int) (ports : Dictionary Int SnmprecScalar)
    (row : Text × SnmprecValue × Text × Text) :
    (∃ found, neighbour db records names ports row = .ok found) ↔ IsInteger db row.2.2.2 := by
  simp only [← exists_parseInt, neighbour, bind_eq_ok, pure_eq_ok]
  constructor
  · rintro ⟨_, port, hport, _⟩
    exact ⟨port, hport⟩
  · rintro ⟨port, hport⟩
    exact ⟨_, port, hport, rfl⟩

theorem exists_neighbours (interfaces : List SnmpInterfaceObservation) :
    (∃ found, neighbours db records interfaces = .ok found) ↔
      (∀ row ∈ localPortRows records, IsInteger db row.1) ∧
        ∀ row ∈ remoteRows records, IsInteger db row.2.2.2 := by
  simp only [← exists_keyedRows, neighbours, bind_eq_ok]
  constructor
  · intro ⟨_, ports, hports, hfound⟩
    refine ⟨⟨ports, hports⟩, fun row hrow => ?_⟩
    exact (exists_neighbour records _ _ row).mp (exists_mapM_eq_ok.mp ⟨_, hfound⟩ row hrow)
  · intro ⟨⟨ports, hports⟩, hrows⟩
    have ⟨found, hfound⟩ := exists_mapM_eq_ok.mpr fun row hrow =>
      (exists_neighbour records (nameToIndex interfaces)
        (Dictionary.ofItems Prod.fst Prod.snd ports) row).mpr (hrows row hrow)
    exact ⟨found, ports, hports, hfound⟩

theorem exists_buildSnmpNode (db : CharacterDatabase) (records : Records) (target : DiscoveryTarget) (capturedAt : DateTime) :
    (∃ node, buildSnmpNode db target capturedAt records = .ok node) ↔
      (∃ found, neighbours db records (interfaces db records) = .ok found) ∧
      (∃ entries, forwardingEntries db records = .ok entries) ∧ capturedAt.isAware = true ∧
      ∀ ticks, integerAt records (systemOid "3") = some ticks → 0 ≤ ticks := by
  simp only [buildSnmpNode, bind_eq_ok, refuse_eq_ok, exists_unit, pure_eq_ok, not_exists, not_and,
    Bool.not_eq_false, Int.not_lt, Option.mem_def]
  constructor
  · intro ⟨_, found, hfound, entries, hentries, haware, huptime, _⟩
    exact ⟨⟨found, hfound⟩, ⟨entries, hentries⟩, haware, huptime⟩
  · intro ⟨⟨found, hfound⟩, ⟨entries, hentries⟩, haware, huptime⟩
    exact ⟨_, found, hfound, entries, hentries, haware, huptime, rfl⟩

variable {records}

theorem buildSnmpNode_parts {target : DiscoveryTarget} {capturedAt : DateTime}
    {node : SnmpNodeObservation} (h : buildSnmpNode db target capturedAt records = .ok node) :
    neighbours db records node.interfaces = .ok node.neighbours ∧
      forwardingEntries db records = .ok node.forwardingEntries ∧
      node.interfaces = interfaces db records := by
  simp only [buildSnmpNode, bind_eq_ok, refuse_eq_ok, exists_unit, pure_eq_ok] at h
  have ⟨found, hfound, entries, hentries, _, _, hnode⟩ := h
  rw [← hnode]
  exact ⟨hfound, hentries, rfl⟩

/-! ## No errors of the provider -/

/-- A computation whose errors are bare. -/
def Bare {A : Type} (result : Except SnmpNodeError A) : Prop :=
  ∀ code message, result ≠ .error (.provider code message)

theorem Bare.bind {A B : Type} {first : Except SnmpNodeError A} {next : A → Except SnmpNodeError B}
    (hfirst : Bare first) (hnext : ∀ a, Bare (next a)) : Bare (first >>= next) := by
  intro code message h
  cases hresult : first with
  | error error =>
    rw [hresult] at h
    have hsame : error = .provider code message := Except.error.inj h
    exact hfirst code message (hsame ▸ hresult)
  | ok a =>
    rw [hresult] at h
    exact hnext a code message h

theorem Bare.pure {A : Type} (a : A) : Bare (Pure.pure a) := fun _ _ h => nomatch h

theorem Bare.mapM {A B : Type} {read : A → Except SnmpNodeError B} (h : ∀ item, Bare (read item))
    (items : List A) : Bare (items.mapM read) := by
  induction items with
  | nil => exact .pure []
  | cons item items ih =>
    rw [mapM_cons]
    exact (h item).bind fun _ => ih.bind fun _ => .pure _

theorem bare_parseInt (text : Text) : Bare (parseInt db text) := by
  intro code message h
  unfold parseInt at h
  split at h <;> cases h

theorem bare_refuse (condition : Prop) [Decidable condition] (message : Text) :
    Bare (refuse condition (.value message)) := by
  intro code other h
  unfold refuse at h
  split at h <;> cases h

theorem bare_keyedRows {Value : Type} (rows : List (Text × Value)) : Bare (keyedRows db rows) := by
  unfold keyedRows
  exact .mapM (fun row => (bare_parseInt row.1).bind fun _ => .pure _) rows

theorem bare_neighbours (records : Records) (interfaces : List SnmpInterfaceObservation) :
    Bare (neighbours db records interfaces) := by
  refine (bare_keyedRows _).bind fun ports => .mapM (fun row => ?_) _
  exact (bare_parseInt _).bind fun _ => .pure _

theorem bare_forwardingEntries (records : Records) : Bare (forwardingEntries db records) := by
  refine (bare_keyedRows _).bind fun ports => .mapM (fun row => ?_) _
  exact (Bare.mapM bare_parseInt _).bind fun _ => .pure _

theorem bare_buildSnmpNode (db : CharacterDatabase) (target : DiscoveryTarget)
    (capturedAt : DateTime) (records : Records) :
    Bare (buildSnmpNode db target capturedAt records) :=
  (bare_neighbours _ _).bind fun _ => (bare_forwardingEntries _).bind fun _ =>
    (bare_refuse _ _).bind fun _ => (bare_refuse _ _).bind fun _ => .pure _

/-! ## Links -/

theorem forwardingRecorded {entries : List SnmpForwardingEntryObservation}
    (h : forwardingEntries db records = .ok entries) :
    ∀ entry ∈ entries, ForwardingRecorded db records entry := by
  simp only [forwardingEntries, bind_eq_ok] at h
  rcases h with ⟨ports, hports, hentries⟩
  intro entry hentry index hindex
  rcases exists_item (mapM_eq_ok.mp hentries) hentry with ⟨row, _, hrow⟩
  simp only [forwardingEntry, bind_eq_ok, pure_eq_ok] at hrow
  rcases hrow with ⟨_, _, hentry⟩
  rw [← hentry] at hindex ⊢
  rcases keyed_get? hports hindex with ⟨port, hport, hread, hvalue⟩
  rcases mem_bridgePortRows hport with ⟨oid, record, hrecord, hsuffix, hinteger⟩
  exact ⟨oid, record, port.1, hrecord, hsuffix, hread, by rw [hinteger, hvalue]⟩

variable {name : Text}

theorem nameToIndex_get? {found : List SnmpInterfaceObservation} {index : Int}
    (h : (nameToIndex found).get? name = some index) :
    ∃ interface ∈ found, interface.index = index ∧ interface.name = some name := by
  have ⟨entry, hentry, hname, hindex⟩ := Dictionary.ofItems_get? h
  have ⟨interface, hinterface, hmap⟩ := mem_filterMap.mp hentry
  have ⟨_, hnamed, hsame⟩ := Option.map_eq_some_iff.mp hmap
  refine ⟨interface, hinterface, ?_, ?_⟩
  · rw [← hindex, ← hsame]
  · rw [hnamed, ← hname, ← hsame]

theorem nameToIndex_isSome {found : List SnmpInterfaceObservation}
    {interface : SnmpInterfaceObservation} (hmem : interface ∈ found)
    (hname : interface.name = some name) : ∃ index, (nameToIndex found).get? name = some index := by
  have hentry : (name, interface.index) ∈ found.filterMap
      (fun interface => interface.name.map (fun name => (name, interface.index))) :=
    mem_filterMap.mpr ⟨interface, hmem, by rw [hname]; rfl⟩
  unfold nameToIndex
  rw [Dictionary.ofItems_last]
  exact ⟨_, List.getLast?_eq_some_getLast (ne_nil_of_mem (mem_map_of_mem
    (mem_filter.mpr ⟨hentry, by simp⟩)))⟩

theorem mem_interfaces_name (db : CharacterDatabase) :
    (∃ interface ∈ interfaces db records, interface.name = some name) ↔
      ∃ index ∈ interfaceIndexes records,
        stringAt records (below ifName (Json.writeInt index)) = some name := by
  constructor
  · intro ⟨interface, hinterface, hname⟩
    have ⟨index, hindex, hsame⟩ := mem_map.mp hinterface
    rw [← hsame] at hname
    exact ⟨index, hindex, hname⟩
  · intro ⟨index, hindex, hname⟩
    exact ⟨_, mem_map_of_mem hindex, hname⟩

theorem neighbours_rows {interfaces : List SnmpInterfaceObservation}
    {found : List SnmpNeighbourObservation} (h : neighbours db records interfaces = .ok found) :
    ∃ ports, keyedRows db (localPortRows records) = .ok ports ∧
      List.Forall₂ (fun row neighbour =>
        readInt db row.2.2.2 = some neighbour.localPortNumber ∧
        neighbour.localInterfaceIndex = (nameToIndex interfaces).get?
          (localPortText (Dictionary.ofItems Prod.fst Prod.snd ports) neighbour.localPortNumber))
        (remoteRows records) found := by
  simp only [neighbours, bind_eq_ok] at h
  rcases h with ⟨ports, hports, hfound⟩
  refine ⟨ports, hports, (mapM_eq_ok.mp hfound).imp fun row result hrow => ?_⟩
  simp only [neighbour, bind_eq_ok, pure_eq_ok, parseInt_eq_ok] at hrow
  rcases hrow with ⟨port, hport, hresult⟩
  rw [← hresult]
  exact ⟨hport, rfl⟩

/-- The links of neighbours are recorded exactly if no missing identifier names an interface. -/
theorem neighboursRecorded_iff {node : SnmpNodeObservation}
    (h : neighbours db records node.interfaces = .ok node.neighbours)
    (hinterfaces : node.interfaces = interfaces db records) :
    (∀ neighbour ∈ node.neighbours, NeighbourRecorded db records node neighbour) ↔
      ∀ row ∈ remoteRows records,
        (∃ other ∈ localPortRows records, readInt db other.1 = readInt db row.2.2.2) ∨
          ∀ index ∈ interfaceIndexes records,
            stringAt records (below ifName (Json.writeInt index)) ≠ some ("None" : Text) := by
  have ⟨ports, hports, hrows⟩ := neighbours_rows h
  constructor
  · intro hrecorded row hrow
    have ⟨found, hfound, hread, hindex⟩ := exists_result hrows hrow
    cases hport : (Dictionary.ofItems Prod.fst Prod.snd ports).get? found.localPortNumber with
    | some value =>
      have ⟨other, hother, hkey, _⟩ := keyed_get? hports hport
      exact .inl ⟨other, hother, hkey.trans hread.symm⟩
    | none =>
      right
      intro index hmem hname
      have ⟨interface, hinterface, hnamed⟩ := (mem_interfaces_name db).mpr ⟨index, hmem, hname⟩
      rw [← hinterfaces] at hinterface
      have ⟨linked, hlinked⟩ := nameToIndex_isSome hinterface hnamed
      have htext : localPortText (Dictionary.ofItems Prod.fst Prod.snd ports)
          found.localPortNumber = "None" := by
        rw [localPortText, hport]
      rw [htext, hlinked] at hindex
      have ⟨oid, record, port, hrecord, hsuffix, hreadPort, _⟩ :=
        hrecorded found hfound linked hindex
      have ⟨_, hsome⟩ := keyed_isSome hports (localPortRows_of_record hrecord hsuffix) hreadPort
      rw [hport] at hsome
      cases hsome
  · intro hstated found hfound linked hlinked
    have ⟨row, hrow, hread, hindex⟩ := exists_item hrows hfound
    rw [hlinked] at hindex
    cases hport : (Dictionary.ofItems Prod.fst Prod.snd ports).get? found.localPortNumber with
    | some value =>
      have ⟨entry, hentry, hkey, hvalue⟩ := keyed_get? hports hport
      have ⟨oid, record, hrecord, hsuffix, hrecorded⟩ := mem_localPortRows hentry
      have ⟨interface, hinterface, hlink, hname⟩ := nameToIndex_get? hindex.symm
      refine ⟨oid, record, entry.1, hrecord, hsuffix, hkey, interface, hinterface, hlink, ?_⟩
      rw [hname, localPortText, hport, hrecorded, hvalue]
    | none =>
      have htext : localPortText (Dictionary.ofItems Prod.fst Prod.snd ports)
          found.localPortNumber = "None" := by
        rw [localPortText, hport]
      rw [htext] at hindex
      have ⟨interface, hinterface, _, hname⟩ := nameToIndex_get? hindex.symm
      rw [hinterfaces] at hinterface
      cases hstated row hrow with
      | inl hlocal =>
        have ⟨other, hother, hkey⟩ := hlocal
        have ⟨_, hsome⟩ := keyed_isSome hports hother (hkey.trans hread)
        rw [hport] at hsome
        cases hsome
      | inr hnone =>
        have ⟨index, hmem, hnamed⟩ := (mem_interfaces_name db).mp ⟨interface, hinterface, hname⟩
        exact absurd hnamed (hnone index hmem)

end

theorem failClosed_iff (db : CharacterDatabase) (target : DiscoveryTarget) (capturedAt : DateTime) (records : Records) :
    FailClosed db records (buildSnmpNode db target capturedAt records) ↔
      Lowerable db capturedAt records := by
  have hbuilt := exists_buildSnmpNode db records target capturedAt
  rw [exists_neighbours, exists_forwardingEntries] at hbuilt
  cases hresult : buildSnmpNode db target capturedAt records with
  | error error =>
    have hnone : ¬ Lowerable db capturedAt records := by
      intro h
      have ⟨_, hnode⟩ := hbuilt.mpr ⟨⟨h.localPorts, h.remotePorts⟩, ⟨h.bridgePorts, h.octets⟩,
        h.aware, h.uptime⟩
      rw [hresult] at hnode
      cases hnode
    cases error with
    | provider code message => exact absurd hresult (bare_buildSnmpNode _ _ _ _ code message)
    | value message => exact iff_of_false id hnone
  | ok node =>
    have ⟨⟨hlocal, hremote⟩, ⟨hbridge, hoctets⟩, haware, huptime⟩ := hbuilt.mp ⟨node, hresult⟩
    have ⟨hneighbours, hentries, hinterfaces⟩ := buildSnmpNode_parts hresult
    have hlinks := neighboursRecorded_iff hneighbours hinterfaces
    constructor
    · intro ⟨hrecorded, _⟩
      exact ⟨haware, huptime, hbridge, hoctets, hlocal, hremote, hlinks.mp hrecorded⟩
    · intro h
      exact ⟨hlinks.mpr h.stated, forwardingRecorded hentries⟩

end

/-- A reading ends with an error of the provider, or with a node whose links are in the
records that were read. -/
def ReadingClosed (db : CharacterDatabase) (provider : SnmprecDiscoveryProvider)
    (read : Text → Except Text Records) (target : DiscoveryTarget) (capturedAt : DateTime) : Prop :=
  (∃ code message, provider.readSnmpNode db read target capturedAt = .error (.provider code message)) ∨
  ∃ path records node, provider.recordings.lookup target.key = some path ∧
    read path = .ok records ∧ provider.readSnmpNode db read target capturedAt = .ok node ∧
    (∀ neighbour ∈ node.neighbours, NeighbourRecorded db records node neighbour) ∧
    ∀ entry ∈ node.forwardingEntries, ForwardingRecorded db records entry

/-- A reading ends closed exactly if the records that it reads, if any, are lowerable. -/
theorem readSnmpNode_closed_iff (db : CharacterDatabase) (provider : SnmprecDiscoveryProvider)
    (read : Text → Except Text Records) (target : DiscoveryTarget) (capturedAt : DateTime) :
    ReadingClosed db provider read target capturedAt ↔
      ∀ path records, provider.recordings.lookup target.key = some path →
        read path = .ok records → Lowerable db capturedAt records := by
  unfold ReadingClosed SnmprecDiscoveryProvider.readSnmpNode
  cases hpath : provider.recordings.lookup target.key with
  | none => exact iff_of_true (.inl ⟨_, _, rfl⟩) nofun
  | some path =>
    cases hread : read path with
    | error error =>
      refine iff_of_true (.inl ⟨_, _, by simp only [hread]; rfl⟩) fun other records hsame hok => ?_
      cases hsame
      rw [hread] at hok
      cases hok
    | ok records =>
      have hclosed := failClosed_iff db target capturedAt records
      have hall : (∀ other found, some path = some other → read other = .ok found →
          Lowerable db capturedAt found) ↔ Lowerable db capturedAt records := by
        constructor
        · exact fun h => h path records rfl hread
        · intro h other found hsame hok
          cases hsame
          rw [hread] at hok
          cases hok
          exact h
      rw [hall, ← hclosed]
      simp only [hread]
      have hbare := bare_buildSnmpNode db target capturedAt records
      cases hresult : buildSnmpNode db target capturedAt records with
      | error error =>
        cases error with
        | provider code message => exact absurd hresult (hbare code message)
        | value message =>
          refine iff_of_false ?_ id
          rintro (⟨_, _, hprovider⟩ | ⟨_, _, node, _, _, hnode, _⟩)
          · cases hprovider
          · cases hnode
      | ok node =>
        constructor
        · rintro (⟨_, _, hprovider⟩ | ⟨other, found, _, hsame, hok, hnode, hlinks⟩)
          · cases hprovider
          · cases hsame
            cases hnode
            rw [hread] at hok
            cases hok
            exact hlinks
        · exact fun hlinks => .inr ⟨path, records, node, rfl, hread, rfl, hlinks⟩

/-- A local port identifier below a part that is no number. -/
def wordedPort : Records where
  entries := [(below lldpLocalPortId "eth0", ⟨"4", .text "eth0"⟩)]

/-- A part that is no number leaves the provider as a bare error. -/
theorem reading_open : ¬ ∀ (provider : SnmprecDiscoveryProvider) (read : Text → Except Text Records)
    (target : DiscoveryTarget) (capturedAt : DateTime),
    ReadingClosed Ascii.database provider read target capturedAt := by
  intro hall
  have hclosed := hall ⟨[("10.0.0.1|", "switch.snmprec")]⟩ (fun _ => .ok wordedPort)
    { address := "10.0.0.1" } { year := 2026, month := 1, day := 1, offset := some 0 }
  have hread : (SnmprecDiscoveryProvider.mk [("10.0.0.1|", "switch.snmprec")]).readSnmpNode
      Ascii.database (fun _ => .ok wordedPort) { address := "10.0.0.1" }
      { year := 2026, month := 1, day := 1, offset := some 0 } =
        .error (.value "invalid literal for int() with base 10: 'eth0'") := by
    rfl
  rcases hclosed with ⟨_, _, hprovider⟩ | ⟨_, _, _, _, _, hnode, _⟩
  · rw [hread] at hprovider
    cases hprovider
  · rw [hread] at hnode
    cases hnode

end TwinForge.Discovery.Snmprec
