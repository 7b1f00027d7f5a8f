import TwinForge.Discovery.SnmprecRecording

/-! # Net-SNMP walks

A walk has one assignment a line. An assignment whose identifier and value are understood is
recorded under the numeric identifier; every other line that is not blank is kept.
-/

namespace TwinForge.Discovery.Snmprec

open List

/-! ## Object identifiers -/

def symbolicBases : List (Text × Text) :=
  [("sysDescr", "1.3.6.1.2.1.1.1"), ("sysObjectID", "1.3.6.1.2.1.1.2"),
    ("sysUpTime", "1.3.6.1.2.1.1.3"), ("sysUpTimeInstance", "1.3.6.1.2.1.1.3.0"),
    ("sysContact", "1.3.6.1.2.1.1.4"), ("sysName", "1.3.6.1.2.1.1.5"),
    ("sysLocation", "1.3.6.1.2.1.1.6"), ("ifIndex", below ifTable "1"),
    ("ifDescr", below ifTable "2"), ("ifType", below ifTable "3"),
    ("ifSpeed", below ifTable "5"), ("ifPhysAddress", below ifTable "6"),
    ("ifAdminStatus", below ifTable "7"), ("ifOperStatus", below ifTable "8"),
    ("ifName", ifName), ("ipAdEntAddr", below ipAddress "1"),
    ("ipAdEntIfIndex", below ipAddress "2"), ("ipAdEntNetMask", below ipAddress "3"),
    ("dot1dBasePortIfIndex", bridgePortIfIndex), ("dot1dTpFdbAddress", below bridgeFdb "1"),
    ("dot1dTpFdbPort", below bridgeFdb "2"), ("dot1dTpFdbStatus", below bridgeFdb "3"),
    ("lldpLocPortId", lldpLocalPortId), ("lldpRemChassisId", below lldpRemote "5"),
    ("lldpRemPortId", below lldpRemote "7"), ("lldpRemSysName", below lldpRemote "9")]

/-- What stands behind the last pair of colons. -/
def afterLastPair : Text → Option Text
  | [] => none
  | c :: rest =>
    match afterLastPair rest with
    | some back => some back
    | none => if c = ':' ∧ rest.head? = some ':' then some rest.tail else none

/-- `[A-Za-z][A-Za-z0-9-]*`. -/
def isSymbol : Text → Bool
  | [] => false
  | c :: rest => c.isAlpha && rest.all fun d => d.isAlphanum || d == '-'

section

variable (db : CharacterDatabase)

/-- The parts between the dots are digits. -/
def isNumericOid (text : Text) : Bool := (splitDots text).all db.isDigitText

/-- A symbol and its suffix, from `([A-Za-z][A-Za-z0-9-]*)(?:\.(.+))?`. -/
def symbolParts (symbol : Text) : Option (Text × Option Text) :=
  match Lines.cutAt '.' symbol with
  | none => if isSymbol symbol then some (symbol, none) else none
  | some (name, suffix) => if isSymbol name ∧ suffix ≠ [] then some (name, some suffix) else none

/-- The part of `_numeric_oid` about symbols. -/
def symbolicOid (candidate : Text) : Option Text :=
  match symbolParts ((afterLastPair candidate).getD candidate) with
  | none => none
  | some (name, suffix) =>
    (lookup name symbolicBases).bind fun base =>
      match suffix with
      | none => if name = ("sysUpTimeInstance" : Text) then some base else none
      | some suffix => if isNumericOid db suffix then some (base ++ '.' :: suffix) else none

/-- The text of an identifier without blanks and leading dots, `iso` as a number. -/
def oidCandidate (value : Text) : Text :=
  let stripped := (db.strip value).dropWhile (· = '.')
  if ("iso." : Text).isPrefixOf stripped then ("1." : Text) ++ stripped.drop 4 else stripped

def numericOid (value : Text) : Option Text :=
  let candidate := oidCandidate db value
  if candidate ≠ [] ∧ isNumericOid db candidate then some candidate else symbolicOid db candidate

/-! ## Values -/

def walkIntegerTypes : List (Text × Text) :=
  [("INTEGER", "2"), ("INTEGER32", "2"), ("COUNTER", "65"), ("COUNTER32", "65"),
    ("GAUGE", "66"), ("GAUGE32", "66"), ("UNSIGNED32", "66"), ("TIMETICKS", "67"),
    ("COUNTER64", "70")]

def walkStringTypes : List (Text × Text) :=
  [("STRING", "4"), ("OCTET STRING", "4"), ("HEX-STRING", "4"), ("IPADDRESS", "64"), ("OID", "6"),
    ("OBJECT IDENTIFIER", "6")]

/-- `\d+` at the start of a text, with what follows. -/
def leadingDigits (text : Text) : Option (Nat × Text) :=
  let digits := text.takeWhile fun c => (db.decimalDigit c).isSome
  (readDigits db 0 false digits).map fun value => (value, text.drop digits.length)

/-- `-?\d+` at the start of a text, with what follows. -/
def leadingInteger : Text → Option (Int × Text)
  | '-' :: rest => (leadingDigits db rest).map fun (value, rest) => (-(value : Int), rest)
  | text => (leadingDigits db text).map fun (value, rest) => ((value : Int), rest)

/-- `\((\d+)\)` at the start of a text. -/
def ticksValue : Text → Option Int
  | '(' :: rest =>
    match leadingDigits db rest with
    | some (value, ')' :: _) => some (value : Int)
    | _ => none
  | _ => none

/-- `.*\((-?\d+)\)` for the whole of a text: the parenthesis that opens last. -/
def enumValue (text : Text) : Option Int :=
  match text.reverse with
  | ')' :: back =>
    match Lines.cutAt '(' back with
    | some (inner, _) =>
      match leadingInteger db inner.reverse with
      | some (value, []) => some value
      | _ => none
    | none => none
  | _ => none

def integerValue (value : Text) : Option Int :=
  match ticksValue db value with
  | some ticks => some ticks
  | none =>
    match enumValue db (db.strip value) with
    | some number => some number
    | none => (leadingInteger db (db.strip value)).map (·.1)

/-- `_decode_value`, with `str.lower`. -/
def decodeValue (lower : Text → Text) (typeName rawValue : Text) : Option SnmprecValue :=
  let normalized := db.upperText (db.strip typeName)
  match lookup normalized walkIntegerTypes with
  | some typeCode => (integerValue db rawValue).map fun value => ⟨typeCode, .integer value⟩
  | none =>
    (lookup normalized walkStringTypes).map fun typeCode =>
      let value := db.strip rawValue
      ⟨typeCode, .text (if normalized = ("HEX-STRING" : Text) then
        lower (value.filter fun c => !db.isSpace c) else value)⟩

/-! ## Lines -/

/-- The groups of `^(.+?)\s*=\s*([^:]+):\s*(.*)$`, the first two with their blanks: the first
equals sign with text in front of it and text between it and a colon. -/
def assignmentFrom (front : Text) : Text → Option (Text × Text × Text)
  | [] => none
  | c :: rest =>
    if c = '=' ∧ front ≠ [] then
      match Lines.cutAt ':' rest with
      | some (typeName@(_ :: _), rawValue) =>
        some (front, typeName, rawValue.dropWhile db.isSpace)
      | _ => assignmentFrom (front ++ [c]) rest
    else assignmentFrom (front ++ [c]) rest

/-- One turn of the loop of `read_snmpwalk`. -/
def walkOutcome (lower : Text → Text) (number : Nat) (text : Text) : Option LineOutcome :=
  let line := db.strip text
  if line = [] then none
  else match assignmentFrom db [] line with
    | none => some (.unparsed ⟨number, text, "syntax"⟩)
    | some (symbol, typeName, rawValue) =>
      match numericOid db symbol with
      | none => some (.unparsed ⟨number, text, "oid"⟩)
      | some oid =>
        match decodeValue db lower typeName rawValue with
        | none => some (.unparsed ⟨number, text, "type_or_value"⟩)
        | some value => some (.recorded oid value)

def walkOutcomes (lower : Text → Text) (text : Text) : List LineOutcome :=
  ((Lines.splitLines text).zipIdx 1).filterMap fun (line, number) =>
    walkOutcome db lower number line

/-- `read_snmpwalk`, from the text of the file on. -/
def readSnmpwalk (lower : Text → Text) (text : Text) : SnmprecRecording :=
  (walkOutcomes db lower text).foldl SnmprecRecording.add {}

end

/-! ## What is kept of a walk -/

variable {db : CharacterDatabase} {oid : Text}

theorem isDigitText_ascii {part : Text} (hsome : part ≠ [])
    (hdigits : ∀ c ∈ part, c.isDigit = true) : db.isDigitText part = true := by
  rw [CharacterDatabase.isDigitText, Bool.and_eq_true, Bool.not_eq_true', isEmpty_eq_false_iff,
    all_eq_true]
  refine ⟨hsome, fun c hc => ?_⟩
  have hrange := digit_range (hdigits c hc)
  rw [db.digit_ascii c (by omega)]
  exact hdigits c hc

theorem isNumericOid_base {name base : Text} (h : lookup name symbolicBases = some base) :
    isNumericOid db base = true := by
  have hall : ∀ entry ∈ symbolicBases, ∀ part ∈ splitDots entry.2,
      part ≠ [] ∧ ∀ c ∈ part, c.isDigit = true := by
    decide +kernel
  obtain ⟨before, after, hsplit, -⟩ := lookup_eq_some_iff.mp h
  have hbase := hall (name, base) (hsplit ▸ by simp)
  rw [isNumericOid, all_eq_true]
  exact fun part hpart => isDigitText_ascii (hbase part hpart).1 (hbase part hpart).2

theorem symbolicOid_numeric {candidate : Text} (h : symbolicOid db candidate = some oid) :
    isNumericOid db oid = true := by
  unfold symbolicOid at h
  cases hparts : symbolParts ((afterLastPair candidate).getD candidate) with
  | none => simp [hparts] at h
  | some parts =>
    obtain ⟨name, suffix⟩ := parts
    rw [hparts] at h
    obtain ⟨base, hbase, hoid⟩ := Option.bind_eq_some_iff.mp h
    cases suffix with
    | none =>
      obtain ⟨-, ⟨⟩⟩ := Option.ite_none_right_eq_some.mp hoid
      exact isNumericOid_base hbase
    | some suffix =>
      obtain ⟨hsuffix, ⟨⟩⟩ := Option.ite_none_right_eq_some.mp hoid
      have hsplit : splitDots (base ++ '.' :: suffix) = splitDots base ++ splitDots suffix :=
        Lines.pieces_append rfl base suffix
      rw [isNumericOid, hsplit, all_append, Bool.and_eq_true]
      exact ⟨isNumericOid_base hbase, hsuffix⟩

theorem numericOid_numeric {value : Text} (h : numericOid db value = some oid) :
    isNumericOid db oid = true := by
  unfold numericOid at h
  by_cases hnumeric : oidCandidate db value ≠ [] ∧ isNumericOid db (oidCandidate db value) = true
  · rw [if_pos hnumeric] at h
    cases h
    exact hnumeric.2
  · rw [if_neg hnumeric] at h
    exact symbolicOid_numeric h

/-- What a line that is not blank becomes: a record of a numeric identifier, or itself. -/
theorem walkOutcome_stated {lower : Text → Text} (number : Nat) {text : Text}
    (h : db.strip text ≠ []) :
    (∃ oid value, walkOutcome db lower number text = some (.recorded oid value) ∧
      isNumericOid db oid = true) ∨
    ∃ reason, walkOutcome db lower number text = some (.unparsed ⟨number, text, reason⟩) := by
  unfold walkOutcome
  simp only [if_neg h]
  split
  · exact .inr ⟨_, rfl⟩
  · split
    · exact .inr ⟨_, rfl⟩
    · next oid hoid =>
      split
      · exact .inr ⟨_, rfl⟩
      · exact .inl ⟨_, _, rfl, numericOid_numeric hoid⟩

theorem walkOutcome_numeric {lower : Text → Text} {number : Nat} {text : Text}
    {value : SnmprecValue} (h : walkOutcome db lower number text = some (.recorded oid value)) :
    isNumericOid db oid = true := by
  by_cases hstated : db.strip text = []
  · simp [walkOutcome, hstated] at h
  · rcases walkOutcome_stated number hstated with ⟨other, found, hfound, hnumeric⟩ | ⟨reason, hkept⟩
    · rw [hfound] at h
      cases h
      exact hnumeric
    · rw [hkept] at h
      cases h

theorem mem_records {outcomes : List LineOutcome} {recording : SnmprecRecording} :
    oid ∈ (outcomes.foldl SnmprecRecording.add recording).records.keys ↔
      oid ∈ recording.records.keys ∨ ∃ value, LineOutcome.recorded oid value ∈ outcomes := by
  induction outcomes generalizing recording with
  | nil => simp
  | cons outcome outcomes ih =>
    rw [foldl_cons, ih]
    cases outcome with
    | recorded other value =>
      have hset : oid ∈ (recording.add (.recorded other value)).records.keys ↔
          oid = other ∨ oid ∈ recording.records.keys := by
        simp only [SnmprecRecording.add, Dictionary.mem_keys_iff, Dictionary.get?_set]
        by_cases hsame : oid = other <;> simp [hsame]
      rw [hset]
      simp only [mem_cons, LineOutcome.recorded.injEq]
      constructor
      · rintro ((rfl | hbefore) | ⟨found, hlater⟩)
        · exact .inr ⟨value, .inl ⟨rfl, rfl⟩⟩
        · exact .inl hbefore
        · exact .inr ⟨found, .inr hlater⟩
      · rintro (hbefore | ⟨found, ⟨rfl, -⟩ | hlater⟩)
        · exact .inl (.inr hbefore)
        · exact .inl (.inl rfl)
        · exact .inr ⟨found, hlater⟩
    | unparsed line => simp [SnmprecRecording.add]

theorem unparsed_lines {outcomes : List LineOutcome} {recording : SnmprecRecording} :
    (outcomes.foldl SnmprecRecording.add recording).unparsedLines =
      recording.unparsedLines ++ outcomes.filterMap fun
        | .recorded _ _ => none
        | .unparsed line => some line := by
  induction outcomes generalizing recording with
  | nil => simp
  | cons outcome outcomes ih =>
    rw [foldl_cons, ih]
    cases outcome <;> simp [SnmprecRecording.add]

/-- The parts of a recorded identifier are digits, and every line that is not blank is
recorded or kept with its number. -/
theorem readSnmpwalk_retains (lower : Text → Text) (text : Text) :
    (∀ oid ∈ (readSnmpwalk db lower text).records.keys, isNumericOid db oid = true) ∧
    ∀ line number, (line, number) ∈ (Lines.splitLines text).zipIdx 1 → db.strip line ≠ [] →
      (∃ oid value, walkOutcome db lower number line = some (.recorded oid value) ∧
        oid ∈ (readSnmpwalk db lower text).records.keys) ∨
      ∃ reason, ⟨number, line, reason⟩ ∈ (readSnmpwalk db lower text).unparsedLines := by
  have hkeys : ∀ oid, oid ∈ (readSnmpwalk db lower text).records.keys ↔
      ∃ value, LineOutcome.recorded oid value ∈ walkOutcomes db lower text := by
    intro oid
    rw [readSnmpwalk, mem_records]
    exact or_iff_right not_mem_nil
  constructor
  · intro oid hoid
    obtain ⟨value, hvalue⟩ := (hkeys oid).mp hoid
    obtain ⟨entry, -, hentry⟩ := mem_filterMap.mp hvalue
    exact walkOutcome_numeric hentry
  · intro line number hline hstated
    have houtcome : ∀ outcome, walkOutcome db lower number line = some outcome →
        outcome ∈ walkOutcomes db lower text := fun outcome h =>
      mem_filterMap.mpr ⟨(line, number), hline, h⟩
    rcases walkOutcome_stated number hstated with ⟨oid, value, hrecorded, -⟩ | ⟨reason, hkept⟩
    · exact .inl ⟨oid, value, hrecorded, (hkeys oid).mpr ⟨value, houtcome _ hrecorded⟩⟩
    · refine .inr ⟨reason, ?_⟩
      rw [readSnmpwalk, unparsed_lines, mem_append, mem_filterMap]
      exact .inr ⟨_, houtcome _ hkept, rfl⟩

end TwinForge.Discovery.Snmprec
