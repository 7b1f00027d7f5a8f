import TwinForge.Foundation.Dictionary
import TwinForge.Foundation.Utf16

/-! # Station properties of a SCADAPack archive

`STATION.CTX` is a row of frames: a marker, a count of UTF-16 code units, the text. Names and
values alternate. A slice at the end of the bytes is short without an error, so the count of
the last frame is not checked against the bytes that are left.
-/

namespace TwinForge.Scadapack

open List

inductive DecodeError where
  | indexError
deriving DecidableEq, Repr

def marker : List UInt8 := [255, 254, 255]

/-- The loop over the frames behind byte offset `i`: what it raises, else the failure
message or the fields. -/
def readFields (i : Nat) (fields : List Text) (data : List UInt8) :
    Except DecodeError (Except Text (List Text)) :=
  if data = [] then .ok (.ok fields)
  else if data.take 3 ≠ marker then
    .ok (.error (("STATION.CTX framing broke at byte offset " : Text) ++ decimal i ++
      ("; content retained but not decoded" : Text)))
  else
    match _hcount : data.drop 3 with
    | [] => .error .indexError
    | length :: rest =>
      match Utf16.decode (rest.take (length.toNat * 2)) with
      | some field =>
        readFields (i + 4 + length.toNat * 2) (fields ++ [field]) (rest.drop (length.toNat * 2))
      | none =>
        .ok (.error (("STATION.CTX field at byte offset " : Text) ++
          decimal (i + 4 + length.toNat * 2) ++
          (" is not valid UTF-16; content retained but not decoded" : Text)))
termination_by data.length
decreasing_by
  have hlength := congrArg List.length _hcount
  simp only [length_drop, length_cons] at hlength ⊢
  omega

/-- `zip(fields[0::2], fields[1::2])`. -/
def pairs : List Text → List (Text × Text)
  | name :: value :: rest => (name, value) :: pairs rest
  | _ => []

/-- The properties and the failure message. -/
def decodeStationCtx (data : List UInt8) :
    Except DecodeError (Dictionary Text Text × Option Text) := do
  match ← readFields 0 [] data with
  | .error failure => return ({}, some failure)
  | .ok fields =>
    if fields.length % 2 ≠ 0 then
      return ({}, some (("STATION.CTX has " : Text) ++ decimal fields.length ++
        (" fields, an odd count; cannot pair name/value reliably" : Text)))
    else return (Dictionary.ofItems Prod.fst Prod.snd (pairs fields), none)

/-! ## Frames -/

/-- A marker, a count and a text that need not be as long as the count says. -/
def countedFrame (count : UInt8) (text : Text) : List UInt8 :=
  marker ++ count :: Utf16.encode text

def frame (text : Text) : List UInt8 := countedFrame (UInt8.ofNat (Utf16.units text).length) text

def frames (texts : List Text) : List UInt8 := texts.flatMap frame

def fieldsOf (properties : List (Text × Text)) : List Text :=
  properties.flatMap fun property => [property.1, property.2]

/-- One byte can count the code units. -/
def Framable (text : Text) : Prop := (Utf16.units text).length < 256

theorem frames_append (first second : List Text) :
    frames (first ++ second) = frames first ++ frames second := flatMap_append

theorem pairs_fieldsOf (properties : List (Text × Text)) : pairs (fieldsOf properties) = properties := by
  induction properties with
  | nil => rfl
  | cons property properties ih =>
    show (property.1, property.2) :: pairs (fieldsOf properties) = _
    rw [ih]

theorem fieldsOf_length (properties : List (Text × Text)) :
    (fieldsOf properties).length = 2 * properties.length := by
  induction properties with
  | nil => rfl
  | cons property properties ih =>
    show (fieldsOf properties).length + 2 = 2 * (properties.length + 1)
    omega

variable {fields : List Text}

theorem fieldsOf_pairs (h : fields.length % 2 = 0) :
    fieldsOf (pairs fields) = fields := by
  induction fields using pairs.induct with
  | case1 name value rest ih =>
    show name :: value :: fieldsOf (pairs rest) = _
    have hrest : rest.length % 2 = 0 := by
      rw [length_cons, length_cons] at h
      omega
    rw [ih hrest]
  | case2 fields hshort =>
    match fields with
    | [] => rfl
    | [_] => cases h
    | name :: value :: rest => exact absurd rfl (hshort name value rest)

/-! ## One frame -/

theorem readFields_counted (i : Nat) (fields : List Text) (count : UInt8) (rest : List UInt8) :
    readFields i fields (marker ++ count :: rest) =
      match Utf16.decode (rest.take (count.toNat * 2)) with
      | some field =>
        readFields (i + 4 + count.toNat * 2) (fields ++ [field]) (rest.drop (count.toNat * 2))
      | none =>
        .ok (.error (("STATION.CTX field at byte offset " : Text) ++
          decimal (i + 4 + count.toNat * 2) ++
          (" is not valid UTF-16; content retained but not decoded" : Text))) := by
  rw [readFields.eq_def]
  rfl

theorem readFields_nil (i : Nat) (fields : List Text) : readFields i fields [] = .ok (.ok fields) := by
  rw [readFields, if_pos rfl]

theorem readFields_marker (i : Nat) (fields : List Text) :
    readFields i fields marker = .error .indexError := by
  rw [readFields.eq_def]
  rfl

variable {text : Text}

theorem readFields_frame (i : Nat) (fields : List Text) (h : Framable text)
    (rest : List UInt8) : ∃ j,
    readFields i fields (frame text ++ rest) = readFields j (fields ++ [text]) rest := by
  have hcount : (UInt8.ofNat (Utf16.units text).length).toNat = (Utf16.units text).length := by
    have hsmall : (Utf16.units text).length < 256 := h
    rw [UInt8.toNat_ofNat']
    omega
  have hlength : (Utf16.encode text).length = (Utf16.units text).length * 2 := by
    have hdouble := Utf16.encode_length text
    omega
  have htake : (Utf16.encode text ++ rest).take ((Utf16.units text).length * 2) =
      Utf16.encode text := take_left' hlength
  have hdrop : (Utf16.encode text ++ rest).drop ((Utf16.units text).length * 2) = rest :=
    drop_left' hlength
  have hsplit : frame text ++ rest = marker ++ UInt8.ofNat (Utf16.units text).length ::
      (Utf16.encode text ++ rest) := by
    rw [frame, countedFrame, append_assoc, cons_append]
  refine ⟨i + 4 + (Utf16.units text).length * 2, ?_⟩
  rw [hsplit, readFields_counted, hcount, htake, hdrop, Utf16.decode_encode]

theorem readFields_frames {texts : List Text} (h : ∀ text ∈ texts, Framable text) (i : Nat)
    (fields : List Text) (rest : List UInt8) : ∃ j,
    readFields i fields (frames texts ++ rest) = readFields j (fields ++ texts) rest := by
  induction texts generalizing i fields with
  | nil => exact ⟨i, by rw [append_nil]; rfl⟩
  | cons text texts ih =>
    have ⟨j, hfirst⟩ := readFields_frame i fields (h text mem_cons_self) (frames texts ++ rest)
    have ⟨k, hrest⟩ := ih (fun other hmem => h other (mem_cons_of_mem _ hmem)) j
      (fields ++ [text])
    have hsplit : frames (text :: texts) ++ rest = frame text ++ (frames texts ++ rest) :=
      append_assoc ..
    refine ⟨k, ?_⟩
    rw [hsplit, hfirst, hrest, append_assoc, singleton_append]

theorem readFields_short (i : Nat) (fields : List Text) {count : UInt8}
    (h : (Utf16.units text).length ≤ count.toNat) :
    readFields i fields (countedFrame count text) = .ok (.ok (fields ++ [text])) := by
  have hlength : (Utf16.encode text).length ≤ count.toNat * 2 := by
    have hdouble := Utf16.encode_length text
    omega
  rw [countedFrame, readFields_counted, take_of_length_le hlength,
    drop_eq_nil_iff.mpr hlength, Utf16.decode_encode]
  exact readFields_nil _ _

/-! ## What the loop has read -/

/-- The bytes are whole frames, the last one perhaps with fewer code units than it states. -/
inductive Framed : List Text → List UInt8 → Prop where
  | whole (texts : List Text) : Framed texts (frames texts)
  | short (texts : List Text) (text : Text) (count : UInt8)
      (h : (Utf16.units text).length < count.toNat) :
      Framed (texts ++ [text]) (frames texts ++ countedFrame count text)

theorem Framed.cons {texts : List Text} {data : List UInt8} (text : Text) (h : Framed texts data) :
    Framed (text :: texts) (frame text ++ data) := by
  cases h with
  | whole => exact .whole (text :: texts)
  | short texts last count hshort =>
    rw [← append_assoc]
    exact .short (text :: texts) last count hshort

/-- What the loop gives, by its frames. -/
def Reads (fields : List Text) (data : List UInt8) :
    Except DecodeError (Except Text (List Text)) → Prop
  | .error _ => ∃ texts, (∀ text ∈ texts, Framable text) ∧ data = frames texts ++ marker
  | .ok (.error _) => True
  | .ok (.ok all) => ∃ texts, all = fields ++ texts ∧ (∀ text ∈ texts, Framable text) ∧
      Framed texts data

theorem Reads.cons {fields : List Text} {data : List UInt8} {text : Text}
    {result : Except DecodeError (Except Text (List Text))} (htext : Framable text)
    (h : Reads (fields ++ [text]) data result) : Reads fields (frame text ++ data) result := by
  match result with
  | .error _ =>
    have ⟨texts, hframable, hdata⟩ := h
    refine ⟨text :: texts, forall_mem_cons.mpr ⟨htext, hframable⟩, ?_⟩
    rw [hdata, ← append_assoc]
    rfl
  | .ok (.error _) => trivial
  | .ok (.ok all) =>
    have ⟨texts, hall, hframable, hframed⟩ := h
    refine ⟨text :: texts, ?_, forall_mem_cons.mpr ⟨htext, hframable⟩, hframed.cons text⟩
    rw [hall, append_assoc, singleton_append]

theorem readFields_reads (i : Nat) (fields : List Text) (data : List UInt8) :
    Reads fields data (readFields i fields data) := by
  induction hsize : data.length using Nat.strongRecOn generalizing i fields data with
  | ind size ih =>
    by_cases hnil : data = []
    · subst hnil
      rw [readFields_nil]
      exact ⟨[], (append_nil _).symm, by simp, .whole []⟩
    by_cases hmarker : data.take 3 = marker
    · have hdata : data = marker ++ data.drop 3 := by rw [← hmarker, take_append_drop]
      cases hcount : data.drop 3 with
      | nil =>
        rw [hdata, hcount, append_nil, readFields_marker]
        exact ⟨[], by simp, rfl⟩
      | cons count rest =>
        rw [hcount] at hdata
        subst hdata
        rw [readFields_counted]
        cases hdecode : Utf16.decode (rest.take (count.toNat * 2)) with
        | none => trivial
        | some text =>
          have hencode := Utf16.encode_of_decode hdecode
          have hdouble := Utf16.encode_length text
          have hlength := congrArg List.length hencode
          rw [hdouble, length_take] at hlength
          have hbyte := count.toNat_lt
          have hframable : Framable text := by
            show (Utf16.units text).length < 256
            omega
          by_cases hwhole : count.toNat * 2 ≤ rest.length
          · -- the stated code units are there
            have hunits : (Utf16.units text).length = count.toNat := by omega
            have hframe : marker ++ count :: rest =
                frame text ++ rest.drop (count.toNat * 2) := by
              rw [frame, countedFrame, hunits, UInt8.ofNat_toNat, hencode, append_assoc,
                cons_append, take_append_drop]
            have hshorter : (rest.drop (count.toNat * 2)).length < size := by
              rw [← hsize, length_append, length_cons, length_drop]
              omega
            rw [hframe]
            exact Reads.cons hframable (ih _ hshorter _ _ _ rfl)
          · -- the bytes end inside the frame
            have hshort : (Utf16.units text).length < count.toNat := by omega
            have hframe : marker ++ count :: rest = countedFrame count text := by
              rw [countedFrame, hencode, take_of_length_le (by omega)]
            show Reads fields _ (readFields _ _ _)
            rw [drop_eq_nil_iff.mpr (by omega), readFields_nil, hframe]
            exact ⟨[text], rfl, by simpa using hframable, .short [] text count hshort⟩
    · rw [readFields, if_neg hnil, if_pos hmarker]
      trivial

/-! ## Exactness -/

/-- The call gives a failure, or properties whose encoding is the input. -/
def Exact (data : List UInt8) : Prop :=
  ∃ properties failure, decodeStationCtx data = .ok (properties, failure) ∧
    (failure = none → frames (fieldsOf properties.entries) = data)

/-- What the input may not be: whole frames with a marker behind them, an odd number of whole
frames before a last one that is cut off between two code units, whole frames of names and
values with a name twice. -/
structure Sound (data : List UInt8) : Prop where
  counted : ∀ texts, (∀ text ∈ texts, Framable text) → data ≠ frames texts ++ marker
  uncut : ∀ texts text count, (∀ other ∈ texts, Framable other) → texts.length % 2 = 1 →
    (Utf16.units text).length < count.toNat → data ≠ frames texts ++ countedFrame count text
  distinct : ∀ properties : List (Text × Text), (∀ text ∈ fieldsOf properties, Framable text) →
    data = frames (fieldsOf properties) → (properties.map Prod.fst).Nodup

theorem readFields_whole {texts : List Text} (h : ∀ text ∈ texts, Framable text) :
    readFields 0 [] (frames texts) = .ok (.ok texts) := by
  have ⟨j, hread⟩ := readFields_frames h 0 [] []
  rw [append_nil, nil_append, readFields_nil] at hread
  exact hread

theorem frames_injective {first second : List Text} (hfirst : ∀ text ∈ first, Framable text)
    (hsecond : ∀ text ∈ second, Framable text) (h : frames first = frames second) :
    first = second := by
  have hread := readFields_whole hfirst
  rw [h, readFields_whole hsecond] at hread
  exact (Except.ok.inj (Except.ok.inj hread)).symm

variable {data : List UInt8}

theorem decodeStationCtx_even
    (h : readFields 0 [] data = .ok (.ok fields)) (heven : fields.length % 2 = 0) :
    decodeStationCtx data = .ok (Dictionary.ofItems Prod.fst Prod.snd (pairs fields), none) := by
  have hplain : ¬ fields.length % 2 ≠ 0 := by omega
  rw [decodeStationCtx, h]
  exact if_neg hplain

theorem decodeStationCtx_odd
    (h : readFields 0 [] data = .ok (.ok fields)) (hodd : fields.length % 2 ≠ 0) :
    ∃ failure, decodeStationCtx data = .ok ({}, some failure) := by
  rw [decodeStationCtx, h]
  exact ⟨_, if_pos hodd⟩

theorem mem_fieldsOf {properties : List (Text × Text)} :
    text ∈ fieldsOf properties ↔ ∃ property ∈ properties, text = property.1 ∨ text = property.2 := by
  simp [fieldsOf]

theorem entries_framable {properties : List (Text × Text)}
    (h : ∀ text ∈ fieldsOf properties, Framable text) : ∀ text ∈
      fieldsOf (Dictionary.ofItems Prod.fst Prod.snd properties).entries, Framable text := by
  intro text hmem
  have ⟨⟨name, value⟩, hentry, hside⟩ := mem_fieldsOf.mp hmem
  have hget := (Dictionary.mem_entries_iff _ name value).mp hentry
  have ⟨item, hitem, hname, hvalue⟩ := Dictionary.ofItems_get? hget
  refine h text (mem_fieldsOf.mpr ⟨item, hitem, ?_⟩)
  rw [hname, hvalue]
  exact hside

theorem Exact.sound (h : Exact data) : Sound data := by
  have ⟨properties, failure, hdecode, hencode⟩ := h
  constructor
  case counted =>
    intro texts hframable hdata
    have ⟨j, hread⟩ := readFields_frames hframable 0 [] marker
    rw [decodeStationCtx, hdata, hread, readFields_marker] at hdecode
    cases hdecode
  case uncut =>
    intro texts text count hframable hodd hshort hdata
    have hbyte := count.toNat_lt
    have htext : Framable text := by
      show (Utf16.units text).length < 256
      omega
    have hall : ∀ other ∈ texts ++ [text], Framable other := by
      intro other hmem
      cases mem_append.mp hmem with
      | inl hearly => exact hframable other hearly
      | inr hlast => exact mem_singleton.mp hlast ▸ htext
    have heven : (texts ++ [text]).length % 2 = 0 := by
      rw [length_append, length_singleton]
      omega
    have hread : readFields 0 [] data = .ok (.ok (texts ++ [text])) := by
      have ⟨j, hfront⟩ := readFields_frames hframable 0 [] (countedFrame count text)
      rw [hdata, hfront, readFields_short _ _ (Nat.le_of_lt hshort), nil_append]
    rw [decodeStationCtx_even hread heven] at hdecode
    cases hdecode
    have hback := hencode rfl
    -- the encoding of the properties is read back as the same fields
    have hfields : ∀ other ∈ fieldsOf (pairs (texts ++ [text])), Framable other := by
      rw [fieldsOf_pairs heven]
      exact hall
    have hsame := readFields_whole (entries_framable hfields)
    rw [hback, hread] at hsame
    have hframes := hback
    rw [← Except.ok.inj (Except.ok.inj hsame), hdata, frames_append] at hframes
    have hlast : frame text = countedFrame count text := by
      have hcancel := append_cancel_left hframes
      rwa [frames, flatMap_singleton] at hcancel
    have hcount := append_cancel_left hlast
    have hhead := congrArg UInt8.toNat (List.cons.inj hcount).1
    rw [UInt8.toNat_ofNat'] at hhead
    omega
  case distinct =>
    intro stated hframable hdata
    have hread := readFields_whole hframable
    have heven : (fieldsOf stated).length % 2 = 0 := by
      rw [fieldsOf_length]
      omega
    rw [← hdata] at hread
    rw [decodeStationCtx_even hread heven, pairs_fieldsOf] at hdecode
    cases hdecode
    have hback := hencode rfl
    rw [hdata] at hback
    have hfields := frames_injective (entries_framable hframable) hframable hback
    have hsame := congrArg pairs hfields
    rw [pairs_fieldsOf, pairs_fieldsOf] at hsame
    rw [← hsame]
    exact (Dictionary.ofItems Prod.fst Prod.snd stated).nodup

theorem Sound.exact (h : Sound data) : Exact data := by
  have hreads := readFields_reads 0 [] data
  match hread : readFields 0 [] data with
  | .error _ =>
    rw [hread] at hreads
    have ⟨texts, hframable, hdata⟩ := hreads
    exact absurd hdata (h.counted texts hframable)
  | .ok (.error failure) =>
    refine ⟨{}, some failure, ?_, fun hnone => nomatch hnone⟩
    rw [decodeStationCtx, hread]
    rfl
  | .ok (.ok fields) =>
    rw [hread] at hreads
    have ⟨texts, hfields, hframable, hframed⟩ := hreads
    rw [nil_append] at hfields
    subst hfields
    by_cases heven : fields.length % 2 = 0
    · refine ⟨_, _, decodeStationCtx_even hread heven, fun _ => ?_⟩
      cases hframed with
      | whole =>
        have hsame := fieldsOf_pairs heven
        have hnodup := h.distinct (pairs fields) (by rwa [hsame]) (by rw [hsame])
        have hentries : (pairs fields).map (fun item => (item.1, item.2)) = pairs fields :=
          map_id _
        rw [Dictionary.ofItems_entries hnodup, hentries, hsame]
      | short texts text count hshort =>
        have hodd : texts.length % 2 = 1 := by
          rw [length_append, length_singleton] at heven
          omega
        have hearly : ∀ other ∈ texts, Framable other := fun other hmem =>
          hframable other (mem_append_left _ hmem)
        exact absurd rfl (h.uncut texts text count hearly hodd hshort)
    · have ⟨failure, hfailure⟩ := decodeStationCtx_odd hread heven
      exact ⟨{}, some failure, hfailure, fun hnone => nomatch hnone⟩

/-- Decoding is exact on an input that does not end at or inside a count and has no name twice. -/
theorem stationCtx_exact_iff (data : List UInt8) : Exact data ↔ Sound data :=
  ⟨Exact.sound, Sound.exact⟩

/-- A marker at the end of the bytes. -/
theorem marker_raises : ¬ Exact marker := by
  intro h
  exact h.sound.counted [] (by simp) rfl

end TwinForge.Scadapack
