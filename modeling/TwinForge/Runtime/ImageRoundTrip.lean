import TwinForge.Runtime.PackedImages

/-! # The packed codec round trip

Decoding cuts an overlay's word to 32 bits while construction admits, and encoding
writes, every bit of a wider field. That cut and two values for one bit are all that
separates an encoded image from its mapping.
-/

namespace TwinForge.Runtime

open Bytes List

def PackedImage.value (packed : PackedImage) (name : Text) : Option FieldValue :=
  packed.values.lookup name

theorem lookup_named {fields : List PackedField} (hnodup : (fields.map PackedField.name).Nodup)
    (value : PackedField → FieldValue) {field : PackedField} (h : field ∈ fields) :
    (fields.map fun other => (other.name, value other)).lookup field.name =
      some (value field) := by
  induction fields with
  | nil => cases h
  | cons first fields ih =>
    rw [map_cons, nodup_cons] at hnodup
    rw [map_cons]
    cases h with
    | head => simp
    | tail _ hmem =>
      have hapart : (field.name == first.name) = false := by
        rw [beq_eq_false_iff_ne]
        intro hname
        exact hnodup.1 (hname ▸ mem_map_of_mem hmem)
      rw [lookup_cons, hapart]
      exact ih hnodup.2 hmem

namespace PackedImageLayout

variable {db : CharacterDatabase} {layout : PackedImageLayout} {field : PackedField}
  {image : List UInt8} {packed : PackedImage}

/-! ## Decoded values -/

theorem decode_ok (h : layout.decode db image = .ok packed) :
    (image.length : Int) = layout.byteSize ∧ packed.raw = image ∧
      ∀ field ∈ layout.fields,
        packed.value field.name = some (layout.decodeField db image field) := by
  unfold decode at h
  by_cases hlength : (image.length : Int) = layout.byteSize
  · rw [if_neg (not_not_intro hlength), Except.ok.injEq] at h
    rw [← h]
    exact ⟨hlength, rfl, fun field hfield => lookup_named layout.nodup_names _ hfield⟩
  · rw [if_pos hlength] at h
    cases h

theorem decode_total (hlength : (image.length : Int) = layout.byteSize) :
    ∃ packed, layout.decode db image = .ok packed := by
  unfold decode
  rw [if_neg (not_not_intro hlength)]
  exact ⟨_, rfl⟩

theorem decodeField_base (hkind : field.isOverlay = false) :
    layout.decodeField db image field =
      .int (unpackInt (isSigned db field.dataType) field.size (layout.pattern image field)) := by
  simp [decodeField, hkind, rawValue, pattern]

theorem decodeField_overlay (h : field ∈ layout.fields)
    (hlength : (image.length : Int) = layout.byteSize) (hkind : field.isOverlay = true) :
    layout.decodeField db image field =
      .bool (decide (field.bit < 32) && (layout.pattern image field).testBit field.bit) := by
  have hbits : (layout.rawValue db image field).testBit field.bit =
      (layout.pattern image field).testBit field.bit :=
    unpackInt_testBit (pattern_lt h hlength) ((placed h).bit hkind)
  simp only [decodeField, hkind, if_true, FieldValue.bool.injEq]
  rw [Bool.eq_iff_iff]
  simp only [decide_eq_true_iff, Bool.and_eq_true, masked_bit, hbits]

/-! ## The round trip -/

variable (db) (layout) (values : FieldValues)

/-- The integer of a base field is the source integer with the supplied bits over it. -/
def Overlaid (field : PackedField) (source new : Int) : Prop :=
  (∃ stored, packInt (isSigned db field.dataType) field.size new = some stored) ∧
    ∀ bit < 8 * field.size,
      (∀ value, BitSupplied layout values.entries field.name bit value →
        new.testBit bit = value.truthy) ∧
      ((∀ value, ¬ BitSupplied layout values.entries field.name bit value) →
        new.testBit bit = source.testBit bit)

/-- What the decoded images show of a mapping encoded between them. -/
structure RoundTrip (before after : PackedImage) : Prop where
  overlays : ∀ overlay ∈ layout.fields, overlay.isOverlay = true →
    ∀ value, (overlay.name, value) ∈ values.entries →
      after.value overlay.name = some (.bool value.truthy)
  bases : ∀ field ∈ layout.fields, field.isOverlay = false → ∃ old new : Int,
    before.value field.name = some (.int old) ∧ after.value field.name = some (.int new) ∧
      (∀ value, (field.name, value) ∈ values.entries →
        Overlaid db layout values field value.toInt new) ∧
      ((∀ value, (field.name, value) ∉ values.entries) →
        Overlaid db layout values field old new)
  others : ∀ overlay ∈ layout.fields, overlay.isOverlay = true →
    (∀ value, (overlay.home, value) ∉ values.entries) →
    (∀ value, ¬ BitSupplied layout values.entries overlay.home overlay.bit value) →
      after.value overlay.name = before.value overlay.name
  bytes : ∀ i, (∀ field ∈ layout.fields, ∀ value, (field.name, value) ∈ values.entries →
    ¬ field.Covers i) → after.raw[i]? = before.raw[i]?

/-- No overlay above bit 31 is set to true, and no bit is given both values. -/
structure OverlaysReadable : Prop where
  low : ∀ overlay ∈ layout.fields, overlay.isOverlay = true →
    ∀ value, (overlay.name, value) ∈ values.entries → value.truthy = true → overlay.bit < 32
  agree : ∀ home bit value other, BitSupplied layout values.entries home bit value →
    BitSupplied layout values.entries home bit other → value.truthy = other.truthy

variable {db} {layout} {values}

theorem bitSupplied_own (h : field ∈ layout.fields) (hkind : field.isOverlay = true)
    {value : FieldValue} (hvalue : (field.name, value) ∈ values.entries) :
    BitSupplied layout values.entries field.home field.bit value := by
  have ⟨target, htarget⟩ := Option.isSome_iff_exists.mp hkind
  exact ⟨field, h, by simp [PackedField.home, htarget], rfl, hvalue⟩

section

variable {before after : PackedImage} (hafter : layout.decode db image = .ok after)

include hafter

theorem overlay_truthful (h : field ∈ layout.fields) (hkind : field.isOverlay = true)
    {value : FieldValue} (hvalue : after.value field.name = some (.bool value.truthy)) :
    value.truthy = (decide (field.bit < 32) && (layout.pattern image field).testBit field.bit) := by
  have ⟨hlength, _, hfields⟩ := decode_ok hafter
  rw [hfields field h, decodeField_overlay h hlength hkind, Option.some.injEq,
    FieldValue.bool.injEq] at hvalue
  exact hvalue.symm

theorem RoundTrip.readable (hfit : layout.OverlaysFit)
    (h : RoundTrip db layout values before after) : OverlaysReadable layout values := by
  constructor
  · intro overlay hoverlay hkind value hvalue htrue
    have htold := overlay_truthful hafter hoverlay hkind (h.overlays overlay hoverlay hkind value hvalue)
    rw [htrue] at htold
    have hboth := Bool.and_eq_true_iff.mp htold.symm
    exact of_decide_eq_true hboth.1
  · intro home bit value other hvalue hother
    have htold : ∀ third, BitSupplied layout values.entries home bit third →
        ∃ overlay ∈ layout.fields, overlay.home = home ∧ third.truthy =
          (decide (bit < 32) && (layout.pattern image overlay).testBit bit) := by
      intro third hthird
      rcases hthird with ⟨overlay, hoverlay, htarget, hbit, hentry⟩
      have hkind : overlay.isOverlay = true := by simp [PackedField.isOverlay, htarget]
      have htruth := overlay_truthful hafter hoverlay hkind
        (h.overlays overlay hoverlay hkind third hentry)
      rw [hbit] at htruth
      exact ⟨overlay, hoverlay, by simp [PackedField.home, htarget], htruth⟩
    rcases htold value hvalue with ⟨left, hleft, hhome, hvalueTold⟩
    rcases htold other hother with ⟨right, hright, hhome', hotherTold⟩
    rw [hvalueTold, hotherTold, pattern_home hfit hleft hright (hhome.trans hhome'.symm)]

end

theorem overlaid_of_written {words : List UInt8} (hreadable : OverlaysReadable layout values)
    (hbits : BitsWritten layout words values.entries image)
    (hlength : (image.length : Int) = layout.byteSize) (h : field ∈ layout.fields)
    (hkind : field.isOverlay = false) {source : Int} (hsource : ∀ bit < 8 * field.size,
      (layout.pattern words field).testBit bit = source.testBit bit) :
    Overlaid db layout values field source
      (unpackInt (isSigned db field.dataType) field.size (layout.pattern image field)) := by
  have hrange := pattern_lt h hlength
  constructor
  · exact ⟨_, packInt_unpackInt hrange⟩
  · intro bit hbit
    have hhome := PackedField.home_of_base hkind
    rw [unpackInt_testBit hrange hbit, ← hsource bit hbit, ← hhome]
    constructor
    · intro value hvalue
      exact hbits.written field h bit value hvalue fun other hother =>
        hreadable.agree field.home bit other value hother hvalue
    · exact hbits.kept field h bit

theorem OverlaysReadable.roundTrip {base words : List UInt8} {before after : PackedImage}
    (hbefore : layout.decode db base = .ok before) (hafter : layout.decode db image = .ok after)
    (hbases : BasesWritten db layout base values.entries words)
    (hbits : BitsWritten layout words values.entries image)
    (hreadable : OverlaysReadable layout values) : RoundTrip db layout values before after := by
  have ⟨hbaseLength, hbaseRaw, hold⟩ := decode_ok hbefore
  have ⟨hlength, hraw, hnew⟩ := decode_ok hafter
  constructor
  · intro overlay hoverlay hkind value hvalue
    have hown := bitSupplied_own hoverlay hkind hvalue
    have hbit := hbits.written overlay hoverlay overlay.bit value hown fun other hother =>
      hreadable.agree overlay.home overlay.bit other value hother hown
    rw [hnew overlay hoverlay, decodeField_overlay hoverlay hlength hkind, hbit]
    cases htruthy : value.truthy with
    | false => simp
    | true =>
      have hlow := hreadable.low overlay hoverlay hkind value hvalue htruthy
      simp [hlow]
  · intro field hfield hkind
    refine ⟨_, _, (hold field hfield).trans (congrArg some (decodeField_base hkind)),
      (hnew field hfield).trans (congrArg some (decodeField_base hkind)), ?_, ?_⟩
    · intro value hvalue
      apply overlaid_of_written hreadable hbits hlength hfield hkind
      intro bit hbit
      have hpacked := packInt_eq_some (hbases.written field hfield hkind value hvalue)
      rw [← hpacked.2, unpackInt_testBit hpacked.1 hbit]
    · intro habsent
      apply overlaid_of_written hreadable hbits hlength hfield hkind
      intro bit hbit
      have hkept := hbases.kept field hfield
        (by rwa [PackedField.home_of_base hkind])
      rw [hkept, unpackInt_testBit (pattern_lt hfield hbaseLength) hbit]
  · intro overlay hoverlay hkind hbase hbit
    rw [hnew overlay hoverlay, hold overlay hoverlay, decodeField_overlay hoverlay hlength hkind,
      decodeField_overlay hoverlay hbaseLength hkind,
      hbits.kept overlay hoverlay overlay.bit hbit, hbases.kept overlay hoverlay hbase]
  · intro i houtside
    rw [hraw, hbaseRaw, hbits.outside i houtside, hbases.outside i houtside]

/-! ## Encoding what was decoded -/

/-- Mappings that hold exactly the decoded values of the base fields. -/
def HoldsBases (layout : PackedImageLayout) (values : FieldValues) (packed : PackedImage) : Prop :=
  ∀ entry, entry ∈ values.entries ↔ ∃ field ∈ layout.fields, field.isOverlay = false ∧
    entry.1 = field.name ∧ packed.value field.name = some entry.2

section

variable {source base : List UInt8} (hsource : layout.decode db source = .ok packed)
  (hholds : HoldsBases layout values packed)

include hsource hholds

theorem HoldsBases.pack {entry : Text × FieldValue} (h : entry ∈ values.entries) :
    ∃ field, layout.field? entry.1 = some field ∧ field.isOverlay = false ∧
      packInt (isSigned db field.dataType) field.size entry.2.toInt =
        some (layout.pattern source field) := by
  have ⟨hlength, _, hfields⟩ := decode_ok hsource
  have ⟨field, hfield, hkind, hname, hvalue⟩ := (hholds entry).mp h
  rw [hfields field hfield, decodeField_base hkind, Option.some.injEq] at hvalue
  refine ⟨field, field?_some.mpr ⟨hfield, hname.symm⟩, hkind, ?_⟩
  rw [← hvalue]
  exact packInt_unpackInt (pattern_lt hfield hlength)

theorem HoldsBases.encode_total (hlength : (base.length : Int) = layout.byteSize) :
    ∃ image, layout.encode db values (some base) = .ok image := by
  have hbases : ∀ entries : List (Text × FieldValue), (∀ entry ∈ entries, entry ∈ values.entries) →
      ∀ start, ∃ words, entries.foldlM (layout.writeBase db) start = .ok words := by
    intro entries
    induction entries with
    | nil => exact fun _ start => ⟨start, rfl⟩
    | cons entry entries ih =>
      intro hmem start
      have ⟨field, hfield, hkind, hpack⟩ := HoldsBases.pack hsource hholds (hmem entry (by simp))
      have ⟨next, hwrite⟩ : ∃ next, layout.writeBase db start entry = .ok next := by
        simp [writeBase, hfield, hkind, store, hpack]
      have ⟨words, hwords⟩ := ih (fun other hother => hmem other (by simp [hother])) next
      refine ⟨words, ?_⟩
      rw [foldlM_cons, hwrite]
      exact hwords
  have hoverlays : ∀ entries : List (Text × FieldValue),
      (∀ entry ∈ entries, entry ∈ values.entries) →
      ∀ start, entries.foldlM layout.writeOverlay start = .ok start := by
    intro entries
    induction entries with
    | nil => exact fun _ _ => rfl
    | cons entry entries ih =>
      intro hmem start
      have ⟨field, hfield, hkind, _⟩ := HoldsBases.pack hsource hholds (hmem entry (by simp))
      have hwrite : layout.writeOverlay start entry = .ok start := by
        simp [writeOverlay, hfield, hkind]
      rw [foldlM_cons, hwrite]
      exact ih (fun other hother => hmem other (by simp [hother])) start
  have hknown : (values.entries.map Prod.fst).filter
      (fun name => (layout.field? name).isNone) = [] := by
    rw [filter_eq_nil_iff]
    intro name hname
    have ⟨entry, hentry, hkey⟩ := mem_map.mp hname
    have ⟨field, hfield, _⟩ := HoldsBases.pack hsource hholds hentry
    rw [← hkey, hfield]
    simp
  have ⟨words, hwords⟩ := hbases values.entries (fun _ h => h) base
  refine ⟨words, ?_⟩
  unfold encode
  simp only [Option.getD_some, hknown]
  rw [if_neg (not_not_intro hlength), if_neg (not_not_intro rfl), hwords]
  exact hoverlays values.entries (fun _ h => h) words

theorem HoldsBases.restores (hdisjoint : layout.BasesDisjoint) (hfit : layout.OverlaysFit)
    (himage : layout.encode db values (some base) = .ok image) (h : field ∈ layout.fields)
    {i : Nat} (hcovers : field.Covers i) : image[i]? = source[i]? := by
  have ⟨hlength, _, hfields⟩ := decode_ok hsource
  have ⟨hbaseLength, words, hbases, hbits⟩ := encode_passes hdisjoint hfit himage
  have hwordsLength : (words.length : Int) = layout.byteSize := by
    rw [hbases.length]
    exact hbaseLength
  have himageLength : (image.length : Int) = layout.byteSize := by
    rw [hbits.length]
    exact hwordsLength
  have ⟨home, hhome, hkind, hname⟩ := exists_home h
  have hentry : (home.name, layout.decodeField db source home) ∈ values.entries :=
    (hholds _).mpr ⟨home, hhome, hkind, rfl, hfields home hhome⟩
  have hwritten := hbases.written home hhome hkind _ hentry
  have ⟨own, hown, hownKind, hpack⟩ := HoldsBases.pack hsource hholds hentry
  have hself : own = home := eq_of_name (field?_some.mp hown).1 hhome (field?_some.mp hown).2
  rw [hself, hwritten, Option.some.injEq] at hpack
  have hwords : layout.pattern words field = layout.pattern source field := by
    have hshared : field.home = home.home := by
      rw [PackedField.home_of_base hkind, hname]
    rw [pattern_home hfit h hhome hshared, pattern_home hfit h hhome hshared, hpack]
  -- No entry is an overlay's, so the second pass writes no bit.
  have hnone : ∀ bit value, ¬ BitSupplied layout values.entries field.home bit value := by
    intro bit value hsupplied
    have ⟨overlay, hoverlay, htarget, _, hvalue⟩ := hsupplied
    have ⟨other, hother, hotherKind, hotherName, _⟩ := (hholds _).mp hvalue
    have hsame := eq_of_name hoverlay hother hotherName
    rw [hsame] at htarget
    simp [PackedField.isOverlay, htarget] at hotherKind
  apply byte_of_pattern h hlength himageLength _ hcovers
  rw [← hwords]
  apply Nat.eq_of_testBit_eq
  intro bit
  exact hbits.kept field h bit (hnone bit)

end

end PackedImageLayout

open PackedImageLayout

/-- An encoded image decodes to its mapping exactly where the overlays are readable,
and the decoded base fields rebuild every byte that a field covers. -/
theorem packedImage_codec (db : CharacterDatabase) (layout : PackedImageLayout)
    (hdisjoint : layout.BasesDisjoint) (hfit : layout.OverlaysFit) :
    (∀ base values image, layout.encode db values (some base) = .ok image →
      ∃ before after, layout.decode db base = .ok before ∧ layout.decode db image = .ok after ∧
        (RoundTrip db layout values before after ↔ OverlaysReadable layout values)) ∧
    (∀ source packed base values, layout.decode db source = .ok packed →
      (base.length : Int) = layout.byteSize → HoldsBases layout values packed →
      ∃ image, layout.encode db values (some base) = .ok image ∧
        ∀ field ∈ layout.fields, ∀ i, field.Covers i → image[i]? = source[i]?) := by
  constructor
  · intro base values image himage
    have ⟨hlength, words, hbases, hbits⟩ := encode_passes hdisjoint hfit himage
    have himageLength : (image.length : Int) = layout.byteSize := by
      rw [hbits.length, hbases.length]
      exact hlength
    have ⟨before, hbefore⟩ : ∃ before, layout.decode db base = .ok before := decode_total hlength
    have ⟨after, hafter⟩ : ∃ after, layout.decode db image = .ok after :=
      decode_total himageLength
    refine ⟨before, after, hbefore, hafter, ?_⟩
    constructor
    · intro htrip
      exact RoundTrip.readable hafter hfit htrip
    · intro hreadable
      exact OverlaysReadable.roundTrip hbefore hafter hbases hbits hreadable
  · intro source packed base values hsource hlength hholds
    have ⟨image, himage⟩ := HoldsBases.encode_total hsource hholds hlength
    refine ⟨image, himage, ?_⟩
    intro field hfield i hcovers
    exact HoldsBases.restores hsource hholds hdisjoint hfit himage hfield hcovers

/-! A word with a low and a high overlay. -/

def statusLayout : PackedImageLayout where
  name := "input_image"
  byteSize := 9
  byteOrder := .big
  fields :=
    [⟨"Status", "LINT", 0, 8, none, none⟩, ⟨"Ready", "BOOL", 0, 8, some "Status", some 3⟩,
      ⟨"Tripped", "BOOL", 0, 8, some "Status", some 40⟩, ⟨"Mode", "sint", 8, 1, none, none⟩]
  accepted := by decide

theorem statusLayout_disjoint : statusLayout.BasesDisjoint := by
  intro field hfield other hother hkind hother' hname i hboth
  simp only [PackedField.Covers] at hboth
  simp only [statusLayout, mem_cons, not_mem_nil, or_false] at hfield hother
  rcases hfield with rfl | rfl | rfl | rfl <;> rcases hother with rfl | rfl | rfl | rfl <;>
    simp [PackedField.isOverlay, PackedField.offset, PackedField.size] at * <;> omega

theorem statusLayout_fit : statusLayout.OverlaysFit := by
  intro overlay hoverlay base hbase hkind htarget
  simp only [statusLayout, mem_cons, not_mem_nil, or_false] at hoverlay hbase
  have hnames : Text.of "Status" ≠ Text.of "Mode" := by decide
  rcases hoverlay with rfl | rfl | rfl | rfl <;> rcases hbase with rfl | rfl | rfl | rfl <;>
    simp [PackedField.isOverlay, hnames] at *

/-- The mode and the low overlay. -/
def readyValues : FieldValues :=
  ⟨[("Mode", .int (-3)), ("Ready", .bool true)], by decide⟩

def baseValues : FieldValues :=
  ⟨[("Mode", .int (-1)), ("Status", .int 258)], by decide⟩

theorem statusLayout_bases :
    HoldsBases statusLayout baseValues ⟨[0, 0, 0, 0, 0, 0, 1, 2, 255],
      [("Status", .int 258), ("Ready", .bool false), ("Tripped", .bool false),
        ("Mode", .int (-1))]⟩ := by
  intro ⟨name, value⟩
  simp only [baseValues, statusLayout, mem_cons, not_mem_nil, or_false]
  constructor
  · rintro (hmode | hstatus)
    · cases hmode
      exact ⟨_, .inr (.inr (.inr rfl)), rfl, rfl, by decide⟩
    · cases hstatus
      exact ⟨_, .inl rfl, rfl, rfl, by decide⟩
  · rintro ⟨field, rfl | rfl | rfl | rfl, hkind, hname, hvalue⟩
    · have hstatus : value = .int 258 := (Option.some.inj hvalue).symm
      exact .inr (by rw [hstatus, hname])
    · cases hkind
    · cases hkind
    · have hmode : value = .int (-1) := (Option.some.inj hvalue).symm
      exact .inl (by rw [hmode, hname])

theorem packedImage_codec_status :
    (∃ before after, statusLayout.decode Ascii.database (List.replicate 9 1) = .ok before ∧
      statusLayout.decode Ascii.database [1, 1, 1, 1, 1, 1, 1, 9, 253] = .ok after ∧
      (RoundTrip Ascii.database statusLayout readyValues before after ↔
        OverlaysReadable statusLayout readyValues)) ∧
    ∃ image, statusLayout.encode Ascii.database baseValues (some (List.replicate 9 7)) = .ok image ∧
      ∀ field ∈ statusLayout.fields, ∀ i, field.Covers i →
        image[i]? = [0, 0, 0, 0, 0, 0, 1, 2, 255][i]? := by
  have hcodec := packedImage_codec Ascii.database statusLayout statusLayout_disjoint
    statusLayout_fit
  constructor
  · exact hcodec.1 (List.replicate 9 1) readyValues [1, 1, 1, 1, 1, 1, 1, 9, 253]
      (by decide +kernel)
  · exact hcodec.2 [0, 0, 0, 0, 0, 0, 1, 2, 255] _ (List.replicate 9 7) baseValues
      (by decide +kernel) (by decide +kernel) statusLayout_bases

def trippedValues : FieldValues := ⟨[("Tripped", .bool true)], by decide⟩

theorem packedImage_high_overlay :
    ¬ ∀ (layout : PackedImageLayout) (base image : List UInt8) (values : FieldValues)
      (before after : PackedImage), layout.BasesDisjoint → layout.OverlaysFit →
      layout.encode Ascii.database values (some base) = .ok image →
      layout.decode Ascii.database base = .ok before →
      layout.decode Ascii.database image = .ok after →
      RoundTrip Ascii.database layout values before after := by
  intro h
  have hencode : statusLayout.encode Ascii.database trippedValues (some (List.replicate 9 0)) =
      .ok [0, 0, 1, 0, 0, 0, 0, 0, 0] := by decide +kernel
  have htrip := h statusLayout (List.replicate 9 0) [0, 0, 1, 0, 0, 0, 0, 0, 0] trippedValues
    ⟨List.replicate 9 0, [("Status", .int 0), ("Ready", .bool false), ("Tripped", .bool false),
      ("Mode", .int 0)]⟩
    ⟨[0, 0, 1, 0, 0, 0, 0, 0, 0], [("Status", .int (2 ^ 40)), ("Ready", .bool false),
      ("Tripped", .bool false), ("Mode", .int 0)]⟩
    statusLayout_disjoint statusLayout_fit hencode (by decide +kernel) (by decide +kernel)
  have htripped := htrip.overlays ⟨"Tripped", "BOOL", 0, 8, some "Status", some 40⟩
    (by decide) rfl (.bool true) (by decide)
  revert htripped
  decide

end TwinForge.Runtime
