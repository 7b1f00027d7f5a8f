import TwinForge.Foundation.Guards
import TwinForge.Runtime.CyclicIo

/-! # What the two image codecs keep

Fields of one home share their pattern and fields of two homes share no byte, so each
write is followed through the patterns of the homes.
-/

namespace TwinForge.Runtime

open Bytes Guards List

namespace PackedImageLayout

/-- The unsigned integer at a field. -/
def pattern (layout : PackedImageLayout) (image : List UInt8) (field : PackedField) : Nat :=
  layout.byteOrder.ofBytes (slice image field.offset field.size)

variable {db : CharacterDatabase} {layout : PackedImageLayout} {field other : PackedField}
  {image next : List UInt8}

theorem in_image (h : field ∈ layout.fields) (hlength : (image.length : Int) = layout.byteSize) :
    field.offset + field.size ≤ image.length := by
  have hplaced := placed h
  have hstart := hplaced.start
  have hpositive := hplaced.positive
  have hinside := hplaced.inside
  simp only [PackedField.offset, PackedField.size]
  omega

theorem pattern_lt (h : field ∈ layout.fields) (hlength : (image.length : Int) = layout.byteSize) :
    layout.pattern image field < 256 ^ field.size := by
  have hbound := ofBytes_lt layout.byteOrder (slice image field.offset field.size)
  rwa [slice_length (in_image h hlength)] at hbound

theorem pattern_home (hfit : layout.OverlaysFit) (hfield : field ∈ layout.fields)
    (hother : other ∈ layout.fields) (h : field.home = other.home) (image : List UInt8) :
    layout.pattern image field = layout.pattern image other := by
  have hbounds := hfit.of_home hfield hother h
  rw [pattern, pattern, hbounds.1, hbounds.2]

theorem byte_of_pattern (h : field ∈ layout.fields)
    (hlength : (image.length : Int) = layout.byteSize)
    (hnext : (next.length : Int) = layout.byteSize)
    (hpattern : layout.pattern next field = layout.pattern image field) {i : Nat}
    (hcovers : field.Covers i) : next[i]? = image[i]? := by
  have hslice : ∀ bytes : List UInt8, (bytes.length : Int) = layout.byteSize →
      slice bytes field.offset field.size =
        layout.byteOrder.toBytes field.size (layout.pattern bytes field) := by
    intro bytes hbytes
    have hback := toBytes_ofBytes layout.byteOrder (slice bytes field.offset field.size)
    rw [slice_length (in_image h hbytes)] at hback
    exact hback.symm
  have hsame : slice next field.offset field.size = slice image field.offset field.size := by
    rw [hslice next hnext, hslice image hlength, hpattern]
  have hbyte := congrArg (fun bytes => bytes[i - field.offset]?) hsame
  simp only [slice_getElem?] at hbyte
  have hinside : i - field.offset < field.size := by
    have hstart := hcovers.1
    have hend := hcovers.2
    omega
  rw [if_pos hinside, if_pos hinside, Nat.add_sub_cancel' hcovers.1] at hbyte
  exact hbyte

/-! ## One write -/

structure Stored (layout : PackedImageLayout) (image next : List UInt8) (field : PackedField)
    (stored : Nat) : Prop where
  length : next.length = image.length
  written : ∀ other ∈ layout.fields, other.home = field.home →
    layout.pattern next other = stored
  kept : ∀ other ∈ layout.fields, other.home ≠ field.home →
    layout.pattern next other = layout.pattern image other
  outside : ∀ i, ¬ field.Covers i → next[i]? = image[i]?

theorem store_stored (hdisjoint : layout.BasesDisjoint) (hfit : layout.OverlaysFit)
    (h : field ∈ layout.fields) (hlength : (image.length : Int) = layout.byteSize)
    {signed : Bool} {value : Int} (hstore : layout.store signed image field value = .ok next) :
    ∃ stored, packInt signed field.size value = some stored ∧
      layout.Stored image next field stored := by
  unfold store at hstore
  cases hpack : packInt signed field.size value with
  | none => simp [hpack] at hstore
  | some stored =>
    simp only [hpack, Except.ok.injEq] at hstore
    have hbytes := toBytes_length layout.byteOrder field.size stored
    have hroom : field.offset + (layout.byteOrder.toBytes field.size stored).length ≤
        image.length := by
      rw [hbytes]
      exact in_image h hlength
    have hpattern : ∀ other ∈ layout.fields, other.home = field.home →
        layout.pattern next other = stored := by
      intro other hother hhome
      have hbounds := hfit.of_home hother h hhome
      have hslice := slice_splice hroom
      rw [hbytes] at hslice
      rw [pattern, hbounds.1, hbounds.2, ← hstore, hslice,
        ofBytes_toBytes layout.byteOrder (packInt_eq_some hpack).1]
    refine ⟨stored, rfl, ?_, hpattern, ?_, ?_⟩
    · rw [← hstore, splice_length hroom]
    · intro other hother hhome
      have hapart := hdisjoint.of_home hfit hother h hhome
      rw [pattern, pattern, ← hstore, slice_splice_of_disjoint hroom (by omega)]
    · intro i hcovers
      rw [← hstore, splice_getElem? hroom, hbytes]
      exact if_neg hcovers

/-! ## The base pass -/

/-- The image after some entries of the base pass. -/
structure BasesWritten (db : CharacterDatabase) (layout : PackedImageLayout)
    (start : List UInt8) (past : List (Text × FieldValue)) (image : List UInt8) : Prop where
  length : image.length = start.length
  written : ∀ field ∈ layout.fields, field.isOverlay = false →
    ∀ value, (field.name, value) ∈ past →
      packInt (isSigned db field.dataType) field.size value.toInt =
        some (layout.pattern image field)
  kept : ∀ field ∈ layout.fields, (∀ value, (field.home, value) ∉ past) →
    layout.pattern image field = layout.pattern start field
  outside : ∀ i, (∀ field ∈ layout.fields, ∀ value, (field.name, value) ∈ past →
    ¬ field.Covers i) → image[i]? = start[i]?

variable {entry : Text × FieldValue} {past : List (Text × FieldValue)}

theorem BasesWritten.step (hdisjoint : layout.BasesDisjoint) (hfit : layout.OverlaysFit)
    {start : List UInt8} (hstart : (start.length : Int) = layout.byteSize)
    (hkeys : ((past ++ [entry]).map Prod.fst).Nodup)
    (hpast : BasesWritten db layout start past image)
    (hwrite : layout.writeBase db image entry = .ok next) :
    BasesWritten db layout start (past ++ [entry]) next := by
  have hlength : (image.length : Int) = layout.byteSize := by
    rw [hpast.length]
    exact hstart
  have hnew : ∀ value, (entry.1, value) ∉ past := by
    intro value hmem
    rw [map_append, nodup_append] at hkeys
    exact hkeys.2.2 entry.1 (mem_map.mpr ⟨_, hmem, rfl⟩) entry.1 (by simp) rfl
  unfold writeBase at hwrite
  cases hfield : layout.field? entry.1 with
  | none => simp [hfield] at hwrite
  | some field =>
    simp only [hfield] at hwrite
    have ⟨hmem, hname⟩ := field?_some.mp hfield
    by_cases hkind : field.isOverlay = true
    · -- An overlay's own entry waits for the second pass.
      rw [if_pos hkind, Except.ok.injEq] at hwrite
      rw [← hwrite]
      refine ⟨hpast.length, ?_, ?_, ?_⟩
      · intro other hother hbase value hvalue
        rw [mem_append, mem_singleton] at hvalue
        cases hvalue with
        | inl hearlier => exact hpast.written other hother hbase value hearlier
        | inr hlast =>
          have hself : other = field :=
            eq_of_name hother hmem (by rw [hname, ← hlast])
          rw [hself, hkind] at hbase
          cases hbase
      · intro other hother habsent
        exact hpast.kept other hother fun value hvalue =>
          habsent value (mem_append_left _ hvalue)
      · intro i houtside
        exact hpast.outside i fun other hother value hvalue =>
          houtside other hother value (mem_append_left _ hvalue)
    · have hbase : field.isOverlay = false := by simpa using hkind
      rw [if_neg hkind] at hwrite
      have ⟨stored, hpack, hstored⟩ := store_stored hdisjoint hfit hmem hlength hwrite
      have hhome : field.home = entry.1 := (PackedField.home_of_base hbase).trans hname
      refine ⟨hstored.length.trans hpast.length, ?_, ?_, ?_⟩
      · intro other hother hotherBase value hvalue
        rw [mem_append, mem_singleton] at hvalue
        cases hvalue with
        | inl hearlier =>
          have hapart : other.home ≠ field.home := by
            intro hsame
            rw [PackedField.home_of_base hotherBase, hhome] at hsame
            rw [hsame] at hearlier
            exact hnew value hearlier
          rw [hstored.kept other hother hapart]
          exact hpast.written other hother hotherBase value hearlier
        | inr hlast =>
          have hself : other = field :=
            eq_of_name hother hmem (by rw [hname, ← hlast])
          rw [hself, hstored.written field hmem rfl, ← hpack, ← hlast]
      · intro other hother habsent
        have hapart : other.home ≠ field.home := by
          intro hsame
          apply habsent entry.2
          rw [hsame, hhome]
          simp
        rw [hstored.kept other hother hapart]
        exact hpast.kept other hother fun value hvalue =>
          habsent value (mem_append_left _ hvalue)
      · intro i houtside
        rw [hstored.outside i (houtside field hmem entry.2 (by simp [hname]))]
        exact hpast.outside i fun other hother value hvalue =>
          houtside other hother value (mem_append_left _ hvalue)

/-! ## The overlay pass -/

/-- The entries that give a bit of a home a value. -/
def BitSupplied (layout : PackedImageLayout) (entries : List (Text × FieldValue)) (home : Text)
    (bit : Nat) (value : FieldValue) : Prop :=
  ∃ overlay ∈ layout.fields, overlay.overlayTarget = some home ∧ overlay.bit = bit ∧
    (overlay.name, value) ∈ entries

/-- The image after some entries of the overlay pass. Entries that agree on a bit have
set it, whatever their order. -/
structure BitsWritten (layout : PackedImageLayout) (start : List UInt8)
    (past : List (Text × FieldValue)) (image : List UInt8) : Prop where
  length : image.length = start.length
  written : ∀ field ∈ layout.fields, ∀ bit value, BitSupplied layout past field.home bit value →
    (∀ other, BitSupplied layout past field.home bit other → other.truthy = value.truthy) →
    (layout.pattern image field).testBit bit = value.truthy
  kept : ∀ field ∈ layout.fields, ∀ bit,
    (∀ value, ¬ BitSupplied layout past field.home bit value) →
    (layout.pattern image field).testBit bit = (layout.pattern start field).testBit bit
  outside : ∀ i, (∀ field ∈ layout.fields, ∀ value, (field.name, value) ∈ past →
    ¬ field.Covers i) → image[i]? = start[i]?

variable {value : FieldValue} {home : Text} {bit : Nat}

theorem BitSupplied.later {entries more : List (Text × FieldValue)}
    (h : BitSupplied layout entries home bit value) :
    BitSupplied layout (entries ++ more) home bit value := by
  have ⟨overlay, hmem, htarget, hbit, hentry⟩ := h
  exact ⟨overlay, hmem, htarget, hbit, mem_append_left more hentry⟩

theorem not_bitSupplied_nil :
    ¬ BitSupplied layout [] home bit value := by
  intro h
  have ⟨_, _, _, _, hentry⟩ := h
  exact not_mem_nil hentry

theorem bitSupplied_concat (hfield : field ∈ layout.fields) (hname : field.name = entry.1)
    (h : BitSupplied layout (past ++ [entry]) home bit value) :
    BitSupplied layout past home bit value ∨
      field.overlayTarget = some home ∧ field.bit = bit ∧ value = entry.2 := by
  have ⟨overlay, hmem, htarget, hbit, hentry⟩ := h
  rw [mem_append, mem_singleton] at hentry
  cases hentry with
  | inl hearlier => exact .inl ⟨overlay, hmem, htarget, hbit, hearlier⟩
  | inr hlast =>
    have hself : overlay = field := eq_of_name hmem hfield (by rw [hname, ← hlast])
    rw [hself] at htarget hbit
    exact .inr ⟨htarget, hbit, by rw [← hlast]⟩

theorem writeOverlay_bits (hdisjoint : layout.BasesDisjoint) (hfit : layout.OverlaysFit)
    (hlength : (image.length : Int) = layout.byteSize)
    (hwrite : layout.writeOverlay image entry = .ok next) :
    ∃ field ∈ layout.fields, field.name = entry.1 ∧ next.length = image.length ∧
      (∀ other ∈ layout.fields, ∀ bit, (layout.pattern next other).testBit bit =
        if field.overlayTarget = some other.home ∧ field.bit = bit then entry.2.truthy
        else (layout.pattern image other).testBit bit) ∧
      ∀ i, ¬ field.Covers i → next[i]? = image[i]? := by
  unfold writeOverlay at hwrite
  cases hfield : layout.field? entry.1 with
  | none => simp [hfield] at hwrite
  | some field =>
    simp only [hfield] at hwrite
    rcases field?_some.mp hfield with ⟨hmem, hname⟩
    refine ⟨field, hmem, hname, ?_⟩
    cases htarget : field.overlayTarget with
    | none =>
      have hkind : ¬ field.isOverlay = true := by simp [PackedField.isOverlay, htarget]
      rw [if_neg hkind, Except.ok.injEq] at hwrite
      rw [hwrite]
      exact ⟨rfl, fun _ _ _ => by simp, fun _ _ => rfl⟩
    | some target =>
      have hkind : field.isOverlay = true := by simp [PackedField.isOverlay, htarget]
      have hhome : field.home = target := by simp [PackedField.home, htarget]
      rw [if_pos hkind] at hwrite
      rcases store_stored hdisjoint hfit hmem hlength hwrite with ⟨stored, hpack, hstored⟩
      have hpattern : stored = setBit (layout.pattern image field) field.bit entry.2.truthy :=
        packInt_natCast hpack
      refine ⟨hstored.length, ?_, hstored.outside⟩
      intro other hother bit
      by_cases hsame : other.home = field.home
      · rw [hstored.written other hother hsame, hpattern, setBit_testBit,
          pattern_home hfit hother hmem hsame]
        simp [hsame, hhome, eq_comm]
      · rw [hstored.kept other hother hsame, if_neg]
        intro hboth
        have htargets : target = other.home := by simpa using hboth.1
        exact hsame (htargets.symm.trans hhome.symm)

theorem BitsWritten.step (hdisjoint : layout.BasesDisjoint) (hfit : layout.OverlaysFit)
    {start : List UInt8} (hstart : (start.length : Int) = layout.byteSize)
    (hpast : BitsWritten layout start past image)
    (hwrite : layout.writeOverlay image entry = .ok next) :
    BitsWritten layout start (past ++ [entry]) next := by
  have hlength : (image.length : Int) = layout.byteSize := by
    rw [hpast.length]
    exact hstart
  have ⟨field, hmem, hname, hnext, hbits, houtside⟩ :=
    writeOverlay_bits hdisjoint hfit hlength hwrite
  refine ⟨hnext.trans hpast.length, ?_, ?_, ?_⟩
  · intro other hother bit value hvalue hagree
    rw [hbits other hother bit]
    by_cases hlast : field.overlayTarget = some other.home ∧ field.bit = bit
    · rw [if_pos hlast]
      exact hagree entry.2 ⟨field, hmem, hlast.1, hlast.2, by simp [hname]⟩
    · rw [if_neg hlast]
      have hearlier : BitSupplied layout past other.home bit value := by
        cases bitSupplied_concat hmem hname hvalue with
        | inl hearlier => exact hearlier
        | inr hhere => exact absurd ⟨hhere.1, hhere.2.1⟩ hlast
      exact hpast.written other hother bit value hearlier fun third hthird =>
        hagree third hthird.later
  · intro other hother bit habsent
    rw [hbits other hother bit, if_neg]
    · exact hpast.kept other hother bit fun value hvalue => habsent value hvalue.later
    · intro hlast
      exact habsent entry.2 ⟨field, hmem, hlast.1, hlast.2, by simp [hname]⟩
  · intro i hcovers
    rw [houtside i (hcovers field hmem entry.2 (by simp [hname]))]
    exact hpast.outside i fun other hother value hvalue =>
      hcovers other hother value (mem_append_left _ hvalue)

/-! ## Both passes -/

theorem encode_passes (hdisjoint : layout.BasesDisjoint) (hfit : layout.OverlaysFit)
    {values : FieldValues} {base : List UInt8}
    (h : layout.encode db values (some base) = .ok image) :
    (base.length : Int) = layout.byteSize ∧
      ∃ words, BasesWritten db layout base values.entries words ∧
        BitsWritten layout words values.entries image := by
  unfold encode at h
  simp only [Option.getD_some] at h
  by_cases hlength : (base.length : Int) = layout.byteSize
  · rw [if_neg (not_not_intro hlength)] at h
    split at h
    · cases h
    cases hwords : values.entries.foldlM (layout.writeBase db) base with
    | error failure => simp [hwords, bind, Except.bind] at h
    | ok words =>
      simp only [hwords, bind, Except.bind] at h
      have hbases : BasesWritten db layout base values.entries words := by
        apply foldlM_history hwords
        · exact ⟨rfl, fun _ _ _ _ hvalue => absurd hvalue not_mem_nil,
            fun _ _ _ => rfl, fun _ _ => rfl⟩
        · intro past entry before after hinitial hpast hwrite
          have hkeys : ((past ++ [entry]).map Prod.fst).Nodup :=
            values.nodup.sublist (hinitial.sublist.map Prod.fst)
          exact BasesWritten.step hdisjoint hfit hlength hkeys hpast hwrite
      have hsize : (words.length : Int) = layout.byteSize := by
        rw [hbases.length]
        exact hlength
      have hbits : BitsWritten layout words values.entries image := by
        apply foldlM_history h
        · exact ⟨rfl, fun _ _ _ _ hvalue => absurd hvalue not_bitSupplied_nil,
            fun _ _ _ _ => rfl, fun _ _ => rfl⟩
        · intro past entry before after _ hpast hwrite
          exact BitsWritten.step hdisjoint hfit hsize hpast hwrite
      exact ⟨hlength, words, hbases, hbits⟩
  · rw [if_pos hlength] at h
    cases h

end PackedImageLayout

end TwinForge.Runtime
