import Mathlib.Data.List.Nodup
import TwinForge.Foundation.Bytes
import TwinForge.Foundation.Sorting
import TwinForge.Foundation.Text

/-! # Packed cyclic images

The packed layouts of one cyclic connection, as construction checks them, and the two
codecs over a complete image.
-/

namespace TwinForge.Runtime

open Bytes

/-- One scalar of an image, or one bit of another field. -/
structure PackedField where
  name : Text
  dataType : Text
  byteOffset : Int
  byteSize : Int
  overlayTarget : Option Text
  bitNumber : Option Int
  deriving DecidableEq, Repr

namespace PackedField

variable (field : PackedField)

def isOverlay : Bool := field.overlayTarget.isSome

/-- The bounds as positions. Both are what they were once the layout is accepted. -/
def offset : Nat := field.byteOffset.toNat

def size : Nat := field.byteSize.toNat

/-- The bit an overlay addresses. Both codecs assert that it is present. -/
def bit : Nat := (field.bitNumber.getD 0).toNat

end PackedField

inductive FieldValue where
  | int (value : Int)
  | bool (value : Bool)
  deriving DecidableEq, Repr

namespace FieldValue

def toInt : FieldValue → Int
  | .int value => value
  | .bool value => if value then 1 else 0

def truthy : FieldValue → Bool
  | .int value => value != 0
  | .bool value => value

end FieldValue

inductive LayoutError where
  | byteSize
  | duplicate (name : Text)
  | invalidBounds (name : Text)
  | exceedsImage (name : Text)
  | absentTarget (target : Text)
  | noBitNumber (name : Text)
  | bitNumber (name : Text)
  deriving DecidableEq, Repr

def checkField (byteSize : Int) (baseNames names : List Text) (field : PackedField) :
    Except LayoutError Unit :=
  if field.name ∈ names then .error (.duplicate field.name)
  else if field.byteOffset < 0 ∨ field.byteSize ≤ 0 then .error (.invalidBounds field.name)
  else if byteSize < field.byteOffset + field.byteSize then .error (.exceedsImage field.name)
  else
    match field.overlayTarget with
    | none => .ok ()
    | some target =>
      if target ∉ baseNames then .error (.absentTarget target)
      else
        match field.bitNumber with
        | none => .error (.noBitNumber field.name)
        | some bit =>
          if 0 ≤ bit ∧ bit < field.byteSize * 8 then .ok ()
          else .error (.bitNumber field.name)

def checkFields (byteSize : Int) (baseNames : List Text) :
    List Text → List PackedField → Except LayoutError Unit
  | _, [] => .ok ()
  | names, field :: fields =>
    match checkField byteSize baseNames names field with
    | .error failure => .error failure
    | .ok _ => checkFields byteSize baseNames (field.name :: names) fields

/-- What construction of a layout checks. -/
def postInit (byteSize : Int) (fields : List PackedField) : Except LayoutError Unit :=
  if byteSize ≤ 0 then .error .byteSize
  else
    checkFields byteSize ((fields.filter fun field => !field.isOverlay).map PackedField.name) []
      fields

structure PackedImageLayout where
  name : Text
  byteSize : Int
  byteOrder : ByteOrder
  fields : List PackedField
  accepted : postInit byteSize fields = .ok ()

/-- The values of a mapping, in its order. -/
structure FieldValues where
  entries : List (Text × FieldValue)
  nodup : (entries.map Prod.fst).Nodup

inductive CodecError where
  | imageLength (layout : Text) (required : Int) (received : Nat)
  | baseLength (layout : Text) (required : Int) (received : Nat)
  | unknownFields (names : List Text)
  | overflow
  deriving DecidableEq, Repr

structure PackedImage where
  raw : List UInt8
  values : List (Text × FieldValue)
  deriving DecidableEq, Repr

section

variable (db : CharacterDatabase)

def isSigned (dataType : Text) : Bool :=
  decide (db.upperText dataType ∈ ["SINT", "INT", "DINT", "LINT"].map Text.of)

namespace PackedImageLayout

variable (layout : PackedImageLayout)

/-- The integer at a field, read with the field's own type. -/
def rawValue (image : List UInt8) (field : PackedField) : Int :=
  unpackInt (isSigned db field.dataType) field.size
    (layout.byteOrder.ofBytes (slice image field.offset field.size))

def decodeField (image : List UInt8) (field : PackedField) : FieldValue :=
  let rawValue := layout.rawValue db image field
  if field.isOverlay then
    .bool (decide (Int.land (Int.land rawValue 0xFFFFFFFF) ((2 ^ field.bit : Nat) : Int) ≠ 0))
  else .int rawValue

def decode (image : List UInt8) : Except CodecError PackedImage :=
  if (image.length : Int) ≠ layout.byteSize then
    .error (.imageLength layout.name layout.byteSize image.length)
  else
    .ok ⟨image, layout.fields.map fun field => (field.name, layout.decodeField db image field)⟩

def field? (name : Text) : Option PackedField :=
  layout.fields.find? fun field => decide (field.name = name)

/-- The assignment of one integer's bytes. -/
def store (signed : Bool) (image : List UInt8) (field : PackedField) (value : Int) :
    Except CodecError (List UInt8) :=
  match packInt signed field.size value with
  | none => .error .overflow
  | some pattern =>
    .ok (splice image field.offset (layout.byteOrder.toBytes field.size pattern))

def writeBase (image : List UInt8) (entry : Text × FieldValue) :
    Except CodecError (List UInt8) :=
  match layout.field? entry.1 with
  | none => .error (.unknownFields [entry.1])
  | some field =>
    if field.isOverlay then .ok image
    else layout.store (isSigned db field.dataType) image field entry.2.toInt

def writeOverlay (image : List UInt8) (entry : Text × FieldValue) :
    Except CodecError (List UInt8) :=
  match layout.field? entry.1 with
  | none => .error (.unknownFields [entry.1])
  | some field =>
    if field.isOverlay then
      let current := layout.byteOrder.ofBytes (slice image field.offset field.size)
      layout.store false image field (setBit current field.bit entry.2.truthy)
    else .ok image

/-- Base fields first, in mapping order, and the overlays over them. -/
def encode (values : FieldValues) (base : Option (List UInt8)) :
    Except CodecError (List UInt8) :=
  let image := base.getD (List.replicate layout.byteSize.toNat 0)
  let unknown := (values.entries.map Prod.fst).filter fun name => (layout.field? name).isNone
  if (image.length : Int) ≠ layout.byteSize then
    .error (.baseLength layout.name layout.byteSize image.length)
  else if unknown ≠ [] then .error (.unknownFields (sortedBy compare unknown))
  else do
    let image ← values.entries.foldlM (layout.writeBase db) image
    values.entries.foldlM layout.writeOverlay image

end PackedImageLayout

end

/-! ## Accepted packed layouts

What construction of a layout has checked, and where its fields lie. Every field stands
on the bytes of one base field, its home.
-/

namespace PackedField

def home (field : PackedField) : Text := field.overlayTarget.getD field.name

def Covers (field : PackedField) (i : Nat) : Prop :=
  field.offset ≤ i ∧ i < field.offset + field.size

theorem home_of_base {field : PackedField} (h : field.isOverlay = false) :
    field.home = field.name := by
  have hnone : field.overlayTarget = none := by simpa [isOverlay] using h
  simp [home, hnone]

/-- What a field of an accepted layout satisfies. -/
structure Placed (byteSize : Int) (baseNames : List Text) (field : PackedField) : Prop where
  start : 0 ≤ field.byteOffset
  positive : 0 < field.byteSize
  inside : field.byteOffset + field.byteSize ≤ byteSize
  target : ∀ target, field.overlayTarget = some target → target ∈ baseNames
  bit : field.isOverlay = true → field.bit < 8 * field.size

end PackedField

theorem checkField_ok {byteSize : Int} {baseNames names : List Text} {field : PackedField}
    (h : checkField byteSize baseNames names field = .ok ()) :
    field.name ∉ names ∧ field.Placed byteSize baseNames := by
  unfold checkField at h
  by_cases hname : field.name ∈ names
  · simp [hname] at h
  by_cases hbounds : field.byteOffset < 0 ∨ field.byteSize ≤ 0
  · simp [hname, hbounds] at h
  by_cases hend : byteSize < field.byteOffset + field.byteSize
  · simp [hname, hbounds, hend] at h
  rw [if_neg hname, if_neg hbounds, if_neg hend] at h
  have hstart : 0 ≤ field.byteOffset := by omega
  have hpositive : 0 < field.byteSize := by omega
  have hinside : field.byteOffset + field.byteSize ≤ byteSize := by omega
  cases htarget : field.overlayTarget with
  | none =>
    exact ⟨hname, hstart, hpositive, hinside, by simp [htarget],
      by simp [PackedField.isOverlay, htarget]⟩
  | some target =>
    simp only [htarget] at h
    by_cases hbase : target ∈ baseNames
    · rw [if_neg (not_not_intro hbase)] at h
      cases hbit : field.bitNumber with
      | none => simp [hbit] at h
      | some bit =>
        simp only [hbit] at h
        by_cases hrange : 0 ≤ bit ∧ bit < field.byteSize * 8
        · have hcast : field.bit < 8 * field.size := by
            simp only [PackedField.bit, PackedField.size, hbit, Option.getD_some]
            omega
          exact ⟨hname, hstart, hpositive, hinside,
            fun other hother => by
              rw [htarget, Option.some.injEq] at hother
              rw [← hother]
              exact hbase,
            fun _ => hcast⟩
        · simp [hrange] at h
    · simp [hbase] at h

theorem checkFields_ok {byteSize : Int} {baseNames : List Text} {fields : List PackedField}
    {names : List Text} (h : checkFields byteSize baseNames names fields = .ok ()) :
    (∀ field ∈ fields, field.name ∉ names ∧ field.Placed byteSize baseNames) ∧
      (fields.map PackedField.name).Nodup := by
  induction fields generalizing names with
  | nil => simp
  | cons field fields ih =>
    simp only [checkFields] at h
    cases hfield : checkField byteSize baseNames names field with
    | error failure => simp [hfield] at h
    | ok checked =>
      simp only [hfield] at h
      have hrest := ih h
      constructor
      · intro other hother
        cases hother with
        | head => exact checkField_ok hfield
        | tail _ hmem =>
          have hother := hrest.1 other hmem
          exact ⟨fun hname => hother.1 (List.mem_cons_of_mem _ hname), hother.2⟩
      · rw [List.map_cons, List.nodup_cons]
        constructor
        · intro hmem
          have ⟨other, hother, hname⟩ := List.mem_map.mp hmem
          apply (hrest.1 other hother).1
          rw [hname]
          exact List.mem_cons_self
        · exact hrest.2

namespace PackedImageLayout

variable (layout : PackedImageLayout)

def baseNames : List Text :=
  (layout.fields.filter fun field => !field.isOverlay).map PackedField.name

theorem fields_checked : checkFields layout.byteSize layout.baseNames [] layout.fields = .ok () := by
  have haccepted := layout.accepted
  unfold postInit at haccepted
  by_cases hsize : layout.byteSize ≤ 0
  · simp [hsize] at haccepted
  · rwa [if_neg hsize] at haccepted

theorem nodup_names : (layout.fields.map PackedField.name).Nodup :=
  (checkFields_ok layout.fields_checked).2

variable {layout} {field other : PackedField}

theorem placed (h : field ∈ layout.fields) : field.Placed layout.byteSize layout.baseNames :=
  ((checkFields_ok layout.fields_checked).1 field h).2

theorem eq_of_name (hfield : field ∈ layout.fields) (hother : other ∈ layout.fields)
    (h : field.name = other.name) : field = other :=
  List.inj_on_of_nodup_map layout.nodup_names hfield hother h

theorem field?_some {name : Text} :
    layout.field? name = some field ↔ field ∈ layout.fields ∧ field.name = name := by
  constructor
  · intro h
    exact ⟨List.mem_of_find?_eq_some h, by simpa using List.find?_some h⟩
  · intro h
    cases hfound : layout.field? name with
    | none =>
      have habsent := List.find?_eq_none.mp hfound field h.1
      simp [h.2] at habsent
    | some found =>
      have hmem : found ∈ layout.fields := List.mem_of_find?_eq_some hfound
      have hname : found.name = name := by simpa using List.find?_some hfound
      rw [eq_of_name hmem h.1 (hname.trans h.2.symm)]

theorem exists_home (h : field ∈ layout.fields) :
    ∃ base ∈ layout.fields, base.isOverlay = false ∧ base.name = field.home := by
  cases htarget : field.overlayTarget with
  | none => exact ⟨field, h, by simp [PackedField.isOverlay, htarget], by simp [PackedField.home, htarget]⟩
  | some target =>
    have hmem := (placed h).target target htarget
    have ⟨base, hbase, hname⟩ := List.mem_map.mp hmem
    rw [List.mem_filter] at hbase
    exact ⟨base, hbase.1, by simpa using hbase.2, by simp [PackedField.home, htarget, hname]⟩

/-! ### Where fields lie -/

variable (layout)

def BasesDisjoint : Prop :=
  ∀ field ∈ layout.fields, ∀ other ∈ layout.fields, field.isOverlay = false →
    other.isOverlay = false → field.name ≠ other.name → ∀ i, ¬ (field.Covers i ∧ other.Covers i)

def OverlaysFit : Prop :=
  ∀ overlay ∈ layout.fields, ∀ base ∈ layout.fields, base.isOverlay = false →
    overlay.overlayTarget = some base.name →
    overlay.byteOffset = base.byteOffset ∧ overlay.byteSize = base.byteSize

variable {layout}

theorem OverlaysFit.same_bounds (hfit : layout.OverlaysFit) (h : field ∈ layout.fields)
    {base : PackedField} (hbase : base ∈ layout.fields) (hkind : base.isOverlay = false)
    (hname : base.name = field.home) : field.offset = base.offset ∧ field.size = base.size := by
  cases htarget : field.overlayTarget with
  | none =>
    have hself : base = field := eq_of_name hbase h (by simp [hname, PackedField.home, htarget])
    rw [hself]
    exact ⟨rfl, rfl⟩
  | some target =>
    have htargets : field.overlayTarget = some base.name := by
      simp [htarget, hname, PackedField.home]
    have hbounds := hfit field h base hbase hkind htargets
    simp only [PackedField.offset, PackedField.size, hbounds.1, hbounds.2]
    exact ⟨trivial, trivial⟩

theorem OverlaysFit.of_home (hfit : layout.OverlaysFit) (hfield : field ∈ layout.fields)
    (hother : other ∈ layout.fields) (h : field.home = other.home) :
    field.offset = other.offset ∧ field.size = other.size := by
  have ⟨base, hbase, hkind, hname⟩ := exists_home hfield
  have hleft := hfit.same_bounds hfield hbase hkind hname
  have hright := hfit.same_bounds hother hbase hkind (hname.trans h)
  exact ⟨hleft.1.trans hright.1.symm, hleft.2.trans hright.2.symm⟩

theorem BasesDisjoint.of_home (hdisjoint : layout.BasesDisjoint) (hfit : layout.OverlaysFit)
    (hfield : field ∈ layout.fields) (hother : other ∈ layout.fields)
    (h : field.home ≠ other.home) :
    field.offset + field.size ≤ other.offset ∨ other.offset + other.size ≤ field.offset := by
  have ⟨base, hbase, hkind, hname⟩ := exists_home hfield
  have ⟨base', hbase', hkind', hname'⟩ := exists_home hother
  have hleft := hfit.same_bounds hfield hbase hkind hname
  have hright := hfit.same_bounds hother hbase' hkind' hname'
  have hapart : base.name ≠ base'.name := by
    rw [hname, hname']
    exact h
  have hshared := hdisjoint base hbase base' hbase' hkind hkind' hapart
    (max base.offset base'.offset)
  have hpositive := (placed hfield).positive
  have hpositive' := (placed hother).positive
  simp only [PackedField.Covers] at hshared
  simp only [PackedField.size] at hleft hright hshared ⊢
  omega

end PackedImageLayout

end TwinForge.Runtime
