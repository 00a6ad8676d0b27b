import Std.Data.ExtTreeMap
import Superiority.Bsn.Schema
import Superiority.Library.Fallible

/-!
# Wire layouts

The part of `bsn/codec.rs` that says, for a type marked obfuscated, how its fields really lie on the
wire: as reflected, in another order with filler bits between them, or by a routine of its own.
`register` of `native/wire_layout.rs` is the only caller that installs routines of its own; they are
listed here and defined there.
-/

namespace Superiority.Bsn

open Std

structure WireField where
  logicalField : Nat
  fillerBefore : Nat
  deriving DecidableEq, Repr

structure StructWireLayout where
  name : String
  fields : List WireField
  deriving DecidableEq, Repr

/-- The `WireLayout`s with a routine of their own. -/
inductive CustomLayout where
  | clubSummaryInfo
  | clubUserText
  | categoryDescription
  deriving DecidableEq, Repr

inductive RegisteredWireLayout where
  | candidateReflected
  | verifiedReflected
  | candidateStruct (layout : StructWireLayout)
  | struct (layout : StructWireLayout)
  | custom (layout : CustomLayout)
  deriving DecidableEq, Repr

/-- What was checked when a layout was registered: a struct layout is for a struct and names only
fields it has, any other layout is for a type marked obfuscated. -/
def Fits (schema : Schema) (typeId : UInt32) : RegisteredWireLayout → Prop
  | .struct layout | .candidateStruct layout => ∃ shape, schema.shape typeId = .ok shape ∧
      shape.kind = .struct ∧ ∀ field ∈ layout.fields, field.logicalField < shape.memberTypes.length
  | _ => ∃ shape, schema.shape typeId = .ok shape ∧ shape.obfuscated = true

structure Codec where
  schema : Schema
  wireLayouts : ExtTreeMap UInt32 RegisteredWireLayout
  fits : ∀ (typeId : UInt32) (layout : RegisteredWireLayout),
    wireLayouts[typeId]? = some layout → Fits schema typeId layout

def codecError (message : String) : Error := .bsnWire message

namespace Codec

def fromSchema (schema : Schema) : Codec where
  schema := schema
  wireLayouts := ∅
  fits _ _ h := by simp at h

/-- A layout that fits is put in. -/
def insert (codec : Codec) (typeId : UInt32) (layout : RegisteredWireLayout)
    (h : Fits codec.schema typeId layout) : Codec where
  schema := codec.schema
  wireLayouts := codec.wireLayouts.insert typeId layout
  fits id layout' h' := by
    rw [ExtTreeMap.getElem?_insert] at h'
    split at h'
    · next heq =>
      rw [Std.compare_eq_iff_eq] at heq
      rw [← heq, ← Option.some.inj h']
      exact h
    · exact codec.fits id layout' h'

/-- A layout that says nothing about the fields. -/
def isPlain : RegisteredWireLayout → Bool
  | .struct _ | .candidateStruct _ => false
  | _ => true

def registerObfuscated (codec : Codec) (typeId : UInt32) (layout : RegisteredWireLayout)
    (hplain : isPlain layout) : Except Error Codec :=
  match hshape : codec.schema.shape typeId with
  | .error e => .error e
  | .ok shape =>
    let typeName := codec.schema.typeName typeId
    if hmarked : shape.obfuscated then
      if codec.wireLayouts.contains typeId then
        .error (codecError s!"type {typeName} (#{typeId}) already has a wire-layout registration")
      else .ok (codec.insert typeId layout (by
        cases layout <;> first | exact ⟨shape, hshape, hmarked⟩ | exact nomatch hplain))
    else .error (codecError s!"type {typeName} (#{typeId}) is not marked Obfuscated")

/-- The loop of `register_struct` over the layout's fields, with the positions seen so far. -/
def checkFields (layout : StructWireLayout) (memberCount : Nat) :
    List WireField → List Nat → Except Error Unit
  | [], _ => .ok ()
  | field :: fields, seen =>
    if memberCount ≤ field.logicalField then
      .error (codecError (s!"struct wire layout {layout.name} references field " ++
        s!"{field.logicalField} outside 0..{memberCount}"))
    else if field.logicalField ∈ seen then
      .error (codecError s!"struct wire layout {layout.name} repeats field {field.logicalField}")
    else checkFields layout memberCount fields (field.logicalField :: seen)

theorem lt_of_checkFields {layout : StructWireLayout} {memberCount : Nat} {fields : List WireField}
    {seen : List Nat} (h : checkFields layout memberCount fields seen = .ok ()) :
    ∀ field ∈ fields, field.logicalField < memberCount := by
  induction fields generalizing seen with
  | nil => exact fun _ hfield => nomatch hfield
  | cons first fields ih =>
    rw [checkFields] at h
    split at h
    · cases h
    · next hinside =>
      split at h
      · cases h
      · intro field hfield
        rcases List.mem_cons.1 hfield with rfl | hfield
        · exact Nat.not_le.1 hinside
        · exact ih h field hfield

/-- The check of the kind, the count and the positions of a struct layout. -/
def checkStruct (schema : Schema) (typeId : UInt32) (layout : StructWireLayout) :
    Except Error Unit := do
  let shape ← schema.shape typeId
  if shape.kind ≠ .struct then
    .error (codecError s!"type {schema.typeName typeId} (#{typeId}) is not a struct")
  else if layout.fields.length ≠ shape.memberTypes.length then
    .error (codecError (s!"struct wire layout {layout.name} has {layout.fields.length} fields, " ++
      s!"expected {shape.memberTypes.length}"))
  else checkFields layout shape.memberTypes.length layout.fields []

theorem fits_of_checkStruct {schema : Schema} {typeId : UInt32} {layout : StructWireLayout}
    (h : checkStruct schema typeId layout = .ok ()) (candidate : Bool) :
    Fits schema typeId (if candidate then .candidateStruct layout else .struct layout) := by
  rw [checkStruct, except_bind_ok] at h
  obtain ⟨shape, hshape, h⟩ := h
  split at h
  · cases h
  · next hkind =>
    split at h
    · cases h
    · cases candidate <;> exact ⟨shape, hshape, not_not.1 hkind, lt_of_checkFields h⟩

def registerStruct (codec : Codec) (exactName : String) (layout : StructWireLayout)
    (candidate : Bool) : Except Error Codec := do
  let typeId ← codec.schema.uniqueTypeId exactName
  match hchecked : checkStruct codec.schema typeId layout with
  | .error e => .error e
  | .ok () =>
    if codec.wireLayouts.contains typeId then
      .error (codecError (s!"type {codec.schema.typeName typeId} (#{typeId}) already has a " ++
        "wire-layout registration"))
    else return codec.insert typeId _ (fits_of_checkStruct hchecked candidate)

/-- `register_wire_layout`, `register_verified_reflected`, `register_candidate_reflected`,
`register_struct_wire_layout` and `register_candidate_struct_wire_layout`, by the layout. -/
def registerLayout (codec : Codec) (exactName : String) (layout : RegisteredWireLayout) :
    Except Error Codec :=
  match layout with
  | .struct layout => codec.registerStruct exactName layout false
  | .candidateStruct layout => codec.registerStruct exactName layout true
  | .candidateReflected => do
    let typeId ← codec.schema.uniqueTypeId exactName
    codec.registerObfuscated typeId .candidateReflected rfl
  | .verifiedReflected => do
    let typeId ← codec.schema.uniqueTypeId exactName
    codec.registerObfuscated typeId .verifiedReflected rfl
  | .custom layout => do
    let typeId ← codec.schema.uniqueTypeId exactName
    codec.registerObfuscated typeId (.custom layout) rfl

/-- Whether the members of a type may be read in their reflected order. The dispatch before it has
taken the layouts of other kinds. -/
def reflectedScope (codec : Codec) (typeId : UInt32) (shape : TypeShape) (inherited : Bool) :
    Except Error Bool :=
  if inherited || !shape.obfuscated then .ok inherited
  else
    match codec.wireLayouts[typeId]? with
    | none => .error (codecError (s!"type {codec.schema.typeName typeId} (#{typeId}) is marked " ++
        "Obfuscated; reflection order is not a wire layout, and no custom codec or " ++
        "verified-reflection registration is installed"))
    | some _ => .ok true

end Codec

end Superiority.Bsn
