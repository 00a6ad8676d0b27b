import Mathlib.Tactic
import Std.Data.ExtTreeMap

/-!
# The records of the native protocol

`native/model.rs`: the payloads the client decodes. A payload field of a fixed width is the Lean
type of that width; `BTreeMap` keys get the lexicographic order that `derive(Ord)` gives them.
-/

namespace Superiority

open Std

/-! ## Characters and profiles -/

/-- `ProfileAddress`: where a profile lives. -/
@[ext] structure ProfileAddress where
  label : UInt32
  id : UInt64
  deriving DecidableEq, Repr

namespace ProfileAddress

instance : Ord ProfileAddress := ⟨compareLex (compareOn label) (compareOn id)⟩

instance : TransOrd ProfileAddress :=
  inferInstanceAs (TransCmp (compareLex (compareOn label) (compareOn id)))

instance : LawfulEqOrd ProfileAddress where
  eq_of_compare {a b} h := by
    have h : (compare a.label b.label).then (compare a.id b.id) = .eq := h
    obtain ⟨hlabel, hid⟩ := Ordering.then_eq_eq.1 h
    exact ProfileAddress.ext (LawfulEqOrd.eq_of_compare hlabel) (LawfulEqOrd.eq_of_compare hid)

end ProfileAddress

/-- `ToonHandle`: region, program, realm and id of a character. -/
@[ext] structure ToonHandle where
  region : UInt8
  programId : UInt32
  realm : UInt32
  id : UInt64
  deriving DecidableEq, Repr

namespace ToonHandle

instance : Ord ToonHandle :=
  ⟨compareLex (compareOn region) (compareLex (compareOn programId)
    (compareLex (compareOn realm) (compareOn id)))⟩

instance : TransOrd ToonHandle :=
  inferInstanceAs (TransCmp (compareLex (compareOn region) (compareLex (compareOn programId)
    (compareLex (compareOn realm) (compareOn id)))))

instance : LawfulEqOrd ToonHandle where
  eq_of_compare {a b} h := by
    have h : (compare a.region b.region).then ((compare a.programId b.programId).then
      ((compare a.realm b.realm).then (compare a.id b.id))) = .eq := h
    obtain ⟨hregion, h⟩ := Ordering.then_eq_eq.1 h
    obtain ⟨hprogram, h⟩ := Ordering.then_eq_eq.1 h
    obtain ⟨hrealm, hid⟩ := Ordering.then_eq_eq.1 h
    exact ToonHandle.ext (LawfulEqOrd.eq_of_compare hregion) (LawfulEqOrd.eq_of_compare hprogram)
      (LawfulEqOrd.eq_of_compare hrealm) (LawfulEqOrd.eq_of_compare hid)

end ToonHandle

/-- `ImageTableEntry`: the portrait of a profile. -/
structure ImageTableEntry where
  tableId : UInt16
  offset : UInt16
  deriving DecidableEq, Repr

/-! ## Presence -/

/-- `PresenceFieldFlags`: the announced bits of a field. -/
structure PresenceFieldFlags where
  bits : UInt8
  deriving DecidableEq, Repr

/-- `PresenceFieldFlags::from_bits`, which keeps the low four bits. -/
def PresenceFieldFlags.fromBits (bits : UInt8) : PresenceFieldFlags := ⟨bits &&& 0x0f⟩

/-- `PresenceField`: how an announced field is laid out in updates. -/
structure PresenceField where
  handle : UInt32
  identifier : UInt8
  flags : PresenceFieldFlags
  fixedSize : Option UInt16
  deriving DecidableEq, Repr

/-- `PresenceFields`: the fields a session announces. -/
structure PresenceFields where
  entries : List PresenceField
  deriving DecidableEq, Repr

/-- `PresenceUpdate`: new field values of one person, who is named by up to two presence ids. -/
structure PresenceUpdate where
  localPresenceId : UInt32
  masterPresenceId : UInt32
  fieldData : List UInt8
  clearedHandles : List UInt32
  handles : List UInt32
  variableSizes : List UInt16
  online : Bool
  deriving DecidableEq, Repr

end Superiority
