import Mathlib.Data.List.Nodup
import Mathlib.Tactic
import Superiority.Native.Registered

/-!
# A schema with every registered type

The tables of `native/wire_layout.rs` fit together: no two entries name the same type, and a struct
layout lists each field once. So there is a schema on which `register` succeeds: the catalogue of
the registered types, and of any other types.

**`register_catalogue`** – `register` succeeds on the catalogue and gives each registered type the
layout of its entry.
-/

namespace Superiority.Native.WireLayout

open Bsn

/-! ## Schemas from tables -/

/-- The id of a type is its place in the table. -/
def tableSchema (types : List (Option String × TypeShape)) : Schema where
  knownTypeIds := (List.range types.length).map UInt32.ofNat
  name typeId :=
    match types[typeId.toNat]? with
    | some type => .ok type.1
    | none => .error "unknown type"
  lookup typeId :=
    match types[typeId.toNat]? with
    | some type => .ok type.2
    | none => .error "unknown type"

/-- `find` picks the ids with the name. -/
theorem find_go_eq_filter {schema : Schema} {query : String} {typeIds : List UInt32}
    (h : ∀ typeId ∈ typeIds, ∃ name, schema.name typeId = .ok name) :
    Schema.find.go schema query typeIds = .ok (typeIds.filter fun typeId =>
      (schema.knownName typeId).any (eqIgnoreAsciiCase · query)) := by
  induction typeIds with
  | nil => rfl
  | cons typeId typeIds ih =>
    obtain ⟨name, hname⟩ := h typeId List.mem_cons_self
    have ih := ih fun other hother => h other (List.mem_cons_of_mem _ hother)
    rw [Schema.find.go, hname, ih, List.filter_cons, Schema.knownName, hname]
    by_cases hquery : name.any (eqIgnoreAsciiCase · query) = true
    · simp [hquery, Except.mapError, bind, Except.bind, pure, Except.pure]
    · simp [hquery, Except.mapError, bind, Except.bind, pure, Except.pure]

theorem filter_eq_singleton {α : Type} {p : α → Bool} {l : List α} {a : α} (hl : l.Nodup)
    (ha : a ∈ l) (hp : ∀ b ∈ l, p b = true ↔ b = a) : l.filter p = [a] := by
  classical
  have hcongr : l.filter p = l.filter (· == a) :=
    List.filter_congr fun b hb => by rw [Bool.eq_iff_iff, hp b hb, beq_iff_eq]
  rw [hcongr, List.filter_beq, List.count_eq_one_of_mem hl ha]
  rfl

section table

variable {types : List (Option String × TypeShape)}

theorem toNat_ofNat_lt (hsize : types.length ≤ 2 ^ 32) {i : Nat} (hi : i < types.length) :
    (UInt32.ofNat i).toNat = i := by
  rw [UInt32.toNat_ofNat']
  exact Nat.mod_eq_of_lt (Nat.lt_of_lt_of_le hi hsize)

theorem mem_of_shape_tableSchema {typeId : UInt32} {shape : TypeShape}
    (h : (tableSchema types).shape typeId = .ok shape) : ∃ type ∈ types, type.2 = shape := by
  cases htype : types[typeId.toNat]? with
  | none => simp [Schema.shape, tableSchema, htype, Except.mapError] at h
  | some type =>
    exact ⟨type, List.mem_of_getElem? htype,
      by simpa [Schema.shape, tableSchema, htype, Except.mapError] using h⟩

theorem shape_tableSchema (hsize : types.length ≤ 2 ^ 32) {i : Nat} (hi : i < types.length) :
    (tableSchema types).shape (UInt32.ofNat i) = .ok types[i].2 := by
  unfold Schema.shape
  simp only [tableSchema]
  rw [toNat_ofNat_lt hsize hi, List.getElem?_eq_getElem hi]
  rfl

theorem knownName_tableSchema (hsize : types.length ≤ 2 ^ 32) {i : Nat} (hi : i < types.length) :
    (tableSchema types).knownName (UInt32.ofNat i) = types[i].1 := by
  simp only [Schema.knownName, tableSchema]
  rw [toNat_ofNat_lt hsize hi, List.getElem?_eq_getElem hi]

theorem nodup_ofNat_range {n : Nat} (hsize : n ≤ 2 ^ 32) :
    ((List.range n).map UInt32.ofNat).Nodup := by
  refine List.Nodup.map_on (fun i hi j hj heq => ?_) List.nodup_range
  have heq := congrArg UInt32.toNat heq
  rw [UInt32.toNat_ofNat', UInt32.toNat_ofNat',
    Nat.mod_eq_of_lt (Nat.lt_of_lt_of_le (List.mem_range.1 hi) hsize),
    Nat.mod_eq_of_lt (Nat.lt_of_lt_of_le (List.mem_range.1 hj) hsize)] at heq
  exact heq

/-- A name that only one type has. -/
theorem uniqueTypeId_tableSchema (hsize : types.length ≤ 2 ^ 32) {i : Nat} (hi : i < types.length)
    {query : String} (hquery : ∀ j (hj : j < types.length),
      types[j].1.any (eqIgnoreAsciiCase · query) = true ↔ j = i) :
    (tableSchema types).uniqueTypeId query = .ok (UInt32.ofNat i) := by
  have hfind : (tableSchema types).find query = .ok [UInt32.ofNat i] := by
    rw [Schema.find, find_go_eq_filter]
    · refine congrArg Except.ok (filter_eq_singleton (nodup_ofNat_range hsize)
        (List.mem_map_of_mem (List.mem_range.2 hi)) fun typeId htypeId => ?_)
      obtain ⟨j, hj, rfl⟩ := List.mem_map.1 htypeId
      have hj := List.mem_range.1 hj
      rw [knownName_tableSchema hsize hj, hquery j hj]
      constructor
      · rintro rfl
        rfl
      · intro heq
        have heq := congrArg UInt32.toNat heq
        rwa [toNat_ofNat_lt hsize hj, toNat_ofNat_lt hsize hi] at heq
    · intro typeId htypeId
      obtain ⟨j, hj, rfl⟩ := List.mem_map.1 htypeId
      have hj := List.mem_range.1 hj
      refine ⟨types[j].1, ?_⟩
      simp only [tableSchema]
      rw [toNat_ofNat_lt hsize hj, List.getElem?_eq_getElem hj]
  rw [Schema.uniqueTypeId, hfind]
  rfl

end table

/-! ## The names of the tables -/

/-- A number for a name that does not depend on the case of its letters: the codes of a letter in
both cases have the same last five bits. -/
def caselessKey (name : String) : Nat :=
  (name.toByteArray.data.toList.map (·.toNat % 32)).foldl (fun key b => key * 32 + b) 1

theorem map_mod_toLower (c : Char) :
    (String.utf8EncodeChar c.toLower).map (·.toNat % 32) =
      (String.utf8EncodeChar c).map (·.toNat % 32) := by
  unfold Char.toLower
  split_ifs with hupper
  · have hlow : 65 ≤ c.val.toNat := hupper.1
    have hhigh : c.val.toNat ≤ 90 := hupper.2
    have hsum : (c.val + ('a'.val - 'A'.val)).toNat = c.val.toNat + 32 := by
      rw [UInt32.toNat_add, show ('a'.val - 'A'.val).toNat = 32 from rfl]
      omega
    have hlower : c.val.toNat + 32 ≤ 0x7f := by omega
    have hascii : c.val.toNat ≤ 0x7f := by omega
    simp only [String.utf8EncodeChar, hsum]
    rw [if_pos hlower, if_pos hascii, List.map_singleton, List.map_singleton, UInt8.toNat_ofNat',
      UInt8.toNat_ofNat']
    congr 1
    omega
  · rfl

theorem caselessKey_eq {s t : String} (h : eqIgnoreAsciiCase s t = true) :
    caselessKey s = caselessKey t := by
  have hbytes : ∀ s : String, s.toByteArray.data.toList.map (·.toNat % 32) =
      (s.toList.map Char.toLower).flatMap fun c =>
        (String.utf8EncodeChar c).map (·.toNat % 32) := by
    intro s
    rw [← String.utf8Encode_toList, List.utf8Encode, List.toList_data_toByteArray, List.map_flatMap,
      List.flatMap_map]
    simp only [map_mod_toLower]
  have hlower : s.toList.map Char.toLower = t.toList.map Char.toLower := eq_of_beq h
  rw [caselessKey, caselessKey, hbytes, hbytes, hlower]

/-- No two entries of the tables name the same type. -/
theorem pairwise_registrations :
    registrations.Pairwise fun a b => eqIgnoreAsciiCase a.1 b.1 = false := by
  have hkeys : (registrations.map fun entry => caselessKey entry.1).Nodup := by decide +kernel
  refine (List.pairwise_map.1 hkeys).imp fun hne => ?_
  rw [Bool.eq_false_iff]
  exact fun heq => hne (caselessKey_eq heq)

/-! ## The catalogue -/

/-- A struct with these members. -/
def structShape (obfuscated : Bool) (members : List (String × UInt32)) : TypeShape where
  kind := .struct
  obfuscated := obfuscated
  valueRange := none
  elementType := none
  indexValues := (List.range members.length).map Int.ofNat
  memberTypes := members.map Prod.snd
  memberNames := members.map fun member => some member.1
  names_length := by simp
  types_length := by simp [TypeKind.hasMembers]

/-- A type without members or elements. -/
def leafShape (kind : TypeKind) (obfuscated : Bool) (h : kind.hasMembers = false) : TypeShape where
  kind := kind
  obfuscated := obfuscated
  valueRange := none
  elementType := none
  indexValues := []
  memberTypes := []
  memberNames := []
  types_length := by simp [h]

theorem hasMembers_void : TypeKind.void.hasMembers = false := rfl

/-- The id of the first type behind the registered ones. -/
def firstOther : UInt32 := 92

/-- The shape that a layout of the tables is for. -/
def layoutShape : RegisteredWireLayout → TypeShape
  | .struct layout | .candidateStruct layout =>
    structShape false ((["a", "b", "c", "d", "e", "g", "h", "i"].take layout.fields.length).map
      (·, firstOther))
  | .custom .categoryDescription =>
    structShape true (["m_id", "m_name", "m_sortOrder"].map (·, firstOther))
  | _ => leafShape .void true hasMembers_void

/-- The registered types and, behind them, others. -/
def catalogue (others : List TypeShape) : List (Option String × TypeShape) :=
  registrations.map (fun entry => (some entry.1, layoutShape entry.2)) ++ others.map (none, ·)

/-- A struct layout of at most eight fields, none twice and none outside. -/
def soundLayout : RegisteredWireLayout → Bool
  | .struct layout | .candidateStruct layout => layout.fields.length ≤ 8 &&
      (Codec.checkFields layout layout.fields.length layout.fields []).isOk
  | _ => true

theorem soundLayout_registrations : ∀ entry ∈ registrations, soundLayout entry.2 = true := by
  decide +kernel

theorem length_registrations : registrations.length = 92 := by decide +kernel

theorem checkStruct_eq {schema : Schema} {typeId : UInt32} {shape : TypeShape}
    {layout : StructWireLayout} (hshape : schema.shape typeId = .ok shape)
    (hkind : shape.kind = .struct) (hlength : layout.fields.length = shape.memberTypes.length) :
    Codec.checkStruct schema typeId layout =
      Codec.checkFields layout shape.memberTypes.length layout.fields [] := by
  rw [Codec.checkStruct, hshape]
  show (if _ then _ else if _ then _ else _) = _
  rw [if_neg (not_not.2 hkind), if_neg (not_not.2 hlength)]

/-- A layout is registered for the shape it is for. -/
theorem admits_layoutShape {schema : Schema} {typeId : UInt32} {layout : RegisteredWireLayout}
    (hsound : soundLayout layout = true)
    (hshape : schema.shape typeId = .ok (layoutShape layout)) : Admits schema typeId layout := by
  have hstruct : ∀ layout : StructWireLayout, soundLayout (.struct layout) = true →
      schema.shape typeId = .ok (layoutShape (.struct layout)) →
      Codec.checkStruct schema typeId layout = .ok () := by
    intro layout hsound hshape
    obtain ⟨hcount, hfields⟩ := (Bool.and_eq_true _ _).mp hsound
    have hcount : layout.fields.length ≤ 8 := of_decide_eq_true hcount
    have hlength : (layoutShape (.struct layout)).memberTypes.length = layout.fields.length := by
      simpa [layoutShape, structShape] using Nat.min_eq_left hcount
    rw [checkStruct_eq hshape rfl hlength.symm, hlength]
    cases hcheck : Codec.checkFields layout layout.fields.length layout.fields [] with
    | error e => simp [hcheck, Except.isOk, Except.toBool] at hfields
    | ok _ => rfl
  cases layout with
  | struct layout => exact hstruct layout hsound hshape
  | candidateStruct layout => exact hstruct layout hsound hshape
  | candidateReflected => exact ⟨_, hshape, rfl⟩
  | verifiedReflected => exact ⟨_, hshape, rfl⟩
  | custom layout => cases layout <;> exact ⟨_, hshape, rfl⟩

section catalogue

variable {others : List TypeShape}

theorem length_catalogue : (catalogue others).length = 92 + others.length := by
  rw [catalogue, List.length_append, List.length_map, List.length_map, length_registrations]

theorem getElem_catalogue {i : Nat} (hi : i < registrations.length)
    (hi' : i < (catalogue others).length) :
    (catalogue others)[i] = (some registrations[i].1, layoutShape registrations[i].2) := by
  simp [catalogue, hi]

/-- A registered name is that of one type. -/
theorem uniqueTypeId_catalogue (hsize : (catalogue others).length ≤ 2 ^ 32) {i : Nat}
    (hi : i < registrations.length) :
    (tableSchema (catalogue others)).uniqueTypeId registrations[i].1 = .ok (UInt32.ofNat i) := by
  have hi' : i < (catalogue others).length := by
    rw [catalogue, List.length_append, List.length_map]
    exact Nat.lt_add_right _ hi
  refine uniqueTypeId_tableSchema hsize hi' fun j hj => ?_
  by_cases hregistered : j < registrations.length
  · rw [getElem_catalogue hregistered]
    have hpair := List.pairwise_iff_getElem.1 pairwise_registrations
    constructor
    · intro hname
      rcases Nat.lt_trichotomy j i with hlt | heq | hlt
      · exact absurd hname (by simp [hpair j i hregistered hi hlt])
      · exact heq
      · have hother := hpair i j hi hregistered hlt
        rw [eqIgnoreAsciiCase, Bool.beq_comm] at hother
        exact absurd hname (by simp [eqIgnoreAsciiCase, hother])
    · rintro rfl
      simp [eqIgnoreAsciiCase]
  · have hne : j ≠ i := fun h => hregistered (h ▸ hi)
    have hnone : (catalogue others)[j].1 = none := by
      simp only [catalogue, List.getElem_append, List.length_map, hregistered, dif_neg,
        not_false_eq_true, List.getElem_map]
    rw [hnone]
    simp [hne]

/-- **`register` succeeds on the catalogue**, and gives the registered types their layouts and no
others. -/
theorem register_catalogue (hsize : others.length < 2 ^ 31) :
    ∃ codec, register (.fromSchema (tableSchema (catalogue others))) = .ok codec ∧
      codec.schema = tableSchema (catalogue others) ∧
      (∀ i entry, registrations[i]? = some entry →
        codec.wireLayouts[UInt32.ofNat i]? = some entry.2) ∧
      ∀ typeId, firstOther ≤ typeId → codec.wireLayouts[typeId]? = none := by
  have hlength : (catalogue others).length ≤ 2 ^ 32 := by
    rw [length_catalogue]
    omega
  have hentries : List.Forall₂ (fun entry typeId =>
      (tableSchema (catalogue others)).uniqueTypeId entry.1 = .ok typeId ∧
        Admits (tableSchema (catalogue others)) typeId entry.2)
      registrations ((List.range 92).map UInt32.ofNat) := by
    rw [List.forall₂_iff_get]
    refine ⟨by rw [length_registrations, List.length_map, List.length_range], fun i hi _ => ?_⟩
    have hi' : i < (catalogue others).length := by
      rw [length_catalogue, ← length_registrations]
      exact Nat.lt_add_right _ hi
    have hshape := shape_tableSchema hlength hi'
    rw [getElem_catalogue hi] at hshape
    simp only [List.get_eq_getElem, List.getElem_map, List.getElem_range]
    exact ⟨uniqueTypeId_catalogue hlength hi,
      admits_layoutShape (soundLayout_registrations _ (List.getElem_mem hi)) hshape⟩
  have hfresh : ∀ typeId ∈ (List.range 92).map UInt32.ofNat,
      typeId ∉ (Codec.fromSchema (tableSchema (catalogue others))).wireLayouts := by
    intro typeId _
    simp [Codec.fromSchema]
  obtain ⟨codec, hregister, hregisters⟩ :=
    registerAll_ok (rfl : (Codec.fromSchema (tableSchema (catalogue others))).schema = _) hentries
      (nodup_ofNat_range (by decide)) hfresh
  refine ⟨codec, hregister, hregisters.schema, fun i entry hentry => ?_, fun typeId hother => ?_⟩
  · obtain ⟨hi, rfl⟩ := List.getElem?_eq_some_iff.1 hentry
    have hi' : i < ((List.range 92).map UInt32.ofNat).length := by
      rwa [List.length_map, List.length_range, ← length_registrations]
    simpa using (List.forall₂_iff_get.1 hregisters.installed).2 i hi hi'
  · have hnot : typeId ∉ (List.range 92).map UInt32.ofNat := by
      intro hmem
      obtain ⟨i, hi, rfl⟩ := List.mem_map.1 hmem
      have hi := List.mem_range.1 hi
      have hle : (92 : UInt32).toNat ≤ (UInt32.ofNat i).toNat := UInt32.le_iff_toNat_le.1 hother
      rw [UInt32.toNat_ofNat', Nat.mod_eq_of_lt (by omega)] at hle
      exact absurd hi (Nat.not_lt.2 hle)
    rw [hregisters.others typeId hnot]
    simp [Codec.fromSchema]

end catalogue

end Superiority.Native.WireLayout
