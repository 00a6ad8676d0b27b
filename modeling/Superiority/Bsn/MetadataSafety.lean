import Superiority.Bsn.Metadata

/-!
# The accessors of a metadata block do not panic

In a block that `parse` lets through every record is a piece of the block and not empty, which is
what the slices and the subtractions of the accessors need. Inside a record each number is read
with its own check.

* **`metadata_safe_iff`** – no accessor panics and every shape is what the codec indexes on, but
  for an index range that is not written out: it is listed without a bound on its size.
* **`schema_shape`** – the codec is given these shapes.
-/

namespace Superiority.Bsn

namespace Metadata

open Checked

variable {m : Metadata} {typeId : UInt32}

theorem safe_failMetadata {α : Type} (message : String) :
    Safe (failMetadata message : Accessed α) := safe_fail _

theorem safe_checkedOffset (table : List Nat) : Safe (checkedOffset table typeId) := by
  rw [checkedOffset]
  split
  · exact safe_ok _
  · exact safe_failMetadata _

theorem safe_dumpRecord (hm : m.Valid) : Safe (m.dumpRecord typeId) := by
  refine safe_bind (safe_checkedOffset _) fun start _ => ?_
  split
  · exact safe_failMetadata _
  · next hends =>
    rw [slice_eq ⟨(hm.dump hends).1.le, (hm.dump hends).2⟩]
    exact safe_ok _

theorem safe_stringOffsetsOf (hm : m.Valid) : Safe (m.stringOffsetsOf typeId) := by
  refine safe_bind (safe_checkedOffset _) fun start _ => ?_
  by_cases hzero : start = 0
  · simp [hzero]
  · rw [if_neg hzero]
    split
    · exact safe_failMetadata _
    · next stop hends =>
      refine safe_bind ?_ fun size _ => ?_
      · rw [subtract_eq (hm.string hends).1.le]
        exact safe_ok _
      · split_ifs
        · exact safe_failMetadata _
        · exact safe_mapM fun i _ => safe_ofExcept _

theorem safe_stringAt (m : Metadata) (offset : Nat) : Safe (m.stringAt offset) := by
  rw [stringAt]
  by_cases hzero : offset = 0
  · simp [hzero]
  · rw [if_neg hzero]
    by_cases hregion : m.stringLiteralOffset ≤ offset ∧ offset < m.blob.length
    · rw [if_neg (not_not.2 hregion), slice_eq ⟨hregion.2.le, Nat.le_refl _⟩]
      refine safe_bind (safe_ok _) fun rest hrest => ?_
      obtain rfl := Except.ok.inj hrest
      split
      · exact safe_failMetadata _
      · next relativeEnd hfound =>
        -- the terminator is one of the bytes from the offset on
        have hend := (List.findIdx?_eq_some_iff_findIdx_eq.1 hfound).1
        rw [List.length_take, List.length_drop] at hend
        rw [slice_eq ⟨Nat.le_add_right _ _, by omega⟩]
        refine safe_bind (safe_ok _) fun bytes _ => ?_
        split
        · exact safe_failMetadata _
        · exact safe_pure _
    · rw [if_pos hregion]
      exact safe_failMetadata _

theorem safe_strings (hm : m.Valid) : Safe (m.strings typeId) :=
  safe_bind (safe_stringOffsetsOf hm) fun _ _ => safe_mapM fun offset _ => safe_stringAt m offset

theorem safe_typeMetadata (hm : m.Valid) : Safe (m.typeMetadata typeId) := by
  refine safe_bind (safe_dumpRecord hm) fun dump _ => ?_
  split
  · exact safe_failMetadata _
  · exact safe_bind (safe_strings hm) fun _ _ => safe_pure _

/-! ### Numbers -/

theorem safe_scalarWidth (encoding : UInt8) : Safe (scalarWidth encoding) := by
  rw [scalarWidth]
  split <;> first | exact safe_ok _ | exact safe_failMetadata _

theorem scalarWidth_pos {encoding : UInt8} {width : Nat} (h : scalarWidth encoding = .ok width) :
    0 < width := by
  rw [scalarWidth] at h
  split at h <;> cases h <;> omega

/-- A number has a byte to take its sign from. -/
theorem safe_readScalar (data : List UInt8) (offset : Nat) (encoding : UInt8) :
    Safe (readScalar data offset encoding) := by
  refine safe_bind (safe_scalarWidth _) fun width hwidth => ?_
  split
  · exact safe_failMetadata _
  · next bytes hbytes =>
    have hlength := (getRange_eq_some hbytes).2.2
    have hpos := scalarWidth_pos hwidth
    dsimp only
    split_ifs
    · rw [index_ok.2 (List.getElem?_eq_getElem (by omega))]
      exact safe_ok _
    · exact safe_pure _

theorem le_of_readScalar {data : List UInt8} {offset next : Nat} {encoding : UInt8} {value : Int}
    (h : readScalar data offset encoding = .ok (value, next)) : next ≤ data.length := by
  obtain ⟨width, -, h⟩ := except_bind_ok.1 h
  rcases hbytes : getRange data offset (offset + width) with _ | bytes <;> simp only [hbytes] at h
  · cases h
  · have hwithin := (getRange_eq_some hbytes).2.1
    split_ifs at h
    · obtain ⟨first, -, h⟩ := except_bind_ok.1 h
      cases h
      exact hwithin
    · cases h
      exact hwithin

theorem safe_readRange (data : List UInt8) (offset : Nat) (single : Bool) :
    Safe (readRange data offset single) := by
  rw [readRange]
  split
  · exact safe_failMetadata _
  · split_ifs
    · exact safe_bind (safe_readScalar _ _ _) fun _ _ => safe_pure _
    · split
      · exact safe_failMetadata _
      · refine safe_bind (safe_readScalar _ _ _) fun _ _ => ?_
        exact safe_bind (safe_readScalar _ _ _) fun _ _ => safe_pure _

theorem le_of_readRange {data : List UInt8} {offset next : Nat} {single : Bool}
    {range : MetadataRange} (h : readRange data offset single = .ok (range, next)) :
    next ≤ data.length := by
  rw [readRange] at h
  split at h
  · cases h
  · split_ifs at h
    · obtain ⟨⟨value, after⟩, hvalue, h⟩ := except_bind_ok.1 h
      cases h
      exact le_of_readScalar hvalue
    · split at h
      · cases h
      · obtain ⟨⟨minimum, between⟩, -, h⟩ := except_bind_ok.1 h
        obtain ⟨⟨maximum, after⟩, hmaximum, h⟩ := except_bind_ok.1 h
        cases h
        exact le_of_readScalar hmaximum

theorem safe_readScalars (data : List UInt8) (encoding : UInt8) (count offset : Nat) :
    Safe (readScalars data encoding count offset) := by
  induction count generalizing offset with
  | zero => exact safe_ok _
  | succ count ih =>
    refine safe_bind (safe_readScalar _ _ _) fun entry _ => ?_
    exact safe_bind (ih entry.2) fun _ _ => safe_pure _

theorem readScalars_ok {data : List UInt8} {encoding : UInt8} {count offset next : Nat}
    {values : List Int} (h : readScalars data encoding count offset = .ok (values, next))
    (hoffset : offset ≤ data.length) : values.length = count ∧ next ≤ data.length := by
  induction count generalizing offset values with
  | zero =>
    cases h
    exact ⟨rfl, hoffset⟩
  | succ count ih =>
    obtain ⟨⟨value, between⟩, hvalue, h⟩ := except_bind_ok.1 h
    obtain ⟨⟨rest, after⟩, hrest, h⟩ := except_bind_ok.1 h
    cases h
    obtain ⟨hlength, hnext⟩ := ih hrest (le_of_readScalar hvalue)
    exact ⟨by rw [List.length_cons, hlength], hnext⟩

/-! ### Indices and members -/

/-- A range has room, or its list is not made. -/
theorem inclusiveRange_ok {range : MetadataRange} {values : List Int}
    (h : inclusiveRange range = .ok values) : values.length = rangeCount range := by
  obtain ⟨_, -, h⟩ := except_bind_ok.1 h
  cases h
  rw [List.length_map, List.length_range]

theorem inclusiveRange_of_lt {range : MetadataRange} (h : rangeCount range * 16 < 2 ^ 63) :
    ∃ values, inclusiveRange range = .ok values := ⟨_, except_bind_ok.2 ⟨(), reserve_eq h, rfl⟩⟩

theorem inclusiveRange_panics {range : MetadataRange} (h : ¬rangeCount range * 16 < 2 ^ 63) :
    inclusiveRange range = .error .panic := by
  rw [inclusiveRange, reserve, if_neg h]
  rfl

theorem readIndexBlock_panics {data : List UInt8} {offset : Nat} {range : MetadataRange}
    (h : ¬rangeCount range * 16 < 2 ^ 63) :
    readIndexBlock data offset range true = .error .panic := by
  rw [readIndexBlock, if_pos rfl, inclusiveRange_panics h]
  rfl

theorem safe_readIndexBlock {data : List UInt8} {offset : Nat} {range : MetadataRange}
    {implicit : Bool} (hrange : implicit → rangeCount range * 16 < 2 ^ 63) :
    Safe (readIndexBlock data offset range implicit) := by
  rw [readIndexBlock]
  split_ifs with himplicit
  · obtain ⟨values, hvalues⟩ := inclusiveRange_of_lt (hrange himplicit)
    rw [hvalues]
    exact safe_pure _
  · split
    · exact safe_failMetadata _
    · split_ifs
      · refine safe_bind (safe_readScalar _ _ _) fun (count, after) _ => ?_
        dsimp only
        split_ifs
        · exact safe_readScalars _ _ _ _
        · exact safe_failMetadata _
      · exact safe_failMetadata _

/-- A list of indices that is written out has at most `MAX_TYPE_COUNT` of them. -/
theorem readIndexBlock_ok {data : List UInt8} {offset next : Nat} {range : MetadataRange}
    {implicit : Bool} {values : List Int}
    (h : readIndexBlock data offset range implicit = .ok (values, next))
    (hoffset : offset ≤ data.length) :
    next ≤ data.length ∧ if implicit then next = offset ∧ values.length = rangeCount range
      else values.length ≤ maxTypeCount := by
  cases implicit with
  | true =>
    obtain ⟨list, hlist, h⟩ := except_bind_ok.1 h
    cases h
    exact ⟨hoffset, rfl, inclusiveRange_ok hlist⟩
  | false =>
    simp only [readIndexBlock, Bool.false_eq_true, if_false] at h ⊢
    split at h
    · cases h
    · split_ifs at h
      · obtain ⟨⟨count, after⟩, hcount, h⟩ := except_bind_ok.1 h
        split_ifs at h with hbound
        · obtain ⟨hlength, hnext⟩ := readScalars_ok h (le_of_readScalar hcount)
          exact ⟨hnext, by omega⟩
        · cases h
      · cases h

theorem readU32_ok {data : List UInt8} {offset next : Nat} {value : UInt32}
    (h : readU32 data offset = .ok (value, next)) : next = offset + 4 ∧ next ≤ data.length := by
  obtain ⟨number, hnumber, h⟩ := except_bind_ok.1 h
  cases h
  rw [readU32At] at hnumber
  rcases hbytes : getRange data offset (offset + 4) with _ | bytes <;> rw [hbytes] at hnumber
  · cases hnumber
  · exact ⟨rfl, (getRange_eq_some hbytes).2.1⟩

/-- Four bytes are a number. -/
theorem readU32_of_le {data : List UInt8} {offset : Nat} (h : offset + 4 ≤ data.length) :
    ∃ value, readU32 data offset = .ok (value, offset + 4) := by
  rw [readU32, readU32At, getRange, if_pos ⟨by omega, h⟩]
  exact ⟨_, rfl⟩

theorem safe_readU32 (data : List UInt8) (offset : Nat) : Safe (readU32 data offset) :=
  safe_bind (safe_ofExcept _) fun _ _ => safe_pure _

theorem safe_readMembers (data : List UInt8) (count offset : Nat) :
    Safe (readMembers data count offset) := by
  induction count generalizing offset with
  | zero => exact safe_ok _
  | succ count ih =>
    refine safe_bind (safe_readU32 _ _) fun entry _ => ?_
    exact safe_bind (ih entry.2) fun _ _ => safe_pure _

theorem readMembers_ok {data : List UInt8} {count offset next : Nat} {members : List UInt32}
    (h : readMembers data count offset = .ok (members, next)) (hoffset : offset ≤ data.length) :
    members.length = count ∧ next = offset + 4 * count ∧ next ≤ data.length := by
  induction count generalizing offset members with
  | zero =>
    cases h
    exact ⟨rfl, rfl, hoffset⟩
  | succ count ih =>
    obtain ⟨⟨member, between⟩, hmember, h⟩ := except_bind_ok.1 h
    obtain ⟨⟨rest, after⟩, hrest, h⟩ := except_bind_ok.1 h
    cases h
    obtain ⟨rfl, hbetween⟩ := readU32_ok hmember
    obtain ⟨hlength, hnext, hle⟩ := ih hrest hbetween
    exact ⟨by rw [List.length_cons, hlength], by omega, hle⟩

/-- Members that the data has room for are read. -/
theorem readMembers_of_le {data : List UInt8} {count offset : Nat}
    (h : offset + 4 * count ≤ data.length) :
    ∃ members, readMembers data count offset = .ok (members, offset + 4 * count) := by
  induction count generalizing offset with
  | zero => exact ⟨[], rfl⟩
  | succ count ih =>
    obtain ⟨member, hmember⟩ : ∃ member, readU32 data offset = .ok (member, offset + 4) :=
      readU32_of_le (by omega)
    obtain ⟨members, hmembers⟩ : ∃ members,
        readMembers data count (offset + 4) = .ok (members, offset + 4 + 4 * count) :=
      ih (by omega)
    refine ⟨member :: members, ?_⟩
    rw [show offset + 4 * (count + 1) = offset + 4 + 4 * count by omega]
    exact except_bind_ok.2 ⟨_, hmember, except_bind_ok.2 ⟨_, hmembers, rfl⟩⟩

/-! ### Bodies -/

/-- What the codec looks up in a type of this kind is there. -/
structure Complete (kind : TypeKind) (body : DumpBody) : Prop where
  types : body.memberTypes.length = if kind.hasMembers then body.indexValues.length else 0
  range : kind.isRanged → body.valueRange.isSome
  element : kind.hasElement → body.elementType.isSome

/-- A body that is read ends within its record. -/
theorem readBody_ok {dump : List UInt8} {kind : TypeKind} {implicit : Bool} {body : DumpBody}
    {next : Nat} (h : readBody dump kind implicit = .ok (body, next)) (hdump : 1 ≤ dump.length) :
    Complete kind body ∧ next ≤ dump.length := by
  cases kind <;> simp only [readBody] at h
  case array =>
    obtain ⟨⟨range, after⟩, -, h⟩ := except_bind_ok.1 h
    obtain ⟨⟨element, stop⟩, helement, h⟩ := except_bind_ok.1 h
    cases h
    exact ⟨⟨rfl, fun _ => rfl, fun _ => rfl⟩, (readU32_ok helement).2⟩
  case byteString | string | integer | bitArray | blob =>
    obtain ⟨⟨range, after⟩, hrange, h⟩ := except_bind_ok.1 h
    cases h
    exact ⟨⟨rfl, fun _ => rfl, nofun⟩, le_of_readRange hrange⟩
  case choice | enum | struct =>
    obtain ⟨⟨range, after⟩, hrange, h⟩ := except_bind_ok.1 h
    obtain ⟨⟨indices, between⟩, hindices, h⟩ := except_bind_ok.1 h
    obtain ⟨⟨members, stop⟩, hmembers, h⟩ := except_bind_ok.1 h
    cases h
    have hbetween := (readIndexBlock_ok hindices (le_of_readRange hrange)).1
    obtain ⟨hlength, -, hstop⟩ := readMembers_ok hmembers hbetween
    exact ⟨⟨hlength, fun _ => rfl, nofun⟩, hstop⟩
  case optional | «alias» =>
    obtain ⟨⟨element, stop⟩, helement, h⟩ := except_bind_ok.1 h
    cases h
    exact ⟨⟨rfl, nofun, fun _ => rfl⟩, (readU32_ok helement).2⟩
  case bool | fourCc | void | float32 | float64 =>
    cases h
    exact ⟨⟨rfl, nofun, nofun⟩, hdump⟩

/-- The three kinds that list indices are read alike. -/
theorem readBody_indexed {kind : TypeKind} (h : kind.isIndexed) (dump : List UInt8)
    (implicit : Bool) : readBody dump kind implicit = do
      let (range, offset) ← readRange dump 1 false
      let (indexValues, offset) ← readIndexBlock dump offset range implicit
      let (memberTypes, offset) ←
        readMembers dump (if kind.hasMembers then indexValues.length else 0) offset
      return ({ valueRange := some range, indexValues, memberTypes }, offset) := by
  cases kind <;> first | rfl | cases h

theorem indexed_of_readBody {dump : List UInt8} {kind : TypeKind} {implicit : Bool}
    {body : DumpBody} {next : Nat} (h : readBody dump kind implicit = .ok (body, next))
    (hindices : body.indexValues ≠ []) : kind.isIndexed := by
  by_contra hindexed
  refine hindices ?_
  cases kind <;> first | exact absurd rfl hindexed | simp only [readBody] at h
  case array =>
    obtain ⟨⟨range, after⟩, -, h⟩ := except_bind_ok.1 h
    obtain ⟨⟨element, stop⟩, -, h⟩ := except_bind_ok.1 h
    cases h
    rfl
  case byteString | string | integer | bitArray | blob | optional | «alias» =>
    obtain ⟨⟨part, after⟩, -, h⟩ := except_bind_ok.1 h
    cases h
    rfl
  case bool | fourCc | void | float32 | float64 =>
    cases h
    rfl

/-- The record's indices are a range of more than `MAX_TYPE_COUNT` numbers, for which there is no
room or after which the record ends as it should. -/
def HugeRange (dump : List UInt8) (kind : TypeKind) : Prop :=
  kind.isIndexed ∧ ∃ range next, readRange dump 1 false = .ok (range, next) ∧
    maxTypeCount < rangeCount range ∧ (2 ^ 63 ≤ rangeCount range * 16 ∨
      dump.length = next + 4 * if kind.hasMembers then rangeCount range else 0)

/-- Only for a range there can be no room. -/
theorem safe_readBody {dump : List UInt8} {kind : TypeKind} {implicit : Bool}
    (hhuge : implicit → ¬HugeRange dump kind) : Safe (readBody dump kind implicit) := by
  by_cases hindexed : kind.isIndexed
  · rw [readBody_indexed hindexed]
    refine safe_bind (safe_readRange _ _ _) fun (range, next) hrange => ?_
    have hroom : implicit → rangeCount range * 16 < 2 ^ 63 := by
      intro himplicit
      by_contra hroom
      have hmany : maxTypeCount < rangeCount range := by
        rw [maxTypeCount]
        omega
      exact hhuge himplicit ⟨hindexed, range, next, hrange, hmany, .inl (Nat.le_of_not_lt hroom)⟩
    refine safe_bind (safe_readIndexBlock hroom) fun _ _ => ?_
    exact safe_bind (safe_readMembers _ _ _) fun _ _ => safe_pure _
  · cases kind <;> first | exact absurd rfl hindexed | simp only [readBody]
    case array =>
      refine safe_bind (safe_readRange _ _ _) fun _ _ => ?_
      exact safe_bind (safe_readU32 _ _) fun _ _ => safe_pure _
    case byteString | string | integer | bitArray | blob =>
      exact safe_bind (safe_readRange _ _ _) fun _ _ => safe_pure _
    case optional | «alias» => exact safe_bind (safe_readU32 _ _) fun _ _ => safe_pure _
    case bool | fourCc | void | float32 | float64 => exact safe_ok _

/-- Only a range has more indices than `MAX_TYPE_COUNT`. -/
theorem hugeRange_of_readBody {dump : List UInt8} {kind : TypeKind} {implicit : Bool}
    {body : DumpBody} (h : readBody dump kind implicit = .ok (body, dump.length))
    (hmany : maxTypeCount < body.indexValues.length) : implicit ∧ HugeRange dump kind := by
  have hindexed := indexed_of_readBody h (List.length_pos_iff.1 (Nat.zero_lt_of_lt hmany))
  rw [readBody_indexed hindexed] at h
  obtain ⟨⟨range, after⟩, hrange, h⟩ := except_bind_ok.1 h
  obtain ⟨⟨indices, between⟩, hindices, h⟩ := except_bind_ok.1 h
  obtain ⟨⟨members, stop⟩, hmembers, h⟩ := except_bind_ok.1 h
  obtain ⟨rfl, hstop⟩ := Prod.mk.inj (Except.ok.inj h)
  obtain ⟨hbetween, hblock⟩ := readIndexBlock_ok hindices (le_of_readRange hrange)
  have hnext := (readMembers_ok hmembers hbetween).2.1
  cases implicit with
  | false => exact absurd hmany (Nat.not_lt.2 hblock)
  | true =>
    obtain ⟨rfl, hcount⟩ := hblock
    dsimp only at hmany
    rw [hcount] at hmany hnext
    exact ⟨rfl, hindexed, range, _, hrange, hmany, .inr (hstop.symm.trans hnext)⟩

/-- Of a range that is too large, there is no room for the list, or the list is read. -/
theorem readBody_of_hugeRange {dump : List UInt8} {kind : TypeKind} (h : HugeRange dump kind) :
    readBody dump kind true = .error .panic ∨ ∃ body,
      readBody dump kind true = .ok (body, dump.length) ∧
        maxTypeCount < body.indexValues.length := by
  obtain ⟨hindexed, range, next, hrange, hmany, hroom⟩ := h
  rw [readBody_indexed hindexed, hrange]
  by_cases hfits : rangeCount range * 16 < 2 ^ 63
  · obtain ⟨values, hvalues⟩ := inclusiveRange_of_lt hfits
    have hcount := inclusiveRange_ok hvalues
    have hlength := hroom.resolve_left (Nat.not_le.2 hfits)
    rw [← hcount] at hlength
    obtain ⟨members, hmembers⟩ := readMembers_of_le hlength.ge
    rw [← hlength] at hmembers
    refine .inr ⟨{
      valueRange := some range
      indexValues := values
      memberTypes := members }, ?_, hcount ▸ hmany⟩
    refine except_bind_ok.2 ⟨_, rfl, except_bind_ok.2 ⟨(values, next), ?_, ?_⟩⟩
    · exact except_bind_ok.2 ⟨values, hvalues, rfl⟩
    · exact except_bind_ok.2 ⟨_, hmembers, rfl⟩
  · exact .inl (show (readIndexBlock dump next range true >>= _) = _ from
      except_bind_error (readIndexBlock_panics hfits))

/-! ### Shapes -/

/-- A type is a record that is not empty, and strings. -/
theorem typeMetadata_ok {info : TypeMetadata} : m.typeMetadata typeId = .ok info ↔
    ∃ first, m.dumpRecord typeId = .ok info.dump ∧ info.dump.head? = some first ∧
      m.strings typeId = .ok info.strings ∧ info = {
        typeId
        name := info.strings.head?.join
        tag := first &&& 0x3f
        flags := first >>> 6
        dump := info.dump
        strings := info.strings } := by
  constructor
  · intro h
    obtain ⟨dump, hdump, h⟩ := except_bind_ok.1 h
    rcases hfirst : dump.head? with _ | first <;> simp only [hfirst] at h
    · cases h
    · obtain ⟨strings, hstrings, h⟩ := except_bind_ok.1 h
      cases h
      exact ⟨first, hdump, hfirst, hstrings, rfl⟩
  · rintro ⟨first, hdump, hfirst, hstrings, hinfo⟩
    refine except_bind_ok.2 ⟨info.dump, hdump, ?_⟩
    simp only [hfirst]
    exact except_bind_ok.2 ⟨info.strings, hstrings, congrArg Except.ok hinfo.symm⟩

/-- A shape is a record that its body fills. -/
theorem shape_ok {s : MetadataShape} : m.shape typeId = .ok s ↔
    ∃ info first body, m.typeMetadata typeId = .ok info ∧ info.dump[0]? = some first ∧
      TypeKind.fromTag (first &&& 0x3f) = .ok s.kind ∧
      readBody info.dump s.kind (decide (first &&& 0x80 ≠ 0)) = .ok (body, info.dump.length) ∧
      s = {
        typeId
        kind := s.kind
        implicitIndices := decide (first &&& 0x80 ≠ 0)
        obfuscated := decide (first &&& 0x40 ≠ 0)
        valueRange := body.valueRange
        elementType := body.elementType
        indexValues := body.indexValues
        memberTypes := body.memberTypes
        memberNames := (List.range body.indexValues.length).map fun index =>
          info.strings[index + 1]?.join } := by
  constructor
  · intro h
    obtain ⟨info, hinfo, h⟩ := except_bind_ok.1 h
    obtain ⟨first, hfirst, h⟩ := except_bind_ok.1 h
    obtain ⟨kind, hkind, h⟩ := except_bind_ok.1 h
    obtain ⟨⟨body, stop⟩, hbody, h⟩ := except_bind_ok.1 h
    dsimp only at h
    by_cases hstop : stop = info.dump.length
    · rw [if_neg (not_not.2 hstop)] at h
      cases h
      exact ⟨info, first, body, hinfo, index_ok.1 hfirst, ofExcept_ok.1 hkind, hstop ▸ hbody, rfl⟩
    · rw [if_pos hstop] at h
      obtain ⟨unparsed, -, h⟩ := except_bind_ok.1 h
      cases h
  · rintro ⟨info, first, body, hinfo, hfirst, hkind, hbody, hs⟩
    refine except_bind_ok.2 ⟨info, hinfo, ?_⟩
    refine except_bind_ok.2 ⟨first, index_ok.2 hfirst, ?_⟩
    refine except_bind_ok.2 ⟨s.kind, ofExcept_ok.2 hkind, ?_⟩
    refine except_bind_ok.2 ⟨_, hbody, ?_⟩
    dsimp only
    rw [if_neg (not_not.2 rfl)]
    exact congrArg Except.ok hs.symm

/-- `subtract` is only reached behind the end of a body. -/
theorem safe_shape (hm : m.Valid)
    (hhuge : ∀ info first kind, m.typeMetadata typeId = .ok info → info.dump[0]? = some first →
      TypeKind.fromTag (first &&& 0x3f) = .ok kind → first &&& 0x80 ≠ 0 →
      ¬HugeRange info.dump kind) : Safe (m.shape typeId) := by
  refine safe_bind (safe_typeMetadata hm) fun info hinfo => ?_
  obtain ⟨first, -, hfirst, -, -⟩ := typeMetadata_ok.1 hinfo
  rw [List.head?_eq_getElem?] at hfirst
  rw [index_ok.2 hfirst]
  refine safe_bind (safe_ok _) fun raw hraw => ?_
  cases hraw
  refine safe_bind (safe_ofExcept _) fun kind hkind => ?_
  have hnot : decide (first &&& 0x80 ≠ 0) → ¬HugeRange info.dump kind := fun himplicit =>
    hhuge info first kind hinfo hfirst (ofExcept_ok.1 hkind) (of_decide_eq_true himplicit)
  refine safe_bind (safe_readBody hnot) fun (body, stop) hbody => ?_
  dsimp only
  split_ifs
  · have hpos : 1 ≤ info.dump.length := (List.getElem?_eq_some_iff.1 hfirst).1
    rw [subtract_eq (readBody_ok hbody hpos).2]
    exact safe_failMetadata _
  · exact safe_pure _

/-! ### The accessors of a block -/

/-- The bytes that the tables of a block give a type. -/
def record (m : Metadata) (typeId : UInt32) : Option (List UInt8) := do
  let start ← m.dumpOffsets[typeId.toNat]?
  let stop ← m.dumpEnds[start]?
  getRange m.blob start stop

theorem dumpRecord_ok (hm : m.Valid) {dump : List UInt8} :
    m.dumpRecord typeId = .ok dump ↔ m.record typeId = some dump := by
  simp only [dumpRecord, checkedOffset, record]
  rcases m.dumpOffsets[typeId.toNat]? with _ | start
  · simp [failMetadata, fail, bind, Except.bind]
  · simp only [Option.bind_eq_bind, Option.bind_some, bind, Except.bind]
    rcases hstop : m.dumpEnds[start]? with _ | stop
    · simp [failMetadata, fail]
    · have hwithin := And.intro (hm.dump hstop).1.le (hm.dump hstop).2
      simp only [slice_eq hwithin, Option.bind_some, getRange, if_pos hwithin]
      exact ⟨fun h => congrArg some (Except.ok.inj h), fun h => congrArg _ (Option.some.inj h)⟩

/-- No accessor panics on the type, and its shape is well formed. -/
structure SafeAt (m : Metadata) (typeId : UInt32) : Prop where
  dumpRecord : Safe (m.dumpRecord typeId)
  stringOffsets : Safe (m.stringOffsetsOf typeId)
  strings : Safe (m.strings typeId)
  typeMetadata : Safe (m.typeMetadata typeId)
  shape : Safe (m.shape typeId)
  wellFormed : ∀ s, m.shape typeId = .ok s → s.WellFormed

/-- The type has readable strings and the record of a range that is too large. -/
def HugeImplicit (m : Metadata) (typeId : UInt32) : Prop :=
  ∃ dump first kind strings, m.record typeId = some dump ∧ dump[0]? = some first ∧
    TypeKind.fromTag (first &&& 0x3f) = .ok kind ∧ first &&& 0x80 ≠ 0 ∧ HugeRange dump kind ∧
    m.strings typeId = .ok strings

/-- A range that is too large is listed, or the list is too large for the memory. -/
theorem not_safeAt_of_hugeImplicit (hm : m.Valid) (h : m.HugeImplicit typeId) :
    ¬m.SafeAt typeId := by
  obtain ⟨dump, first, kind, strings, hrecord, hfirst, hkind, himplicit, hhuge, hstrings⟩ := h
  intro hsafe
  have hinfo : m.typeMetadata typeId = .ok {
      typeId
      name := strings.head?.join
      tag := first &&& 0x3f
      flags := first >>> 6
      dump, strings } :=
    typeMetadata_ok.2 ⟨first, (dumpRecord_ok hm).2 hrecord, List.head?_eq_getElem?.trans hfirst,
      hstrings, rfl⟩
  have himplicit : decide (first &&& 0x80 ≠ 0) = true := decide_eq_true himplicit
  rcases readBody_of_hugeRange hhuge with hpanic | ⟨body, hbody, hmany⟩
  · refine hsafe.shape ?_
    rw [shape, hinfo]
    change (index dump 0 >>= _) = _
    rw [index_ok.2 hfirst]
    change (ofExcept (TypeKind.fromTag (first &&& 0x3f)) >>= _) = _
    rw [ofExcept_ok.2 hkind]
    change (readBody dump kind (decide (first &&& 0x80 ≠ 0)) >>= _) = _
    rw [himplicit]
    exact except_bind_error hpanic
  · have hshape : m.shape typeId = .ok {
        typeId, kind
        implicitIndices := decide (first &&& 0x80 ≠ 0)
        obfuscated := decide (first &&& 0x40 ≠ 0)
        valueRange := body.valueRange
        elementType := body.elementType
        indexValues := body.indexValues
        memberTypes := body.memberTypes
        memberNames := (List.range body.indexValues.length).map fun index =>
          strings[index + 1]?.join } :=
      shape_ok.2 ⟨_, first, body, hinfo, hfirst, hkind, himplicit ▸ hbody, rfl⟩
    exact absurd (hsafe.wellFormed _ hshape).count (Nat.not_le.2 hmany)

theorem wellFormed_of_shape {s : MetadataShape} (h : m.shape typeId = .ok s)
    (hcount : s.indexValues.length ≤ maxTypeCount) : s.WellFormed := by
  obtain ⟨info, first, body, -, hfirst, -, hbody, hs⟩ := shape_ok.1 h
  have hcomplete := (readBody_ok hbody (List.getElem?_eq_some_iff.1 hfirst).1).1
  have htypes := hcomplete.types
  rw [hs] at hcount ⊢
  exact {
    names := by rw [List.length_map, List.length_range]
    types := fun hmembers => by rwa [if_pos hmembers] at htypes
    range := hcomplete.range
    element := hcomplete.element
    count := hcount }

/-- The accessors are safe on every type of every block that `parse` lets through, but for an
implicit index range that is too large. -/
theorem metadata_safe_iff {blob : List UInt8} (h : parse blob = .ok m) (typeId : UInt32) :
    m.SafeAt typeId ↔ ¬m.HugeImplicit typeId := by
  have hm := parse_valid h
  refine ⟨fun hsafe hhuge => not_safeAt_of_hugeImplicit hm hhuge hsafe, fun hsmall => ?_⟩
  have hnot : ∀ info first kind, m.typeMetadata typeId = .ok info → info.dump[0]? = some first →
      TypeKind.fromTag (first &&& 0x3f) = .ok kind → first &&& 0x80 ≠ 0 →
      ¬HugeRange info.dump kind := by
    intro info first kind hinfo hfirst hkind himplicit hhuge
    obtain ⟨_, hdump, -, hstrings, -⟩ := typeMetadata_ok.1 hinfo
    exact hsmall ⟨info.dump, first, kind, info.strings, (dumpRecord_ok hm).1 hdump, hfirst, hkind,
      himplicit, hhuge, hstrings⟩
  exact {
    dumpRecord := safe_dumpRecord hm
    stringOffsets := safe_stringOffsetsOf hm
    strings := safe_strings hm
    typeMetadata := safe_typeMetadata hm
    shape := safe_shape hm hnot
    wellFormed := by
      intro s hs
      refine wellFormed_of_shape hs (Nat.not_lt.1 fun hmany => ?_)
      obtain ⟨info, first, body, hinfo, hfirst, hkind, hbody, hshape⟩ := shape_ok.1 hs
      rw [hshape] at hmany
      obtain ⟨himplicit, hhuge⟩ := hugeRange_of_readBody hbody hmany
      exact hnot info first s.kind hinfo hfirst hkind (of_decide_eq_true himplicit) hhuge }

/-! ### Two blocks -/

/-- A block with one enumeration, of the values from 0 to 1,000,000. -/
def millionBlock : List UInt8 := [
  0, 0, 0, 7, 0, 0, 0, 0, 0, 0, 0, 1, 0, 0, 0, 11, 0, 0, 0, 6, 0, 0, 0, 24,
  0x87, 5, 20, 0, 0, 0, 0, 0, 0x0f, 0x42, 0x40, 0, 0, 0, 39, 0, 0, 0, 43, 0x45, 0]

/-- A million and one values are listed. -/
theorem millionBlock_unsafe :
    ¬∀ blob m typeId, parse blob = .ok m → m.SafeAt typeId := by
  have hread : (parse millionBlock).toOption.map (fun m => (m.record 0, m.strings 0)) =
      some (some ((millionBlock.drop 24).take 11), .ok [some "E"]) := by decide +kernel
  obtain ⟨m, hm, hfields⟩ := Option.map_eq_some_iff.1 hread
  obtain ⟨hrecord, hstrings⟩ := Prod.mk.inj hfields
  have hparse := toOption_eq_some.1 hm
  intro hclaim
  refine not_safeAt_of_hugeImplicit (parse_valid hparse) ?_ (hclaim millionBlock m 0 hparse)
  refine ⟨_, 0x87, .enum, _, hrecord, rfl, rfl, by decide, ⟨rfl, ?_⟩, hstrings⟩
  exact ⟨_, 11, rfl, by decide, .inr rfl⟩

/-- A block with a boolean and another name for it. -/
def syntheticBlock : List UInt8 := [
  0, 0, 0, 7, 0, 0, 0, 0, 0, 0, 0, 2, 0, 0, 0, 6, 0, 0, 0, 45, 0, 0, 0, 28, 0, 0, 0, 29,
  5, 0x10, 0, 0, 0, 0, 0, 0, 0, 42, 0, 0, 0, 50,
  0, 0, 0, 58, 0, 0, 0, 0, 0, 0, 0, 72, 0, 0, 0, 0] ++
  "Example::Bool".toUTF8.toList ++ [0] ++ "Example::Alias".toUTF8.toList ++ [0]

theorem metadata_safe_synthetic : ∃ m, parse syntheticBlock = .ok m ∧ m.SafeAt 1 := by
  have hread : (parse syntheticBlock).toOption.map (·.record 1) =
      some (some [0x10, 0, 0, 0, 0]) := by decide +kernel
  obtain ⟨m, hm, hrecord⟩ := Option.map_eq_some_iff.1 hread
  have hparse := toOption_eq_some.1 hm
  refine ⟨m, hparse, (metadata_safe_iff hparse 1).2 ?_⟩
  rintro ⟨dump, first, kind, strings, hdump, hfirst, -, himplicit, -⟩
  obtain rfl := Option.some.inj (hrecord.symm.trans hdump)
  obtain rfl := Option.some.inj hfirst
  exact himplicit rfl

/-! ## The schema of a block -/

end Metadata

/-- The lists of a shape are as long as each other. -/
def MetadataShape.Fits (s : MetadataShape) : Prop :=
  s.memberNames.length = s.indexValues.length ∧
    s.memberTypes.length = if s.kind.hasMembers then s.indexValues.length else 0

/-- The shape as the codec looks at it. -/
def MetadataShape.typeShape (s : MetadataShape) (h : s.Fits) : TypeShape where
  kind := s.kind
  obfuscated := s.obfuscated
  valueRange := s.valueRange.map (·.toIntegerRange)
  elementType := s.elementType
  indexValues := s.indexValues
  memberTypes := s.memberTypes
  memberNames := s.memberNames
  names_length := h.1
  types_length := h.2

namespace Metadata

variable {m : Metadata} {typeId : UInt32}

theorem fits_of_shape {s : MetadataShape} (h : m.shape typeId = .ok s) : s.Fits := by
  obtain ⟨info, first, body, -, hfirst, -, hbody, hs⟩ := shape_ok.1 h
  have hcomplete := (readBody_ok hbody (List.getElem?_eq_some_iff.1 hfirst).1).1
  rw [hs]
  exact ⟨by rw [List.length_map, List.length_range], hcomplete.types⟩

/-- The text of a metadata error, the only kind there is here. -/
def errorText : Stop Error → String
  | .error (.metadata message) => message
  | _ => ""

/-- `Schema::Runtime`. -/
def schema (m : Metadata) : Schema where
  knownTypeIds := (List.range m.header.typeCount).map UInt32.ofNat
  name typeId := (m.typeMetadata typeId).map (·.name) |>.mapError errorText
  lookup typeId :=
    match h : m.shape typeId with
    | .ok s => .ok (s.typeShape (fits_of_shape h))
    | .error stop => .error (errorText stop)

/-- The codec is given the shapes of the block. -/
theorem schema_shape {s : MetadataShape} (h : m.shape typeId = .ok s) :
    m.schema.shape typeId = .ok (s.typeShape (fits_of_shape h)) := by
  have hlookup : m.schema.lookup typeId = .ok (s.typeShape (fits_of_shape h)) := by
    simp only [schema]
    split
    · next s' hs =>
      cases hs.symm.trans h
      rfl
    · next stop hs => cases hs.symm.trans h
  rw [Schema.shape, hlookup]
  rfl

end Metadata

end Superiority.Bsn
