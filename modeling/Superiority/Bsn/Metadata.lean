import Mathlib.Data.List.Destutter
import Mathlib.Data.List.Sort
import Std.Data.ExtTreeMap
import Superiority.Bsn.Schema
import Superiority.Library.Bytes
import Superiority.Library.Checked
import Superiority.Library.Map

/-!
# The metadata block

`metadata/mod.rs`: the types of the game as the block in its executable describes them. The block
is a header, a table and a region of dump records, a table and a region of string records, and
literal strings; a record ends where the next one starts. Lengths and offsets are sums of a few
32-bit numbers and fit a `usize`.

**`parse_valid`**: in a block that `parse` lets through, every record lies within the block.
-/

namespace Superiority.Bsn

open Std

/-! ## Headers -/

def metadataVersion : Nat := 7
def headerSize : Nat := 20
def maxTypeCount : Nat := 1000000

def metadataError (message : String) : Error := .metadata message

abbrev Accessed (α : Type) : Type := Checked Error α

/-- `Err(metadata_error(message))`. -/
def failMetadata {α : Type} (message : String) : Accessed α := .fail (metadataError message)

structure MetadataHeader where
  version : Nat
  flags : Nat
  typeCount : Nat
  dumpSize : Nat
  stringSize : Nat
  deriving DecidableEq, Repr

/-- `read_u32_at`. -/
def readU32At (data : List UInt8) (offset : Nat) : Except Error Nat :=
  match getRange data offset (offset + 4) with
  | some bytes => .ok (bigEndian bytes)
  | none => .error (metadataError "u32 metadata is truncated")

namespace MetadataHeader

def parse (data : List UInt8) : Except Error MetadataHeader := do
  refuseIf (data.length < headerSize) (metadataError "metadata block is smaller than its header")
  return {
    version := ← readU32At data 0
    flags := ← readU32At data 4
    typeCount := ← readU32At data 8
    dumpSize := ← readU32At data 12
    stringSize := ← readU32At data 16 }

def byteSize (header : MetadataHeader) : Nat :=
  headerSize + header.typeCount * 4 + header.dumpSize + header.typeCount * 4 + header.stringSize

end MetadataHeader

/-! ## Blocks -/

structure Metadata where
  blob : List UInt8
  header : MetadataHeader
  dumpTableOffset : Nat
  stringTableOffset : Nat
  stringDataOffset : Nat
  stringLiteralOffset : Nat
  dumpOffsets : List Nat
  stringOffsets : List Nat
  dumpEnds : ExtTreeMap Nat Nat
  stringEnds : ExtTreeMap Nat Nat

def readOffsetTable (data : List UInt8) (offset count : Nat) : Except Error (List Nat) :=
  (List.range count).mapM fun index => readU32At data (offset + index * 4)

def validateOffsets (offsets : List Nat) (start stop : Nat) (allowZero : Bool) (label : String) :
    Except Error Unit :=
  match offsets.zipIdx.find? fun entry =>
      !(allowZero && entry.1 == 0) && !decide (start ≤ entry.1 ∧ entry.1 < stop) with
  | some (_, typeId) =>
    .error (metadataError s!"{label} offset for type {typeId} is outside its data region")
  | none => .ok ()

/-- `sort_unstable` and `dedup`. -/
def sortedStarts (offsets : List Nat) : List Nat :=
  (offsets.insertionSort (· ≤ ·)).destutter (· ≠ ·)

/-- Each start with where its record ends: `starts.zip(starts.skip(1).chain([end]))`. -/
def spans (starts : List Nat) (stop : Nat) : List (Nat × Nat) :=
  starts.zip (starts.drop 1 ++ [stop])

def recordEnds (offsets : List Nat) (stop : Nat) (allowZero : Bool) : ExtTreeMap Nat Nat :=
  let starts := sortedStarts (offsets.filter fun offset => !(allowZero && offset == 0))
  ExtTreeMap.ofList (spans starts stop)

namespace Metadata

def parse (blob : List UInt8) : Except Error Metadata := do
  let header ← MetadataHeader.parse blob
  refuseIf (header.version ≠ metadataVersion)
    (metadataError s!"unsupported BSN metadata version {header.version}")
  refuseIf (header.typeCount = 0) (metadataError "metadata block contains no types")
  refuseIf (header.typeCount > maxTypeCount)
    (metadataError "metadata type count is unreasonable")
  refuseIf (header.dumpSize = 0) (metadataError "metadata block contains no dump records")
  refuseIf (header.byteSize ≠ blob.length) (metadataError
    s!"metadata size mismatch: header describes {header.byteSize} bytes, received {blob.length}")
  let tableSize := header.typeCount * 4
  let dumpTableOffset := headerSize
  let dumpDataOffset := dumpTableOffset + tableSize
  let stringTableOffset := dumpDataOffset + header.dumpSize
  let stringDataOffset := stringTableOffset + tableSize
  let dumpOffsets ← readOffsetTable blob dumpTableOffset header.typeCount
  let stringOffsets ← readOffsetTable blob stringTableOffset header.typeCount
  validateOffsets dumpOffsets dumpDataOffset stringTableOffset false "dump"
  validateOffsets stringOffsets stringDataOffset blob.length true "string"
  let dumpEnds := recordEnds dumpOffsets stringTableOffset false
  let stringRecordStarts := sortedStarts (stringOffsets.filter (· ≠ 0))
  let literals ← stringRecordStarts.mapM (readU32At blob)
  let stringLiteralOffset ← okOr (literals.filter (· ≠ 0)).min?
    (metadataError "metadata has no named dump strings")
  refuseIf (¬(stringDataOffset ≤ stringLiteralOffset ∧ stringLiteralOffset ≤ blob.length))
    (metadataError "dump-string records point outside the string region")
  refuseIf (stringRecordStarts.getLast?.any (· ≥ stringLiteralOffset))
    (metadataError "dump-string records overlap literal strings")
  let stringEnds := recordEnds stringOffsets stringLiteralOffset true
  return {
    blob, header, dumpTableOffset, stringTableOffset, stringDataOffset, stringLiteralOffset,
    dumpOffsets, stringOffsets, dumpEnds, stringEnds }

end Metadata

/-! ### The records lie within their block -/

/-- Sorted and without duplicates. -/
theorem pairwise_sortedStarts (offsets : List Nat) : (sortedStarts offsets).Pairwise (· < ·) := by
  have hchain : (sortedStarts offsets).IsChain (· ≠ ·) := List.isChain_destutter _ _
  have hle : (sortedStarts offsets).Pairwise (· ≤ ·) :=
    (List.pairwise_insertionSort (· ≤ ·) offsets).sublist (List.destutter_sublist _ _)
  refine List.isChain_iff_pairwise.1 (List.isChain_iff_getElem.2 fun i h => ?_)
  exact Nat.lt_of_le_of_ne (List.isChain_iff_getElem.1 hle.isChain i h)
    (List.isChain_iff_getElem.1 hchain i h)

theorem mem_sortedStarts {offsets : List Nat} {start : Nat} (h : start ∈ sortedStarts offsets) :
    start ∈ offsets :=
  (List.mem_insertionSort (· ≤ ·)).1 ((List.destutter_sublist _ _).mem h)

theorem mem_spans {starts : List Nat} {stop : Nat} (hsorted : starts.Pairwise (· < ·))
    (hstop : ∀ start ∈ starts, start < stop) :
    ∀ entry ∈ spans starts stop, entry.1 < entry.2 ∧ entry.2 ≤ stop := by
  induction starts with
  | nil => simp [spans]
  | cons start starts ih =>
    intro entry hentry
    cases starts with
    | nil =>
      obtain rfl : entry = (start, stop) := by simpa [spans] using hentry
      exact ⟨hstop start (by simp), Nat.le_refl _⟩
    | cons next starts =>
      obtain rfl | hentry : entry = (start, next) ∨ entry ∈ spans (next :: starts) stop := by
        simpa [spans] using hentry
      · exact ⟨List.rel_of_pairwise_cons hsorted (by simp), (hstop next (by simp)).le⟩
      · exact ih hsorted.of_cons (fun start h => hstop start (List.mem_cons_of_mem _ h)) entry hentry

/-- A record is not empty, and ends no later than its region. -/
theorem recordEnds_some {offsets : List Nat} {stop start ends : Nat} {allowZero : Bool}
    (hstop : ∀ offset ∈ sortedStarts (offsets.filter fun o => !(allowZero && o == 0)),
      offset < stop)
    (h : (recordEnds offsets stop allowZero)[start]? = some ends) : start < ends ∧ ends ≤ stop :=
  mem_spans (pairwise_sortedStarts _) hstop (start, ends) (mem_of_getElem?_ofList h)

theorem lt_of_validateOffsets {offsets : List Nat} {start stop : Nat} {allowZero : Bool}
    {label : String} {u : Unit} (h : validateOffsets offsets start stop allowZero label = .ok u) :
    ∀ offset ∈ offsets.filter (fun o => !(allowZero && o == 0)),
      start ≤ offset ∧ offset < stop := by
  intro offset hoffset
  obtain ⟨hmem, hkept⟩ := List.mem_filter.1 hoffset
  obtain ⟨i, hi, rfl⟩ := List.getElem_of_mem hmem
  simp only [validateOffsets] at h
  split at h
  case h_1 => simp at h
  case h_2 hnone =>
    have hfound := List.find?_eq_none.1 hnone (offsets[i], i) (by
      exact List.mem_zipIdx_iff_getElem?.2 (List.getElem?_eq_getElem hi))
    simpa [hkept] using hfound

/-- Of an increasing list whose last member is below a bound, all are. -/
theorem lt_of_getLast? {starts : List Nat} {bound : Nat} (hsorted : starts.Pairwise (· < ·))
    (hlast : ¬starts.getLast?.any (· ≥ bound)) : ∀ start ∈ starts, start < bound := by
  rcases hend : starts.getLast? with _ | last
  · simp [List.getLast?_eq_none_iff.1 hend]
  · obtain ⟨front, rfl⟩ := List.getLast?_eq_some_iff.1 hend
    have hbound : last < bound := by simpa using hlast
    intro start hstart
    rcases List.mem_append.1 hstart with hfront | hback
    · exact (List.pairwise_append.1 hsorted).2.2 start hfront last (by simp) |>.trans hbound
    · rwa [List.mem_singleton.1 hback]

/-- Every record lies within the block. -/
structure Metadata.Valid (m : Metadata) : Prop where
  dump : ∀ {start stop : Nat}, m.dumpEnds[start]? = some stop →
    start < stop ∧ stop ≤ m.blob.length
  string : ∀ {start stop : Nat}, m.stringEnds[start]? = some stop →
    start < stop ∧ stop ≤ m.blob.length

theorem parse_valid {blob : List UInt8} {m : Metadata} (h : Metadata.parse blob = .ok m) :
    m.Valid := by
  obtain ⟨header, -, h⟩ := except_bind_ok.1 h
  obtain ⟨_, -, h⟩ := except_bind_ok.1 h
  obtain ⟨_, -, h⟩ := except_bind_ok.1 h
  obtain ⟨_, -, h⟩ := except_bind_ok.1 h
  obtain ⟨_, -, h⟩ := except_bind_ok.1 h
  obtain ⟨_, hsize, h⟩ := except_bind_ok.1 h
  dsimp only at h
  obtain ⟨dumpOffsets, -, h⟩ := except_bind_ok.1 h
  obtain ⟨stringOffsets, -, h⟩ := except_bind_ok.1 h
  obtain ⟨_, hdump, h⟩ := except_bind_ok.1 h
  obtain ⟨_, -, h⟩ := except_bind_ok.1 h
  obtain ⟨literals, -, h⟩ := except_bind_ok.1 h
  obtain ⟨literal, -, h⟩ := except_bind_ok.1 h
  obtain ⟨_, hwithin, h⟩ := except_bind_ok.1 h
  obtain ⟨_, hlast, h⟩ := except_bind_ok.1 h
  obtain rfl := Except.ok.inj h
  have hlength : header.byteSize = blob.length := not_not.1 (refuseIf_ok.1 hsize)
  refine ⟨fun hends => ?_, fun hends => ?_⟩
  · have hregion : headerSize + header.typeCount * 4 + header.dumpSize ≤ blob.length := by
      rw [← hlength, MetadataHeader.byteSize]
      omega
    obtain ⟨hlt, hle⟩ := recordEnds_some
      (fun offset hmem => (lt_of_validateOffsets hdump offset (mem_sortedStarts hmem)).2) hends
    exact ⟨hlt, hle.trans hregion⟩
  · have hkept : (fun o : Nat => !(true && o == 0)) = fun o => decide (o ≠ 0) := by
      funext o
      simp only [Bool.true_and, ne_eq, decide_not]
      rfl
    have hbelow := lt_of_getLast? (pairwise_sortedStarts _) (refuseIf_ok.1 hlast)
    obtain ⟨hlt, hle⟩ := recordEnds_some (by rwa [hkept]) hends
    exact ⟨hlt, hle.trans (not_not.1 (refuseIf_ok.1 hwithin)).2⟩

namespace Metadata

/-! ## Records -/

variable (m : Metadata)

def checkedOffset (table : List Nat) (typeId : UInt32) : Accessed Nat :=
  match table[typeId.toNat]? with
  | some offset => .ok offset
  | none => failMetadata s!"BSN type id {typeId} is out of range"

def dumpRecord (typeId : UInt32) : Accessed (List UInt8) := do
  let start ← checkedOffset m.dumpOffsets typeId
  match m.dumpEnds[start]? with
  | none => failMetadata "dump record has no end"
  | some stop => Checked.slice m.blob start stop

/-- `string_offsets`. -/
def stringOffsetsOf (typeId : UInt32) : Accessed (List Nat) := do
  let start ← checkedOffset m.stringOffsets typeId
  if start = 0 then return []
  match m.stringEnds[start]? with
  | none => failMetadata "string record has no end"
  | some stop =>
    let size ← Checked.subtract stop start
    if size % 4 ≠ 0 then failMetadata s!"string record for type {typeId} is not u32-aligned"
    else (List.range (size / 4)).mapM fun i => .ofExcept (readU32At m.blob (start + 4 * i))

def stringAt (offset : Nat) : Accessed (Option String) := do
  if offset = 0 then return none
  if ¬ (m.stringLiteralOffset ≤ offset ∧ offset < m.blob.length) then
    failMetadata "dump-string offset is outside the string region"
  else
    let rest ← Checked.slice m.blob offset m.blob.length
    match rest.findIdx? (· = 0) with
    | none => failMetadata "dump string is not NUL-terminated"
    | some relativeEnd =>
      match fromUtf8 (← Checked.slice m.blob offset (offset + relativeEnd)) with
      | none => failMetadata "dump string is not valid UTF-8"
      | some value => return some value

def strings (typeId : UInt32) : Accessed (List (Option String)) := do
  (← m.stringOffsetsOf typeId).mapM m.stringAt

structure TypeMetadata where
  typeId : UInt32
  name : Option String
  tag : UInt8
  flags : UInt8
  dump : List UInt8
  strings : List (Option String)
  deriving DecidableEq, Repr

def typeMetadata (typeId : UInt32) : Accessed TypeMetadata := do
  let dump ← m.dumpRecord typeId
  match dump.head? with
  | none => failMetadata s!"dump record for type {typeId} is empty"
  | some first =>
    let strings ← m.strings typeId
    return {
      typeId
      name := strings.head?.join
      tag := first &&& 0x3f
      flags := first >>> 6
      dump, strings }

end Metadata

/-! ## Dump records -/

/-- `IntegerRange` with what the codec does not look at. -/
structure MetadataRange extends IntegerRange where
  encoding : UInt8
  controlFlag : Bool
  deriving DecidableEq, Repr

namespace Metadata

/-- How many bytes a number takes: the first `match` of `read_scalar`. -/
def scalarWidth (encoding : UInt8) : Accessed Nat :=
  match encoding.toNat with
  | 0 | 1 => .ok 1
  | 2 | 3 => .ok 2
  | 4 | 5 => .ok 4
  | 6 | 7 => .ok 8
  | _ => failMetadata s!"unknown BSN integer encoding {encoding}"

/-- `read_scalar`. A number of eight bytes fits an `i128`. -/
def readScalar (data : List UInt8) (offset : Nat) (encoding : UInt8) : Accessed (Int × Nat) := do
  let width ← scalarWidth encoding
  match getRange data offset (offset + width) with
  | none => failMetadata "integer metadata is truncated"
  | some bytes =>
    let unsigned : Int := bigEndian bytes
    if encoding.toNat % 2 = 0 then
      let first ← Checked.index bytes 0
      return (if first &&& 0x80 ≠ 0 then unsigned - 2 ^ (width * 8) else unsigned, offset + width)
    else return (unsigned, offset + width)

def readRange (data : List UInt8) (offset : Nat) (single : Bool) :
    Accessed (MetadataRange × Nat) := do
  match data[offset]? with
  | none => failMetadata "integer-range metadata is truncated"
  | some encoding =>
    if single then
      let (value, offset) ← readScalar data (offset + 1) encoding
      return ({
        bitWidth := none
        minimum := value
        maximum := value
        encoding
        controlFlag := false }, offset)
    else
      match data[offset + 1]? with
      | none => failMetadata "integer-range control byte is missing"
      | some control =>
        let (minimum, offset) ← readScalar data (offset + 2) encoding
        let (maximum, offset) ← readScalar data offset encoding
        return ({
          bitWidth := some (control &&& 0x7f).toNat
          minimum, maximum, encoding
          controlFlag := control &&& 0x80 ≠ 0 }, offset)

/-- The loop that reads the values of an index block. -/
def readScalars (data : List UInt8) (encoding : UInt8) :
    (count : Nat) → (offset : Nat) → Accessed (List Int × Nat)
  | 0, offset => .ok ([], offset)
  | count + 1, offset => do
    let (value, offset) ← readScalar data offset encoding
    let (values, offset) ← readScalars data encoding count offset
    return (value :: values, offset)

/-- How many numbers `minimum..=maximum` has. -/
def rangeCount (range : MetadataRange) : Nat := (range.maximum - range.minimum + 1).toNat

/-- `(minimum..=maximum).collect()`: room for all of it first, at 16 bytes an `i128`. -/
def inclusiveRange (range : MetadataRange) : Accessed (List Int) := do
  Checked.reserve (rangeCount range) 16
  return (List.range (rangeCount range)).map fun i : Nat => range.minimum + i

def readIndexBlock (data : List UInt8) (offset : Nat) (range : MetadataRange) (implicit : Bool) :
    Accessed (List Int × Nat) := do
  if implicit then return (← inclusiveRange range, offset)
  else
    match data[offset]? with
    | none => failMetadata "indexed-type count encoding is missing"
    | some countEncoding =>
      if ¬ countEncoding.toNat ∈ [1, 3, 5, 7] then
        failMetadata s!"unsupported indexed-type count encoding {countEncoding}"
      else
        let (count, offset) ← readScalar data (offset + 1) countEncoding
        if 0 ≤ count ∧ count ≤ maxTypeCount then
          readScalars data range.encoding count.toNat offset
        else failMetadata "indexed-type count is unreasonable"

/-- `read_u32`. -/
def readU32 (data : List UInt8) (offset : Nat) : Accessed (UInt32 × Nat) := do
  let value ← Checked.ofExcept (readU32At data offset)
  return (UInt32.ofNat value, offset + 4)

/-- The loop that reads the types of members. -/
def readMembers (data : List UInt8) : (count : Nat) → (offset : Nat) → Accessed (List UInt32 × Nat)
  | 0, offset => .ok ([], offset)
  | count + 1, offset => do
    let (member, offset) ← readU32 data offset
    let (members, offset) ← readMembers data count offset
    return (member :: members, offset)

end Metadata

/-! ## Shapes -/

/-- `TypeKind::from_tag`. -/
def TypeKind.fromTag (tag : UInt8) : Except Error TypeKind :=
  match tag.toNat with
  | 1 => .ok .array
  | 2 => .ok .byteString
  | 3 => .ok .bitArray
  | 4 => .ok .blob
  | 5 => .ok .bool
  | 6 => .ok .choice
  | 7 => .ok .enum
  | 8 => .ok .fourCc
  | 9 => .ok .integer
  | 10 => .ok .void
  | 11 => .ok .optional
  | 12 => .ok .float32
  | 13 => .ok .float64
  | 14 => .ok .struct
  | 15 => .ok .string
  | 16 => .ok .alias
  | _ => .error (metadataError s!"unknown BSN type tag {tag}")

/-- `TypeShape` as a block gives it. -/
structure MetadataShape where
  typeId : UInt32
  kind : TypeKind
  implicitIndices : Bool
  obfuscated : Bool
  valueRange : Option MetadataRange
  elementType : Option UInt32
  indexValues : List Int
  memberTypes : List UInt32
  memberNames : List (Option String)
  deriving DecidableEq, Repr

/-- A kind of type whose record has a value range. -/
def TypeKind.isRanged : TypeKind → Bool
  | .array | .byteString | .string | .integer | .bitArray | .blob | .choice | .enum | .struct => true
  | _ => false

/-- A kind of type that is made of another type. -/
def TypeKind.hasElement : TypeKind → Bool
  | .array | .optional | .alias => true
  | _ => false

/-- A kind of type whose record lists indices. -/
def TypeKind.isIndexed : TypeKind → Bool
  | .choice | .enum | .struct => true
  | _ => false

/-- What `shape` returns is what the codec indexes on. -/
structure MetadataShape.WellFormed (s : MetadataShape) : Prop where
  names : s.memberNames.length = s.indexValues.length
  types : s.kind.hasMembers → s.memberTypes.length = s.indexValues.length
  range : s.kind.isRanged → s.valueRange.isSome
  element : s.kind.hasElement → s.elementType.isSome
  count : s.indexValues.length ≤ maxTypeCount

/-- What a dump record says about a type of its kind. -/
structure DumpBody where
  valueRange : Option MetadataRange := none
  elementType : Option UInt32 := none
  indexValues : List Int := []
  memberTypes : List UInt32 := []
  deriving DecidableEq, Repr

namespace Metadata

/-- The `match kind` of `shape`: what the record says, and where that ends. -/
def readBody (dump : List UInt8) (kind : TypeKind) (implicit : Bool) : Accessed (DumpBody × Nat) :=
  match kind with
  | .array => do
    let (range, offset) ← readRange dump 1 implicit
    let (element, offset) ← readU32 dump offset
    return ({ valueRange := some range, elementType := some element }, offset)
  | .byteString | .string | .integer => do
    let (range, offset) ← readRange dump 1 false
    return ({ valueRange := some range }, offset)
  | .bitArray | .blob => do
    let (range, offset) ← readRange dump 1 implicit
    return ({ valueRange := some range }, offset)
  | .choice | .enum | .struct => do
    let (range, offset) ← readRange dump 1 false
    let (indexValues, offset) ← readIndexBlock dump offset range implicit
    let (memberTypes, offset) ←
      readMembers dump (if kind.hasMembers then indexValues.length else 0) offset
    return ({ valueRange := some range, indexValues, memberTypes }, offset)
  | .optional | .alias => do
    let (element, offset) ← readU32 dump 1
    return ({ elementType := some element }, offset)
  | .bool | .fourCc | .void | .float32 | .float64 => .ok ({}, 1)

def shape (m : Metadata) (typeId : UInt32) : Accessed MetadataShape := do
  let info ← m.typeMetadata typeId
  let rawTag ← Checked.index info.dump 0
  let kind ← Checked.ofExcept (TypeKind.fromTag (rawTag &&& 0x3f))
  let implicitIndices := decide (rawTag &&& 0x80 ≠ 0)
  let (body, offset) ← readBody info.dump kind implicitIndices
  if offset ≠ info.dump.length then
    let unparsed ← Checked.subtract info.dump.length offset
    failMetadata
      s!"{kind.debug} dump record for type {typeId} has {unparsed} unparsed bytes"
  else
    return {
      typeId, kind, implicitIndices
      obfuscated := rawTag &&& 0x40 ≠ 0
      valueRange := body.valueRange
      elementType := body.elementType
      indexValues := body.indexValues
      memberTypes := body.memberTypes
      memberNames := (List.range body.indexValues.length).map fun index =>
        info.strings[index + 1]?.join }

end Metadata

end Superiority.Bsn
