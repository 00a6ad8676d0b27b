import Superiority.Native.WireLayout

/-!
# Decoding

`decode_from` and `decode_traced_from` of `bsn/codec.rs`. The source decodes a type by recursion
over the schema, which may be cyclic; here the depth of the recursion is bounded by a fuel, and a
decoder that reaches the bound is unfinished.

The routine for one type, `decodeInner`, is written over the recursive call. With `traced` it also
returns the entries that the source pushes to its list of fields, in the order of the pushes.
-/

namespace Superiority.Bsn

open Reading

abbrev Decoded : Type := BsnValue × List DecodedField

/-- The recursive call: traced or not, in a reflected scope or not, the type, the path of the
value and its depth. -/
abbrev Recur : Type := Bool → Bool → UInt32 → String → Nat → Reading Decoded

/-- `append_decode_context`. -/
def appendDecodeContext (context : String) : Error → Error
  | .bsnWire message => .bsnWire s!"{message}; {context}"
  | e => e

/-! ## Ranges -/

def requiredRange (shape : TypeShape) : Except Error IntegerRange :=
  match shape.valueRange with
  | some range => .ok range
  | none => .error (codecError s!"{shape.kind.debug} schema has no numeric range")

def requiredElement (shape : TypeShape) : Except Error UInt32 :=
  match shape.elementType with
  | some element => .ok element
  | none => .error (codecError s!"{shape.kind.debug} schema has no element type")

/-- `byte_counted`: four bytes for each declared character. -/
def byteCounted (range : IntegerRange) : IntegerRange :=
  { range with bitWidth := range.bitWidth.map (· + 2), maximum := range.maximum * 4 }

/-- The value of a ranged field before it is checked. -/
def readOffset (range : IntegerRange) : Reading Int :=
  match range.bitWidth with
  | some width => do
    let value ← read width
    return (value : Int) + range.minimum
  | none => return range.minimum

def readRange (range : IntegerRange) : Reading Int := do
  let value ← readOffset range
  if value > range.maximum then
    Decoder.fail
      (codecError s!"decoded value {value} exceeds BSN range maximum {range.maximum}")
  else return value

/-- `read_length`. A `usize` has 64 bits. -/
def readLength (range : IntegerRange) : Reading Nat := do
  let value ← readRange range
  if value < 0 ∨ 2 ^ 64 ≤ value then
    Decoder.fail (codecError "decoded BSN length does not fit this platform")
  else return value.toNat

/-! ## One type -/

/-- The elements of an array, from an index on. -/
def decodeElements (decode : Nat → Reading Decoded) :
    (index count : Nat) → Reading (List BsnValue × List DecodedField)
  | _, 0 => return ([], [])
  | index, count + 1 => do
    let (value, fields) ← (decode index).mapError fun _ _ =>
      appendDecodeContext s!"array element [{index}]"
    let (values, fields') ← decodeElements decode (index + 1) count
    return (value :: values, fields ++ fields')

/-- The members of a struct. -/
def decodeMembers (decode : Member → Reading Decoded) (typeText : String) :
    List Member → Reading (List BsnField × List DecodedField)
  | [] => return ([], [])
  | member :: members => do
    let (value, fields) ← (decode member).mapError fun _ _ =>
      appendDecodeContext s!"field {member.label} of {typeText}"
    let (values, fields') ← decodeMembers decode typeText members
    return (.mk member.index member.name value :: values, fields ++ fields')

/-- The entry of the filler bits in front of a field. -/
def fillerEntry (traced : Bool) (label path : String) (depth startBit endBit : Nat) :
    List DecodedField :=
  if traced then
    [{ path := s!"{path}.filler_before_{label}"
       kind := "filler bits"
       value := "ignored"
       startBit
       endBit
       depth := depth + 1 }]
  else []

/-- The filler bits in front of a field. -/
def readFiller (traced : Bool) (width : Nat) (label path : String) (depth : Nat) :
    Reading (List DecodedField) :=
  if width = 0 then return []
  else do
    let startBit ← Tape.place
    let _ ← read width
    let endBit ← Tape.place
    return fillerEntry traced label path depth startBit endBit

/-- The fields of a struct layout in the order of the wire, each with its logical position. -/
def decodeLayoutFields (decode : Member → Reading Decoded) (traced : Bool) (members : List Member)
    (path : String) (depth : Nat) :
    List WireField → Reading (List (Nat × BsnField) × List DecodedField)
  | [] => return ([], [])
  | entry :: entries =>
    match members[entry.logicalField]? with
    -- A layout with such an entry is refused by `register_struct`.
    | none => Decoder.fail (codecError "index out of bounds")
    | some member => do
      let filler ← readFiller traced entry.fillerBefore member.label path depth
      let (value, fields) ← decode member
      let (values, fields') ← decodeLayoutFields decode traced members path depth entries
      return ((entry.logicalField, .mk member.index member.name value) :: values,
        filler ++ fields ++ fields')

/-- The fields of a struct layout in the order of the schema. -/
def collectLogical (layout : StructWireLayout) (memberCount : Nat)
    (values : List (Nat × BsnField)) : Except Error (List BsnField) :=
  (List.range memberCount).mapM fun position =>
    match values.reverse.lookup position with
    | some field => .ok field
    | none => .error (codecError s!"struct wire layout {layout.name} omitted a field")

/-- An alias of the error codes rewords the entry of its element, the last one with its path. -/
def rewordError (texts : TraceTexts) (schema : Schema) (typeId : UInt32) (path : String)
    (value : BsnValue) (fields : List DecodedField) : List DecodedField :=
  match value with
  | .integer code =>
    if schema.knownName typeId = some "Battlenet::Error::Code" ∧ 0 ≤ code ∧ code < 2 ^ 16 then
      match fields.reverse.span (·.path != path) with
      | (_, []) => fields
      | (after, field :: before) =>
        before.reverse ++ { field with
          kind := "Battle.net error"
          value := texts.description (UInt16.ofNat code.toNat) } :: after.reverse
    else fields
  | _ => fields

section inner

variable (texts : TraceTexts) (codec : Codec) (recur : Recur)
variable (traced : Bool) (typeId : UInt32) (path : String) (depth : Nat)

def decodeStructLayout (shape : TypeShape) (layout : StructWireLayout) : Reading Decoded := do
  let (values, fields) ← decodeLayoutFields
    (fun member => recur traced false member.type s!"{path}.{member.label}" (depth + 1))
    traced shape.members path depth layout.fields
  let values ← Decoder.ofExcept (collectLogical layout shape.memberTypes.length values)
  return (.struct typeId values, fields)

/-- A layout with a routine of its own calls `decode_from` for the fields whose types are
reflected. -/
def decodeCustom (layout : CustomLayout) : Reading Decoded :=
  let decodeFrom := fun member => Prod.fst <$> recur false false member "value" 0
  if traced then Native.WireLayout.decodeTraced texts codec.schema decodeFrom layout typeId path depth
  else do
    let value ← Native.WireLayout.decode codec.schema decodeFrom layout typeId
    return (value, [])

/-- The reflected layout of a type, by its kind. -/
def decodeReflected (shape : TypeShape) (reflected : Bool) : Reading Decoded :=
  match shape.kind with
  | .alias => do
    let element ← Decoder.ofExcept (requiredElement shape)
    let (value, fields) ← recur traced reflected element path depth
    return (value, rewordError texts codec.schema typeId path value fields)
  | .void => return (.void, [])
  | .bool => do
    let bit ← read 1
    return (.bool (bit != 0), [])
  | .integer | .enum => do
    let range ← Decoder.ofExcept (requiredRange shape)
    let value ← readRange range
    return (.integer value, [])
  | .fourCc => do
    let value ← read 32
    return (.fourCc (UInt32.ofNat value), [])
  | .float32 => do
    let bits ← read 32
    return (.float32 (UInt32.ofNat bits), [])
  | .float64 => do
    let bits ← read 64
    return (.float64 (UInt64.ofNat bits), [])
  | .byteString | .blob => do
    let range ← Decoder.ofExcept (requiredRange shape)
    let length ← readLength range
    let bytes ← readBytes length true
    return (.bytes bytes, [])
  | .string => do
    let range ← Decoder.ofExcept (requiredRange shape)
    let length ← readLength (byteCounted range)
    let bytes ← readBytes length true
    return (.string (fromUtf8Lossy bytes), [])
  | .bitArray => do
    let range ← Decoder.ofExcept (requiredRange shape)
    let bitCount ← readLength range
    let data ← readRaw bitCount
    return (.bitArray data bitCount, [])
  | .array => do
    let range ← Decoder.ofExcept (requiredRange shape)
    let length ← readLength range
    let element ← Decoder.ofExcept (requiredElement shape)
    let (values, fields) ← decodeElements
      (fun index => recur traced reflected element s!"{path}[{index}]" (depth + 1)) 0 length
    return (.array values, fields)
  | .optional => do
    let present ← read 1
    if present = 0 then return (.optional none, [])
    else do
      let element ← Decoder.ofExcept (requiredElement shape)
      let (value, fields) ← recur traced reflected element s!"{path}.value" (depth + 1)
      return (.optional (some value), fields)
  | .choice => do
    let range ← Decoder.ofExcept (requiredRange shape)
    let index ← readRange range
    match shape.members.find? (·.index == index) with
    | none => Decoder.fail (codecError s!"decoded choice index {index} is not declared")
    | some member => do
      let (value, fields) ←
        recur traced reflected member.type s!"{path}.variant[{index}]" (depth + 1)
      return (.choice index value, fields)
  | .struct => do
    let (values, fields) ← decodeMembers
      (fun member => recur traced reflected member.type s!"{path}.{member.label}" (depth + 1))
      s!"{codec.schema.typeName typeId} (#{typeId})" shape.members
    return (.struct typeId values, fields)

def decodeInner (reflected : Bool) : Reading Decoded := do
  let shape ← Decoder.ofExcept (codec.schema.shape typeId)
  match codec.wireLayouts[typeId]? with
  | some (.struct layout) | some (.candidateStruct layout) =>
    decodeStructLayout recur traced typeId path depth shape layout
  | some (.custom layout) => decodeCustom texts codec recur traced typeId path depth layout
  | _ => do
    let reflected ← Decoder.ofExcept (codec.reflectedScope typeId shape reflected)
    decodeReflected texts codec recur traced typeId path depth shape reflected

end inner

/-! ## The recursion -/

/-- The entry of a value itself. An alias has none. -/
def ownEntry (texts : TraceTexts) (traced : Bool) (shape : TypeShape) (path : String) (depth : Nat)
    (value : BsnValue) (startBit endBit : Nat) : List DecodedField :=
  if shape.kind ≠ .alias ∧ traced then
    [{ path
       kind := typeKindName shape.kind
       value := decodedSummary texts value
       startBit
       endBit
       depth }]
  else []

/-- One level of `decode_from_scoped_traced`. -/
def decodeScoped (texts : TraceTexts) (codec : Codec) (recur : Recur) : Recur :=
  fun traced reflected typeId path depth => do
    let startBit ← Tape.place
    let shape ← Decoder.ofExcept (codec.schema.shape typeId)
    let (value, fields) ←
      (decodeInner texts codec recur traced typeId path depth reflected).mapError
        fun startBit endBit => appendDecodeContext
          (s!"type {codec.schema.typeName typeId} (#{typeId}, {shape.kind.debug}), " ++
            s!"bits {startBit}..{endBit}")
    let endBit ← Tape.place
    return (value, fields ++ ownEntry texts traced shape path depth value startBit endBit)

/-- `decode_from_scoped_traced`, to a depth of recursion. -/
def decodeAny (texts : TraceTexts) (codec : Codec) : Nat → Recur
  | 0 => fun _ _ _ _ _ => Decoder.stuck
  | fuel + 1 => decodeScoped texts codec (decodeAny texts codec fuel)

structure DecodedValue where
  value : BsnValue
  bitCount : Nat

structure TracedDecodedValue where
  value : BsnValue
  bitCount : Nat
  fields : List DecodedField

/-- The order of the fields of a trace: by start, then depth, then the widest first. -/
def fieldOrder (a b : DecodedField) : Bool :=
  a.startBit < b.startBit || a.startBit == b.startBit && (a.depth < b.depth ||
    a.depth == b.depth && b.endBit ≤ a.endBit)

section codec

variable (texts : TraceTexts) (codec : Codec) (fuel : Nat) (typeId : UInt32)

def decodeFrom : Reading BsnValue :=
  Prod.fst <$> decodeAny texts codec fuel false false typeId "value" 0

/-- `decode`, which has no result when the fuel does not suffice. -/
def decode (data : List UInt8) (bitCount : Option Nat) (startPosition : Nat) :
    Option (Except Error DecodedValue) :=
  match BitReader.new data bitCount >>= (·.setPosition startPosition) with
  | .error e => some (.error e)
  | .ok reader =>
    match decodeFrom texts codec fuel typeId reader with
    | .done value rest => some (.ok { value, bitCount := rest.position - startPosition })
    | .failed e _ => some (.error e)
    | .unfinished => none

def decodeTracedFrom : Reading TracedDecodedValue := do
  let startBit ← Tape.place
  let (value, fields) ← decodeAny texts codec fuel true false typeId "value" 0
  let endBit ← Tape.place
  return { value, bitCount := endBit - startBit, fields := fields.mergeSort fieldOrder }

/-- Decoding with a trace, from the recursion. -/
theorem decodeTracedFrom_apply (r : BitReader) :
    decodeTracedFrom texts codec fuel typeId r =
      match decodeAny texts codec fuel true false typeId "value" 0 r with
      | .done a s => .done {
          value := a.1
          bitCount := s.position - r.position
          fields := a.2.mergeSort fieldOrder } s
      | .failed e s => .failed e s
      | .unfinished => .unfinished := by
  unfold decodeTracedFrom
  rw [Decoder.bind_of_done (Tape.place_done.2 ⟨rfl, rfl⟩), Decoder.bind_apply]
  cases decodeAny texts codec fuel true false typeId "value" 0 r <;> rfl

/-- Decoding without a trace, from the recursion. -/
theorem decodeFrom_apply (r : BitReader) :
    decodeFrom texts codec fuel typeId r =
      match decodeAny texts codec fuel false false typeId "value" 0 r with
      | .done a s => .done a.1 s
      | .failed e s => .failed e s
      | .unfinished => .unfinished := by
  show (decodeAny texts codec fuel false false typeId "value" 0 >>= fun a => pure a.1) r = _
  rw [Decoder.bind_apply]
  cases decodeAny texts codec fuel false false typeId "value" 0 r <;> rfl

/-- A type that is marked obfuscated and has no layout is refused, wherever it stands. -/
theorem decodeFrom_refused {shape : TypeShape} (hshape : codec.schema.shape typeId = .ok shape)
    (hmarked : shape.obfuscated = true) (hlayout : codec.wireLayouts[typeId]? = none)
    (r : BitReader) : ∃ e, decodeFrom texts codec (fuel + 1) typeId r = .failed e r := by
  have hscope : ∃ e, codec.reflectedScope typeId shape false = .error e := by
    rw [Codec.reflectedScope, hmarked, hlayout]
    exact ⟨_, rfl⟩
  obtain ⟨e, hscope⟩ := hscope
  have hinner : decodeInner texts codec (decodeAny texts codec fuel) false typeId "value" 0
      false r = .failed e r := by
    unfold decodeInner
    rw [hshape, Decoder.ofExcept_ok, Decoder.pure_bind, hlayout]
    dsimp only
    rw [hscope]
    rfl
  have hany : ∃ e, decodeAny texts codec (fuel + 1) false false typeId "value" 0 r =
      .failed e r := by
    unfold decodeAny decodeScoped
    rw [Decoder.bind_of_done (Tape.place_done.2 ⟨rfl, rfl⟩), hshape, Decoder.ofExcept_ok,
      Decoder.pure_bind, Decoder.bind_apply, Decoder.mapError, hinner]
    exact ⟨_, rfl⟩
  obtain ⟨e, hany⟩ := hany
  rw [decodeFrom_apply, hany]
  exact ⟨e, rfl⟩

end codec

end Superiority.Bsn
