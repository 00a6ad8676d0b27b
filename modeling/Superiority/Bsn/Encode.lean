import Superiority.Bsn.Codec
import Superiority.Bsn.Writing
import Superiority.Utf8

/-!
# Encoding

The encoder of `bsn/codec.rs`. It goes through a value along the schema as the decoder goes through
the stream, and may fail or run out of fuel at the same places, so it is sequenced like one: a
`Writing` is a `Decoder` whose tape is the writer.
-/

namespace Superiority.Bsn

abbrev Writing (α : Type) : Type := Decoder BitWriter Error α

namespace Writing

/-- An operation of the writer. -/
def run (f : BitWriter → Except Error BitWriter) : Writing Unit :=
  Decoder.lift fun w => (f w).map ((), ·)

def write (value width : Nat) : Writing Unit := run (·.write value width)

def writeBytes (data : List UInt8) (aligned : Bool) : Writing Unit := run (·.writeBytes data aligned)

def writeRaw (data : List UInt8) (bitCount : Option Nat) : Writing Unit :=
  run (·.writeRaw data bitCount)

/-- The writer as it is. -/
def writer : Writing BitWriter := fun w => .done w w

theorem run_done {f : BitWriter → Except Error BitWriter} {w w' : BitWriter} {u : Unit} :
    run f w = .done u w' ↔ f w = .ok w' := by
  rw [run, Decoder.lift]
  cases h : f w with
  | error e => simp [Except.map]
  | ok s => simp [Except.map]

end Writing

open Writing

/-! ## Ranges -/

/-- `write_range`. -/
def writeRange (range : IntegerRange) (value : Int) : Writing Unit :=
  if ¬(range.minimum ≤ value ∧ value ≤ range.maximum) then
    Decoder.fail (codecError
      s!"value {value} is outside BSN range [{range.minimum}, {range.maximum}]")
  else
    match range.bitWidth with
    | none =>
      if value ≠ range.minimum then
        Decoder.fail (codecError "fixed BSN range received a different value")
      else return ()
    | some width =>
      let normalized := value - range.minimum
      if 0 ≤ normalized ∧ normalized < 2 ^ 64 then write normalized.toNat width
      else Decoder.fail (codecError "ranged BSN value exceeds 64 bits")

def writeLength (range : IntegerRange) (value : Nat) : Writing Unit := writeRange range value

/-! ## Filler bits -/

/-- `u32::from_le_bytes` of the bytes before a place, lowest first. -/
def wordBefore (output : List UInt8) (byte count : Nat) : UInt32 :=
  (List.range count).foldr (fun i acc =>
    acc <<< 8 ||| (output.getD (byte - count + i) 0).toUInt32) 0

/-- `next_filler_value`. -/
def nextFillerValue (state : UInt32) (usedBits : Nat) (output : List UInt8) : UInt32 :=
  let byte := usedBits / 8
  let state :=
    if usedBits ≤ 7 then ~~~state
    else if usedBits ≤ 15 then state + wordBefore output byte 1
    else if usedBits ≤ 31 then state + wordBefore output byte 2
    else state + wordBefore output byte 4 + wordBefore output byte 2
  state <<< 8 ||| state >>> 24

/-- The filler bits in front of a field, and the state behind them. -/
def writeFiller (width : Nat) (state : UInt32) : Writing UInt32 :=
  if width = 0 then return state
  else do
    let w ← writer
    let state := nextFillerValue state w.position w.intoBytes
    let filler := if width ≥ 32 then state.toNat else state.toNat % 2 ^ width
    write filler width
    return state

/-! ## One type -/

/-- The last field with the index: `collect::<BTreeMap<_, _>>()` keeps the last of equal keys. -/
def fieldValue (fields : List BsnField) (index : Int) : Option BsnValue :=
  (fields.reverse.find? fun
    | .mk index' _ _ => index' == index).map BsnField.value

section inner

variable (codec : Codec) (recur : Bool → UInt32 → BsnValue → Writing Unit)
variable (default : UInt32 → Writing BsnValue) (reflected : Bool)

/-- The members of an array. -/
def encodeElements (element : UInt32) : List BsnValue → Writing Unit
  | [] => return ()
  | value :: values => do
    recur reflected element value
    encodeElements element values

/-- The value of a member, or else its default. -/
def encodeMember (fields : List BsnField) (member : Member) : Writing Unit :=
  match fieldValue fields member.index with
  | some value => recur reflected member.type value
  | none => do
    let value ← default member.type
    recur reflected member.type value

def encodeMembers (fields : List BsnField) : List Member → Writing Unit
  | [] => return ()
  | member :: members => do
    encodeMember recur default reflected fields member
    encodeMembers fields members

/-- The loop of `encode_struct_layout`, in the order of the wire. -/
def encodeLayoutFields (fields : List BsnField) (members : List Member) :
    UInt32 → List WireField → Writing Unit
  | _, [] => return ()
  | state, entry :: entries => do
    let state ← writeFiller entry.fillerBefore state
    match members[entry.logicalField]? with
    -- A layout with such an entry is refused by `register_struct`.
    | none => Decoder.fail (codecError "index out of bounds")
    | some member => do
      encodeMember recur default false fields member
      encodeLayoutFields fields members state entries

def encodeStructLayout (shape : TypeShape) (value : BsnValue) (layout : StructWireLayout) :
    Writing Unit :=
  match value with
  | .struct _ fields =>
    if shape.memberTypes.length < 2 ^ 32 then
      encodeLayoutFields recur default fields shape.members
        (UInt32.ofNat shape.memberTypes.length) layout.fields
    else Decoder.fail (codecError "struct field count exceeds filler-state range")
  | _ => Decoder.fail (codecError "BSN struct value must be a struct")

/-- The layouts with a routine of their own are for what the server sends. -/
def encodeCustom : CustomLayout → Writing Unit
  | .clubSummaryInfo => Decoder.fail (.bsnWire "club summary information is inbound-only")
  | .clubUserText => Decoder.fail (.bsnWire "club user text is inbound-only")
  | .categoryDescription =>
    Decoder.fail (.bsnWire "generated category descriptions are inbound-only")

/-- The reflected layout of a type, by its kind. -/
def encodeReflected (typeId : UInt32) (shape : TypeShape) (value : BsnValue) : Writing Unit :=
  match shape.kind with
  | .alias => do
    let element ← Decoder.ofExcept (requiredElement shape)
    recur reflected element value
  | .void =>
    match value with
    | .void => return ()
    | _ => Decoder.fail (codecError "void BSN value has the wrong type")
  | .bool =>
    match value with
    | .bool value => write value.toNat 1
    | _ => Decoder.fail (codecError "bool BSN value must be bool")
  | .integer | .enum =>
    match value with
    | .integer value =>
      if shape.kind = .enum ∧ value ∉ shape.indexValues then
        Decoder.fail (codecError s!"enum value {value} is not declared by type {typeId}")
      else do
        let range ← Decoder.ofExcept (requiredRange shape)
        writeRange range value
    | _ => Decoder.fail (codecError "integer BSN value must be integer")
  | .fourCc =>
    match value with
    | .fourCc value => write value.toNat 32
    | _ => Decoder.fail (codecError "FourCC BSN value must be FourCc")
  | .float32 =>
    match value with
    | .float32 bits => write bits.toNat 32
    | _ => Decoder.fail (codecError "float32 BSN value must be Float32")
  | .float64 =>
    match value with
    | .float64 bits => write bits.toNat 64
    | _ => Decoder.fail (codecError "float64 BSN value must be Float64")
  | .byteString | .blob =>
    match value with
    | .bytes value => do
      let range ← Decoder.ofExcept (requiredRange shape)
      writeLength range value.length
      writeBytes value true
    | _ => Decoder.fail (codecError "binary BSN value must be bytes")
  | .string =>
    match value with
    | .string value => do
      let range ← Decoder.ofExcept (requiredRange shape)
      writeLength (byteCounted range) (utf8Bytes value).length
      writeBytes (utf8Bytes value) true
    | _ => Decoder.fail (codecError "string BSN value must be text")
  | .bitArray =>
    match value with
    | .bitArray data bitCount =>
      if bitCount > data.length * 8 then
        Decoder.fail (codecError "bit-array length is outside its supplied buffer")
      else do
        let range ← Decoder.ofExcept (requiredRange shape)
        writeLength range bitCount
        writeRaw data (some bitCount)
    | _ => Decoder.fail (codecError "bit-array BSN value must be a bit array")
  | .array =>
    match value with
    | .array values => do
      let range ← Decoder.ofExcept (requiredRange shape)
      writeLength range values.length
      let element ← Decoder.ofExcept (requiredElement shape)
      encodeElements recur reflected element values
    | _ => Decoder.fail (codecError "array BSN value must be an array")
  | .optional =>
    match value with
    | .optional none => write 0 1
    | .optional (some value) => do
      write 1 1
      let element ← Decoder.ofExcept (requiredElement shape)
      recur reflected element value
    | _ => Decoder.fail (codecError "optional BSN value must be optional")
  | .choice =>
    match value with
    | .choice index value =>
      match shape.members.find? (·.index == index) with
      | none =>
        Decoder.fail (codecError s!"choice index {index} is not declared by type {typeId}")
      | some member => do
        let range ← Decoder.ofExcept (requiredRange shape)
        writeRange range index
        recur reflected member.type value
    | _ => Decoder.fail (codecError "choice BSN value must be a choice")
  | .struct =>
    match value with
    | .struct _ fields => encodeMembers recur default reflected fields shape.members
    | _ => Decoder.fail (codecError "BSN struct value must be a struct")

/-- One level of `encode_into_scoped`. -/
def encodeScoped (typeId : UInt32) (value : BsnValue) : Writing Unit := do
  let shape ← Decoder.ofExcept (codec.schema.shape typeId)
  match codec.wireLayouts[typeId]? with
  | some (.struct layout) | some (.candidateStruct layout) =>
    encodeStructLayout recur default shape value layout
  | some (.custom layout) => encodeCustom layout
  | _ => do
    let reflected ← Decoder.ofExcept (codec.reflectedScope typeId shape reflected)
    encodeReflected recur default reflected typeId shape value

end inner

/-! ## The recursion -/

/-- `default_value`, to a depth of recursion. It writes nothing. -/
def defaultValue (codec : Codec) : Nat → UInt32 → Writing BsnValue
  | 0, _ => Decoder.stuck
  | fuel + 1, typeId => do
    let shape ← Decoder.ofExcept (codec.schema.shape typeId)
    match shape.kind with
    | .alias => do
      let element ← Decoder.ofExcept (requiredElement shape)
      defaultValue codec fuel element
    | .optional => return .optional none
    | .void => return .void
    | kind =>
      if kind = .struct ∧ shape.memberTypes = [] then return .struct typeId []
      else Decoder.fail (codecError s!"required BSN field of type {typeId} is missing")

/-- `encode_into_scoped`, to a depth of recursion. -/
def encodeAny (codec : Codec) : Nat → Bool → UInt32 → BsnValue → Writing Unit
  | 0 => fun _ _ _ => Decoder.stuck
  | fuel + 1 => encodeScoped codec (encodeAny codec fuel) (defaultValue codec fuel)

structure EncodedValue where
  data : List UInt8
  bitCount : Nat

section codec

variable (codec : Codec) (fuel : Nat) (typeId : UInt32) (value : BsnValue)

def encodeInto : Writing Unit := encodeAny codec fuel false typeId value

/-- `encode`, which has no result when the fuel does not suffice. -/
def encode : Option (Except Error EncodedValue) :=
  match encodeInto codec fuel typeId value {} with
  | .done _ w => some (.ok { data := w.intoBytes, bitCount := w.position })
  | .failed e _ => some (.error e)
  | .unfinished => none

/-- What an empty writer was given to write is decoded from its bytes. -/
theorem decode_encode (texts : TraceTexts) {value' : BsnValue} {w : BitWriter} (hw : w.Tidy)
    (hencode : encodeInto codec fuel typeId value {} = .done () w)
    (hconveys : Conveys BitReader {} w (decodeFrom texts codec fuel typeId) (· = value')) :
    ∃ e, encode codec fuel typeId value = some (.ok e) ∧
      decode texts codec fuel typeId e.data (some e.bitCount) 0 =
        some (.ok { value := value', bitCount := e.bitCount }) := by
  have hbytes : w.intoBytes = w.data := by
    rw [BitWriter.intoBytes, ← hw.length, List.take_length]
  have hsupplied : w.position ≤ 8 * w.data.length := by
    have hlength := hw.length
    omega
  let r : BitReader := {
    data := w.data
    bitCount := w.position
    position := 0
    supplied := hsupplied
    reached := Nat.zero_le _ }
  obtain ⟨v, s, hdone, rfl, -, hposition⟩ := hconveys r ⟨rfl, fun _ _ => rfl, Nat.le_refl _⟩
  have hposition : s.position = w.position := hposition
  have hreader : (BitReader.new w.data (some w.position) >>= (·.setPosition 0)) = .ok r := by
    rw [BitReader.new, Option.getD_some, dif_pos hsupplied]
    rfl
  refine ⟨⟨w.intoBytes, w.position⟩, by rw [encode, hencode], ?_⟩
  rw [decode, hbytes, hreader]
  simp only [hdone, hposition, Nat.sub_zero]

end codec

end Superiority.Bsn
