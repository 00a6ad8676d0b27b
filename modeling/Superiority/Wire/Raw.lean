import Superiority.Error
import Superiority.Library.Bytes
import Superiority.Library.Varint

/-!
# Protobuf without a schema

`platform/wire/raw.rs`: an iterator over the fields of a message and a builder of messages. The
iterator ends at the first malformed field, with its error as the last item.

* **`readField_ok_iff`** – a field is read where one of its encodings stands. It has as many as its
  varints have.
* **`items_eq_iff`** – so the items are fields without an error exactly when the data is a sequence of
  encodings.
* **`raw_round_trips`** – what is built is read back; what is read without an error is built again,
  byte for byte when its varints are the shortest; and the iterator always ends, within the data and
  after one error at most.
-/

namespace Superiority.Wire

/-! ## Fields -/

/-- `VARINT`, `FIXED64`, `LENGTH_DELIMITED` and `FIXED32`. -/
def varintType : UInt32 := 0
def fixed64Type : UInt32 := 1
def lengthDelimitedType : UInt32 := 2
def fixed32Type : UInt32 := 5

inductive Value where
  | varint (value : UInt64)
  | fixed64 (value : UInt64)
  | bytes (value : List UInt8)
  | fixed32 (value : UInt32)
  deriving DecidableEq, Repr

def Value.wireType : Value → UInt32
  | .varint _ => varintType
  | .fixed64 _ => fixed64Type
  | .bytes _ => lengthDelimitedType
  | .fixed32 _ => fixed32Type

structure Field where
  number : UInt32
  value : Value
  deriving DecidableEq, Repr

def protobufError (message : String) : Error := .classicWire message

/-! ## Reading -/

/-- Reads from an offset and leaves it behind what was read, also when reading fails. -/
def Reader (α : Type) : Type := Nat → Except Error α × Nat

def Reader.fail {α : Type} (error : Error) : Reader α := fun offset => (.error error, offset)

def Reader.map {α β : Type} (f : α → β) (reader : Reader α) : Reader β := fun offset =>
  ((reader offset).1.map f, (reader offset).2)

/-- The loop of `read_varint` with the given number of its ten rounds left. -/
def readVarintFrom (data : List UInt8) : (left : Nat) → (value : UInt64) → Reader UInt64
  | 0, _, offset => (.error (protobufError "varint exceeds ten bytes"), offset)
  | left + 1, value, offset =>
    let shift := 63 - 7 * left
    match data[offset]? with
    | none => (.error (protobufError "truncated varint"), offset)
    | some byte =>
      let value := value ||| ((byte &&& 0x7F).toUInt64 <<< UInt64.ofNat shift)
      if byte < 0x80 then
        if shift = 63 ∧ byte > 1 then
          (.error (protobufError "varint exceeds 64 bits"), offset + 1)
        else (.ok value, offset + 1)
      else readVarintFrom data left value (offset + 1)

def readVarint (data : List UInt8) : Reader UInt64 := readVarintFrom data 10 0

/-- `read_array`. -/
def readArray (data : List UInt8) (size : Nat) (number : UInt32) : Reader (List UInt8) :=
  fun offset =>
    match getRange data offset (offset + size) with
    | none => (.error (protobufError s!"truncated fixed field {number}"), offset)
    | some slice => (.ok slice, offset + size)

/-- The bytes of a length-delimited field. A length that overflows the offset is too long for any
data. -/
def readBytes (data : List UInt8) (number : UInt32) : Reader (List UInt8) := fun offset =>
  match readVarint data offset with
  | (.error error, offset) => (.error error, offset)
  | (.ok length, offset) =>
    match getRange data offset (offset + length.toNat) with
    | none => (.error (protobufError s!"truncated bytes field {number}"), offset)
    | some bytes => (.ok bytes, offset + length.toNat)

/-- What `read_field` does once the tag is read. -/
def readValue (data : List UInt8) (start : Nat) (number wireType : UInt32) : Reader Value :=
  if wireType = varintType then (readVarint data).map .varint
  else if wireType = fixed64Type then
    (readArray data 8 number).map fun bytes => .fixed64 (UInt64.ofNat (littleEndian bytes))
  else if wireType = lengthDelimitedType then (readBytes data number).map .bytes
  else if wireType = fixed32Type then
    (readArray data 4 number).map fun bytes => .fixed32 (UInt32.ofNat (littleEndian bytes))
  else
    .fail (protobufError s!"unsupported wire type {wireType} for field {number} at offset {start}")

def readField (data : List UInt8) : Reader Field := fun start =>
  match readVarint data start with
  | (.error error, offset) => (.error error, offset)
  | (.ok tag, offset) =>
    if (tag >>> 3).toNat ≥ 2 ^ 32 then
      (.error (protobufError s!"field number at offset {start} exceeds u32"), offset)
    else
      let number := (tag >>> 3).toUInt32
      if number = 0 then (.error (protobufError s!"field zero at offset {start}"), offset)
      else
        ((readValue data start number (tag &&& 7).toUInt32).map fun value => { number, value })
          offset

/-- `Fields`, the iterator. -/
structure Fields where
  data : Slice
  offset : Nat
  failed : Bool

namespace Fields

def next (f : Fields) : Option (Except Error Field) × Fields :=
  if f.failed ∨ f.offset ≥ f.data.bytes.length then (none, f)
  else
    match readField f.data f.offset with
    | (.ok field, offset) => (some (.ok field), { f with offset })
    | (.error error, offset) => (some (.error error), { f with offset, failed := true })

end Fields

def fields (data : Slice) : Fields where
  data
  offset := 0
  failed := false

/-! ## Building -/

structure Message where
  bytes : List UInt8
  deriving DecidableEq, Repr

/-- The bytes with those of the varint behind them. -/
def pushVarint (output : List UInt8) (value : UInt64) : List UInt8 :=
  if 0x80 ≤ value then pushVarint (output ++ [(value &&& 0x7F).toUInt8 ||| 0x80]) (value >>> 7)
  else output ++ [value.toUInt8]
termination_by value.toNat
decreasing_by
  rename_i h
  have hle : 128 ≤ value.toNat := UInt64.le_iff_toNat_le.1 h
  have hshift : (value >>> 7).toNat = value.toNat / 2 ^ 7 := by
    rw [UInt64.toNat_shiftRight, Nat.shiftRight_eq_div_pow]
    rfl
  omega

namespace Message

def new : Message := ⟨[]⟩

def pushTag (m : Message) (number wireType : UInt32) : Message :=
  ⟨pushVarint m.bytes (number.toUInt64 <<< 3 ||| wireType.toUInt64)⟩

def varint (m : Message) (number : UInt32) (value : UInt64) : Message :=
  ⟨pushVarint (m.pushTag number varintType).bytes value⟩

def bytesField (m : Message) (number : UInt32) (value : List UInt8) : Message :=
  ⟨pushVarint (m.pushTag number lengthDelimitedType).bytes (UInt64.ofNat value.length) ++ value⟩

def fixed64 (m : Message) (number : UInt32) (value : UInt64) : Message :=
  ⟨(m.pushTag number fixed64Type).bytes ++ toLittleEndian 8 value.toNat⟩

def fixed32 (m : Message) (number : UInt32) (value : UInt32) : Message :=
  ⟨(m.pushTag number fixed32Type).bytes ++ toLittleEndian 4 value.toNat⟩

def field (m : Message) (field : Field) : Message :=
  match field.value with
  | .varint value => m.varint field.number value
  | .bytes value => m.bytesField field.number value
  | .fixed64 value => m.fixed64 field.number value
  | .fixed32 value => m.fixed32 field.number value

/-- A message of the fields, one after another. -/
def ofFields (fields : List Field) : Message := fields.foldl field new

end Message

/-! ## Varints of 64 bits -/

theorem toNat_shiftRight_seven (value : UInt64) : (value >>> 7).toNat = value.toNat / 128 := by
  rw [UInt64.toNat_shiftRight, Nat.shiftRight_eq_div_pow]
  rfl

theorem toNat_low (value : UInt64) : (value &&& 0x7F).toUInt8.toNat = value.toNat % 128 := by
  have hlow : value.toNat &&& 127 = value.toNat % 2 ^ 7 := Nat.and_two_pow_sub_one_eq_mod _ 7
  rw [UInt64.toNat_toUInt8, UInt64.toNat_and]
  change (value.toNat &&& 127) % 256 = _
  omega

/-- The byte that a continued group is written as. -/
theorem continued_byte (value : UInt64) :
    (value &&& 0x7F).toUInt8 ||| 0x80 = UInt8.ofNat (value.toNat % 128 + 128) := by
  have hor : value.toNat % 128 ||| 2 ^ 7 * 1 = 2 ^ 7 * 1 + value.toNat % 128 := by
    rw [Nat.or_comm, Nat.two_pow_add_eq_or_of_lt (by omega)]
  rw [← UInt8.toNat_inj, toNat_continued, UInt8.toNat_or, toNat_low]
  change value.toNat % 128 ||| 2 ^ 7 * 1 = _
  omega

theorem pushVarint_eq (output : List UInt8) (value : UInt64) :
    pushVarint output value = output ++ Superiority.varint value.toNat := by
  fun_induction pushVarint output value with
  | case1 output value h ih =>
    have hle : 128 ≤ value.toNat := UInt64.le_iff_toNat_le.1 h
    rw [ih, toNat_shiftRight_seven, continued_byte, varint_of_le hle, List.append_assoc]
    rfl
  | case2 output value h =>
    have hlt : value.toNat < 128 := Nat.lt_of_not_le fun hle => h (UInt64.le_iff_toNat_le.2 hle)
    have hbyte : value.toUInt8 = UInt8.ofNat value.toNat := by
      rw [← UInt8.toNat_inj, UInt64.toNat_toUInt8, UInt8.toNat_ofNat']
    rw [varint_of_lt hlt, hbyte]

/-- A group is added above the bits that are there. -/
theorem toNat_or_group {value : UInt64} {byte : UInt8} {shift : Nat} (hshift : shift < 64)
    (hvalue : value.toNat < 2 ^ shift) (hfits : byte.toNat % 128 * 2 ^ shift < 2 ^ 64) :
    (value ||| ((byte &&& 0x7F).toUInt64 <<< UInt64.ofNat shift)).toNat =
      value.toNat + 2 ^ shift * (byte.toNat % 128) := by
  have hlow : (byte &&& 0x7F).toUInt64.toNat = byte.toNat % 128 := by
    rw [UInt8.toNat_toUInt64, UInt8.toNat_and]
    exact Nat.and_two_pow_sub_one_eq_mod _ 7
  have hamount : (UInt64.ofNat shift).toNat % 64 = shift := by
    rw [UInt64.toNat_ofNat']
    omega
  rw [UInt64.toNat_or, UInt64.toNat_shiftLeft, hlow, hamount, Nat.shiftLeft_eq,
    Nat.mod_eq_of_lt hfits, Nat.or_comm, Nat.mul_comm, ← Nat.two_pow_add_eq_or_of_lt hvalue]
  omega

theorem drop_of_getElem? {data : List UInt8} {offset : Nat} {byte : UInt8}
    (h : data[offset]? = some byte) : data.drop offset = byte :: data.drop (offset + 1) := by
  obtain ⟨hlt, hget⟩ := List.getElem?_eq_some_iff.1 h
  rw [← hget]
  exact List.drop_eq_getElem_cons hlt

/-- A varint that begins with a last byte is that byte. -/
theorem exists_varint_last {byte : UInt8} (hlast : byte.toNat < 128) {data : List UInt8}
    {P : List UInt8 → Prop} :
    (∃ bytes rest, byte :: data = bytes ++ rest ∧ IsVarint bytes ∧ P bytes) ↔ P [byte] := by
  constructor
  · rintro ⟨bytes, rest, hdata, hvarint, h⟩
    obtain ⟨b, bs, rfl⟩ := List.exists_cons_of_ne_nil hvarint.ne_nil
    obtain ⟨rfl, -⟩ := List.cons.inj hdata
    rw [IsVarint, if_pos hlast] at hvarint
    rwa [hvarint] at h
  · intro h
    refine ⟨[byte], data, rfl, ?_, h⟩
    rw [IsVarint, if_pos hlast]

/-- A varint that begins with a continued byte goes on with a varint. -/
theorem exists_varint_continued {byte : UInt8} (hlast : ¬ byte.toNat < 128) {data : List UInt8}
    {P : List UInt8 → Prop} :
    (∃ bytes rest, byte :: data = bytes ++ rest ∧ IsVarint bytes ∧ P bytes) ↔
      ∃ bytes rest, data = bytes ++ rest ∧ IsVarint bytes ∧ P (byte :: bytes) := by
  constructor
  · rintro ⟨bytes, rest, hdata, hvarint, h⟩
    obtain ⟨b, bs, rfl⟩ := List.exists_cons_of_ne_nil hvarint.ne_nil
    obtain ⟨rfl, htail⟩ := List.cons.inj hdata
    rw [IsVarint, if_neg hlast] at hvarint
    exact ⟨bs, rest, htail, hvarint, h⟩
  · rintro ⟨bytes, rest, rfl, hvarint, h⟩
    refine ⟨byte :: bytes, rest, rfl, ?_, h⟩
    rw [IsVarint, if_neg hlast]
    exact hvarint

/-- The tenth group has one bit, every other group has room for seven. -/
theorem group_fits {left shift n : Nat} (hs : 70 - 7 * (left + 1) = shift) (hn : n < 128)
    (htenth : ¬ (shift = 63 ∧ 1 < n)) : n * 2 ^ shift < 2 ^ 64 := by
  by_cases hshift : shift = 63
  · rw [hshift]
    omega
  · have hpow : 2 ^ shift ≤ 2 ^ 57 := Nat.pow_le_pow_right (by decide) (by omega)
    calc n * 2 ^ shift ≤ 127 * 2 ^ 57 := Nat.mul_le_mul (by omega) hpow
      _ < 2 ^ 64 := by decide

/-- **The rounds of `read_varint`.** They read a varint that is short enough and whose number has
64 bits with the groups before it. -/
theorem readVarintFrom_ok_iff {data : List UInt8} {left : Nat} (hleft : left ≤ 10)
    {value : UInt64} (hvalue : value.toNat < 2 ^ (70 - 7 * left)) {offset : Nat} {v : UInt64}
    {behind : Nat} :
    readVarintFrom data left value offset = (.ok v, behind) ↔
      ∃ bytes rest, data.drop offset = bytes ++ rest ∧ IsVarint bytes ∧ bytes.length ≤ left ∧
        v.toNat = value.toNat + 2 ^ (70 - 7 * left) * groupValue bytes ∧
        behind = offset + bytes.length := by
  induction left generalizing value offset with
  | zero =>
    constructor
    · intro h
      cases h
    · rintro ⟨bytes, rest, -, hvarint, hlength, -⟩
      exact absurd (List.length_pos_iff.2 hvarint.ne_nil) (by omega)
  | succ left ih =>
    have hshift : 63 - 7 * left = 70 - 7 * (left + 1) := by omega
    rw [readVarintFrom, hshift]
    generalize hs : 70 - 7 * (left + 1) = shift at *
    cases hbyte : data[offset]? with
    | none =>
      constructor
      · intro h
        cases h
      rintro ⟨bytes, rest, hdrop, hvarint, -⟩
      rw [List.drop_eq_nil_of_le (List.getElem?_eq_none_iff.1 hbyte), eq_comm,
        List.append_eq_nil_iff] at hdrop
      exact absurd hdrop.1 hvarint.ne_nil
    | some byte =>
      have hdrop := drop_of_getElem? hbyte
      have hbyte_lt := byte.toNat_lt
      rw [hdrop]
      dsimp only
      by_cases hlast : byte.toNat < 128
      · rw [if_pos (UInt8.lt_iff_toNat_lt.2 hlast), exists_varint_last hlast]
        have hgroup : groupValue [byte] = byte.toNat := by
          rw [groupValue, groupValue]
          omega
        rw [hgroup, List.length_singleton]
        by_cases htenth : shift = 63 ∧ byte > 1
        · rw [if_pos htenth]
          constructor
          · intro h
            cases h
          · rintro ⟨-, hv, -⟩
            have hbig : 1 < byte.toNat := UInt8.lt_iff_toNat_lt.1 htenth.2
            rw [htenth.1] at hv
            exact absurd v.toNat_lt (by omega)
        · rw [if_neg htenth]
          have hlow : byte.toNat % 128 = byte.toNat := Nat.mod_eq_of_lt hlast
          have hfits : byte.toNat % 128 * 2 ^ shift < 2 ^ 64 :=
            group_fits hs (by omega) fun h => htenth ⟨h.1, UInt8.lt_iff_toNat_lt.2 (hlow ▸ h.2)⟩
          have hnext := toNat_or_group (by omega) hvalue hfits
          rw [hlow] at hnext
          rw [← hnext, Prod.mk.injEq, Except.ok.injEq, ← UInt64.toNat_inj]
          constructor
          · rintro ⟨hv, hbehind⟩
            exact ⟨by omega, hv.symm, hbehind.symm⟩
          · rintro ⟨-, hv, hbehind⟩
            exact ⟨hv.symm, hbehind.symm⟩
      · rw [if_neg fun h => hlast (UInt8.lt_iff_toNat_lt.1 h), exists_varint_continued hlast]
        cases left with
        | zero =>
          constructor
          · intro h
            cases h
          · rintro ⟨bytes, rest, -, hvarint, hlength, -⟩
            rw [List.length_cons] at hlength
            exact absurd (List.length_pos_iff.2 hvarint.ne_nil) (by omega)
        | succ left =>
          have hfits : byte.toNat % 128 * 2 ^ shift < 2 ^ 64 :=
            group_fits hs (by omega) fun h => absurd h.1 (by omega)
          have hnext := toNat_or_group (by omega) hvalue hfits
          have hpow : 2 ^ (70 - 7 * (left + 1)) = 2 ^ shift * 128 := by
            rw [← hs, show 70 - 7 * (left + 1) = 70 - 7 * (left + 1 + 1) + 7 by omega, pow_add]
            norm_num
          rw [ih (by omega) (by
            rw [hnext, hpow]
            have hgroup : byte.toNat % 128 < 128 := Nat.mod_lt _ (by decide)
            nlinarith)]
          rw [hnext, hpow]
          refine exists₂_congr fun bytes rest => ?_
          refine and_congr_right fun _ => and_congr_right fun _ => ?_
          rw [groupValue, List.length_cons, Nat.mul_add, ← Nat.mul_assoc, Nat.add_assoc]
          constructor
          · rintro ⟨hlength, hv, hbehind⟩
            exact ⟨by omega, by omega, by omega⟩
          · rintro ⟨hlength, hv, hbehind⟩
            exact ⟨by omega, by omega, by omega⟩

/-! ## Encodings -/

/-- The bytes are a varint of the number, not too long and as the condition has it. -/
structure SpellsVarint (ok : List UInt8 → Prop) (n : Nat) (bytes : List UInt8) : Prop where
  isVarint : IsVarint bytes
  length_le : bytes.length ≤ 10
  groupValue_eq : groupValue bytes = n
  ok : ok bytes

theorem SpellsVarint.varint_length_le {ok : List UInt8 → Prop} {n : Nat} {bytes : List UInt8}
    (h : SpellsVarint ok n bytes) : (varint n).length ≤ bytes.length :=
  h.groupValue_eq ▸ h.isVarint.varint_groupValue.1

theorem SpellsVarint.eq_varint {ok : List UInt8 → Prop} {n : Nat} {bytes : List UInt8}
    (h : SpellsVarint ok n bytes) (hshortest : IsShortest bytes) : bytes = varint n :=
  h.groupValue_eq ▸ eq_varint_of_shortest h.isVarint hshortest

theorem SpellsVarint.mono {ok ok' : List UInt8 → Prop} (hok : ∀ spelled, ok spelled → ok' spelled)
    {n : Nat} {bytes : List UInt8} (h : SpellsVarint ok n bytes) : SpellsVarint ok' n bytes :=
  { h with ok := hok _ h.ok }

def SpellsValue (ok : List UInt8 → Prop) : Value → List UInt8 → Prop
  | .varint value, bytes => SpellsVarint ok value.toNat bytes
  | .fixed64 value, bytes => bytes = toLittleEndian 8 value.toNat
  | .bytes value, bytes => ∃ length, SpellsVarint ok value.length length ∧ bytes = length ++ value
  | .fixed32 value, bytes => bytes = toLittleEndian 4 value.toNat

/-- A tag and a value of its wire type. -/
def SpellsField (ok : List UInt8 → Prop) (field : Field) (bytes : List UInt8) : Prop :=
  field.number ≠ 0 ∧ ∃ tag payload, bytes = tag ++ payload ∧
    SpellsVarint ok (8 * field.number.toNat + field.value.wireType.toNat) tag ∧
    SpellsValue ok field.value payload

/-- The bytes are encodings of the fields, one after another. -/
def Spells (ok : List UInt8 → Prop) : List Field → List UInt8 → Prop
  | [], bytes => bytes = []
  | field :: fields, bytes => ∃ front back, bytes = front ++ back ∧ SpellsField ok field front ∧
      Spells ok fields back

/-- Any varint will do. -/
def anyVarint (_ : List UInt8) : Prop := True

variable {data : List UInt8} {offset behind : Nat}

theorem map_ok_iff {α β : Type} {f : α → β} {reader : Reader α} {b : β} :
    reader.map f offset = (.ok b, behind) ↔ ∃ a, reader offset = (.ok a, behind) ∧ f a = b := by
  unfold Reader.map
  obtain ⟨result, stop⟩ := reader offset
  cases result with
  | error error => simp [Except.map]
  | ok a =>
    simp only [Except.map, Prod.mk.injEq, Except.ok.injEq]
    constructor
    · rintro ⟨h, rfl⟩
      exact ⟨a, ⟨rfl, rfl⟩, h⟩
    · rintro ⟨a', ⟨rfl, rfl⟩, h⟩
      exact ⟨h, rfl⟩

theorem readVarint_ok_iff {v : UInt64} :
    readVarint data offset = (.ok v, behind) ↔ ∃ bytes rest, data.drop offset = bytes ++ rest ∧
      SpellsVarint anyVarint v.toNat bytes ∧ behind = offset + bytes.length := by
  rw [readVarint, readVarintFrom_ok_iff (le_refl 10) (by decide)]
  refine exists₂_congr fun bytes rest => and_congr_right fun _ => ?_
  have hzero : (0 : UInt64).toNat + 2 ^ (70 - 7 * 10) * groupValue bytes = groupValue bytes := by
    norm_num
  rw [hzero]
  constructor
  · rintro ⟨hvarint, hlength, hv, hbehind⟩
    exact ⟨⟨hvarint, hlength, hv.symm, trivial⟩, hbehind⟩
  · rintro ⟨h, hbehind⟩
    exact ⟨h.isVarint, h.length_le, h.groupValue_eq.symm, hbehind⟩

/-- Whatever is read from data lies within it. -/
theorem le_length_of_drop {bytes rest : List UInt8} (hoffset : offset ≤ data.length)
    (hdrop : data.drop offset = bytes ++ rest) :
    offset + bytes.length ≤ data.length ∧ data.drop (offset + bytes.length) = rest := by
  have hlength := congrArg List.length hdrop
  rw [List.length_drop, List.length_append] at hlength
  refine ⟨by omega, ?_⟩
  rw [← List.drop_drop, hdrop, List.drop_left]

theorem readArray_ok_iff (hoffset : offset ≤ data.length) {size : Nat} {number : UInt32}
    {bytes : List UInt8} :
    readArray data size number offset = (.ok bytes, behind) ↔
      ∃ rest, data.drop offset = bytes ++ rest ∧ bytes.length = size ∧ behind = offset + size := by
  have hrange : getRange data offset (offset + size) = some bytes ↔
      ∃ rest, data.drop offset = bytes ++ rest ∧ bytes.length = size := getRange_eq_some_iff hoffset
  unfold readArray
  cases hget : getRange data offset (offset + size) with
  | none =>
    rw [hget] at hrange
    constructor
    · intro h
      cases h
    · rintro ⟨rest, hdrop, hsize, -⟩
      cases hrange.2 ⟨rest, hdrop, hsize⟩
  | some found =>
    rw [hget, Option.some.injEq] at hrange
    simp only [Prod.mk.injEq, Except.ok.injEq]
    rw [hrange]
    constructor
    · rintro ⟨⟨rest, hdrop, hsize⟩, hbehind⟩
      exact ⟨rest, hdrop, hsize, hbehind.symm⟩
    · rintro ⟨rest, hdrop, hsize, hbehind⟩
      exact ⟨⟨rest, hdrop, hsize⟩, hbehind.symm⟩

theorem readBytes_ok_iff (hdata : data.length < 2 ^ 63) (hoffset : offset ≤ data.length)
    {number : UInt32} {bytes : List UInt8} :
    readBytes data number offset = (.ok bytes, behind) ↔
      ∃ spelled rest, data.drop offset = spelled ++ rest ∧
        SpellsValue anyVarint (.bytes bytes) spelled ∧ behind = offset + spelled.length := by
  unfold readBytes
  constructor
  · intro h
    split at h
    · cases h
    rename_i length start hlength
    split at h
    · cases h
    rename_i found hfound
    cases h
    obtain ⟨prefixed, rest, hdrop, hspells, rfl⟩ := readVarint_ok_iff.1 hlength
    obtain ⟨hstart, hrest⟩ := le_length_of_drop hoffset hdrop
    obtain ⟨rest', hdrop', hsize⟩ := (getRange_eq_some_iff hstart).1 hfound
    rw [hrest] at hdrop'
    refine ⟨prefixed ++ bytes, rest', by rw [hdrop, hdrop', List.append_assoc],
      ⟨prefixed, hsize ▸ hspells, rfl⟩, ?_⟩
    rw [List.length_append]
    omega
  · rintro ⟨spelled, rest, hdrop, ⟨prefixed, hspells, rfl⟩, rfl⟩
    rw [List.append_assoc] at hdrop
    obtain ⟨hstart, hrest⟩ := le_length_of_drop hoffset hdrop
    have hsize : (UInt64.ofNat bytes.length).toNat = bytes.length := by
      have hlength := congrArg List.length hdrop
      simp only [List.length_drop, List.length_append] at hlength
      rw [UInt64.toNat_ofNat']
      omega
    have hread : readVarint data offset =
        (.ok (UInt64.ofNat bytes.length), offset + prefixed.length) :=
      readVarint_ok_iff.2 ⟨prefixed, bytes ++ rest, hdrop, hsize.symm ▸ hspells, rfl⟩
    have hrange : getRange data (offset + prefixed.length) (offset + prefixed.length + bytes.length) =
        some bytes := (getRange_eq_some_iff hstart).2 ⟨rest, hrest, rfl⟩
    simp only [hread, hsize, hrange, List.length_append]
    rw [Nat.add_assoc]

/-- **Values.** A value is read where its bytes stand, for the wire type of its tag. -/
theorem readValue_ok_iff (hdata : data.length < 2 ^ 63) (hoffset : offset ≤ data.length)
    {start : Nat} {number wireType : UInt32} {value : Value} :
    readValue data start number wireType offset = (.ok value, behind) ↔
      value.wireType = wireType ∧ ∃ bytes rest, data.drop offset = bytes ++ rest ∧
        SpellsValue anyVarint value bytes ∧ behind = offset + bytes.length := by
  constructor
  · intro h
    unfold readValue at h
    split_ifs at h with hvarint hfixed64 hbytes hfixed32
    · obtain ⟨v, hread, rfl⟩ := map_ok_iff.1 h
      exact ⟨hvarint.symm, readVarint_ok_iff.1 hread⟩
    · obtain ⟨bytes, hread, rfl⟩ := map_ok_iff.1 h
      obtain ⟨rest, hdrop, hsize, hbehind⟩ := (readArray_ok_iff hoffset).1 hread
      have hlt := littleEndian_lt bytes
      have hn : (UInt64.ofNat (littleEndian bytes)).toNat = littleEndian bytes := by
        rw [hsize] at hlt
        rw [UInt64.toNat_ofNat']
        omega
      refine ⟨hfixed64.symm, bytes, rest, hdrop, ?_, hsize ▸ hbehind⟩
      rw [SpellsValue, hn, ← hsize, toLittleEndian_littleEndian]
    · obtain ⟨bytes, hread, rfl⟩ := map_ok_iff.1 h
      exact ⟨hbytes.symm, (readBytes_ok_iff hdata hoffset).1 hread⟩
    · obtain ⟨bytes, hread, rfl⟩ := map_ok_iff.1 h
      obtain ⟨rest, hdrop, hsize, hbehind⟩ := (readArray_ok_iff hoffset).1 hread
      have hlt := littleEndian_lt bytes
      have hn : (UInt32.ofNat (littleEndian bytes)).toNat = littleEndian bytes := by
        rw [hsize] at hlt
        rw [UInt32.toNat_ofNat']
        omega
      refine ⟨hfixed32.symm, bytes, rest, hdrop, ?_, hsize ▸ hbehind⟩
      rw [SpellsValue, hn, ← hsize, toLittleEndian_littleEndian]
    · cases h
  · rintro ⟨rfl, bytes, rest, hdrop, hspells, rfl⟩
    cases value with
    | varint v => exact map_ok_iff.2 ⟨v, readVarint_ok_iff.2 ⟨bytes, rest, hdrop, hspells, rfl⟩, rfl⟩
    | fixed64 v =>
      have hspells : bytes = toLittleEndian 8 v.toNat := hspells
      have hread : readArray data 8 number offset = (.ok bytes, offset + bytes.length) :=
        (readArray_ok_iff hoffset).2 ⟨rest, hdrop, by simp [hspells], by simp [hspells]⟩
      refine map_ok_iff.2 ⟨bytes, hread, ?_⟩
      rw [hspells, littleEndian_toLittleEndian v.toNat_lt, UInt64.ofNat_toNat]
    | bytes v =>
      exact map_ok_iff.2 ⟨v, (readBytes_ok_iff hdata hoffset).2 ⟨bytes, rest, hdrop, hspells, rfl⟩,
        rfl⟩
    | fixed32 v =>
      have hspells : bytes = toLittleEndian 4 v.toNat := hspells
      have hread : readArray data 4 number offset = (.ok bytes, offset + bytes.length) :=
        (readArray_ok_iff hoffset).2 ⟨rest, hdrop, by simp [hspells], by simp [hspells]⟩
      refine map_ok_iff.2 ⟨bytes, hread, ?_⟩
      rw [hspells, littleEndian_toLittleEndian v.toNat_lt, UInt32.ofNat_toNat]

theorem wireType_lt (value : Value) : value.wireType.toNat < 8 := by
  cases value with
  | varint _ => exact (by decide : varintType.toNat < 8)
  | fixed64 _ => exact (by decide : fixed64Type.toNat < 8)
  | bytes _ => exact (by decide : lengthDelimitedType.toNat < 8)
  | fixed32 _ => exact (by decide : fixed32Type.toNat < 8)

/-- The parts of a tag. -/
theorem tag_eq_iff {tag : UInt64} {number wireType : UInt32} (hwireType : wireType.toNat < 8) :
    tag.toNat = 8 * number.toNat + wireType.toNat ↔
      (tag >>> 3).toNat < 2 ^ 32 ∧ (tag >>> 3).toUInt32 = number ∧
        (tag &&& 7).toUInt32 = wireType := by
  have hhigh : (tag >>> 3).toNat = tag.toNat / 8 := by
    rw [UInt64.toNat_shiftRight, Nat.shiftRight_eq_div_pow]
    rfl
  have hlow : (tag &&& 7).toNat = tag.toNat % 8 := by
    rw [UInt64.toNat_and]
    exact Nat.and_two_pow_sub_one_eq_mod _ 3
  have hnumber := number.toNat_lt
  rw [← UInt32.toNat_inj, ← UInt32.toNat_inj, UInt64.toNat_toUInt32, UInt64.toNat_toUInt32, hhigh,
    hlow]
  constructor
  · intro h
    exact ⟨by omega, by omega, by omega⟩
  · rintro ⟨hfits, hnumber', hwireType'⟩
    omega

/-- **Fields.** A field is read exactly where one of its encodings stands. -/
theorem readField_ok_iff (hdata : data.length < 2 ^ 63) (hoffset : offset ≤ data.length)
    {field : Field} :
    readField data offset = (.ok field, behind) ↔ ∃ bytes rest, data.drop offset = bytes ++ rest ∧
      SpellsField anyVarint field bytes ∧ behind = offset + bytes.length := by
  unfold readField
  constructor
  · intro h
    split at h
    · cases h
    rename_i tag start htag
    by_cases hbig : (tag >>> 3).toNat ≥ 2 ^ 32
    · rw [if_pos hbig] at h
      cases h
    rw [if_neg hbig] at h
    by_cases hzero : (tag >>> 3).toUInt32 = 0
    · simp only [hzero, if_true] at h
      cases h
    simp only [hzero, if_false] at h
    obtain ⟨spelled, rest, hdrop, hspells, rfl⟩ := readVarint_ok_iff.1 htag
    obtain ⟨hstart, hrest⟩ := le_length_of_drop hoffset hdrop
    obtain ⟨value, hvalue, rfl⟩ := map_ok_iff.1 h
    obtain ⟨hwireType, payload, rest', hdrop', hpayload, rfl⟩ :=
      (readValue_ok_iff hdata hstart).1 hvalue
    have hparts := (tag_eq_iff (wireType_lt value)).2 ⟨by omega, rfl, hwireType.symm⟩
    rw [hrest] at hdrop'
    refine ⟨spelled ++ payload, rest', by rw [hdrop, hdrop', List.append_assoc],
      ⟨hzero, spelled, payload, rfl, hparts ▸ hspells, hpayload⟩, ?_⟩
    rw [List.length_append, Nat.add_assoc]
  · rintro ⟨bytes, rest, hdrop, ⟨hzero, tagBytes, payload, rfl, htag, hpayload⟩, rfl⟩
    rw [List.append_assoc] at hdrop
    obtain ⟨hstart, hrest⟩ := le_length_of_drop hoffset hdrop
    have hnumber := field.number.toNat_lt
    have hwireType := wireType_lt field.value
    have htoNat : (UInt64.ofNat (8 * field.number.toNat + field.value.wireType.toNat)).toNat =
        8 * field.number.toNat + field.value.wireType.toNat := by
      rw [UInt64.toNat_ofNat']
      omega
    obtain ⟨hfits, hnumber', hwireType'⟩ := (tag_eq_iff hwireType).1 htoNat
    have hread : readVarint data offset = (.ok (UInt64.ofNat (8 * field.number.toNat +
        field.value.wireType.toNat)), offset + tagBytes.length) :=
      readVarint_ok_iff.2 ⟨tagBytes, payload ++ rest, hdrop, htoNat.symm ▸ htag, rfl⟩
    rw [hread]
    simp only [hnumber', hwireType']
    rw [if_neg (by omega), if_neg hzero]
    refine map_ok_iff.2 ⟨field.value, (readValue_ok_iff hdata hstart).2 ⟨rfl, payload, rest, hrest,
      hpayload, ?_⟩, rfl⟩
    rw [List.length_append, Nat.add_assoc]

/-! ## Within the data -/

/-- Reading from within the data ends within it, whatever comes of it. -/
def Stays {α : Type} (data : List UInt8) (reader : Reader α) : Prop :=
  ∀ offset ≤ data.length, offset ≤ (reader offset).2 ∧ (reader offset).2 ≤ data.length

theorem Stays.map {α β : Type} {reader : Reader α} (h : Stays data reader) (f : α → β) :
    Stays data (reader.map f) := h

theorem stays_readVarintFrom (left : Nat) (value : UInt64) :
    Stays data (readVarintFrom data left value) := by
  intro offset hoffset
  induction left generalizing value offset with
  | zero => exact ⟨le_refl _, hoffset⟩
  | succ left ih =>
    rw [readVarintFrom]
    cases hbyte : data[offset]? with
    | none => exact ⟨le_refl _, hoffset⟩
    | some byte =>
      have hlt : offset + 1 ≤ data.length := (List.getElem?_eq_some_iff.1 hbyte).1
      dsimp only
      split_ifs
      · exact ⟨Nat.le_succ _, hlt⟩
      · exact ⟨Nat.le_succ _, hlt⟩
      · have hlater := ih (value ||| ((byte &&& 0x7F).toUInt64 <<< UInt64.ofNat (63 - 7 * left)))
          (offset + 1) hlt
        exact ⟨by omega, hlater.2⟩

theorem stays_readVarint : Stays data (readVarint data) := stays_readVarintFrom 10 0

theorem stays_readArray (size : Nat) (number : UInt32) :
    Stays data (readArray data size number) := by
  intro offset hoffset
  unfold readArray
  cases hrange : getRange data offset (offset + size) with
  | none => exact ⟨le_refl _, hoffset⟩
  | some slice =>
    obtain ⟨hle, hstop, -⟩ := getRange_eq_some hrange
    exact ⟨hle, hstop⟩

theorem stays_readBytes (number : UInt32) : Stays data (readBytes data number) := by
  intro offset hoffset
  have hlength := stays_readVarint offset hoffset
  unfold readBytes
  split
  · next hread => rwa [hread] at hlength
  · next length start hread =>
    rw [hread] at hlength
    cases hrange : getRange data start (start + length.toNat) with
    | none => exact hlength
    | some slice =>
      obtain ⟨hle, hstop, -⟩ := getRange_eq_some hrange
      exact ⟨hlength.1.trans hle, hstop⟩

theorem stays_readValue (start : Nat) (number wireType : UInt32) :
    Stays data (readValue data start number wireType) := by
  unfold readValue
  split_ifs
  · exact stays_readVarint.map _
  · exact (stays_readArray 8 number).map _
  · exact (stays_readBytes number).map _
  · exact (stays_readArray 4 number).map _
  · exact fun offset hoffset => ⟨le_refl _, hoffset⟩

theorem stays_readField : Stays data (readField data) := by
  intro offset hoffset
  have htag := stays_readVarint offset hoffset
  unfold readField
  split
  · next hread => rwa [hread] at htag
  · next tag start hread =>
    rw [hread] at htag
    by_cases hbig : (tag >>> 3).toNat ≥ 2 ^ 32
    · rw [if_pos hbig]
      exact htag
    rw [if_neg hbig]
    by_cases hzero : (tag >>> 3).toUInt32 = 0
    · simp only [hzero, if_true]
      exact htag
    · simp only [hzero, if_false]
      have hvalue := stays_readValue offset (tag >>> 3).toUInt32 (tag &&& 7).toUInt32 start htag.2
      exact ⟨htag.1.trans hvalue.1, hvalue.2⟩

/-! ## The iterator -/

namespace Fields

/-- The iterator has not run past its data. -/
def Within (f : Fields) : Prop := f.offset ≤ f.data.bytes.length

/-- What is left to read; nothing after an error. -/
def left (f : Fields) : Nat := if f.failed then 0 else f.data.bytes.length - f.offset + 1

/-- What `next` does: it ends, it gives an encoded field, or it fails for good. -/
inductive Next (f : Fields) : Option (Except Error Field) × Fields → Prop
  | ended (h : f.failed ∨ f.offset = f.data.bytes.length) : Next f (none, f)
  | field {field : Field} {bytes rest : List UInt8} (h : f.failed = false)
      (hdrop : f.data.bytes.drop f.offset = bytes ++ rest)
      (hspells : SpellsField anyVarint field bytes) :
      Next f (some (.ok field), { f with offset := f.offset + bytes.length })
  | failed {error : Error} {offset : Nat} (h : f.failed = false)
      (hlt : f.offset < f.data.bytes.length) (hoffset : offset ≤ f.data.bytes.length)
      (hnone : ∀ field bytes rest, f.data.bytes.drop f.offset = bytes ++ rest →
        ¬ SpellsField anyVarint field bytes) :
      Next f (some (.error error), { f with offset, failed := true })

theorem next_cases {f : Fields} (hwithin : f.Within) : Next f f.next := by
  unfold next
  split_ifs with hend
  · refine .ended (hend.imp_right fun h => le_antisymm hwithin h)
  rw [not_or, Bool.not_eq_true] at hend
  obtain ⟨hfailed, hlt⟩ := hend
  cases hread : readField f.data.bytes f.offset with
  | mk result offset =>
    cases result with
    | ok field =>
      obtain ⟨bytes, rest, hdrop, hspells, rfl⟩ :=
        (readField_ok_iff f.data.length_lt hwithin).1 hread
      exact .field hfailed hdrop hspells
    | error error =>
      have hstays := stays_readField f.offset hwithin
      rw [hread] at hstays
      refine .failed hfailed (by omega) hstays.2 fun field bytes rest hdrop hspells => ?_
      have hok := (readField_ok_iff f.data.length_lt hwithin).2 ⟨bytes, rest, hdrop, hspells, rfl⟩
      rw [hread] at hok
      cases hok

theorem next_within {f : Fields} (hwithin : f.Within) : f.next.2.Within := by
  have hcases := next_cases hwithin
  generalize f.next = outcome at hcases ⊢
  cases hcases with
  | ended _ => exact hwithin
  | field _ hdrop _ => exact (le_length_of_drop hwithin hdrop).1
  | failed _ _ hoffset _ => exact hoffset

/-- An encoding has a byte at least. -/
theorem length_pos_of_spellsField {ok : List UInt8 → Prop} {field : Field} {bytes : List UInt8}
    (h : SpellsField ok field bytes) : 0 < bytes.length := by
  obtain ⟨-, tag, payload, rfl, htag, -⟩ := h
  have hpos := List.length_pos_iff.2 htag.isVarint.ne_nil
  rw [List.length_append]
  omega

/-- Every item leaves less to read. -/
theorem left_next {f f' : Fields} {item : Except Error Field} (h : f.next = (some item, f')) :
    f'.left < f.left := by
  have hwithin : f.Within := by
    by_contra hpast
    rw [next, if_pos (Or.inr (le_of_lt (not_le.1 hpast)))] at h
    cases h
  have hcases := next_cases hwithin
  rw [h] at hcases
  cases hcases with
  | field hfailed hdrop hspells =>
    have hpos := length_pos_of_spellsField hspells
    have hle := (le_length_of_drop hwithin hdrop).1
    simp only [left, hfailed, Bool.false_eq_true, if_false]
    omega
  | failed hfailed _ _ _ =>
    simp [left, hfailed]

/-- All items of the iterator. -/
def items (f : Fields) : List (Except Error Field) :=
  match hnext : f.next with
  | (none, _) => []
  | (some item, f') =>
    have := left_next hnext
    item :: f'.items
termination_by f.left

/-- The iterator after some calls of `next`. -/
def after (f : Fields) (k : Nat) : Fields := (fun f => f.next.2)^[k] f

theorem items_of_next {f f' : Fields} {item : Option (Except Error Field)}
    (h : f.next = (item, f')) : f.items = item.toList ++ (if item.isSome then f'.items else []) := by
  rw [items]
  split
  · next heq =>
    rw [heq] at h
    cases h
    rfl
  · next heq =>
    rw [heq] at h
    cases h
    rfl

theorem next_none {f f' : Fields} (h : f.next = (none, f')) : f' = f := by
  unfold next at h
  split_ifs at h
  · cases h
    rfl
  · split at h <;> cases h

/-- The items are what `next` gives, call by call. -/
theorem getElem?_items (f : Fields) (k : Nat) : f.items[k]? = (f.after k).next.1 := by
  induction k generalizing f with
  | zero =>
    rcases hnext : f.next with ⟨item, f'⟩
    rw [items_of_next hnext]
    change _ = f.next.1
    rw [hnext]
    cases item <;> rfl
  | succ k ih =>
    rw [after, Function.iterate_succ_apply]
    change _ = (f.next.2.after k).next.1
    rw [← ih]
    rcases hnext : f.next with ⟨item, f'⟩
    rw [items_of_next hnext]
    cases item with
    | none =>
      rw [next_none hnext, items_of_next hnext]
      rfl
    | some item => rfl

theorem data_next (f : Fields) : f.next.2.data = f.data := by
  unfold next
  split_ifs
  · rfl
  · split <;> rfl

@[simp] theorem data_after (f : Fields) (k : Nat) : (f.after k).data = f.data := by
  induction k generalizing f with
  | zero => rfl
  | succ k ih =>
    rw [after, Function.iterate_succ_apply]
    exact (ih f.next.2).trans f.data_next

theorem after_within {f : Fields} (hwithin : f.Within) (k : Nat) : (f.after k).Within := by
  induction k generalizing f with
  | zero => exact hwithin
  | succ k ih =>
    rw [after, Function.iterate_succ_apply]
    exact ih (next_within hwithin)

/-- After an error there is nothing. -/
theorem items_of_failed {f : Fields} (h : f.failed = true) : f.items = [] := by
  have hnext : f.next = (none, f) := by rw [next, if_pos (Or.inl h)]
  rw [items_of_next hnext]
  rfl

/-- The items are fields, and one error at most, the last. -/
theorem items_shape (f : Fields) (hwithin : f.Within) :
    ∃ (found : List Field) (error : Option Error),
      f.items = found.map .ok ++ (error.map .error).toList := by
  fun_induction items f with
  | case1 f f' hnext => exact ⟨[], none, rfl⟩
  | case2 f item f' hnext _ ih =>
    have hcases := next_cases hwithin
    have hwithin' := next_within hwithin
    rw [hnext] at hcases hwithin'
    cases hcases with
    | field _ _ _ =>
      obtain ⟨found, error, hitems⟩ := ih hwithin'
      exact ⟨_ :: found, error, by rw [hitems]; rfl⟩
    | failed _ _ _ _ => exact ⟨[], some _, by rw [items_of_failed rfl]; rfl⟩

/-- **The items of well-formed data.** They are the given fields exactly when the data spells
them. -/
theorem items_eq_iff {found : List Field} {f : Fields} (hwithin : f.Within)
    (hfailed : f.failed = false) :
    f.items = found.map .ok ↔ Spells anyVarint found (f.data.bytes.drop f.offset) := by
  induction found generalizing f with
  | nil =>
    have hcases := next_cases hwithin
    rcases hnext : f.next with ⟨item, f'⟩
    rw [hnext] at hcases
    rw [items_of_next hnext, Spells]
    cases hcases with
    | ended hend =>
      have hoffset : f.offset = f.data.bytes.length := by simpa [hfailed] using hend
      rw [hoffset, List.drop_length]
      exact ⟨fun _ => rfl, fun _ => rfl⟩
    | field _ hdrop hspells =>
      have hpos := length_pos_of_spellsField hspells
      rw [hdrop]
      exact ⟨nofun, fun h => absurd (List.append_eq_nil_iff.1 h).1 (List.length_pos_iff.1 hpos)⟩
    | failed _ hlt _ _ =>
      exact ⟨nofun, fun h => absurd (List.drop_eq_nil_iff.1 h) (not_le.2 hlt)⟩
  | cons field found ih =>
    have hcases := next_cases hwithin
    rcases hnext : f.next with ⟨item, f'⟩
    rw [hnext] at hcases
    rw [items_of_next hnext, Spells]
    cases hcases with
    | ended hend =>
      have hoffset : f.offset = f.data.bytes.length := by simpa [hfailed] using hend
      rw [hoffset, List.drop_length]
      refine ⟨nofun, ?_⟩
      rintro ⟨front, back, hdrop, hspells, -⟩
      have hpos := length_pos_of_spellsField hspells
      exact absurd (List.append_eq_nil_iff.1 hdrop.symm).1 (List.length_pos_iff.1 hpos)
    | @field field' bytes rest _ hdrop hspells =>
      obtain ⟨hle, hrest⟩ := le_length_of_drop hwithin hdrop
      have hlater := ih (f := { f with offset := f.offset + bytes.length }) hle hfailed
      rw [hrest] at hlater
      rw [Option.toList_some, List.singleton_append, Option.isSome_some, if_pos rfl, List.map_cons,
        List.cons.injEq, Except.ok.injEq, hlater]
      have hread := (readField_ok_iff f.data.length_lt hwithin).2 ⟨bytes, rest, hdrop, hspells, rfl⟩
      constructor
      · rintro ⟨rfl, hlater⟩
        exact ⟨bytes, rest, hdrop, hspells, hlater⟩
      · rintro ⟨front, back, hdrop', hspells', hlater⟩
        have hread' :=
          (readField_ok_iff f.data.length_lt hwithin).2 ⟨front, back, hdrop', hspells', rfl⟩
        rw [hread, Prod.mk.injEq, Except.ok.injEq, Nat.add_left_cancel_iff] at hread'
        obtain ⟨-, rfl⟩ := List.append_inj (hdrop.symm.trans hdrop') hread'.2
        exact ⟨hread'.1, hlater⟩
    | failed _ _ _ hnone =>
      refine ⟨nofun, ?_⟩
      rintro ⟨front, back, hdrop, hspells, -⟩
      exact absurd hspells (hnone field front back hdrop)

end Fields

/-! ## What is built -/

/-- The encoding of a value that is built. -/
def valueBytes : Value → List UInt8
  | .varint value => varint value.toNat
  | .fixed64 value => toLittleEndian 8 value.toNat
  | .bytes value => varint (UInt64.ofNat value.length).toNat ++ value
  | .fixed32 value => toLittleEndian 4 value.toNat

def fieldBytes (field : Field) : List UInt8 :=
  varint (8 * field.number.toNat + field.value.wireType.toNat) ++ valueBytes field.value

theorem bytes_pushTag (m : Message) (number : UInt32) (value : Value) :
    (m.pushTag number value.wireType).bytes =
      m.bytes ++ varint (8 * number.toNat + value.wireType.toNat) := by
  have hnumber := number.toNat_lt
  have hwireType := wireType_lt value
  have htag : (number.toUInt64 <<< 3 ||| value.wireType.toUInt64).toNat =
      8 * number.toNat + value.wireType.toNat := by
    rw [UInt64.toNat_or, UInt64.toNat_shiftLeft, UInt32.toNat_toUInt64, UInt32.toNat_toUInt64,
      Nat.shiftLeft_eq]
    change number.toNat * 2 ^ 3 % 2 ^ 64 ||| value.wireType.toNat = _
    rw [Nat.mod_eq_of_lt (by omega), Nat.mul_comm,
      ← Nat.two_pow_add_eq_or_of_lt (show value.wireType.toNat < 2 ^ 3 from hwireType)]
  rw [Message.pushTag, pushVarint_eq, htag]

theorem bytes_field (m : Message) (field : Field) :
    (m.field field).bytes = m.bytes ++ fieldBytes field := by
  have htag := bytes_pushTag m field.number field.value
  rw [fieldBytes, ← List.append_assoc, ← htag]
  unfold Message.field
  cases field.value with
  | varint value => exact pushVarint_eq _ _
  | fixed64 value => rfl
  | bytes value => rw [valueBytes, ← List.append_assoc, ← pushVarint_eq]; rfl
  | fixed32 value => rfl

theorem bytes_ofFields (found : List Field) :
    (Message.ofFields found).bytes = (found.map fieldBytes).flatten := by
  have hfoldl : ∀ m : Message, (found.foldl Message.field m).bytes =
      m.bytes ++ (found.map fieldBytes).flatten := by
    induction found with
    | nil => exact fun m => (List.append_nil _).symm
    | cons field found ih =>
      intro m
      rw [List.foldl_cons, ih, bytes_field, List.append_assoc, List.map_cons, List.flatten_cons]
  exact hfoldl Message.new

theorem isShortest_varint (n : Nat) : IsShortest (varint n) := by
  intro other hother hvalue
  rw [← groupValue_varint n, ← hvalue]
  exact hother.varint_groupValue.1

theorem spellsVarint_varint {n : Nat} (h : n < 2 ^ 64) : SpellsVarint IsShortest n (varint n) where
  isVarint := isVarint_varint n
  length_le := length_varint_le (show n < 128 ^ (9 + 1) by omega)
  groupValue_eq := groupValue_varint n
  ok := isShortest_varint n

/-- A field that is built is spelled by its bytes, with the shortest varints. -/
theorem spellsField_fieldBytes {field : Field} (hnumber : field.number ≠ 0)
    (hlength : (fieldBytes field).length < 2 ^ 63) :
    SpellsField IsShortest field (fieldBytes field) := by
  have hnumber_lt := field.number.toNat_lt
  have hwireType := wireType_lt field.value
  refine ⟨hnumber, _, _, rfl, spellsVarint_varint (by omega), ?_⟩
  cases hvalue : field.value with
  | varint value => exact spellsVarint_varint value.toNat_lt
  | fixed64 value => rfl
  | fixed32 value => rfl
  | bytes value =>
    rw [fieldBytes, hvalue, valueBytes, List.length_append, List.length_append] at hlength
    have hsize : (UInt64.ofNat value.length).toNat = value.length := by
      rw [UInt64.toNat_ofNat']
      omega
    rw [valueBytes, hsize]
    exact ⟨_, spellsVarint_varint (by omega), rfl⟩

/-- Building never takes more bytes than another spelling, and it gives the one whose varints are
the shortest. -/
theorem fieldBytes_of_spellsField {ok : List UInt8 → Prop} {field : Field} {bytes : List UInt8}
    (h : SpellsField ok field bytes) (hlength : bytes.length < 2 ^ 63) :
    (fieldBytes field).length ≤ bytes.length ∧
      ((∀ spelled, ok spelled → IsShortest spelled) → bytes = fieldBytes field) := by
  obtain ⟨-, tag, payload, rfl, htag, hpayload⟩ := h
  have hvalue : (valueBytes field.value).length ≤ payload.length ∧
      ((∀ spelled, ok spelled → IsShortest spelled) → payload = valueBytes field.value) := by
    cases hvalue : field.value with
    | varint value =>
      rw [hvalue] at hpayload
      exact ⟨hpayload.varint_length_le, fun hok => hpayload.eq_varint (hok _ hpayload.ok)⟩
    | fixed64 value =>
      rw [hvalue] at hpayload
      exact ⟨le_of_eq (congrArg List.length hpayload.symm), fun _ => hpayload⟩
    | fixed32 value =>
      rw [hvalue] at hpayload
      exact ⟨le_of_eq (congrArg List.length hpayload.symm), fun _ => hpayload⟩
    | bytes value =>
      rw [hvalue] at hpayload
      obtain ⟨prefixed, hprefixed, rfl⟩ := hpayload
      have hsize : (UInt64.ofNat value.length).toNat = value.length := by
        rw [List.length_append, List.length_append] at hlength
        rw [UInt64.toNat_ofNat']
        omega
      have hle := hprefixed.varint_length_le
      rw [valueBytes, hsize, List.length_append, List.length_append]
      exact ⟨by omega, fun hok => by rw [← hprefixed.eq_varint (hok _ hprefixed.ok)]⟩
  have hle := htag.varint_length_le
  rw [fieldBytes, List.length_append, List.length_append]
  refine ⟨by omega, fun hok => ?_⟩
  rw [← htag.eq_varint (hok _ htag.ok), ← hvalue.2 hok]

/-- Data that fields are built into spells them, with the shortest varints. -/
theorem spells_ofFields {found : List Field} (hnumbers : ∀ field ∈ found, field.number ≠ 0)
    (hlength : (Message.ofFields found).bytes.length < 2 ^ 63) :
    Spells IsShortest found (Message.ofFields found).bytes := by
  rw [bytes_ofFields] at hlength ⊢
  induction found with
  | nil => rfl
  | cons field found ih =>
    rw [List.map_cons, List.flatten_cons] at hlength ⊢
    rw [List.length_append] at hlength
    exact ⟨_, _, rfl, spellsField_fieldBytes (hnumbers field List.mem_cons_self) (by omega),
      ih (fun f hf => hnumbers f (List.mem_cons_of_mem _ hf)) (by omega)⟩

/-- What data spells is built again in no more bytes, and in the same when its varints are the
shortest. -/
theorem ofFields_of_spells {ok : List UInt8 → Prop} {found : List Field} {bytes : List UInt8}
    (h : Spells ok found bytes) (hlength : bytes.length < 2 ^ 63) :
    (∀ field ∈ found, field.number ≠ 0) ∧
      (Message.ofFields found).bytes.length ≤ bytes.length ∧
      ((∀ spelled, ok spelled → IsShortest spelled) → (Message.ofFields found).bytes = bytes) := by
  rw [bytes_ofFields]
  induction found generalizing bytes with
  | nil =>
    rw [Spells] at h
    subst h
    exact ⟨fun _ h => absurd h List.not_mem_nil, le_refl _, fun _ => rfl⟩
  | cons field found ih =>
    obtain ⟨front, back, rfl, hfield, hfound⟩ := h
    rw [List.length_append] at hlength
    obtain ⟨hfront, hfront'⟩ := fieldBytes_of_spellsField hfield (by omega)
    obtain ⟨hnumbers, hback, hback'⟩ := ih hfound (by omega)
    rw [List.map_cons, List.flatten_cons, List.length_append, List.length_append]
    refine ⟨List.forall_mem_cons.2 ⟨hfield.1, hnumbers⟩, by omega, fun hok => ?_⟩
    rw [← hfront' hok, hback' hok]

theorem SpellsValue.mono {ok ok' : List UInt8 → Prop} (hok : ∀ spelled, ok spelled → ok' spelled)
    {value : Value} {bytes : List UInt8} (h : SpellsValue ok value bytes) :
    SpellsValue ok' value bytes := by
  cases value with
  | varint value => exact SpellsVarint.mono hok h
  | fixed64 value => exact h
  | fixed32 value => exact h
  | bytes value =>
    obtain ⟨prefixed, hprefixed, hbytes⟩ := h
    exact ⟨prefixed, hprefixed.mono hok, hbytes⟩

theorem Spells.mono {ok ok' : List UInt8 → Prop} (hok : ∀ spelled, ok spelled → ok' spelled)
    {found : List Field} {bytes : List UInt8} (h : Spells ok found bytes) :
    Spells ok' found bytes := by
  induction found generalizing bytes with
  | nil => exact h
  | cons field found ih =>
    obtain ⟨front, back, hbytes, ⟨hnumber, tag, payload, hfront, htag, hpayload⟩, hfound⟩ := h
    exact ⟨front, back, hbytes, ⟨hnumber, tag, payload, hfront, htag.mono hok, hpayload.mono hok⟩,
      ih hfound⟩

/-- The data is a message all of whose varints are the shortest. -/
def UsesShortestVarints (data : Slice) : Prop := ∃ found, Spells IsShortest found data.bytes

/-- Iterating over all of the data. -/
theorem items_fields_iff {data : Slice} {found : List Field} :
    (fields data).items = found.map .ok ↔ Spells anyVarint found data.bytes :=
  Fields.items_eq_iff (Nat.zero_le _) rfl

/-- Data spells one sequence of fields at most. -/
theorem Spells.unique {bytes : List UInt8} (hlength : bytes.length < 2 ^ 63)
    {found found' : List Field} (h : Spells anyVarint found bytes)
    (h' : Spells anyVarint found' bytes) : found = found' := by
  have hitems : (fields ⟨bytes, hlength⟩).items = found.map .ok := items_fields_iff.2 h
  have hitems' : (fields ⟨bytes, hlength⟩).items = found'.map .ok := items_fields_iff.2 h'
  exact List.map_injective_iff.2 (fun _ _ heq => Except.ok.inj heq) (hitems.symm.trans hitems')

theorem Spells.append {ok : List UInt8 → Prop} {found found' : List Field}
    {bytes bytes' : List UInt8} (h : Spells ok found bytes) (h' : Spells ok found' bytes') :
    Spells ok (found ++ found') (bytes ++ bytes') := by
  induction found generalizing bytes with
  | nil =>
    rw [Spells] at h
    subst h
    exact h'
  | cons field found ih =>
    obtain ⟨front, back, rfl, hfield, hfound⟩ := h
    exact ⟨front, back ++ bytes', List.append_assoc .., hfield, ih hfound⟩

/-- What data spells is built into the data again exactly when it uses the shortest varints. -/
theorem ofFields_eq_iff {found : List Field} {bytes : List UInt8}
    (h : Spells anyVarint found bytes) (hlength : bytes.length < 2 ^ 63) :
    (Message.ofFields found).bytes = bytes ↔ ∃ found', Spells IsShortest found' bytes := by
  obtain ⟨hnumbers, hle, -⟩ := ofFields_of_spells h hlength
  constructor
  · intro heq
    have hspells := spells_ofFields hnumbers (lt_of_le_of_lt hle hlength)
    rw [heq] at hspells
    exact ⟨found, hspells⟩
  · intro hshortest
    obtain ⟨found', hfound'⟩ := hshortest
    obtain rfl := h.unique hlength (hfound'.mono fun _ _ => trivial)
    exact (ofFields_of_spells hfound' hlength).2.2 fun _ h => h

/-! ## The items of a list -/

/-- The fields from an offset on, no more than given; the last may be an error. -/
def itemsFrom (data : List UInt8) : (limit offset : Nat) → List (Except Error Field)
  | 0, _ => []
  | limit + 1, offset =>
    if data.length ≤ offset then []
    else match readField data offset with
    | (.ok field, offset) => .ok field :: itemsFrom data limit offset
    | (.error error, _) => [.error error]

/-- `protobuf::fields`, as a loop goes through them. -/
def itemsOf (data : List UInt8) : List (Except Error Field) := itemsFrom data data.length 0

theorem items_of_end {data : Slice} {offset : Nat} (h : data.bytes.length ≤ offset) :
    Fields.items ⟨data, offset, false⟩ = [] := by
  have hnext : Fields.next ⟨data, offset, false⟩ = (none, ⟨data, offset, false⟩) := by
    rw [Fields.next, if_pos (Or.inr h)]
  rw [Fields.items_of_next hnext]
  rfl

/-- They are the items of the iterator. -/
theorem itemsFrom_eq_items (data : Slice) {limit offset : Nat}
    (hlimit : data.bytes.length ≤ offset + limit) :
    itemsFrom data.bytes limit offset = Fields.items ⟨data, offset, false⟩ := by
  induction limit generalizing offset with
  | zero => rw [itemsFrom, items_of_end (by simpa using hlimit)]
  | succ limit ih =>
    rw [itemsFrom]
    by_cases hend : data.bytes.length ≤ offset
    · rw [if_pos hend, items_of_end hend]
    rw [if_neg hend]
    have hnext : Fields.next ⟨data, offset, false⟩ =
        match readField data.bytes offset with
        | (.ok field, offset) => (some (.ok field), ⟨data, offset, false⟩)
        | (.error error, offset) => (some (.error error), ⟨data, offset, true⟩) := by
      unfold Fields.next
      exact if_neg (by simpa using hend)
    rcases hread : readField data.bytes offset with ⟨result, behind⟩
    rw [hread] at hnext
    cases result with
    | error error =>
      rw [Fields.items_of_next hnext, Option.isSome_some, if_pos rfl, Fields.items_of_failed rfl]
      rfl
    | ok field =>
      obtain ⟨bytes, rest, hdrop, hspells, rfl⟩ :=
        (readField_ok_iff data.length_lt (Nat.le_of_not_le hend)).1 hread
      have hpos := Fields.length_pos_of_spellsField hspells
      rw [Fields.items_of_next hnext, Option.isSome_some, if_pos rfl]
      exact congrArg (Except.ok field :: ·) (ih (by omega))

theorem itemsOf_eq_items (data : Slice) : itemsOf data.bytes = (fields data).items :=
  itemsFrom_eq_items data (Nat.le_add_left _ 0)

theorem itemsOf_eq_iff {bytes : List UInt8} (hlength : bytes.length < 2 ^ 63)
    {found : List Field} : itemsOf bytes = found.map .ok ↔ Spells anyVarint found bytes := by
  have heq := itemsOf_eq_items ⟨bytes, hlength⟩
  rw [heq]
  exact items_fields_iff

/-- **Round trips without a schema.** The fields a message is built from are read back without an
error. What is read without one is built again and read again; the rebuilt message is the data
itself when that uses the shortest varints. And of any data the items are fields and one error at
most, the last; `next` gives them and then nothing more, and never leaves the data. -/
theorem raw_round_trips :
    (∀ (found : List Field) (data : Slice), (∀ field ∈ found, field.number ≠ 0) →
      data.bytes = (Message.ofFields found).bytes → (fields data).items = found.map .ok) ∧
    (∀ (data : Slice) (found : List Field), (fields data).items = found.map .ok →
      ∃ rebuilt : Slice, rebuilt.bytes = (Message.ofFields found).bytes ∧
        (fields rebuilt).items = found.map .ok ∧ (UsesShortestVarints data → rebuilt = data)) ∧
    (∀ data : Slice,
      (∃ (found : List Field) (error : Option Error),
        (fields data).items = found.map .ok ++ (error.map .error).toList) ∧
      ∀ k, (fields data).items[k]? = ((fields data).after k).next.1 ∧
        ((fields data).after k).offset ≤ data.bytes.length) := by
  refine ⟨fun found data hnumbers hdata => ?_, fun data found hitems => ?_, fun data => ⟨?_, ?_⟩⟩
  · rw [items_fields_iff, hdata]
    exact (spells_ofFields hnumbers (hdata ▸ data.length_lt)).mono fun _ _ => trivial
  · have hspells := items_fields_iff.1 hitems
    obtain ⟨hnumbers, hle, -⟩ := ofFields_of_spells hspells data.length_lt
    have hlength := lt_of_le_of_lt hle data.length_lt
    refine ⟨⟨_, hlength⟩, rfl, ?_, ?_⟩
    · exact items_fields_iff.2 ((spells_ofFields hnumbers hlength).mono fun _ _ => trivial)
    rintro ⟨others, hothers⟩
    obtain rfl := hspells.unique data.length_lt (hothers.mono fun _ _ => trivial)
    have hbytes := (ofFields_of_spells hothers data.length_lt).2.2 fun _ h => h
    cases data
    simpa using hbytes
  · exact (fields data).items_shape (Nat.zero_le _)
  · intro k
    have hwithin := Fields.after_within (f := fields data) (Nat.zero_le _) k
    rw [Fields.Within, Fields.data_after] at hwithin
    exact ⟨(fields data).getElem?_items k, hwithin⟩

end Superiority.Wire
