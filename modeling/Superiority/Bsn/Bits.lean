import Mathlib.Tactic
import Superiority.Error

/-!
# The bit stream

`bsn/bits.rs`: a reader and a writer of bit fields. Bit `i` of a stream is bit `i % 8`, counted from
the lowest, of byte `i / 8`. A field that crosses a byte boundary is cut into one chunk for each
byte, and the *first* chunk holds the *highest* bits of its value, so which bit of the value a
stream bit is depends on where the field starts.

* `weight` and `source` say which: stream bit `i` of a field is bit `weight` of its value, and bit
  `e` of the value is stream bit `source`.
* **`testBit_readChunks`**, **`bitAt_writeChunks`** – the two loops, bit by bit.
* **`field_writeChunks`** – what is written at a place is read there.
* **`field_congr`** – reading looks at no other bits than the field's.
-/

namespace Superiority.Bsn

/-- Bit `i` of a stream of bytes, the lowest bit of each byte first. -/
def bitAt (data : List UInt8) (i : Nat) : Bool := (data.getD (i / 8) 0).toNat.testBit (i % 8)

/-! ## Where the bits of a field lie -/

/-- The bit of a field's value that stream bit `i` holds. -/
def weight (position width i : Nat) : Nat :=
  (position + width - min (position + width) (8 * (i / 8) + 8)) + (i - max position (8 * (i / 8)))

/-- The stream bit that holds bit `e` of a field's value. -/
def source (position width e : Nat) : Nat :=
  let byte := (position + width - 1 - e) / 8
  max position (8 * byte) + (e - (position + width - min (position + width) (8 * byte + 8)))

theorem source_mem (position : Nat) {width e : Nat} (he : e < width) :
    position ≤ source position width e ∧ source position width e < position + width := by
  simp only [source]
  omega

theorem weight_lt {position width i : Nat} (hlow : position ≤ i) (hhigh : i < position + width) :
    weight position width i < width := by
  simp only [weight]
  omega

theorem source_weight {position width i : Nat} (hlow : position ≤ i)
    (hhigh : i < position + width) : source position width (weight position width i) = i := by
  have hbyte : (position + width - 1 - weight position width i) / 8 = i / 8 := by
    simp only [weight]
    omega
  simp only [source, hbyte]
  simp only [weight]
  omega

theorem weight_source {position width e : Nat} (he : e < width) :
    weight position width (source position width e) = e := by
  have hbyte : source position width e / 8 = (position + width - 1 - e) / 8 := by
    simp only [source]
    omega
  simp only [weight, hbyte]
  simp only [source]
  omega

/-! ## The loops -/

/-- The loop of `read`: the value so far is shifted up by each chunk. Every round takes at least
one bit, so `width` rounds are enough. -/
def readChunks (data : List UInt8) : (rounds position remaining value : Nat) → Nat
  | 0, _, _, value => value
  | rounds + 1, position, remaining, value =>
    if remaining = 0 then value
    else
      let bitOffset := position % 8
      let take := min remaining (8 - bitOffset)
      let mask := 2 ^ take - 1
      let chunk := ((data.getD (position / 8) 0).toNat >>> bitOffset) &&& mask
      readChunks data rounds (position + take) (remaining - take) ((value <<< take) ||| chunk)

/-- The loop of `write`, which overwrites the bits of the field and no others. -/
def writeChunks : (rounds : Nat) → List UInt8 → (position remaining value : Nat) → List UInt8
  | 0, data, _, _, _ => data
  | rounds + 1, data, position, remaining, value =>
    if remaining = 0 then data
    else
      let bitOffset := position % 8
      let take := min remaining (8 - bitOffset)
      let shift := remaining - take
      let mask := UInt8.ofNat (2 ^ take - 1)
      let chunk := UInt8.ofNat (value >>> shift) &&& mask
      let byte := (data.getD (position / 8) 0 &&& ~~~(mask <<< UInt8.ofNat bitOffset)) |||
        (chunk <<< UInt8.ofNat bitOffset)
      writeChunks rounds (data.set (position / 8) byte) (position + take) shift value

/-! ### One round -/

/-- The chunk of a round ends with its byte, or with the field. -/
theorem take_spec (position remaining : Nat) :
    min remaining (8 - position % 8) ≤ remaining ∧
      position % 8 + min remaining (8 - position % 8) ≤ 8 ∧
      (min remaining (8 - position % 8) = remaining ∨
        position % 8 + min remaining (8 - position % 8) = 8) := by
  omega

section round

variable {position remaining take : Nat} (htake : take ≤ remaining)
variable (hend : take = remaining ∨ position % 8 + take = 8)

include htake hend

/-- Behind the chunk the bits lie as in the whole field. -/
theorem source_rest {e : Nat} (he : e < remaining - take) :
    source (position + take) (remaining - take) e = source position remaining e := by
  have hlast : position + take + (remaining - take) = position + remaining := by omega
  have hboundary : (position + take) % 8 = 0 := by omega
  have hbehind : (position + take) / 8 ≤ (position + remaining - 1 - e) / 8 := by omega
  simp only [source, hlast]
  omega

/-- The chunk holds the highest bits of the field. -/
theorem source_chunk (hbyte : position % 8 + take ≤ 8) {e : Nat} (hlow : ¬ e < remaining - take)
    (he : e < remaining) :
    position + (e - (remaining - take)) = source position remaining e := by
  have hsame : (position + remaining - 1 - e) / 8 = position / 8 := by omega
  simp only [source, hsame]
  omega

theorem weight_rest {i : Nat} (hlow : position + take ≤ i) (hhigh : i < position + remaining) :
    weight (position + take) (remaining - take) i = weight position remaining i := by
  have hlast : position + take + (remaining - take) = position + remaining := by omega
  have hbehind : position + take ≤ 8 * (i / 8) := by omega
  simp only [weight, hlast]
  omega

theorem weight_chunk (hbyte : position % 8 + take ≤ 8) {i : Nat} (hlow : position ≤ i)
    (hhigh : i < position + take) :
    remaining - take + (i % 8 - position % 8) = weight position remaining i := by
  have hsame : i / 8 = position / 8 := by omega
  simp only [weight, hsame]
  omega

end round

/-- What one round of `read` adds to the value. -/
theorem testBit_readRound (data : List UInt8) {position take : Nat} (value e : Nat)
    (htake : position % 8 + take ≤ 8) :
    ((value <<< take) ||| (((data.getD (position / 8) 0).toNat >>> (position % 8)) &&&
      (2 ^ take - 1))).testBit e =
      if e < take then bitAt data (position + e) else value.testBit (e - take) := by
  rw [Nat.testBit_or, Nat.testBit_shiftLeft, Nat.testBit_and, Nat.testBit_shiftRight,
    Nat.testBit_two_pow_sub_one]
  by_cases he : e < take
  · have hbyte : (position + e) / 8 = position / 8 := by omega
    have hbit : (position + e) % 8 = position % 8 + e := by omega
    simp [he, bitAt, hbyte, hbit]
  · have hle : take ≤ e := by omega
    simp [he, hle]

/-- The bits of what `read` collects, lowest first: those of the field, then the value it began
with. -/
theorem testBit_readChunks (data : List UInt8) {rounds position remaining : Nat}
    (hrounds : remaining ≤ rounds) (value e : Nat) :
    (readChunks data rounds position remaining value).testBit e =
      if e < remaining then bitAt data (source position remaining e)
      else value.testBit (e - remaining) := by
  induction rounds generalizing position remaining value with
  | zero =>
    obtain rfl : remaining = 0 := by omega
    simp [readChunks]
  | succ rounds ih =>
    by_cases hzero : remaining = 0
    · simp [readChunks, hzero]
    · simp only [readChunks, if_neg hzero]
      obtain ⟨htake, hbyte, hend⟩ := take_spec position remaining
      generalize min remaining (8 - position % 8) = take at htake hbyte hend ⊢
      rw [ih (by omega), testBit_readRound data _ _ hbyte]
      -- The chunk just read holds the highest bits that are left of the field.
      by_cases hlow : e < remaining - take
      · rw [if_pos hlow, if_pos (by omega), source_rest htake hend hlow]
      · rw [if_neg hlow]
        by_cases hchunk : e < remaining
        · rw [if_pos (by omega), if_pos hchunk, source_chunk htake hend hbyte hlow hchunk]
        · rw [if_neg (by omega), if_neg hchunk]
          congr 1
          omega

/-! ### Writing -/

theorem testBit_shiftLeft (byte : UInt8) {offset : Nat} (hoffset : offset < 8) (j : Nat) :
    (byte <<< UInt8.ofNat offset).toNat.testBit j =
      (decide (offset ≤ j ∧ j < 8) && byte.toNat.testBit (j - offset)) := by
  have hmod : (UInt8.ofNat offset).toNat % 8 = offset := by
    rw [UInt8.toNat_ofNat']
    omega
  rw [UInt8.toNat_shiftLeft, hmod, Nat.testBit_mod_two_pow, Nat.testBit_shiftLeft]
  by_cases hlow : offset ≤ j <;> by_cases hhigh : j < 8 <;> simp [hlow, hhigh]

theorem testBit_not (byte : UInt8) (j : Nat) :
    (~~~byte).toNat.testBit j = (decide (j < 8) && !byte.toNat.testBit j) := by
  show (~~~byte).toBitVec.toNat.testBit j = (decide (j < 8) && !byte.toBitVec.toNat.testBit j)
  rw [UInt8.toBitVec_not, BitVec.testBit_toNat, BitVec.testBit_toNat, BitVec.getLsbD_not]

/-- A byte after one round of `write`. -/
theorem testBit_writeRound (byte : UInt8) (value shift : Nat) {offset take : Nat}
    (hoffset : offset < 8) (htake : offset + take ≤ 8) {j : Nat} (hj : j < 8) :
    ((byte &&& ~~~(UInt8.ofNat (2 ^ take - 1) <<< UInt8.ofNat offset)) |||
      ((UInt8.ofNat (value >>> shift) &&& UInt8.ofNat (2 ^ take - 1)) <<<
        UInt8.ofNat offset)).toNat.testBit j =
      if offset ≤ j ∧ j < offset + take then value.testBit (shift + (j - offset))
      else byte.toNat.testBit j := by
  have hmask : (UInt8.ofNat (2 ^ take - 1)).toNat = 2 ^ take - 1 := by
    rw [UInt8.toNat_ofNat']
    refine Nat.mod_eq_of_lt ?_
    have hpow : 2 ^ take ≤ 2 ^ 8 := Nat.pow_le_pow_right (by omega) (by omega)
    omega
  simp only [UInt8.toNat_or, UInt8.toNat_and, Nat.testBit_or, Nat.testBit_and, testBit_not,
    testBit_shiftLeft _ hoffset, hmask, Nat.testBit_two_pow_sub_one]
  rw [UInt8.toNat_ofNat', Nat.testBit_mod_two_pow, Nat.testBit_shiftRight]
  by_cases hlow : offset ≤ j
  · by_cases hhigh : j < offset + take
    · have hchunk : j - offset < take := by omega
      have hbyte : j - offset < 8 := by omega
      simp [hlow, hhigh, hj, hchunk, hbyte]
    · have hchunk : ¬ j - offset < take := by omega
      simp [hlow, hhigh, hj, hchunk]
  · simp [hlow, hj]

theorem bitAt_set (data : List UInt8) {index : Nat} (hindex : index < data.length) (byte : UInt8)
    (i : Nat) :
    bitAt (data.set index byte) i =
      if i / 8 = index then byte.toNat.testBit (i % 8) else bitAt data i := by
  simp only [bitAt, List.getD_eq_getElem?_getD, List.getElem?_set]
  by_cases hi : i / 8 = index
  · simp [hi, hindex]
  · simp [hi, Ne.symm hi]

theorem length_writeChunks (rounds : Nat) (data : List UInt8) (position remaining value : Nat) :
    (writeChunks rounds data position remaining value).length = data.length := by
  induction rounds generalizing data position remaining with
  | zero => rfl
  | succ rounds ih =>
    by_cases hzero : remaining = 0
    · simp [writeChunks, hzero]
    · simp only [writeChunks, if_neg hzero]
      rw [ih, List.length_set]

/-- The stream after a `write`: the bits of the field hold the value, the others are untouched. -/
theorem bitAt_writeChunks {rounds : Nat} {data : List UInt8} {position remaining : Nat}
    (hrounds : remaining ≤ rounds) (hroom : position + remaining ≤ 8 * data.length)
    (value i : Nat) :
    bitAt (writeChunks rounds data position remaining value) i =
      if position ≤ i ∧ i < position + remaining
      then value.testBit (weight position remaining i) else bitAt data i := by
  induction rounds generalizing data position remaining with
  | zero =>
    obtain rfl : remaining = 0 := by omega
    have hout : ¬ (position ≤ i ∧ i < position + 0) := by omega
    rw [if_neg hout]
    rfl
  | succ rounds ih =>
    by_cases hzero : remaining = 0
    · have hout : ¬ (position ≤ i ∧ i < position + remaining) := by omega
      rw [if_neg hout]
      simp [writeChunks, hzero]
    · simp only [writeChunks, if_neg hzero]
      have hindex : position / 8 < data.length := by omega
      obtain ⟨htake, hbyte, hend⟩ := take_spec position remaining
      generalize min remaining (8 - position % 8) = take at htake hbyte hend ⊢
      rw [ih (by omega) (by rw [List.length_set]; omega), bitAt_set data hindex,
        testBit_writeRound _ value _ (by omega) hbyte (Nat.mod_lt i (by omega))]
      -- The first chunk goes to the byte at the position, the rest of the field behind it.
      by_cases hrest : position + take ≤ i ∧ i < position + remaining
      · rw [if_pos (by omega), if_pos (by omega), weight_rest htake hend hrest.1 hrest.2]
      · rw [if_neg (by omega)]
        by_cases hfield : position ≤ i ∧ i < position + remaining
        · have hchunk : i < position + take := by omega
          have hsame : i / 8 = position / 8 := by omega
          rw [if_pos hsame, if_pos (by omega), if_pos hfield,
            weight_chunk htake hend hbyte hfield.1 hchunk]
        · rw [if_neg hfield]
          by_cases hsame : i / 8 = position / 8
          · rw [if_pos hsame, if_neg (by omega), ← hsame]
            rfl
          · rw [if_neg hsame]

/-! ## Reading and writing at one place -/

/-- The value of the field at a place. -/
def field (data : List UInt8) (position width : Nat) : Nat := readChunks data width position width 0

/-- What is read is no more than the field's width holds. -/
theorem field_lt (data : List UInt8) (position width : Nat) :
    field data position width < 2 ^ width := by
  refine Nat.lt_pow_two_of_testBit _ fun e he => ?_
  rw [field, testBit_readChunks data le_rfl, if_neg (by omega), Nat.zero_testBit]

/-- Reading looks at no other bits than the field's. -/
theorem field_congr {data data' : List UInt8} {position width : Nat}
    (h : ∀ i, position ≤ i → i < position + width → bitAt data i = bitAt data' i) :
    field data position width = field data' position width := by
  apply Nat.eq_of_testBit_eq
  intro e
  rw [field, field, testBit_readChunks data le_rfl, testBit_readChunks data' le_rfl]
  by_cases he : e < width
  · have hsource := source_mem position he
    rw [if_pos he, if_pos he, h _ hsource.1 hsource.2]
  · rw [if_neg he, if_neg he]

/-- The field's bits are the value's, so the value can be told from them. -/
theorem field_eq {data : List UInt8} {position width value : Nat} (hvalue : value < 2 ^ width)
    (h : ∀ i, position ≤ i → i < position + width →
      bitAt data i = value.testBit (weight position width i)) :
    field data position width = value := by
  apply Nat.eq_of_testBit_eq
  intro e
  rw [field, testBit_readChunks data le_rfl]
  by_cases he : e < width
  · have hsource := source_mem position he
    rw [if_pos he, h _ hsource.1 hsource.2, weight_source he]
  · have hhigh : value < 2 ^ e := hvalue.trans_le (Nat.pow_le_pow_right (by omega) (by omega))
    rw [if_neg he, Nat.zero_testBit, Nat.testBit_lt_two_pow hhigh]

/-- The bits of the field that was read hold what was read. -/
theorem testBit_weight_field (data : List UInt8) {position width i : Nat} (hlow : position ≤ i)
    (hhigh : i < position + width) :
    (field data position width).testBit (weight position width i) = bitAt data i := by
  rw [field, testBit_readChunks data le_rfl, if_pos (weight_lt hlow hhigh), source_weight hlow hhigh]

/-- **What is written at a place is read there.** -/
theorem field_writeChunks {data : List UInt8} {position width value : Nat}
    (hroom : position + width ≤ 8 * data.length) (hvalue : value < 2 ^ width) :
    field (writeChunks width data position width value) position width = value := by
  refine field_eq hvalue fun i hlow hhigh => ?_
  rw [bitAt_writeChunks le_rfl hroom, if_pos ⟨hlow, hhigh⟩]

/-! ## The reader -/

/-- `BitReader`: a buffer, how many of its bits are supplied, and a place among them. -/
structure BitReader where
  data : List UInt8
  bitCount : Nat
  position : Nat
  supplied : bitCount ≤ 8 * data.length
  reached : position ≤ bitCount

namespace BitReader

def new (data : List UInt8) (bitCount : Option Nat) : Except Error BitReader :=
  let bitCount := bitCount.getD (8 * data.length)
  if supplied : bitCount ≤ 8 * data.length then
    .ok { data, bitCount, position := 0, supplied, reached := Nat.zero_le _ }
  else .error (.bsnWire "bit count is outside the supplied buffer")

def remaining (r : BitReader) : Nat := r.bitCount - r.position

def setPosition (r : BitReader) (position : Nat) : Except Error BitReader :=
  if reached : position ≤ r.bitCount then .ok { r with position, reached }
  else .error (.incompleteFrame s!"seek to bit {position}, only {r.bitCount} buffered")

/-- `read`. The value is a `u64`; the width is at most 64, so no chunk is shifted out of it. -/
def read (r : BitReader) (width : Nat) : Except Error (Nat × BitReader) :=
  if width > 64 then .error (.bsnWire "integer fields wider than 64 bits are unsupported")
  else if h : width ≤ r.remaining then
    .ok (field r.data r.position width,
      { r with
        position := r.position + width
        reached := by
          have hreached := r.reached
          simp only [remaining] at h
          omega })
  else .error (.incompleteFrame
    s!"need {width} bits at position {r.position}, only {r.remaining} remain")

/-- When `read` succeeds, and what it gives then. -/
theorem read_ok {r s : BitReader} {width value : Nat} :
    r.read width = .ok (value, s) ↔
      width ≤ 64 ∧ width ≤ r.remaining ∧ value = field r.data r.position width ∧
        s.data = r.data ∧ s.bitCount = r.bitCount ∧ s.position = r.position + width := by
  unfold read
  by_cases hwide : width > 64
  · simp [hwide]
  · by_cases hroom : width ≤ r.remaining
    · rw [if_neg hwide, dif_pos hroom, Except.ok.injEq, Prod.mk.injEq]
      constructor
      · rintro ⟨rfl, rfl⟩
        exact ⟨by omega, hroom, rfl, rfl, rfl, rfl⟩
      · rintro ⟨-, -, rfl, hdata, hcount, hposition⟩
        cases s
        subst hdata hcount hposition
        exact ⟨rfl, rfl⟩
    · simp [hwide, hroom]

/-- Within the supplied bits, reading gives the field. -/
theorem read_of_room (r : BitReader) {width : Nat} (hwide : width ≤ 64)
    (hroom : r.position + width ≤ r.bitCount) :
    ∃ s, r.read width = .ok (field r.data r.position width, s) ∧ s.data = r.data ∧
      s.bitCount = r.bitCount ∧ s.position = r.position + width := by
  have hremaining : width ≤ r.remaining := by
    simp only [remaining]
    omega
  cases h : r.read width with
  | error e => simp [read, hremaining, Nat.not_lt.2 hwide] at h
  | ok result =>
    obtain ⟨value, s⟩ := result
    obtain ⟨-, -, rfl, hs⟩ := read_ok.1 h
    exact ⟨s, rfl, hs⟩

end BitReader

/-! ## The writer -/

/-- `BitWriter`: the bytes so far and the place of the next bit. -/
structure BitWriter where
  data : List UInt8 := []
  position : Nat := 0
  deriving DecidableEq, Repr

namespace BitWriter

/-- `ensure_capacity`: zero bytes are added up to the bit count. -/
def ensureCapacity (w : BitWriter) (bitCount : Nat) : BitWriter :=
  { w with data := w.data ++ List.replicate ((bitCount + 7) / 8 - w.data.length) 0 }

def write (w : BitWriter) (value width : Nat) : Except Error BitWriter :=
  if width > 64 then .error (.bsnWire "integer fields wider than 64 bits are unsupported")
  else if width < 64 ∧ 2 ^ width ≤ value then
    .error (.bsnWire s!"value {value} does not fit in {width} bits")
  else
    let data := (w.ensureCapacity (w.position + width)).data
    .ok { data := writeChunks width data w.position width value, position := w.position + width }

/-- `align`: zero bits up to the next byte. -/
def align (w : BitWriter) : Except Error BitWriter :=
  let padding := (8 - w.position % 8) % 8
  if padding > 0 then w.write 0 padding else .ok w

/-- `into_bytes`. -/
def intoBytes (w : BitWriter) : List UInt8 := w.data.take ((w.position + 7) / 8)

/-- What has been written so far: the stream up to `position`, nothing behind it, and no more
bytes than that takes. -/
structure Holds (w : BitWriter) (bit : Nat → Bool) : Prop where
  length : w.data.length = (w.position + 7) / 8
  written : ∀ i, i < w.position → bitAt w.data i = bit i
  clear : ∀ i, w.position ≤ i → bitAt w.data i = false

theorem holds_empty (bit : Nat → Bool) : Holds {} bit where
  length := rfl
  written i hi := absurd hi (Nat.not_lt_zero i)
  clear i _ := by simp [bitAt]

theorem bitAt_ensureCapacity (w : BitWriter) (bitCount i : Nat) :
    bitAt (w.ensureCapacity bitCount).data i = bitAt w.data i := by
  simp only [bitAt, ensureCapacity, List.getD_eq_getElem?_getD, List.getElem?_append]
  by_cases hi : i / 8 < w.data.length
  · rw [if_pos hi]
  · rw [if_neg hi, List.getElem?_eq_none (l := w.data) (by omega), List.getElem?_replicate]
    split_ifs <;> rfl

theorem write_ok {w w' : BitWriter} {value width : Nat} (h : w.write value width = .ok w') :
    width ≤ 64 ∧ (width < 64 → value < 2 ^ width) ∧ w'.position = w.position + width ∧
      w'.data = writeChunks width (w.ensureCapacity (w.position + width)).data w.position width
        value := by
  unfold write at h
  split_ifs at h with hwide hfits
  obtain rfl := Except.ok.inj h
  refine ⟨by omega, fun hwidth => ?_, rfl, rfl⟩
  by_contra hvalue
  exact hfits ⟨hwidth, by omega⟩

/-- **One write.** The stream grows by the field, whose bits hold the value. -/
theorem Holds.write {w w' : BitWriter} {value width : Nat} {bit : Nat → Bool} (hw : w.Holds bit)
    (h : w.write value width = .ok w')
    (hbit : ∀ i, w.position ≤ i → i < w.position + width →
      bit i = value.testBit (weight w.position width i)) : w'.Holds bit := by
  obtain ⟨-, -, hposition, hdata⟩ := write_ok h
  have hlength : (w.ensureCapacity (w.position + width)).data.length =
      (w.position + width + 7) / 8 := by
    have hold := hw.length
    simp only [ensureCapacity, List.length_append, List.length_replicate]
    omega
  have hbits : ∀ i, bitAt w'.data i = if w.position ≤ i ∧ i < w.position + width
      then value.testBit (weight w.position width i) else bitAt w.data i := by
    intro i
    rw [hdata, bitAt_writeChunks le_rfl (by omega), bitAt_ensureCapacity]
  constructor
  · rw [hdata, length_writeChunks, hlength, hposition]
  · intro i hi
    rw [hbits]
    by_cases hfield : w.position ≤ i ∧ i < w.position + width
    · rw [if_pos hfield, hbit i hfield.1 hfield.2]
    · rw [if_neg hfield, hw.written i (by omega)]
  · intro i hi
    rw [hbits, if_neg (by omega), hw.clear i (by omega)]

theorem exists_write (w : BitWriter) {value width : Nat} (hwide : width ≤ 64)
    (hvalue : value < 2 ^ width) : ∃ w', w.write value width = .ok w' := by
  have hfits : ¬ (width < 64 ∧ 2 ^ width ≤ value) := by omega
  simp [BitWriter.write, Nat.not_lt.2 hwide, hfits]

/-- A field that the stream spells can be written, and the stream goes on behind it. -/
theorem Holds.exists_write {w : BitWriter} {value width : Nat} {bit : Nat → Bool}
    (hw : w.Holds bit) (hwide : width ≤ 64) (hvalue : value < 2 ^ width)
    (hbit : ∀ i, w.position ≤ i → i < w.position + width →
      bit i = value.testBit (weight w.position width i)) :
    ∃ w', w.write value width = .ok w' ∧ w'.Holds bit ∧ w'.position = w.position + width := by
  obtain ⟨w', h⟩ := w.exists_write hwide hvalue
  exact ⟨w', h, hw.write h hbit, (write_ok h).2.2.1⟩

/-- Bits that the stream spells can be written one by one. -/
theorem Holds.exists_writeBits {w : BitWriter} {bit : Nat → Bool} (hw : w.Holds bit)
    (bits : List Bool) (hbits : ∀ j, j < bits.length → bit (w.position + j) = bits.getD j false) :
    ∃ w', bits.foldlM (fun (w : BitWriter) b => w.write b.toNat 1) w = .ok w' ∧ w'.Holds bit ∧
      w'.position = w.position + bits.length := by
  induction bits generalizing w with
  | nil => exact ⟨w, rfl, hw, rfl⟩
  | cons b bits ih =>
    have hlt : b.toNat < 2 ^ 1 := by cases b <;> decide
    have hfirst : ∀ i, w.position ≤ i → i < w.position + 1 →
        bit i = b.toNat.testBit (weight w.position 1 i) := by
      intro i hlow hhigh
      obtain rfl : i = w.position := by omega
      have hweight : weight w.position 1 w.position = 0 := by
        simp only [weight]
        omega
      have hb : bit w.position = b := by simpa using hbits 0 (by simp)
      rw [hweight, hb]
      cases b <;> rfl
    obtain ⟨w₁, hwrite, hholds, hposition⟩ := hw.exists_write (by omega) hlt hfirst
    have hrest : ∀ j, j < bits.length → bit (w₁.position + j) = bits.getD j false := by
      intro j hj
      have hb := hbits (j + 1) (by simpa using hj)
      rw [hposition, Nat.add_assoc, Nat.add_comm 1 j]
      simpa using hb
    obtain ⟨w₂, hfold, hholds₂, hposition₂⟩ := ih hholds hrest
    refine ⟨w₂, ?_, hholds₂, ?_⟩
    · rw [List.foldlM_cons, hwrite]
      exact hfold
    · rw [hposition₂, hposition, List.length_cons]
      omega

/-- The zero bits up to the next byte. -/
theorem Holds.exists_align {w : BitWriter} {bit : Nat → Bool} (hw : w.Holds bit)
    (hbit : ∀ i, w.position ≤ i → i < w.position + (8 - w.position % 8) % 8 → bit i = false) :
    ∃ w', w.align = .ok w' ∧ w'.Holds bit ∧
      w'.position = w.position + (8 - w.position % 8) % 8 := by
  by_cases hpadding : (8 - w.position % 8) % 8 > 0
  · obtain ⟨w', hwrite, hholds, hposition⟩ := hw.exists_write (by omega : (8 - w.position % 8) % 8 ≤ 64)
      (Nat.two_pow_pos _) fun i hlow hhigh => by
        rw [Nat.zero_testBit]
        exact hbit i hlow hhigh
    exact ⟨w', by simp only [align, if_pos hpadding, hwrite], hholds, hposition⟩
  · exact ⟨w, by simp only [align, if_neg hpadding], hw, by omega⟩

/-- Of a full stream nothing is cut off. -/
theorem Holds.intoBytes {w : BitWriter} {bit : Nat → Bool} (hw : w.Holds bit) :
    w.intoBytes = w.data := by
  rw [BitWriter.intoBytes, ← hw.length, List.take_length]

/-- The bytes are told by their length and their bits. -/
theorem eq_of_bitAt {data data' : List UInt8} (hlength : data.length = data'.length)
    (h : ∀ i, i < 8 * data.length → bitAt data i = bitAt data' i) : data = data' := by
  refine List.ext_getElem hlength fun k hk hk' => ?_
  apply UInt8.toNat_inj.1
  apply Nat.eq_of_testBit_eq
  intro j
  by_cases hj : j < 8
  · have hbyte : (8 * k + j) / 8 = k := by omega
    have hbit : (8 * k + j) % 8 = j := by omega
    have heq := h (8 * k + j) (by omega)
    simpa [bitAt, hbyte, hbit, hk, hk'] using heq
  · have hlow : (2 : Nat) ^ 8 ≤ 2 ^ j := Nat.pow_le_pow_right (by omega) (by omega)
    rw [Nat.testBit_lt_two_pow ((UInt8.toNat_lt _).trans_le hlow),
      Nat.testBit_lt_two_pow ((UInt8.toNat_lt _).trans_le hlow)]

end BitWriter

end Superiority.Bsn
