import Superiority.Bsn.Writing
import Superiority.Library.Run
import Superiority.Library.Stateful

/-!
# Whatever is written is read back

The rest of the bit stream: bits that are copied as they are, and sequences of operations.

* **`conveys_readRaw`** – `read_raw` gives back what `write_raw` was given, from wherever it began.
  The loop of `write_raw` only sets bits, so it rests on the zeros that a `Tidy` writer has ahead.
* **`apply_eq`** – an operation that fails leaves bytes and position as they were.
* **`round_trips`** – reading in the order of writing gives back every value, to the last bit.
-/

namespace Superiority.Bsn

namespace BitWriter

/-! ## Setting bits -/

theorem testBit_one_shiftLeft {offset : Nat} (hoffset : offset < 8) (j : Nat) :
    ((1 : UInt8) <<< UInt8.ofNat offset).toNat.testBit j = decide (j = offset) := by
  have hone : (1 : UInt8).toNat = 2 ^ 0 := rfl
  rw [testBit_shiftLeft _ hoffset, hone, Nat.testBit_two_pow, ← Bool.decide_and]
  exact decide_eq_decide.2 (by omega)

/-- One bit of the loop, where the stream is still clear. -/
theorem bitAt_putBit {w : BitWriter} (hroom : w.position < 8 * w.data.length)
    (hclear : bitAt w.data w.position = false) (b : Bool) (i : Nat) :
    bitAt (w.putBit b).data i = if i = w.position then b else bitAt w.data i := by
  cases b with
  | false =>
    have hsame : (w.putBit false).data = w.data := rfl
    rw [hsame]
    by_cases hi : i = w.position
    · rw [if_pos hi, hi, hclear]
    · rw [if_neg hi]
  | true =>
    have hset : (w.putBit true).data = w.data.set (w.position / 8)
        (w.data.getD (w.position / 8) 0 ||| (1 <<< UInt8.ofNat (w.position % 8))) := rfl
    rw [hset, bitAt_set _ (by omega)]
    by_cases hbyte : i / 8 = w.position / 8
    · rw [if_pos hbyte, UInt8.toNat_or, Nat.testBit_or, testBit_one_shiftLeft (by omega)]
      by_cases hi : i = w.position
      · simp [hi]
      · have hbit : ¬ i % 8 = w.position % 8 := by omega
        simp [hi, hbit, bitAt, hbyte]
    · have hi : i ≠ w.position := fun h => hbyte (by rw [h])
      rw [if_neg hbyte, if_neg hi]

/-- The loop of `write_raw`. -/
theorem foldl_putBit (bits : List Bool) {w : BitWriter}
    (hroom : w.position + bits.length ≤ 8 * w.data.length)
    (hclear : ∀ i, w.position ≤ i → bitAt w.data i = false) :
    (bits.foldl putBit w).position = w.position + bits.length ∧
      (bits.foldl putBit w).data.length = w.data.length ∧
      ∀ i, bitAt (bits.foldl putBit w).data i =
        if w.position ≤ i ∧ i < w.position + bits.length then bits.getD (i - w.position) false
        else bitAt w.data i := by
  induction bits generalizing w with
  | nil => exact ⟨rfl, rfl, fun i => (if_neg (by simp)).symm⟩
  | cons b bits ih =>
    rw [List.length_cons] at hroom
    have hbit := bitAt_putBit (by omega : w.position < 8 * w.data.length)
      (hclear _ le_rfl) b
    have hlength : (w.putBit b).data.length = w.data.length := by
      cases b
      · rfl
      · exact List.length_set
    have hposition : (w.putBit b).position = w.position + 1 := rfl
    obtain ⟨hlast, hsize, hbits⟩ := ih (w := w.putBit b) (by omega) fun i hi => by
      rw [hbit, if_neg (by omega), hclear i (by omega)]
    rw [List.foldl_cons, List.length_cons]
    refine ⟨by omega, hsize.trans hlength, fun i => ?_⟩
    rw [hbits, hbit, hposition]
    by_cases hi : i = w.position
    · subst hi
      rw [if_neg (by omega), if_pos rfl, if_pos (by omega), Nat.sub_self]
      rfl
    · by_cases hrest : w.position + 1 ≤ i ∧ i < w.position + 1 + bits.length
      · have hindex : i - w.position = i - (w.position + 1) + 1 := by omega
        rw [if_pos hrest, if_pos (by omega), hindex, List.getD_cons_succ]
      · rw [if_neg hrest, if_neg hi, if_neg (by omega)]

/-- What `write_raw` does to the stream. -/
theorem writeRaw_ok {w w' : BitWriter} {data : List UInt8} {bitCount : Option Nat} (hw : w.Tidy)
    (h : w.writeRaw data bitCount = .ok w') :
    w'.position = w.position + bitCount.getD (data.length * 8) ∧
      w'.data.length = (w'.position + 7) / 8 ∧
      ∀ i, bitAt w'.data i =
        if w.position ≤ i ∧ i < w.position + bitCount.getD (data.length * 8)
        then bitAt data (i - w.position) else bitAt w.data i := by
  unfold writeRaw at h
  dsimp only at h
  split_ifs at h with hshort
  obtain rfl := Except.ok.inj h
  have hmap : (List.range (bitCount.getD (data.length * 8))).foldl
      (fun w i => w.putBit (bitAt data i))
      (w.ensureCapacity (w.position + bitCount.getD (data.length * 8))) =
      ((List.range (bitCount.getD (data.length * 8))).map (bitAt data)).foldl putBit
        (w.ensureCapacity (w.position + bitCount.getD (data.length * 8))) :=
    (List.foldl_map ..).symm
  have hlength := length_ensureCapacity hw
    (Nat.le_add_right w.position (bitCount.getD (data.length * 8)))
  have hplace : (w.ensureCapacity (w.position + bitCount.getD (data.length * 8))).position =
      w.position := rfl
  obtain ⟨hposition, hsize, hbits⟩ :=
    foldl_putBit ((List.range (bitCount.getD (data.length * 8))).map (bitAt data))
      (w := w.ensureCapacity (w.position + bitCount.getD (data.length * 8)))
      (by rw [List.length_map, List.length_range, hplace]; omega)
      fun i hi => by rw [bitAt_ensureCapacity, hw.clear i hi]
  rw [List.length_map, List.length_range, hplace] at hposition hbits
  rw [hmap]
  refine ⟨hposition, by rw [hsize, hposition, hlength], fun i => ?_⟩
  rw [hbits, bitAt_ensureCapacity]
  by_cases hi : w.position ≤ i ∧ i < w.position + bitCount.getD (data.length * 8)
  · rw [if_pos hi, if_pos hi, List.getD_eq_getElem?_getD, List.getElem?_map,
      List.getElem?_range (by omega)]
    rfl
  · rw [if_neg hi, if_neg hi]

theorem goes_writeRaw {w w' : BitWriter} {data : List UInt8} {bitCount : Option Nat} (hw : w.Tidy)
    (h : w.writeRaw data bitCount = .ok w') : Goes w w' := by
  obtain ⟨hposition, hlength, hbits⟩ := writeRaw_ok hw h
  refine ⟨⟨hlength, fun i hi => ?_⟩, ⟨?_, fun i hi => ?_⟩⟩
  · rw [hbits, if_neg (by omega), hw.clear i (by omega)]
  · exact (Nat.le_add_right _ _).trans_eq hposition.symm
  · have hi : i < w.position := hi
    show bitAt w'.data i = bitAt w.data i
    rw [hbits, if_neg (by omega)]

end BitWriter

/-! ## Reading bits -/

namespace Reading

theorem field_one (data : List UInt8) (position : Nat) :
    field data position 1 = (bitAt data position).toNat := by
  refine field_eq (by cases bitAt data position <;> decide) fun i hlow hhigh => ?_
  obtain rfl : i = position := by omega
  have hweight : weight i 1 i = 0 := by
    simp only [weight]
    omega
  rw [hweight]
  cases bitAt data i <;> rfl

/-- The loop of `read_raw`. -/
theorem readBits_holds {bit : Nat → Bool} (count : Nat) {r : BitReader} {writer : BitWriter}
    (hw : writer.Holds bit) (hroom : r.position + count ≤ r.bitCount)
    (hbit : ∀ j, j < count → bit (writer.position + j) = bitAt r.data (r.position + j)) :
    ∃ writer' s, readBits count writer r = .done writer' s ∧ writer'.Holds bit ∧
      writer'.position = writer.position + count ∧ s.data = r.data ∧ s.bitCount = r.bitCount ∧
      s.position = r.position + count := by
  induction count generalizing r writer with
  | zero => exact ⟨writer, r, rfl, hw, rfl, rfl, rfl, rfl⟩
  | succ count ih =>
    have hone : r.position + 1 ≤ r.bitCount := by omega
    obtain ⟨s, hread, hdata, hcount, hposition⟩ := r.read_of_room (by omega) hone
    rw [field_one] at hread
    have hnext : ∀ i, writer.position ≤ i → i < writer.position + 1 →
        bit i = (bitAt r.data r.position).toNat.testBit (weight writer.position 1 i) := by
      intro i hlow hhigh
      obtain rfl : i = writer.position := by omega
      have hweight : weight writer.position 1 writer.position = 0 := by
        simp only [weight]
        omega
      have hfirst := hbit 0 (by omega)
      rw [Nat.add_zero, Nat.add_zero] at hfirst
      rw [hweight, hfirst]
      cases bitAt r.data r.position <;> rfl
    obtain ⟨writer₁, hwrite, hholds, hplace⟩ :=
      hw.exists_write (by omega) (by cases bitAt r.data r.position <;> decide) hnext
    obtain ⟨writer', s', hrest, hholds', hplace', hdata', hcount', hposition'⟩ :=
      ih hholds (r := s) (by omega) fun j hj => by
        have hnext := hbit (j + 1) (by omega)
        rw [hplace, hposition, hdata, Nat.add_assoc, Nat.add_comm 1 j, hnext, Nat.add_assoc,
          Nat.add_comm 1 j]
    refine ⟨writer', s', ?_, hholds', by omega, hdata'.trans hdata, hcount'.trans hcount, by omega⟩
    have hlifted : read 1 r = .done (bitAt r.data r.position).toNat s := by
      rw [read, Decoder.lift, hread]
    exact Decoder.bind_done.2 ⟨_, s, hlifted, Decoder.bind_done.2 ⟨writer₁, s, by
      rw [hwrite]; rfl, hrest⟩⟩

/-- The first bits of some bytes, and zeros behind them. -/
def leadingBits (data : List UInt8) (bitCount : Nat) : List UInt8 :=
  (List.range ((bitCount + 7) / 8)).map fun index =>
    UInt8.ofNat ((data.getD index 0).toNat % 2 ^ (bitCount - 8 * index))

theorem length_leadingBits (data : List UInt8) (bitCount : Nat) :
    (leadingBits data bitCount).length = (bitCount + 7) / 8 := by
  simp [leadingBits]

theorem bitAt_leadingBits (data : List UInt8) (bitCount i : Nat) :
    bitAt (leadingBits data bitCount) i = (decide (i < bitCount) && bitAt data i) := by
  by_cases hi : i / 8 < (bitCount + 7) / 8
  · have hbyte : (leadingBits data bitCount).getD (i / 8) 0 =
        UInt8.ofNat ((data.getD (i / 8) 0).toNat % 2 ^ (bitCount - 8 * (i / 8))) := by
      rw [leadingBits, List.getD_eq_getElem?_getD, List.getElem?_map, List.getElem?_range hi]
      rfl
    have hsmall : i % 8 < 8 := Nat.mod_lt _ (by omega)
    rw [bitAt, hbyte, UInt8.toNat_ofNat', Nat.testBit_mod_two_pow, Nat.testBit_mod_two_pow, bitAt]
    have hiff : i % 8 < bitCount - 8 * (i / 8) ↔ i < bitCount := by omega
    simp [hsmall, hiff]
  · have hout : ¬ i < bitCount := by omega
    rw [BitWriter.bitAt_of_length_le (by rw [length_leadingBits]; omega)]
    simp [hout]

/-- What `read_raw` gives where there is room. -/
theorem readRaw_done {r : BitReader} {bitCount : Nat} (hroom : r.position + bitCount ≤ r.bitCount) :
    ∃ bytes s, readRaw bitCount r = .done bytes s ∧ bytes.length = (bitCount + 7) / 8 ∧
      (∀ i, bitAt bytes i = (decide (i < bitCount) && bitAt r.data (r.position + i))) ∧
      s.data = r.data ∧ s.bitCount = r.bitCount ∧ s.position = r.position + bitCount := by
  obtain ⟨writer, s, hread, hholds, hplace, hdata, hcount, hposition⟩ :=
    readBits_holds bitCount (BitWriter.holds_empty fun i => bitAt r.data (r.position + i)) hroom
      fun j _ => by rw [Nat.zero_add]
  rw [Nat.zero_add] at hplace
  refine ⟨writer.intoBytes, s, Decoder.bind_done.2 ⟨writer, s, hread, rfl⟩, ?_, fun i => ?_, hdata,
    hcount, hposition⟩
  · rw [hholds.intoBytes, hholds.length, hplace]
  · rw [hholds.intoBytes]
    by_cases hi : i < bitCount
    · rw [hholds.written i (by omega)]
      simp [hi]
    · rw [hholds.clear i (by omega)]
      simp [hi]

end Reading

namespace BitWriter

/-- **Raw bits are read back.** -/
theorem conveys_readRaw {w w' : BitWriter} {data : List UInt8} {bitCount : Option Nat}
    (hw : w.Tidy) (h : w.writeRaw data bitCount = .ok w') :
    Conveys BitReader w w' (Reading.readRaw (bitCount.getD (data.length * 8)))
      (· = Reading.leadingBits data (bitCount.getD (data.length * 8))) := by
  obtain ⟨hposition, -, hbits⟩ := writeRaw_ok hw h
  intro r hr
  have hplace : r.position = w.position := hr.position
  have hsize : w'.position ≤ r.bitCount := hr.size
  have hroom : r.position + bitCount.getD (data.length * 8) ≤ r.bitCount := by omega
  obtain ⟨bytes, s, hread, hlength, hbytes, hdata, hcount, hposition'⟩ :=
    Reading.readRaw_done hroom
  refine ⟨bytes, s, hread, ?_, ⟨congrArg bitAt hdata, hcount, ?_⟩, ?_⟩
  · refine eq_of_bitAt (by rw [hlength, Reading.length_leadingBits]) fun i _ => ?_
    rw [hbytes, Reading.bitAt_leadingBits]
    by_cases hi : i < bitCount.getD (data.length * 8)
    · have hbit : bitAt r.data (r.position + i) = bitAt w'.data (r.position + i) :=
        hr.bit _ (by show r.position + i < w'.position; omega)
      rw [hbit, hbits, if_pos (by omega), hplace, Nat.add_sub_cancel_left]
    · simp [hi]
  · show r.position ≤ s.position
    omega
  · show s.position = w'.position
    omega

/-- Bytes are raw bits of whole bytes. -/
theorem leadingBits_all (data : List UInt8) :
    Reading.leadingBits data (data.length * 8) = data := by
  refine eq_of_bitAt (by rw [Reading.length_leadingBits]; omega) fun i hi => ?_
  rw [Reading.length_leadingBits] at hi
  have hin : i < data.length * 8 := by omega
  rw [Reading.bitAt_leadingBits]
  simp [hin]

theorem goes_copyBytes' {w w' : BitWriter} {data : List UInt8} (hw : w.Tidy)
    (h : w.copyBytes data = .ok w') : Goes w w' := by
  by_cases hboundary : w.position % 8 = 0
  · exact goes_copyBytes hw hboundary h
  · rw [copyBytes, if_neg hboundary] at h
    exact goes_writeRaw hw h

/-- Bytes are read back, copied or bit by bit. -/
theorem conveys_copyBytes' {w w' : BitWriter} {data : List UInt8} (hw : w.Tidy)
    (hsize : w'.position < 2 ^ 64) (h : w.copyBytes data = .ok w') :
    Conveys BitReader w w' (Reading.copyBytes data.length) (· = data) := by
  by_cases hboundary : w.position % 8 = 0
  · refine conveys_copyBytes hw hboundary ?_ h
    rw [copyBytes_eq hw hboundary] at h
    obtain rfl := Except.ok.inj h
    dsimp only at hsize
    omega
  · rw [copyBytes, if_neg hboundary] at h
    have hconveys := conveys_readRaw hw h
    rw [Option.getD_none, leadingBits_all] at hconveys
    intro r hr
    have hplace : r.position = w.position := hr.position
    rw [Reading.copyBytes_of_inside (by omega)]
    exact hconveys r hr

theorem exists_copyBytes (w : BitWriter) (data : List UInt8) : ∃ w', w.copyBytes data = .ok w' := by
  unfold copyBytes
  split_ifs
  · exact ⟨_, rfl⟩
  · simp [writeRaw]

/-! ## The operations with the state that an error leaves -/

/-- A method of the writer. -/
abbrev Method : Type := Stateful BitWriter Error Unit

namespace Method

open Stateful

def write (value width : Nat) : Method := do
  if width > 64 then fail (.bsnWire "integer fields wider than 64 bits are unsupported")
  else if width < 64 ∧ 2 ^ width ≤ value then
    fail (.bsnWire s!"value {value} does not fit in {width} bits")
  else
    change fun w => w.ensureCapacity (w.position + width)
    change fun w => {
      data := writeChunks width w.data w.position width value
      position := w.position + width }

def align : Method := do
  let w ← read
  let padding := (8 - w.position % 8) % 8
  if padding > 0 then write 0 padding else return

def writeRaw (data : List UInt8) (bitCount : Option Nat) : Method := do
  let bitCount := bitCount.getD (data.length * 8)
  if bitCount > data.length * 8 then
    fail (.bsnWire "bit count is outside the supplied buffer")
  else
    change fun w => w.ensureCapacity (w.position + bitCount)
    change fun w => (List.range bitCount).foldl (fun w i => w.putBit (bitAt data i)) w

def copyBytes (data : List UInt8) : Method := do
  let w ← read
  if w.position % 8 = 0 then
    change fun w => w.ensureCapacity (w.position + data.length * 8)
    change fun w => {
      data := w.data.take (w.position / 8) ++ data ++ w.data.drop (w.position / 8 + data.length)
      position := w.position + data.length * 8 }
  else writeRaw data none

def writeBytes (data : List UInt8) (aligned : Bool) : Method := do
  if aligned then align else pure ()
  copyBytes data

/-- A result with the state: an error leaves the one before. -/
def settled (w : BitWriter) : Except Error BitWriter → Except Error Unit × BitWriter
  | .ok w' => (.ok (), w')
  | .error error => (.error error, w)

theorem write_eq (w : BitWriter) (value width : Nat) :
    write value width w = settled w (w.write value width) := by
  unfold write BitWriter.write
  split_ifs <;> rfl

theorem align_eq (w : BitWriter) : align w = settled w w.align := by
  unfold align BitWriter.align
  rw [bind_apply, read_apply]
  dsimp only
  split_ifs
  · exact write_eq w 0 _
  · rfl

theorem writeRaw_eq (w : BitWriter) (data : List UInt8) (bitCount : Option Nat) :
    writeRaw data bitCount w = settled w (w.writeRaw data bitCount) := by
  unfold writeRaw BitWriter.writeRaw
  dsimp only
  split_ifs <;> rfl

theorem copyBytes_eq (w : BitWriter) (data : List UInt8) :
    copyBytes data w = settled w (w.copyBytes data) := by
  unfold copyBytes BitWriter.copyBytes
  rw [bind_apply, read_apply]
  dsimp only
  split_ifs
  · rfl
  · exact writeRaw_eq w data none

/-- Neither the alignment nor the bytes behind it can fail. -/
theorem writeBytes_eq (w : BitWriter) (data : List UInt8) (aligned : Bool) :
    writeBytes data aligned w = settled w (w.writeBytes data aligned) := by
  unfold writeBytes BitWriter.writeBytes
  cases aligned with
  | false => exact copyBytes_eq w data
  | true =>
    obtain ⟨w₁, halign⟩ := w.exists_align
    obtain ⟨w₂, hcopy⟩ := w₁.exists_copyBytes data
    have hfirst : align w = (.ok (), w₁) := by rw [align_eq, halign]; rfl
    rw [if_pos rfl, if_pos rfl, bind_of_ok hfirst, halign]
    show copyBytes data w₁ = settled w (w₁.copyBytes data)
    rw [copyBytes_eq, hcopy]
    rfl

end Method

/-! ## Sequences of operations -/

inductive Op where
  | write (value : UInt64) (width : Nat)
  | writeRaw (data : List UInt8) (bitCount : Option Nat)
  | align
  | writeBytes (data : List UInt8) (aligned : Bool)

/-- What an operation gives the reader: a number, some bytes, or how many bits it skips. -/
inductive Item where
  | number (value : Nat)
  | bytes (bytes : List UInt8)
  | skipped (bits : Nat)
  deriving DecidableEq

namespace Op

def method : Op → Method
  | .write value width => Method.write value.toNat width
  | .writeRaw data bitCount => Method.writeRaw data bitCount
  | .align => Method.align
  | .writeBytes data aligned => Method.writeBytes data aligned

/-- The operation as a function that gives the writer or an error. -/
def write? (w : BitWriter) : Op → Except Error BitWriter
  | .write value width => w.write value.toNat width
  | .writeRaw data bitCount => w.writeRaw data bitCount
  | .align => w.align
  | .writeBytes data aligned => w.writeBytes data aligned

/-- The matching operation of the reader. -/
def reader : Op → Reading Item
  | .write _ width => Item.number <$> Reading.read width
  | .writeRaw data bitCount => Item.bytes <$> Reading.readRaw (bitCount.getD (data.length * 8))
  | .align => Item.skipped <$> Reading.align
  | .writeBytes data aligned => Item.bytes <$> Reading.readBytes data.length aligned

/-- What was written. -/
def item (w : BitWriter) : Op → Item
  | .write value _ => .number value.toNat
  | .writeRaw data bitCount =>
    .bytes (Reading.leadingBits data (bitCount.getD (data.length * 8)))
  | .align => .skipped ((8 - w.position % 8) % 8)
  | .writeBytes data _ => .bytes data

theorem apply_eq (op : Op) (w : BitWriter) : op.method w = Method.settled w (op.write? w) := by
  cases op with
  | write value width => exact Method.write_eq w value.toNat width
  | writeRaw data bitCount => exact Method.writeRaw_eq w data bitCount
  | align => exact Method.align_eq w
  | writeBytes data aligned => exact Method.writeBytes_eq w data aligned

/-- **An operation that fails changes nothing.** -/
theorem unchanged_of_error {op : Op} {w : BitWriter} {error : Error}
    (h : (op.method w).1 = .error error) : (op.method w).2 = w := by
  rw [apply_eq] at h ⊢
  cases hop : op.write? w with
  | ok w' =>
    rw [hop] at h
    cases h
  | error error => rfl

theorem goes {op : Op} {w w' : BitWriter} (hw : w.Tidy) (h : op.write? w = .ok w') :
    Goes w w' := by
  cases op with
  | write value width => exact goes_write hw h
  | writeRaw data bitCount => exact goes_writeRaw hw h
  | align => exact goes_align hw h
  | writeBytes data aligned =>
    cases aligned with
    | false => exact goes_copyBytes' hw h
    | true => exact goes_writeBytes hw h

/-- **What an operation writes is read back.** -/
theorem conveys {op : Op} {w w' : BitWriter} (hw : w.Tidy) (hsize : w'.position < 2 ^ 64)
    (h : op.write? w = .ok w') : Conveys BitReader w w' op.reader (· = op.item w) := by
  cases op with
  | write value width =>
    exact (conveys_read hw value.toNat_lt h).map fun _ => congrArg Item.number
  | writeRaw data bitCount => exact (conveys_readRaw hw h).map fun _ => congrArg Item.bytes
  | align => exact (conveys_align hw h).map fun _ => congrArg Item.skipped
  | writeBytes data aligned =>
    refine Conveys.map ?_ fun _ => congrArg Item.bytes
    cases aligned with
    | false => exact conveys_copyBytes' hw hsize h
    | true =>
      obtain ⟨w₁, halign, hcopy⟩ := except_bind_ok.1 h
      have hgoes := goes_align hw halign
      have hcopied := goes_copyBytes' hgoes.tidy hcopy
      refine (conveys_align hw halign).bind hcopied.extends_ fun _ _ => ?_
      exact conveys_copyBytes' hgoes.tidy hsize hcopy

end Op

/-- The writer after the operations, whether they succeed or fail. -/
def applyAll (w : BitWriter) (ops : List Op) : BitWriter :=
  run (fun w (op : Op) => (op.method w).2) w ops

/-- The operations that succeed. -/
def succeeded : BitWriter → List Op → List Op
  | _, [] => []
  | w, op :: ops =>
    (if (op.method w).1.isOk then [op] else []) ++ succeeded (op.method w).2 ops

/-- What those write. -/
def items : BitWriter → List Op → List Item
  | _, [] => []
  | w, op :: ops =>
    (if (op.method w).1.isOk then [op.item w] else []) ++ items (op.method w).2 ops

/-- The matching operations of the reader, one after another. -/
def readAll : List Op → Reading (List Item)
  | [] => return []
  | op :: ops => do
    let item ← op.reader
    let items ← readAll ops
    return item :: items

theorem goes_applyAll {w : BitWriter} (hw : w.Tidy) (ops : List Op) : Goes w (w.applyAll ops) := by
  induction ops generalizing w with
  | nil => exact ⟨hw, Extends.refl w⟩
  | cons op ops ih =>
    rw [applyAll, run_cons, op.apply_eq]
    cases hop : op.write? w with
    | error error => exact ih hw
    | ok w' =>
      have hgoes := op.goes hw hop
      exact hgoes.trans (ih hgoes.tidy)

theorem conveys_readAll {w : BitWriter} (hw : w.Tidy) (ops : List Op)
    (hsize : (w.applyAll ops).position < 2 ^ 64) :
    Conveys BitReader w (w.applyAll ops) (readAll (succeeded w ops)) (· = items w ops) := by
  induction ops generalizing w with
  | nil => exact Conveys.pure rfl
  | cons op ops ih =>
    rw [applyAll, run_cons, op.apply_eq] at hsize ⊢
    rw [succeeded, items, op.apply_eq]
    cases hop : op.write? w with
    | error error =>
      rw [hop] at hsize
      exact ih hw hsize
    | ok w' =>
      rw [hop] at hsize
      have hgoes := op.goes hw hop
      have hrest := goes_applyAll hgoes.tidy ops
      have hposition : w'.position ≤ (w'.applyAll ops).position := hrest.extends_.position
      have hfirst := op.conveys hw (hposition.trans_lt hsize) hop
      refine hfirst.bind hrest.extends_ fun item hitem => ?_
      refine (ih hgoes.tidy hsize).bind (Extends.refl _) fun others hothers => ?_
      exact Conveys.pure (by rw [hitem, hothers]; rfl)

/-- `as_bytes`. -/
def asBytes (w : BitWriter) : List UInt8 := w.data.take ((w.position + 7) / 8)

/-- **Whatever is written is read back.** From a new writer, after any operations, the reader gets
the value of every one that succeeded, and nothing remains; those that failed changed nothing; and
behind the last bit there are zeros. A position is a `usize` of 64 bits. -/
theorem round_trips (ops : List Op) (hsize : (applyAll {} ops).position < 2 ^ 64) :
    (∃ r s, BitReader.new (applyAll {} ops).asBytes (some (applyAll {} ops).position) = .ok r ∧
      readAll (succeeded {} ops) r = .done (items {} ops) s ∧ s.remaining = 0) ∧
    (∀ before op error, before ++ [op] <+: ops →
      (op.method (applyAll {} before)).1 = .error error →
        (op.method (applyAll {} before)).2 = applyAll {} before) ∧
    ∀ i, (applyAll {} ops).position ≤ i → bitAt (applyAll {} ops).asBytes i = false := by
  have hgoes := goes_applyAll tidy_empty ops
  have hbytes : (applyAll {} ops).asBytes = (applyAll {} ops).data := by
    rw [asBytes, ← hgoes.tidy.length, List.take_length]
  refine ⟨?_, fun before op error _ h => Op.unchanged_of_error h, ?_⟩
  · have hsupplied : (applyAll {} ops).position ≤ 8 * (applyAll {} ops).data.length := by
      rw [hgoes.tidy.length]
      omega
    let r : BitReader := {
      data := (applyAll {} ops).data
      bitCount := (applyAll {} ops).position
      position := 0
      supplied := hsupplied
      reached := Nat.zero_le _ }
    obtain ⟨found, s, hread, rfl, honward, hposition⟩ := conveys_readAll tidy_empty ops hsize r
      ⟨rfl, fun _ _ => rfl, Nat.le_refl _⟩
    refine ⟨r, s, ?_, hread, ?_⟩
    · rw [hbytes, BitReader.new, Option.getD_some, dif_pos hsupplied]
    · have hplace : s.position = (applyAll {} ops).position := hposition
      have hcount : s.bitCount = (applyAll {} ops).position := honward.size
      rw [BitReader.remaining, hplace, hcount, Nat.sub_self]
  · rw [hbytes]
    exact hgoes.tidy.clear

/-- A field, raw bits across a byte, and bytes off and on a boundary. -/
theorem round_trips_mixed :
    ∃ r s, BitReader.new (applyAll {} [.write 5 3, .writeRaw [0xff] (some 7),
        .writeBytes [97] false, .writeBytes [98] true]).asBytes (some 32) = .ok r ∧
      readAll [.write 5 3, .writeRaw [0xff] (some 7), .writeBytes [97] false,
        .writeBytes [98] true] r =
        .done [.number 5, .bytes [0x7f], .bytes [97], .bytes [98]] s ∧ s.remaining = 0 :=
  (round_trips [.write 5 3, .writeRaw [0xff] (some 7), .writeBytes [97] false,
    .writeBytes [98] true] (by decide +kernel)).1

end BitWriter

end Superiority.Bsn
