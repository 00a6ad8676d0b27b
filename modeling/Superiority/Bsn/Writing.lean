import Superiority.Bsn.Reading
import Superiority.Library.Fallible
import Superiority.Library.Pen

/-!
# Writing to the bit stream

The rest of the writer of `bsn/bits.rs`, and what each of its operations writes for the reader.

* A **`Tidy`** writer has no more bytes than its bits take and zeros behind them; every operation
  keeps it so.
* **`conveys_read`**, **`conveys_align`**, **`conveys_readBytes`** – the reading operation gives back
  what the writing operation was given.
-/

namespace Superiority.Bsn

instance : Pen BitWriter where
  bit w := bitAt w.data
  position w := w.position

namespace BitWriter

/-- One round of the loop of `write_raw`, which only sets bits. -/
def putBit (w : BitWriter) (bit : Bool) : BitWriter where
  data :=
    if bit then
      w.data.set (w.position / 8)
        (w.data.getD (w.position / 8) 0 ||| (1 <<< UInt8.ofNat (w.position % 8)))
    else w.data
  position := w.position + 1

def writeRaw (w : BitWriter) (data : List UInt8) (bitCount : Option Nat) :
    Except Error BitWriter :=
  let bitCount := bitCount.getD (data.length * 8)
  if bitCount > data.length * 8 then
    .error (.bsnWire "bit count is outside the supplied buffer")
  else
    .ok ((List.range bitCount).foldl (fun w i => w.putBit (bitAt data i))
      (w.ensureCapacity (w.position + bitCount)))

/-- The rest of `write_bytes`: on a byte boundary whole bytes are copied. -/
def copyBytes (w : BitWriter) (data : List UInt8) : Except Error BitWriter :=
  if w.position % 8 = 0 then
    let start := w.position / 8
    let room := (w.ensureCapacity (w.position + data.length * 8)).data
    .ok {
      data := room.take start ++ data ++ room.drop (start + data.length)
      position := w.position + data.length * 8 }
  else w.writeRaw data none

def writeBytes (w : BitWriter) (data : List UInt8) (aligned : Bool) : Except Error BitWriter := do
  let w ← if aligned then w.align else .ok w
  w.copyBytes data

/-- No more bytes than the bits take, and zeros behind them. -/
structure Tidy (w : BitWriter) : Prop where
  length : w.data.length = (w.position + 7) / 8
  clear : ∀ i, w.position ≤ i → bitAt w.data i = false

theorem tidy_empty : Tidy {} where
  length := rfl
  clear i _ := by simp [bitAt]

/-- What an operation does to the stream: it goes on from where it was. -/
structure Goes (w w' : BitWriter) : Prop where
  tidy : w'.Tidy
  extends_ : Extends w w'

theorem Goes.trans {w w₁ w₂ : BitWriter} (h : Goes w w₁) (h' : Goes w₁ w₂) : Goes w w₂ :=
  ⟨h'.tidy, h.extends_.trans h'.extends_⟩

theorem length_ensureCapacity {w : BitWriter} (hw : w.Tidy) {bitCount : Nat}
    (h : w.position ≤ bitCount) :
    (w.ensureCapacity bitCount).data.length = (bitCount + 7) / 8 := by
  have hlength := hw.length
  simp only [ensureCapacity, List.length_append, List.length_replicate]
  omega

/-! ## Fields -/

theorem goes_write {w w' : BitWriter} {value width : Nat} (hw : w.Tidy)
    (h : w.write value width = .ok w') : Goes w w' := by
  obtain ⟨-, -, hposition, hdata⟩ := write_ok h
  have hlength := length_ensureCapacity hw (Nat.le_add_right w.position width)
  have hbits : ∀ i, bitAt w'.data i = if w.position ≤ i ∧ i < w.position + width
      then value.testBit (weight w.position width i) else bitAt w.data i := by
    intro i
    rw [hdata, bitAt_writeChunks (Nat.le_refl _) (by omega), bitAt_ensureCapacity]
  refine ⟨⟨?_, fun i hi => ?_⟩, ⟨?_, fun i hi => ?_⟩⟩
  · rw [hdata, length_writeChunks, hlength, hposition]
  · rw [hbits, if_neg (by omega), hw.clear i (by omega)]
  · exact (Nat.le_add_right _ _).trans_eq hposition.symm
  · have hi : i < w.position := hi
    show bitAt w'.data i = bitAt w.data i
    rw [hbits, if_neg (by omega)]

/-- What was written as a field is read as a field. -/
theorem conveys_read {w w' : BitWriter} {value width : Nat} (hw : w.Tidy) (hvalue : value < 2 ^ 64)
    (h : w.write value width = .ok w') : Conveys BitReader w w' (Reading.read width) (· = value) := by
  obtain ⟨hwide, hfits, hposition, hdata⟩ := write_ok h
  have hlt : value < 2 ^ width := by
    by_cases hwidth : width < 64
    · exact hfits hwidth
    · obtain rfl : width = 64 := by omega
      exact hvalue
  intro r hr
  have hplace : r.position = w.position := hr.position
  have hsize : w'.position ≤ r.bitCount := hr.size
  obtain ⟨s, hs, hsdata, hscount, hsposition⟩ := r.read_of_room hwide (by omega)
  have hsame : field r.data w.position width = field w'.data w.position width :=
    field_congr fun i _ hi => hr.bit i (hi.trans_eq hposition.symm)
  have hfield : field r.data r.position width = value := by
    rw [hplace, hsame, hdata]
    refine field_writeChunks ?_ hlt
    have hlength := length_ensureCapacity hw (Nat.le_add_right w.position width)
    omega
  refine ⟨_, s, ?_, hfield, ⟨congrArg bitAt hsdata, hscount, ?_⟩, ?_⟩
  · rw [Reading.read, Decoder.lift, hs]
  · show r.position ≤ s.position
    omega
  · show s.position = w'.position
    omega

/-! ## Alignment -/

theorem align_position {w w' : BitWriter} (h : w.align = .ok w') :
    w'.position = w.position + (8 - w.position % 8) % 8 := by
  unfold align at h
  by_cases hpadding : (8 - w.position % 8) % 8 > 0
  · simp only [if_pos hpadding] at h
    exact (write_ok h).2.2.1
  · simp only [if_neg hpadding] at h
    obtain rfl := Except.ok.inj h
    omega

theorem goes_align {w w' : BitWriter} (hw : w.Tidy) (h : w.align = .ok w') : Goes w w' := by
  unfold align at h
  by_cases hpadding : (8 - w.position % 8) % 8 > 0
  · simp only [if_pos hpadding] at h
    exact goes_write hw h
  · simp only [if_neg hpadding] at h
    obtain rfl := Except.ok.inj h
    exact ⟨hw, Extends.refl w⟩

theorem exists_align {w : BitWriter} : ∃ w', w.align = .ok w' := by
  unfold align
  by_cases hpadding : (8 - w.position % 8) % 8 > 0
  · obtain ⟨w', h⟩ := w.exists_write (by omega : (8 - w.position % 8) % 8 ≤ 64) (Nat.two_pow_pos _)
    exact ⟨w', by simp only [if_pos hpadding, h]⟩
  · exact ⟨w, by simp only [if_neg hpadding]⟩

/-- The reader skips what the writer has filled up. -/
theorem conveys_align {w w' : BitWriter} (hw : w.Tidy) (h : w.align = .ok w') :
    Conveys BitReader w w' Reading.align (· = (8 - w.position % 8) % 8) := by
  refine Conveys.place.bind_still (goes_align hw h).extends_ fun position hposition => ?_
  obtain rfl : position = w.position := hposition
  unfold align at h
  by_cases hpadding : (8 - w.position % 8) % 8 > 0
  · simp only [if_pos hpadding] at h ⊢
    refine (conveys_read hw (by omega) h).bind (Extends.refl _) fun _ _ => ?_
    exact Conveys.pure rfl
  · simp only [if_neg hpadding] at h ⊢
    obtain rfl := Except.ok.inj h
    exact Conveys.pure rfl

/-! ## Whole bytes -/

theorem bitAt_append {front back : List UInt8} {i : Nat} (h : i / 8 < front.length) :
    bitAt (front ++ back) i = bitAt front i := by
  simp only [bitAt, List.getD_eq_getElem?_getD, List.getElem?_append_left h]

theorem bitAt_of_length_le {data : List UInt8} {i : Nat} (h : data.length ≤ i / 8) :
    bitAt data i = false := by
  simp [bitAt, List.getD_eq_getElem?_getD, List.getElem?_eq_none h]

/-- On a byte boundary the bytes are appended. -/
theorem copyBytes_eq {w : BitWriter} (hw : w.Tidy) (hboundary : w.position % 8 = 0)
    (data : List UInt8) : w.copyBytes data = .ok {
      data := w.data ++ data
      position := w.position + data.length * 8 } := by
  have hstart : w.data.length = w.position / 8 := by
    rw [hw.length]
    omega
  have hroom : (w.ensureCapacity (w.position + data.length * 8)).data.length =
      w.position / 8 + data.length := by
    rw [length_ensureCapacity hw (Nat.le_add_right _ _)]
    omega
  rw [copyBytes, if_pos hboundary]
  dsimp only
  rw [List.drop_of_length_le (Nat.le_of_eq hroom), List.append_nil]
  rw [ensureCapacity, ← hstart, List.take_left]

theorem goes_copyBytes {w w' : BitWriter} {data : List UInt8} (hw : w.Tidy)
    (hboundary : w.position % 8 = 0) (h : w.copyBytes data = .ok w') : Goes w w' := by
  rw [copyBytes_eq hw hboundary] at h
  obtain rfl := Except.ok.inj h
  have hlength := hw.length
  refine ⟨⟨?_, fun i hi => ?_⟩, ⟨Nat.le_add_right _ _, fun i hi => ?_⟩⟩
  · show (w.data ++ data).length = (w.position + data.length * 8 + 7) / 8
    rw [List.length_append]
    omega
  · have hi : w.position + data.length * 8 ≤ i := hi
    refine bitAt_of_length_le ?_
    rw [List.length_append]
    omega
  · have hi : i < w.position := hi
    exact bitAt_append (by omega)

/-- Bytes that were copied are copied back. A `usize` has 64 bits. -/
theorem conveys_copyBytes {w w' : BitWriter} {data : List UInt8} (hw : w.Tidy)
    (hboundary : w.position % 8 = 0) (hsize : w.position / 8 + data.length < 2 ^ 64)
    (h : w.copyBytes data = .ok w') :
    Conveys BitReader w w' (Reading.copyBytes data.length) (· = data) := by
  have hgoes := goes_copyBytes hw hboundary h
  rw [copyBytes_eq hw hboundary] at h
  obtain rfl := Except.ok.inj h
  intro r hr
  have hplace : r.position = w.position := hr.position
  have hroom : w.position + data.length * 8 ≤ r.bitCount := hr.size
  have hsupplied := r.supplied
  have hstart : w.data.length = w.position / 8 := by
    rw [hw.length]
    omega
  have hstop : (r.position / 8 + data.length) * 8 ≤ r.bitCount := by omega
  have hbytes : (r.data.drop (r.position / 8)).take data.length = data := by
    have hsame : (r.data.drop (r.position / 8)).take data.length =
        ((w.data ++ data).drop (r.position / 8)).take data.length := by
      refine Reading.take_drop_congr (by omega) ?_ fun i hi => hr.bit i ?_
      · rw [List.length_append]
        omega
      · show i < w.position + data.length * 8
        omega
    rw [hsame, hplace, ← hstart, List.drop_left, List.take_length]
  refine ⟨data, { r with
    position := (r.position / 8 + data.length) * 8
    reached := hstop }, ?_, rfl, ⟨rfl, rfl, ?_⟩, ?_⟩
  · exact (Reading.copyBytes_done (by omega)).2 ⟨by omega, hstop, hbytes.symm, rfl, rfl, rfl⟩
  · show r.position ≤ (r.position / 8 + data.length) * 8
    omega
  · show (r.position / 8 + data.length) * 8 = w.position + data.length * 8
    omega

theorem aligned_position {w w' : BitWriter} (h : w.align = .ok w') : w'.position % 8 = 0 := by
  rw [align_position h]
  omega

theorem goes_writeBytes {w w' : BitWriter} {data : List UInt8} (hw : w.Tidy)
    (h : w.writeBytes data true = .ok w') : Goes w w' := by
  obtain ⟨w₁, halign, hcopy⟩ := except_bind_ok.1 h
  have hgoes := goes_align hw halign
  exact hgoes.trans (goes_copyBytes hgoes.tidy (aligned_position halign) hcopy)

theorem exists_writeBytes {w : BitWriter} (hw : w.Tidy) (data : List UInt8) :
    ∃ w', w.writeBytes data true = .ok w' := by
  obtain ⟨w₁, halign⟩ := w.exists_align
  have hgoes := goes_align hw halign
  exact ⟨_, except_bind_ok.2 ⟨w₁, halign, copyBytes_eq hgoes.tidy (aligned_position halign) data⟩⟩

/-- Aligned bytes are read back. -/
theorem conveys_readBytes {w w' : BitWriter} {data : List UInt8} (hw : w.Tidy)
    (hsize : w.position / 8 + 1 + data.length < 2 ^ 64) (h : w.writeBytes data true = .ok w') :
    Conveys BitReader w w' (Reading.readBytes data.length true) (· = data) := by
  obtain ⟨w₁, halign, hcopy⟩ := except_bind_ok.1 h
  have hgoes := goes_align hw halign
  have hposition := align_position halign
  have hboundary := aligned_position halign
  have hcopied := goes_copyBytes hgoes.tidy hboundary hcopy
  refine (conveys_align hw halign).bind hcopied.extends_ fun _ _ => ?_
  exact conveys_copyBytes hgoes.tidy hboundary (by omega) hcopy

end BitWriter

end Superiority.Bsn
