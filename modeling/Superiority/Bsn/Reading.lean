import Superiority.Bsn.Bits
import Superiority.Library.Decoder

/-!
# Reading from the bit stream

The reading operations of `bsn/bits.rs` as decoders. An error of the reader that says
`IncompleteFrame` asks for more of the stream.

**`stable_read`**, **`stable_readRaw`**, **`stable_readBytes`** – each operation depends on the bits
it reads, and runs short when the buffer ends before them.
-/

namespace Superiority.Bsn

instance : Tape BitReader where
  bit r := bitAt r.data
  size r := r.bitCount
  position r := r.position
  reached r := r.reached

/-- The buffer ended before what was to be read. -/
def Incomplete : Error → Prop
  | .incompleteFrame _ => True
  | _ => False

abbrev Reading : Type → Type := Decoder BitReader Error

namespace Reading

def read (width : Nat) : Reading Nat := Decoder.lift (·.read width)

/-- `set_position`. -/
def seek (position : Nat) : Reading Unit := Decoder.lift fun r =>
  (r.setPosition position).map ((), ·)

/-- `set_position` and `read`. -/
def readAt (position width : Nat) : Reading Nat := do
  seek position
  read width

/-- `align`: the bits up to the next byte are skipped. -/
def align : Reading Nat := do
  let position ← Tape.place
  let skipped := (8 - position % 8) % 8
  if skipped > 0 then
    let _ ← read skipped
    return skipped
  else return skipped

/-- The loop of `read_raw`: bit after bit goes to a writer. -/
def readBits : Nat → BitWriter → Reading BitWriter
  | 0, writer => return writer
  | count + 1, writer => do
    let bit ← read 1
    let writer ← Decoder.ofExcept (writer.write bit 1)
    readBits count writer

def readRaw (bitCount : Nat) : Reading (List UInt8) := do
  let writer ← readBits bitCount {}
  return writer.intoBytes

/-- The rest of `read_bytes`: on a byte boundary whole bytes are copied. A `usize` has 64 bits. -/
def copyBytes (byteCount : Nat) : Reading (List UInt8) := fun r =>
  if r.position % 8 = 0 then
    let start := r.position / 8
    let stop := start + byteCount
    if stop ≥ 2 ^ 64 then .failed (.bsnWire "byte count overflows") r
    else if h : stop * 8 ≤ r.bitCount then
      .done ((r.data.drop start).take byteCount) { r with position := stop * 8, reached := h }
    else .failed (.incompleteFrame
      s!"need {byteCount * 8} bits at position {r.position}, only {r.remaining} remain") r
  else readRaw (byteCount * 8) r

def readBytes (byteCount : Nat) (aligned : Bool) : Reading (List UInt8) :=
  if aligned then do
    let _ ← align
    copyBytes byteCount
  else copyBytes byteCount

/-! ## What they depend on -/

theorem read_done {r s : BitReader} {width value : Nat} :
    read width r = .done value s ↔
      width ≤ 64 ∧ width ≤ r.remaining ∧ value = field r.data r.position width ∧
        s.data = r.data ∧ s.bitCount = r.bitCount ∧ s.position = r.position + width := by
  rw [← BitReader.read_ok, read, Decoder.lift]
  cases h : r.read width with
  | ok result =>
    obtain ⟨value', s'⟩ := result
    simp
  | error e => simp

theorem seek_done {position : Nat} {r s : BitReader} {u : Unit} :
    seek position r = .done u s ↔
      position ≤ r.bitCount ∧ s.data = r.data ∧ s.bitCount = r.bitCount ∧ s.position = position := by
  unfold seek Decoder.lift BitReader.setPosition
  by_cases hroom : position ≤ r.bitCount
  · simp only [dif_pos hroom, Except.map]
    constructor
    · intro h
      obtain ⟨-, rfl⟩ := Outcome.done.inj h
      exact ⟨hroom, rfl, rfl, rfl⟩
    · rintro ⟨-, hdata, hcount, hposition⟩
      cases s
      subst hdata hcount hposition
      rfl
  · simp [hroom, Except.map]

theorem readAt_done {position width value : Nat} {r s : BitReader} :
    readAt position width r = .done value s ↔
      width ≤ 64 ∧ position + width ≤ r.bitCount ∧ value = field r.data position width ∧
        s.data = r.data ∧ s.bitCount = r.bitCount ∧ s.position = position + width := by
  constructor
  · intro h
    obtain ⟨_, t, hseek, h⟩ := Decoder.bind_done.1 h
    obtain ⟨hroom, hdata, hcount, hposition⟩ := seek_done.1 hseek
    obtain ⟨hwide, hremaining, hvalue, hdata', hcount', hposition'⟩ := read_done.1 h
    simp only [BitReader.remaining, hcount, hposition] at hremaining
    exact ⟨hwide, by omega, by rw [hvalue, hdata, hposition], hdata'.trans hdata,
      hcount'.trans hcount, by rw [hposition', hposition]⟩
  · rintro ⟨hwide, hroom, hvalue, hdata, hcount, hposition⟩
    have hposition' : position ≤ r.bitCount := (Nat.le_add_right _ _).trans hroom
    let t : BitReader := { r with position := position, reached := hposition' }
    refine Decoder.bind_done.2 ⟨(), t, seek_done.2 ⟨hposition', rfl, rfl, rfl⟩, ?_⟩
    refine read_done.2 ⟨hwide, ?_, hvalue, hdata, hcount, hposition⟩
    simp only [BitReader.remaining, t]
    omega

/-- A field that is not too wide and does not fit runs short. -/
theorem read_incomplete {r : BitReader} {width : Nat} (hwide : width ≤ 64)
    (hroom : r.remaining < width) : ∃ e, read width r = .failed e r ∧ Incomplete e := by
  refine ⟨.incompleteFrame
    s!"need {width} bits at position {r.position}, only {r.remaining} remain", ?_, trivial⟩
  simp [read, Decoder.lift, BitReader.read, Nat.not_lt.2 hwide, Nat.not_le.2 hroom]

theorem stable_read (width : Nat) : Stable Incomplete (read width) where
  onward h := by
    obtain ⟨-, -, -, hdata, hcount, hposition⟩ := read_done.1 h
    exact ⟨congrArg bitAt hdata, hcount, (Nat.le_add_right _ _).trans_eq hposition.symm⟩
  whole {r r' s value} h hagree hsize := by
    obtain ⟨hwide, hroom, rfl, hdata, hcount, hposition⟩ := read_done.1 h
    have hplace : r.position = s.position := hagree.position
    have hstop : s.position + width ≤ s.bitCount := by
      have hsize : r'.position ≤ s.bitCount := hsize
      omega
    obtain ⟨s', hs', hdata', hcount', hposition'⟩ := s.read_of_room hwide hstop
    have hfield : field s.data s.position width = field r.data r.position width := by
      rw [← hplace]
      refine (field_congr fun i _ hi => hagree.bit i ?_).symm
      exact hi.trans_eq hposition.symm
    rw [← hfield]
    refine ⟨s', ?_, ⟨congrArg bitAt hdata', hcount', ?_⟩, ?_⟩
    · rw [read, Decoder.lift, hs']
    · exact (Nat.le_add_right _ _).trans_eq hposition'.symm
    · exact hposition.trans (by rw [hplace]; exact hposition'.symm)
  cut {r r' s value} h hagree hsize := by
    obtain ⟨hwide, hroom, rfl, hdata, hcount, hposition⟩ := read_done.1 h
    have hplace : r.position = s.position := hagree.position
    have hshort : s.remaining < width := by
      have hsize : s.bitCount < r'.position := hsize
      have hreached := s.reached
      simp only [BitReader.remaining]
      omega
    obtain ⟨e, he, hincomplete⟩ := read_incomplete hwide hshort
    exact ⟨e, s, he, hincomplete⟩
  refused {r r' s e} h hshort hagree hsize := by
    by_cases hwide : width ≤ 64
    · exfalso
      by_cases hroom : width ≤ r.remaining
      · simp [read, Decoder.lift, BitReader.read, Nat.not_lt.2 hwide, hroom] at h
      · obtain ⟨e', he', hincomplete⟩ := read_incomplete hwide (Nat.not_le.1 hroom)
        rw [he'] at h
        exact hshort ((Outcome.failed.inj h).1 ▸ hincomplete)
    · simp only [read, Decoder.lift, BitReader.read, if_pos (Nat.not_le.1 hwide),
        Outcome.failed.injEq] at h ⊢
      obtain ⟨rfl, rfl⟩ := h
      exact ⟨s, ⟨rfl, rfl⟩, hagree.position⟩

theorem stable_align : Stable Incomplete align := by
  refine Stable.place.bind fun position => ?_
  refine Stable.ite (fun _ => ?_) fun _ => Stable.pure _
  exact (stable_read _).bind fun _ => Stable.pure _

theorem stable_readBits (count : Nat) (writer : BitWriter) :
    Stable Incomplete (readBits count writer) := by
  induction count generalizing writer with
  | zero => exact Stable.pure writer
  | succ count ih =>
    exact (stable_read 1).bind fun bit => (Stable.ofExcept _).bind fun writer => ih writer

theorem stable_readRaw (bitCount : Nat) : Stable Incomplete (readRaw bitCount) :=
  (stable_readBits bitCount {}).bind fun _ => Stable.pure _

/-- Bytes with the same bits are the same. -/
theorem getD_congr {data data' : List UInt8} {index : Nat}
    (h : ∀ i, 8 * index ≤ i → i < 8 * index + 8 → bitAt data i = bitAt data' i) :
    data.getD index 0 = data'.getD index 0 := by
  apply UInt8.toNat_inj.1
  apply Nat.eq_of_testBit_eq
  intro j
  by_cases hj : j < 8
  · have hbit := h (8 * index + j) (by omega) (by omega)
    have hindex : (8 * index + j) / 8 = index := by omega
    have hoffset : (8 * index + j) % 8 = j := by omega
    simpa only [bitAt, hindex, hoffset] using hbit
  · have hhigh : ∀ byte : UInt8, byte.toNat.testBit j = false := by
      intro byte
      have hbyte := byte.toNat_lt
      refine Nat.testBit_lt_two_pow (hbyte.trans_le ?_)
      exact Nat.pow_le_pow_right (by omega) (Nat.not_lt.1 hj)
    rw [hhigh, hhigh]

/-- Whole bytes with the same bits are the same. -/
theorem take_drop_congr {data data' : List UInt8} {start count : Nat}
    (hdata : start + count ≤ data.length) (hdata' : start + count ≤ data'.length)
    (h : ∀ i, i < 8 * (start + count) → bitAt data i = bitAt data' i) :
    (data.drop start).take count = (data'.drop start).take count := by
  apply List.ext_getElem
  · simp only [List.length_take, List.length_drop]
    omega
  · intro index hindex hindex'
    simp only [List.length_take, List.length_drop] at hindex hindex'
    have hbyte : data.getD (start + index) 0 = data'.getD (start + index) 0 :=
      getD_congr fun i _ hi => h i (by omega)
    have hlow : start + index < data.length := by omega
    have hlow' : start + index < data'.length := by omega
    simpa [List.getD_eq_getElem?_getD, hlow, hlow'] using hbyte

theorem copyBytes_of_boundary {byteCount : Nat} {r : BitReader} (h : r.position % 8 = 0) :
    copyBytes byteCount r =
      if 2 ^ 64 ≤ r.position / 8 + byteCount then .failed (.bsnWire "byte count overflows") r
      else if h : (r.position / 8 + byteCount) * 8 ≤ r.bitCount then
        .done ((r.data.drop (r.position / 8)).take byteCount)
          { r with position := (r.position / 8 + byteCount) * 8, reached := h }
      else .failed (.incompleteFrame
        s!"need {byteCount * 8} bits at position {r.position}, only {r.remaining} remain") r := by
  rw [copyBytes, if_pos h]

theorem copyBytes_of_inside {byteCount : Nat} {r : BitReader} (h : r.position % 8 ≠ 0) :
    copyBytes byteCount r = readRaw (byteCount * 8) r := by
  rw [copyBytes, if_neg h]

/-- Copying from a byte boundary, where it succeeds. -/
theorem copyBytes_done {byteCount : Nat} {r s : BitReader} {bytes : List UInt8}
    (hboundary : r.position % 8 = 0) :
    copyBytes byteCount r = .done bytes s ↔
      r.position / 8 + byteCount < 2 ^ 64 ∧ (r.position / 8 + byteCount) * 8 ≤ r.bitCount ∧
        bytes = (r.data.drop (r.position / 8)).take byteCount ∧ s.data = r.data ∧
        s.bitCount = r.bitCount ∧ s.position = (r.position / 8 + byteCount) * 8 := by
  rw [copyBytes_of_boundary hboundary]
  by_cases hwide : 2 ^ 64 ≤ r.position / 8 + byteCount
  · simp only [if_pos hwide, reduceCtorEq, false_iff, not_and]
    intro hlt
    omega
  · by_cases hroom : (r.position / 8 + byteCount) * 8 ≤ r.bitCount
    · rw [if_neg hwide, dif_pos hroom, Outcome.done.injEq]
      constructor
      · rintro ⟨rfl, rfl⟩
        exact ⟨Nat.not_le.1 hwide, hroom, rfl, rfl, rfl, rfl⟩
      · rintro ⟨-, -, rfl, hdata, hcount, hposition⟩
        cases s
        subst hdata hcount hposition
        exact ⟨rfl, rfl⟩
    · rw [if_neg hwide, dif_neg hroom]
      simp [hroom]

theorem stable_copyBytes (byteCount : Nat) : Stable Incomplete (copyBytes byteCount) where
  onward {r r' bytes} h := by
    by_cases hboundary : r.position % 8 = 0
    · obtain ⟨-, -, -, hdata, hcount, hposition⟩ := (copyBytes_done hboundary).1 h
      refine ⟨congrArg bitAt hdata, hcount, ?_⟩
      show r.position ≤ r'.position
      omega
    · rw [copyBytes_of_inside hboundary] at h
      exact (stable_readRaw _).onward h
  whole {r r' s bytes} h hagree hsize := by
    have hplace : r.position = s.position := hagree.position
    by_cases hboundary : r.position % 8 = 0
    · obtain ⟨hwide, hroom, rfl, hdata, hcount, hposition⟩ := (copyBytes_done hboundary).1 h
      have hroom' : (s.position / 8 + byteCount) * 8 ≤ s.bitCount := by
        have hsize : r'.position ≤ s.bitCount := hsize
        rw [← hplace, ← hposition]
        exact hsize
      have hbytes : (r.data.drop (r.position / 8)).take byteCount =
          (s.data.drop (s.position / 8)).take byteCount := by
        have hsupplied := r.supplied
        have hsupplied' := s.supplied
        rw [← hplace] at hroom' ⊢
        refine take_drop_congr (by omega) (by omega) fun i hi => hagree.bit i ?_
        show i < r'.position
        omega
      rw [hbytes]
      refine ⟨{ s with position := (s.position / 8 + byteCount) * 8, reached := hroom' }, ?_,
        ⟨rfl, rfl, ?_⟩, ?_⟩
      · refine (copyBytes_done (by omega)).2 ⟨by omega, hroom', rfl, rfl, rfl, rfl⟩
      · show s.position ≤ (s.position / 8 + byteCount) * 8
        omega
      · show r'.position = (s.position / 8 + byteCount) * 8
        omega
    · rw [copyBytes_of_inside hboundary] at h
      rw [copyBytes_of_inside (by omega)]
      exact (stable_readRaw _).whole h hagree hsize
  cut {r r' s bytes} h hagree hsize := by
    have hplace : r.position = s.position := hagree.position
    by_cases hboundary : r.position % 8 = 0
    · obtain ⟨hwide, hroom, -, -, -, hposition⟩ := (copyBytes_done hboundary).1 h
      have hshort : ¬ (s.position / 8 + byteCount) * 8 ≤ s.bitCount := by
        have hsize : s.bitCount < r'.position := hsize
        omega
      rw [copyBytes_of_boundary (by omega), if_neg (by omega), dif_neg hshort]
      exact ⟨_, _, rfl, trivial⟩
    · rw [copyBytes_of_inside hboundary] at h
      rw [copyBytes_of_inside (by omega)]
      exact (stable_readRaw _).cut h hagree hsize
  refused {r r' s e} h hshort hagree hsize := by
    have hplace : r.position = s.position := hagree.position
    by_cases hboundary : r.position % 8 = 0
    · rw [copyBytes_of_boundary hboundary] at h
      rw [copyBytes_of_boundary (by omega), ← hplace]
      by_cases hwide : 2 ^ 64 ≤ r.position / 8 + byteCount
      · rw [if_pos hwide] at h ⊢
        obtain ⟨rfl, rfl⟩ := Outcome.failed.inj h
        exact ⟨s, rfl, hplace⟩
      · rw [if_neg hwide] at h
        split_ifs at h
        exact absurd ((Outcome.failed.inj h).1 ▸ trivial) hshort
    · rw [copyBytes_of_inside hboundary] at h
      rw [copyBytes_of_inside (by omega)]
      exact (stable_readRaw _).refused h hshort hagree hsize

theorem stable_readBytes (byteCount : Nat) (aligned : Bool) :
    Stable Incomplete (readBytes byteCount aligned) :=
  Stable.ite (fun _ => stable_align.bind fun _ => stable_copyBytes byteCount)
    fun _ => stable_copyBytes byteCount

end Reading

end Superiority.Bsn
