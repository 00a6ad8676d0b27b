import Mathlib.Tactic

/-!
# Bytes

Numbers as bytes in either order, and ranges of bytes that may lie outside the data.

* **`littleEndian_toLittleEndian`**, **`toLittleEndian_littleEndian`** – a number that fits its
  width is read back from its bytes, and bytes are given back by the number they stand for; the
  same of the big-endian order.
* **`getRange_append`** – a range that is inside the data stays what it is when data is appended.
-/

namespace Superiority

/-! ## Slices -/

/-- `&[u8]`: a slice has `isize::MAX` bytes at most. -/
structure Slice where
  bytes : List UInt8
  length_lt : bytes.length < 2 ^ 63
  deriving DecidableEq, Repr

instance : CoeOut Slice (List UInt8) := ⟨Slice.bytes⟩

/-! ## Numbers -/

/-- The lowest bytes of the number, lowest first. -/
def toLittleEndian : (width : Nat) → Nat → List UInt8
  | 0, _ => []
  | width + 1, n => UInt8.ofNat n :: toLittleEndian width (n / 256)

def littleEndian : List UInt8 → Nat
  | [] => 0
  | b :: bs => b.toNat + 256 * littleEndian bs

/-- The lowest bytes of the number, highest first. -/
def toBigEndian (width n : Nat) : List UInt8 := (toLittleEndian width n).reverse

/-- The big-endian number in a list of bytes. -/
def bigEndian (bytes : List UInt8) : Nat := bytes.foldl (fun acc b => acc * 256 + b.toNat) 0

@[simp] theorem length_toLittleEndian (width n : Nat) :
    (toLittleEndian width n).length = width := by
  induction width generalizing n with
  | zero => rfl
  | succ width ih => simp [toLittleEndian, ih]

@[simp] theorem length_toBigEndian (width n : Nat) : (toBigEndian width n).length = width := by
  simp [toBigEndian]

theorem littleEndian_lt (bytes : List UInt8) : littleEndian bytes < 256 ^ bytes.length := by
  induction bytes with
  | nil => simp [littleEndian]
  | cons b bs ih =>
    have hb := b.toNat_lt
    rw [littleEndian, List.length_cons, Nat.pow_succ]
    omega

theorem littleEndian_toLittleEndian {width n : Nat} (h : n < 256 ^ width) :
    littleEndian (toLittleEndian width n) = n := by
  induction width generalizing n with
  | zero =>
    have hn : n = 0 := by simpa using h
    simp [toLittleEndian, littleEndian, hn]
  | succ width ih =>
    have hrest : n / 256 < 256 ^ width := by
      rw [Nat.pow_succ] at h
      exact Nat.div_lt_of_lt_mul (by rwa [Nat.mul_comm])
    rw [toLittleEndian, littleEndian, ih hrest, UInt8.toNat_ofNat']
    omega

theorem toLittleEndian_littleEndian (bytes : List UInt8) :
    toLittleEndian bytes.length (littleEndian bytes) = bytes := by
  induction bytes with
  | nil => rfl
  | cons b bs ih =>
    have hb := b.toNat_lt
    have hlow : UInt8.ofNat (b.toNat + 256 * littleEndian bs) = b := by
      rw [← UInt8.toNat_inj, UInt8.toNat_ofNat']
      omega
    have hhigh : (b.toNat + 256 * littleEndian bs) / 256 = littleEndian bs := by omega
    rw [littleEndian, List.length_cons, toLittleEndian, hlow, hhigh, ih]

theorem bigEndian_eq (bytes : List UInt8) : bigEndian bytes = littleEndian bytes.reverse := by
  rw [bigEndian, ← List.foldr_reverse]
  induction bytes.reverse with
  | nil => rfl
  | cons b bs ih =>
    rw [List.foldr_cons, ih, littleEndian]
    omega

theorem bigEndian_lt (bytes : List UInt8) : bigEndian bytes < 256 ^ bytes.length := by
  rw [bigEndian_eq, ← List.length_reverse]
  exact littleEndian_lt _

theorem bigEndian_toBigEndian {width n : Nat} (h : n < 256 ^ width) :
    bigEndian (toBigEndian width n) = n := by
  rw [bigEndian_eq, toBigEndian, List.reverse_reverse, littleEndian_toLittleEndian h]

/-! ## Ranges -/

/-- `value.get(start..stop)`. -/
def getRange (value : List UInt8) (start stop : Nat) : Option (List UInt8) :=
  if start ≤ stop ∧ stop ≤ value.length then some ((value.drop start).take (stop - start)) else none

variable {value : List UInt8} {start stop : Nat}

theorem getRange_eq_some {bytes : List UInt8} (h : getRange value start stop = some bytes) :
    start ≤ stop ∧ stop ≤ value.length ∧ bytes.length = stop - start := by
  unfold getRange at h
  split_ifs at h with hrange
  rw [← Option.some.inj h, List.length_take, List.length_drop]
  omega

/-- A range inside the data does not see what is appended. -/
theorem getRange_append {bytes : List UInt8} (h : getRange value start stop = some bytes)
    (more : List UInt8) : getRange (value ++ more) start stop = some bytes := by
  unfold getRange at h ⊢
  split_ifs at h with hrange
  rw [if_pos ⟨hrange.1, by rw [List.length_append]; omega⟩, ← Option.some.inj h,
    List.drop_append_of_le_length (by omega), List.take_append_of_le_length (by
      rw [List.length_drop]
      omega)]

/-- The range of a piece of the data. -/
theorem getRange_middle {front middle back : List UInt8} (hvalue : value = front ++ middle ++ back)
    (hstart : start = front.length) (hstop : stop = front.length + middle.length) :
    getRange value start stop = some middle := by
  subst hvalue hstart hstop
  rw [getRange, if_pos ⟨by omega, by simp⟩, List.append_assoc, List.drop_left]
  simp

/-- A range is what the data from its start begins with. -/
theorem getRange_eq_some_iff {size : Nat} {bytes : List UInt8} (hstart : start ≤ value.length) :
    getRange value start (start + size) = some bytes ↔
      ∃ rest, value.drop start = bytes ++ rest ∧ bytes.length = size := by
  constructor
  · intro h
    have hlength := (getRange_eq_some h).2.2
    unfold getRange at h
    split_ifs at h
    refine ⟨(value.drop start).drop (start + size - start), ?_, by omega⟩
    rw [← Option.some.inj h, List.take_append_drop]
  · rintro ⟨rest, hdrop, rfl⟩
    have hlength := congrArg List.length hdrop
    rw [List.length_drop, List.length_append] at hlength
    rw [getRange, if_pos ⟨by omega, by omega⟩, hdrop, Nat.add_sub_cancel_left, List.take_left]

end Superiority
