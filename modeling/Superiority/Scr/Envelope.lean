import Mathlib.Data.List.GetD
import Mathlib.Tactic
import Superiority.Library.Bytes
import Superiority.Library.Feedback

/-!
# The check-value envelope

`games/scr/envelope.rs`: a transform over the bytes of every classic payload. The first block of
four bytes is XORed with rotations of the seed, and each later block with rotations of a key made
of the encoded word before it and of its offset. Both directions run one loop over a copy of the
payload; they differ in where they find the encoded word before a block, the encoder in what it has
written and the decoder in what it was given.

`laneMask` says what one byte is XORed with, from the encoded bytes before it alone, and
**`transform_eq`** that the loop is the feedback cipher this makes.
-/

namespace Superiority

open Feedback

/-! ## The transform -/

/-- `rotate_left`. -/
def rotateLeft (key : UInt32) (n : Nat) : UInt32 := ⟨key.toBitVec.rotateLeft n⟩

/-- `rotate_right`. -/
def rotateRight (key : UInt32) (n : Nat) : UInt32 := ⟨key.toBitVec.rotateRight n⟩

/-- `key.to_le_bytes()[lane]`. -/
def keyLane (key : UInt32) (lane : Nat) : UInt8 := (toLittleEndian 4 key.toNat).getD lane 0

structure CheckValueEnvelope where
  seed : UInt32
  deriving DecidableEq, Repr

namespace CheckValueEnvelope

inductive Direction where
  | encode
  | decode
  deriving DecidableEq, Repr

/-- The loop over the lanes of one block, of which `lane` is the next. -/
def mixLanes : (lanes lane : Nat) → (key : UInt32) → (offset : Nat) → List UInt8 → List UInt8
  | 0, _, _, _, output => output
  | lanes + 1, lane, key, offset, output =>
    let key := rotateLeft key 1
    let output := output.set offset (output.getD offset 0 ^^^ keyLane key lane)
    mixLanes lanes (lane + 1) key (offset + 1) output

/-- Where a direction finds the encoded bytes. -/
def encodedOf (output payload : List UInt8) : Direction → List UInt8
  | .encode => output
  | .decode => payload

/-- The four bytes before the offset. -/
def window (bytes : List UInt8) (offset : Nat) : List UInt8 := (bytes.drop (offset - 4)).take 4

/-- The key of the block at the offset, from the encoded word before it. -/
def nextKey (previous : UInt32) (offset : Nat) : UInt32 :=
  let lowOffset := UInt32.ofNat (offset &&& 31)
  rotateRight previous (~~~(lowOffset ^^^ previous) &&& 31).toNat

/-- The `while` loop. Each round moves on by at least one byte. -/
def mixBlocks (direction : Direction) (payload : List UInt8) :
    (rounds offset : Nat) → List UInt8 → List UInt8
  | 0, _, output => output
  | rounds + 1, offset, output =>
    if offset < output.length then
      let encoded := encodedOf output payload direction
      let previous := UInt32.ofNat (littleEndian (window encoded offset))
      let lanes := min (output.length - offset) 4
      mixBlocks direction payload rounds (offset + lanes)
        (mixLanes lanes 0 (nextKey previous offset) offset output)
    else output

def transform (envelope : CheckValueEnvelope) (payload : List UInt8) (direction : Direction) :
    List UInt8 :=
  let output := mixLanes (min payload.length 4) 0 envelope.seed 0 payload
  mixBlocks direction payload output.length 4 output

def encode (envelope : CheckValueEnvelope) (payload : List UInt8) : List UInt8 :=
  envelope.transform payload .encode

def decode (envelope : CheckValueEnvelope) (payload : List UInt8) : List UInt8 :=
  envelope.transform payload .decode

example : encode ⟨0x513d604c⟩ [0x00, 0x44, 0x08, 0x87] = [0x98, 0xc5, 0xe3, 0x94] := by
  decide +kernel

/-! ## The cipher it is -/

/-- The key the block at the offset begins with, from the encoded bytes before it. -/
def blockKey (seed : UInt32) (encoded : List UInt8) (offset : Nat) : UInt32 :=
  if offset = 0 then seed
  else nextKey (UInt32.ofNat (littleEndian (window encoded offset))) offset

/-- What a lane of a block is XORed with. -/
def laneMask (key : UInt32) (lane : Nat) : UInt8 := keyLane ((rotateLeft · 1)^[lane + 1] key) lane

/-- What the byte behind the encoded ones is XORed with. -/
def byteMask (seed : UInt32) (encoded : List UInt8) : UInt8 :=
  let lane := encoded.length % 4
  laneMask (blockKey seed encoded (encoded.length - lane)) lane

/-- XOR with a mask, which undoes itself. -/
def masked (mask : UInt8) : Equiv.Perm UInt8 where
  toFun byte := byte ^^^ mask
  invFun byte := byte ^^^ mask
  left_inv byte := by simp [UInt8.xor_assoc]
  right_inv byte := by simp [UInt8.xor_assoc]

/-- How each byte is changed by the encoded ones before it. -/
def permute (seed : UInt32) (encoded : List UInt8) : Equiv.Perm UInt8 :=
  masked (byteMask seed encoded)

/-- The bytes before a block are among those before each of its lanes. -/
theorem window_take {encoded : List UInt8} {offset i : Nat} (hoffset : 4 ≤ offset)
    (hi : offset ≤ i) : window (encoded.take i) offset = window encoded offset := by
  rw [window, window, List.drop_take, List.take_take, Nat.min_eq_left (by omega)]

/-- The mask of a lane, within the encoded bytes. -/
theorem byteMask_take (seed : UInt32) {encoded : List UInt8} {offset lane : Nat}
    (hblock : 4 ∣ offset) (hlane : lane < 4) (hlength : offset + lane ≤ encoded.length) :
    byteMask seed (encoded.take (offset + lane)) =
      laneMask (blockKey seed encoded offset) lane := by
  have htake : (encoded.take (offset + lane)).length = offset + lane := by
    rw [List.length_take]
    omega
  have hmod : (offset + lane) % 4 = lane := by omega
  simp only [byteMask, htake, hmod, Nat.add_sub_cancel]
  congr 1
  by_cases hzero : offset = 0
  · rw [blockKey, blockKey, if_pos hzero, if_pos hzero]
  · rw [blockKey, blockKey, if_neg hzero, if_neg hzero, window_take (by omega) (by omega)]

/-! ## The loops are the cipher -/

/-- The output that a loop works in, when all before the offset is done. -/
def reached (result payload : List UInt8) (offset : Nat) : List UInt8 :=
  result.take offset ++ payload.drop offset

@[simp] theorem length_reached {result payload : List UInt8}
    (hlength : result.length = payload.length) (offset : Nat) :
    (reached result payload offset).length = payload.length := by
  rw [reached, List.length_append, List.length_take, List.length_drop]
  omega

/-- The loop over lanes does the bytes of its block. -/
theorem mixLanes_reached {result payload : List UInt8} (hlength : result.length = payload.length)
    {lanes lane offset : Nat} {key : UInt32} (hroom : offset + lanes ≤ payload.length)
    (hresult : ∀ i, i < lanes → result.getD (offset + i) 0 =
      payload.getD (offset + i) 0 ^^^ keyLane ((rotateLeft · 1)^[i + 1] key) (lane + i)) :
    mixLanes lanes lane key offset (reached result payload offset) =
      reached result payload (offset + lanes) := by
  induction lanes generalizing lane key offset with
  | zero => rfl
  | succ lanes ih =>
    have hnext : (reached result payload offset).set offset
        ((reached result payload offset).getD offset 0 ^^^ keyLane (rotateLeft key 1) lane) =
          reached result payload (offset + 1) := by
      have hfirst := hresult 0 (by omega)
      have hhead : (reached result payload offset).getD offset 0 = payload.getD offset 0 := by
        have htake : (result.take offset).length = offset := by
          rw [List.length_take]
          omega
        rw [reached, List.getD_append_right _ _ _ _ (by omega), htake, Nat.sub_self,
          List.getD_eq_getElem?_getD, List.getElem?_drop, Nat.add_zero,
          ← List.getD_eq_getElem?_getD]
      simp only [Nat.add_zero, Function.iterate_succ, Function.iterate_zero, Function.comp_apply,
        id_eq] at hfirst
      rw [hhead, ← hfirst, List.getD_eq_getElem _ _ (by omega)]
      exact set_take_append_drop hlength (by omega)
    rw [mixLanes, hnext, ih (by omega)]
    · rw [Nat.add_assoc, Nat.add_comm 1]
    · intro i hi
      have hrest := hresult (i + 1) (by omega)
      rw [Function.iterate_succ_apply] at hrest
      rw [Nat.add_assoc, Nat.add_comm 1, hrest, Nat.add_right_comm, Nat.add_assoc lane]

/-- What the finished output must be: each byte of the payload under the mask that the encoded bytes
before it make, where the encoder finds those in its output and the decoder in its payload. -/
structure Finished (seed : UInt32) (direction : Direction) (payload encoded result : List UInt8) :
    Prop where
  length : result.length = payload.length
  source : encoded = encodedOf result payload direction
  byte : ∀ i, i < payload.length →
    result.getD i 0 = payload.getD i 0 ^^^ byteMask seed (encoded.take i)

variable {seed : UInt32} {direction : Direction} {payload encoded result : List UInt8}

theorem Finished.length_encoded (h : Finished seed direction payload encoded result) :
    encoded.length = payload.length := by
  rw [h.source]
  cases direction
  · exact h.length
  · rfl

/-- One block. -/
theorem Finished.mixLanes (h : Finished seed direction payload encoded result) {offset : Nat}
    (hblock : 4 ∣ offset) (hoffset : offset ≤ payload.length) :
    mixLanes (min (payload.length - offset) 4) 0 (blockKey seed encoded offset) offset
      (reached result payload offset) =
        reached result payload (offset + min (payload.length - offset) 4) := by
  refine mixLanes_reached h.length (by omega) fun i hi => ?_
  have hlength := h.length_encoded
  rw [h.byte _ (by omega), byteMask_take seed hblock (by omega) (by omega), laneMask, Nat.zero_add]

/-- Either direction finds the encoded word before a block. -/
theorem Finished.window_eq (h : Finished seed direction payload encoded result) {offset : Nat}
    (hfour : 4 ≤ offset) (hoffset : offset ≤ payload.length) :
    window (encodedOf (reached result payload offset) payload direction) offset =
      window encoded offset := by
  rw [h.source]
  cases direction
  · have htake : (result.take offset).length = offset := by
      rw [List.length_take, h.length]
      omega
    have hreached : (reached result payload offset).take offset = result.take offset := by
      rw [reached, List.take_left' htake]
    rw [encodedOf, encodedOf, ← window_take hfour le_rfl, hreached, window_take hfour le_rfl]
  · rfl

/-- All blocks from one on. -/
theorem Finished.mixBlocks (h : Finished seed direction payload encoded result)
    {rounds offset : Nat} (hfour : 4 ≤ offset) (hblock : 4 ∣ offset ∨ payload.length ≤ offset)
    (hrounds : payload.length ≤ offset + rounds) :
    mixBlocks direction payload rounds offset (reached result payload offset) = result := by
  have hdone (offset : Nat) (hoffset : payload.length ≤ offset) :
      reached result payload offset = result := by
    rw [reached, List.take_of_length_le (by rw [h.length]; omega),
      List.drop_of_length_le (by omega), List.append_nil]
  induction rounds generalizing offset with
  | zero => exact hdone offset (by omega)
  | succ rounds ih =>
    by_cases hoffset : offset < payload.length
    · have hdvd : 4 ∣ offset := by omega
      have hkey : nextKey (UInt32.ofNat (littleEndian (window encoded offset))) offset =
          blockKey seed encoded offset := by
        rw [blockKey, if_neg (by omega)]
      simp only [CheckValueEnvelope.mixBlocks]
      rw [length_reached h.length, if_pos hoffset, h.window_eq hfour (by omega), hkey,
        h.mixLanes hdvd (by omega), ih (by omega) (by omega) (by omega)]
    · simp only [CheckValueEnvelope.mixBlocks]
      rw [length_reached h.length, if_neg hoffset, hdone offset (by omega)]

/-- The whole transform. -/
theorem Finished.transform {envelope : CheckValueEnvelope}
    (h : Finished envelope.seed direction payload encoded result) :
    envelope.transform payload direction = result := by
  have hstart : reached result payload 0 = payload := by simp [reached]
  have hkey : blockKey envelope.seed encoded 0 = envelope.seed := if_pos rfl
  have hfirst := h.mixLanes (Nat.dvd_zero 4) (Nat.zero_le _)
  rw [hstart, hkey, Nat.sub_zero, Nat.zero_add] at hfirst
  simp only [CheckValueEnvelope.transform, hfirst]
  rw [length_reached h.length]
  by_cases hshort : payload.length ≤ 4
  · have hreached : reached result payload (min payload.length 4) = reached result payload 4 := by
      rw [Nat.min_eq_left hshort, reached, reached, List.take_of_length_le (by rw [h.length]),
        List.drop_of_length_le le_rfl, List.take_of_length_le (by rw [h.length]; omega),
        List.drop_of_length_le hshort]
    rw [hreached]
    exact h.mixBlocks le_rfl (Or.inr hshort) (by omega)
  · rw [Nat.min_eq_right (by omega)]
    exact h.mixBlocks le_rfl (Or.inl (dvd_refl 4)) (by omega)

theorem finished_encode (seed : UInt32) (payload : List UInt8) :
    Finished seed .encode payload (encodeFrom (permute seed) [] payload)
      (encodeFrom (permute seed) [] payload) where
  length := length_encodeFrom ..
  source := rfl
  byte i hi := by
    rw [List.getD_eq_getElem?_getD, getElem?_encodeFrom, List.getD_eq_getElem?_getD,
      List.getElem?_eq_getElem hi]
    rfl

theorem finished_decode (seed : UInt32) (payload : List UInt8) :
    Finished seed .decode payload payload (decodeFrom (permute seed) [] payload) where
  length := length_decodeFrom ..
  source := rfl
  byte i hi := by
    rw [List.getD_eq_getElem?_getD, getElem?_decodeFrom, List.getD_eq_getElem?_getD,
      List.getElem?_eq_getElem hi]
    rfl

/-- **The loop is the cipher**, in either direction. -/
theorem transform_eq (envelope : CheckValueEnvelope) (payload : List UInt8) :
    envelope.encode payload = encodeFrom (permute envelope.seed) [] payload ∧
      envelope.decode payload = decodeFrom (permute envelope.seed) [] payload :=
  ⟨(finished_encode envelope.seed payload).transform,
    (finished_decode envelope.seed payload).transform⟩

/-- **The envelope is a causal bijection that keeps lengths.** -/
theorem causal_bijection (envelope : CheckValueEnvelope) (payload : List UInt8) :
    envelope.decode (envelope.encode payload) = payload ∧
      envelope.encode (envelope.decode payload) = payload ∧
      (envelope.encode payload).length = payload.length ∧
      (envelope.decode payload).length = payload.length ∧
      ∀ k, (envelope.encode payload).take k = envelope.encode (payload.take k) := by
  simp only [fun payload => (envelope.transform_eq payload).1,
    fun payload => (envelope.transform_eq payload).2]
  refine ⟨decodeFrom_encodeFrom .., encodeFrom_decodeFrom .., length_encodeFrom ..,
    length_decodeFrom .., fun k => take_encodeFrom ..⟩

end CheckValueEnvelope

end Superiority
