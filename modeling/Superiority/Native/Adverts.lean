import Mathlib.Data.List.Sort
import Mathlib.Data.List.Destutter
import Superiority.Bsn.Bits
import Superiority.Library.Fallible
import Superiority.Library.Run
import Superiority.Native.Presence

/-!
# Game adverts in presence

The part of `native/presence.rs` that finds out which lobby somebody is in. A game-info value ends
with a choice tag, the 96 bits of an `AdvertHandle` and zero bits up to a byte; how many bits stand
before the tag, the value does not say, so all eight alignments are tried.

* **`mem_gameAdvertCandidates`** – a handle is a candidate exactly when the value reads as one at
  some alignment (`ReadsAt`).
* **`joinable_advert_found`** – the handle a value was written with is a candidate, every candidate
  written behind the value's own leading bits gives the value back, and the best attested candidate
  is the one that is resolved.
* **`lists_lobbies_iff`** – the list of the lobbies that presence shows is sorted, complete, and
  without repetition exactly when nobody stands between two people of one lobby who is in another
  lobby of the same server epoch.
-/

namespace Superiority

open Std Bsn
open scoped List

/-- `AdvertHandle`: the game server that owns a lobby, when it came up, and the lobby's id there. -/
structure AdvertHandle where
  serverLabel : UInt32
  serverEpoch : Int32
  advertId : UInt32
  deriving DecidableEq, Repr

/-- The server of a handle, the key that presences vote for. -/
@[ext] structure GameServer where
  label : UInt32
  epoch : Int32
  deriving DecidableEq, Repr

namespace GameServer

instance : Ord GameServer := ⟨compareLex (compareOn label) (compareOn epoch)⟩

instance : TransOrd GameServer :=
  inferInstanceAs (TransCmp (compareLex (compareOn label) (compareOn epoch)))

instance : LawfulEqOrd GameServer where
  eq_of_compare {a b} h := by
    have h : (compare a.label b.label).then (compare a.epoch b.epoch) = .eq := h
    obtain ⟨hlabel, hepoch⟩ := Ordering.then_eq_eq.1 h
    exact GameServer.ext (LawfulEqOrd.eq_of_compare hlabel) (LawfulEqOrd.eq_of_compare hepoch)

end GameServer

def AdvertHandle.server (advert : AdvertHandle) : GameServer :=
  ⟨advert.serverLabel, advert.serverEpoch⟩

def fieldGameInfo : UInt32 := 0x60001

/-! ## Reading a game-info value -/

def epochFloor : Int := 1400000000
def epochCeiling : Int := 2000000000
def handleBits : Nat := 96

/-- `usize::checked_sub`. -/
def checkedSub (a b : Nat) : Option Nat := if b ≤ a then some (a - b) else none

theorem checkedSub_eq_some {a b c : Nat} : checkedSub a b = some c ↔ b ≤ a ∧ c = a - b := by
  unfold checkedSub
  split_ifs with h
  · simp [h, eq_comm]
  · simp [h]

/-- The handle at one alignment: the body of the closure in `game_advert_candidates`. -/
def candidateAt (value : List UInt8) (padding : Nat) : Option AdvertHandle := do
  let total := value.length * 8
  let start ← checkedSub total (handleBits + padding)
  let reader ← (BitReader.new value none).toOption
  -- the choice tag sits immediately in front of the arm it selects
  let reader ← (reader.setPosition (← checkedSub start 1)).toOption
  let (tag, reader) ← (reader.read 1).toOption
  if tag ≠ 0 then none
  else
    let (serverLabel, reader) ← (reader.read 32).toOption
    let (seconds, reader) ← (reader.read 32).toOption
    let epoch : Int := -2 ^ 31 + seconds
    let (advertId, reader) ← (reader.read 32).toOption
    if ¬ (epochFloor ≤ epoch ∧ epoch ≤ epochCeiling) then none
    else
      let (zeros, _) ← (reader.read padding).toOption
      if zeros = 0 then
        some {
          serverLabel := UInt32.ofNat serverLabel
          serverEpoch := Int32.ofInt epoch
          advertId := UInt32.ofNat advertId }
      else none

def gameAdvertCandidates (value : List UInt8) : List AdvertHandle :=
  (List.range 8).filterMap (candidateAt value)

/-- `resolve_advert`: a single reading needs nothing to settle it; of several, the one whose server
most presences vote for. -/
def resolveAdvert (value : List UInt8) (attested : ExtTreeMap GameServer UInt64) :
    Option AdvertHandle :=
  match gameAdvertCandidates value with
  | [advert] => some advert
  | candidates =>
    (maxByKey (fun entry : UInt64 × AdvertHandle => entry.1)
      (candidates.filterMap fun advert =>
        match attested[advert.server]? with
        | some votes => if votes > 0 then some (votes, advert) else none
        | none => none)).map (·.2)

/-! ## Writing one -/

/-- A game-info value: the bits of the short link, the tag of the joinable arm, the handle with its
epoch biased to a `u32`, and zero bits up to a byte. -/
def writeAdvert (shortLink : List Bool) (advert : AdvertHandle) : Except Error (List UInt8) := do
  let w ← shortLink.foldlM (fun (w : BitWriter) bit => w.write bit.toNat 1) {}
  let w ← w.write 0 1
  let w ← w.write advert.serverLabel.toNat 32
  let w ← w.write (advert.serverEpoch.toInt + 2 ^ 31).toNat 32
  let w ← w.write advert.advertId.toNat 32
  let w ← w.align
  return w.intoBytes

/-! ## What the presences show -/

namespace PresenceDirectory

/-- `attested_servers`: how many presences read unambiguously as being on each server. -/
def attestedServers (d : PresenceDirectory) : ExtTreeMap GameServer UInt64 :=
  d.values.foldl (fun attested _ values =>
    match values[fieldGameInfo]?.map gameAdvertCandidates with
    | some [advert] =>
      attested.insert advert.server ((attested[advert.server]?.getD 0) + 1)
    | _ => attested) ∅

/-- The lobby each presence shows, in the order of their ids. -/
def shownAdverts (d : PresenceDirectory) : List AdvertHandle :=
  d.values.toList.filterMap fun entry => do
    resolveAdvert (← entry.2[fieldGameInfo]?) d.attestedServers

/-- The order of `sort_by_key(|advert| Reverse(advert.server_epoch))`. -/
def NewerFirst (a b : AdvertHandle) : Prop := b.serverEpoch ≤ a.serverEpoch

instance : DecidableRel NewerFirst := fun a b =>
  inferInstanceAs (Decidable (b.serverEpoch ≤ a.serverEpoch))

/-- `adverts`: a stable sort, then `dedup`, which takes out an element that equals the one before
it. -/
def adverts (d : PresenceDirectory) : List AdvertHandle :=
  (d.shownAdverts.insertionSort NewerFirst).destutter (· ≠ ·)

end PresenceDirectory

/-! ## What a candidate is -/

/-- Somewhere in front of `padding` zero bits, the value reads as the handle. -/
structure ReadsAt (value : List UInt8) (padding : Nat) (advert : AdvertHandle) : Prop where
  room : 97 + padding ≤ 8 * value.length
  tag : field value (8 * value.length - 97 - padding) 1 = 0
  label : field value (8 * value.length - 96 - padding) 32 = advert.serverLabel.toNat
  epoch : (field value (8 * value.length - 64 - padding) 32 : Int) =
    advert.serverEpoch.toInt + 2 ^ 31
  advertId : field value (8 * value.length - 32 - padding) 32 = advert.advertId.toNat
  zeros : field value (8 * value.length - padding) padding = 0
  floor : epochFloor ≤ advert.serverEpoch.toInt
  ceiling : advert.serverEpoch.toInt ≤ epochCeiling

/-- With room for the tag and the handle, the closure reads five fields and checks three. -/
theorem candidateAt_of_room {value : List UInt8} {padding : Nat} (hpadding : padding < 8)
    (hroom : 97 + padding ≤ 8 * value.length) :
    candidateAt value padding =
      if field value (8 * value.length - 97 - padding) 1 ≠ 0 then none
      else
        let epoch : Int := -2 ^ 31 + field value (8 * value.length - 64 - padding) 32
        if ¬ (epochFloor ≤ epoch ∧ epoch ≤ epochCeiling) then none
        else if field value (8 * value.length - padding) padding = 0 then
          some {
            serverLabel := UInt32.ofNat (field value (8 * value.length - 96 - padding) 32)
            serverEpoch := Int32.ofInt epoch
            advertId := UInt32.ofNat (field value (8 * value.length - 32 - padding) 32) }
        else none := by
  have hstart : checkedSub (value.length * 8) (handleBits + padding) =
      some (8 * value.length - 96 - padding) :=
    checkedSub_eq_some.2 ⟨by simp only [handleBits]; omega, by simp only [handleBits]; omega⟩
  have htag : checkedSub (8 * value.length - 96 - padding) 1 =
      some (8 * value.length - 97 - padding) := checkedSub_eq_some.2 ⟨by omega, by omega⟩
  have hnew : BitReader.new value none =
      .ok ⟨value, 8 * value.length, 0, le_rfl, Nat.zero_le _⟩ := by simp [BitReader.new]
  have hseek : (BitReader.mk value (8 * value.length) 0 le_rfl (Nat.zero_le _)).setPosition
      (8 * value.length - 97 - padding) =
        .ok ⟨value, 8 * value.length, 8 * value.length - 97 - padding, le_rfl, by omega⟩ := by
    rw [BitReader.setPosition, dif_pos (by dsimp only; omega)]
  obtain ⟨r₁, h₁, hd₁, hc₁, hp₁⟩ := BitReader.read_of_room
    ⟨value, 8 * value.length, 8 * value.length - 97 - padding, le_rfl, by omega⟩
    (by omega : 1 ≤ 64) (by dsimp only; omega)
  dsimp only at h₁ hd₁ hc₁ hp₁
  obtain ⟨r₂, h₂, hd₂, hc₂, hp₂⟩ := r₁.read_of_room (by omega : 32 ≤ 64) (by omega)
  obtain ⟨r₃, h₃, hd₃, hc₃, hp₃⟩ := r₂.read_of_room (by omega : 32 ≤ 64) (by omega)
  obtain ⟨r₄, h₄, hd₄, hc₄, hp₄⟩ := r₃.read_of_room (by omega : 32 ≤ 64) (by omega)
  obtain ⟨r₅, h₅, -⟩ := r₄.read_of_room (by omega : padding ≤ 64) (by omega)
  rw [hd₁, show r₁.position = 8 * value.length - 96 - padding by omega] at h₂
  rw [hd₂, hd₁, show r₂.position = 8 * value.length - 64 - padding by omega] at h₃
  rw [hd₃, hd₂, hd₁, show r₃.position = 8 * value.length - 32 - padding by omega] at h₄
  rw [hd₄, hd₃, hd₂, hd₁, show r₄.position = 8 * value.length - padding by omega] at h₅
  simp only [candidateAt, hstart, htag, hnew, hseek, h₁, h₂, h₃, h₄, h₅, Except.toOption,
    Option.bind_eq_bind, Option.bind_some]

theorem candidateAt_room {value : List UInt8} {padding : Nat} {advert : AdvertHandle}
    (h : candidateAt value padding = some advert) : 97 + padding ≤ 8 * value.length := by
  simp only [candidateAt, Option.bind_eq_bind, Option.bind_eq_some_iff] at h
  obtain ⟨start, hstart, -, -, tag, htag, -⟩ := h
  have hstart := checkedSub_eq_some.1 hstart
  have htag := checkedSub_eq_some.1 htag
  simp only [handleBits] at hstart
  omega

theorem candidateAt_eq_some {value : List UInt8} {padding : Nat} (hpadding : padding < 8)
    {advert : AdvertHandle} :
    candidateAt value padding = some advert ↔ ReadsAt value padding advert := by
  have hlabel := field_lt value (8 * value.length - 96 - padding) 32
  have hseconds := field_lt value (8 * value.length - 64 - padding) 32
  have hadvert := field_lt value (8 * value.length - 32 - padding) 32
  constructor
  · intro h
    have hroom := candidateAt_room h
    rw [candidateAt_of_room hpadding hroom] at h
    dsimp only at h
    split_ifs at h with htag hrange hzeros
    obtain rfl := Option.some.inj h
    rw [epochFloor, epochCeiling] at hrange
    have hepoch : (Int32.ofInt (-2 ^ 31 +
        (field value (8 * value.length - 64 - padding) 32 : Int))).toInt =
          -2 ^ 31 + field value (8 * value.length - 64 - padding) 32 := by
      rw [Int32.toInt_ofInt_of_le] <;> omega
    exact {
      room := hroom
      tag := not_not.1 htag
      label := by rw [UInt32.toNat_ofNat', Nat.mod_eq_of_lt hlabel]
      epoch := by rw [hepoch]; omega
      advertId := by rw [UInt32.toNat_ofNat', Nat.mod_eq_of_lt hadvert]
      zeros := hzeros
      floor := by rw [hepoch]; exact hrange.1
      ceiling := by rw [hepoch]; exact hrange.2 }
  · intro h
    have hepoch : -2 ^ 31 + (field value (8 * value.length - 64 - padding) 32 : Int) =
        advert.serverEpoch.toInt := by
      rw [h.epoch]
      omega
    rw [candidateAt_of_room hpadding h.room]
    dsimp only
    rw [if_neg (not_not.2 h.tag), hepoch, if_neg (not_not.2 ⟨h.floor, h.ceiling⟩), if_pos h.zeros,
      h.label, h.advertId]
    simp

/-- The candidates are the handles that the value reads as at some alignment. -/
theorem mem_gameAdvertCandidates {value : List UInt8} {advert : AdvertHandle} :
    advert ∈ gameAdvertCandidates value ↔ ∃ padding < 8, ReadsAt value padding advert := by
  simp only [gameAdvertCandidates, List.mem_filterMap, List.mem_range]
  constructor
  · rintro ⟨padding, hpadding, h⟩
    exact ⟨padding, hpadding, (candidateAt_eq_some hpadding).1 h⟩
  · rintro ⟨padding, hpadding, h⟩
    exact ⟨padding, hpadding, (candidateAt_eq_some hpadding).2 h⟩

/-! ## What is written -/

/-- The stream begins with the bits of the link and goes on with the joinable arm. -/
structure SpellsAdvert (bit : Nat → Bool) (shortLink : List Bool) (advert : AdvertHandle) :
    Prop where
  link : ∀ i, i < shortLink.length → bit i = shortLink.getD i false
  tag : bit shortLink.length = false
  label : ∀ i, shortLink.length + 1 ≤ i → i < shortLink.length + 1 + 32 →
    bit i = advert.serverLabel.toNat.testBit (Bsn.weight (shortLink.length + 1) 32 i)
  epoch : ∀ i, shortLink.length + 33 ≤ i → i < shortLink.length + 33 + 32 →
    bit i = (advert.serverEpoch.toInt + 2 ^ 31).toNat.testBit
      (Bsn.weight (shortLink.length + 33) 32 i)
  advertId : ∀ i, shortLink.length + 65 ≤ i → i < shortLink.length + 65 + 32 →
    bit i = advert.advertId.toNat.testBit (Bsn.weight (shortLink.length + 65) 32 i)
  zeros : ∀ i, shortLink.length + 97 ≤ i →
    i < shortLink.length + 97 + (8 - (shortLink.length + 97) % 8) % 8 → bit i = false

/-- Writing spells the stream, up to a byte. -/
theorem SpellsAdvert.write {bit : Nat → Bool} {shortLink : List Bool} {advert : AdvertHandle}
    (h : SpellsAdvert bit shortLink advert) :
    ∃ value, writeAdvert shortLink advert = .ok value ∧
      8 * value.length = shortLink.length + 97 + (8 - (shortLink.length + 97) % 8) % 8 ∧
      ∀ i, i < 8 * value.length → bitAt value i = bit i := by
  have hlower := Int32.le_toInt advert.serverEpoch
  have hupper := Int32.toInt_lt advert.serverEpoch
  obtain ⟨w₀, h₀, hw₀, hp₀⟩ := (BitWriter.holds_empty bit).exists_writeBits shortLink
    fun j hj => by simpa using h.link j hj
  obtain ⟨w₁, h₁, hw₁, hp₁⟩ := hw₀.exists_write (by omega : 1 ≤ 64) (by omega : 0 < 2 ^ 1)
    fun i hlow hhigh => by
      obtain rfl : i = shortLink.length := by simp only at hp₀; omega
      rw [h.tag, Nat.zero_testBit]
  have hp₁ : w₁.position = shortLink.length + 1 := by simp only at hp₀; omega
  obtain ⟨w₂, h₂, hw₂, hp₂⟩ := hw₁.exists_write (by omega : 32 ≤ 64)
    (UInt32.toNat_lt advert.serverLabel) (by rw [hp₁]; exact h.label)
  have hp₂ : w₂.position = shortLink.length + 33 := by omega
  obtain ⟨w₃, h₃, hw₃, hp₃⟩ := hw₂.exists_write (by omega : 32 ≤ 64)
    (by omega : (advert.serverEpoch.toInt + 2 ^ 31).toNat < 2 ^ 32) (by rw [hp₂]; exact h.epoch)
  have hp₃ : w₃.position = shortLink.length + 65 := by omega
  obtain ⟨w₄, h₄, hw₄, hp₄⟩ := hw₃.exists_write (by omega : 32 ≤ 64)
    (UInt32.toNat_lt advert.advertId) (by rw [hp₃]; exact h.advertId)
  have hp₄ : w₄.position = shortLink.length + 97 := by omega
  obtain ⟨w₅, h₅, hw₅, hp₅⟩ := hw₄.exists_align (by rw [hp₄]; exact h.zeros)
  rw [hp₄] at hp₅
  have hlength := hw₅.length
  refine ⟨w₅.data, ?_, by omega, fun i hi => hw₅.written i (by omega)⟩
  have hbytes := hw₅.intoBytes
  simp only [writeAdvert, h₀, h₁, h₂, h₃, h₄, h₅, hbytes, bind, Except.bind, pure, Except.pure]

/-- What a value reads as, its own bits spell behind its leading ones. -/
theorem ReadsAt.spells {value : List UInt8} {padding : Nat} {advert : AdvertHandle}
    (hpadding : padding < 8) (h : ReadsAt value padding advert) :
    SpellsAdvert (bitAt value)
      ((List.range (8 * value.length - 97 - padding)).map (bitAt value)) advert where
  link i hi := by
    rw [List.length_map, List.length_range] at hi
    simp [hi]
  tag := by
    rw [List.length_map, List.length_range]
    have hbit := testBit_weight_field value (Nat.le_refl (8 * value.length - 97 - padding))
      (by omega : _ < 8 * value.length - 97 - padding + 1)
    rw [h.tag, Nat.zero_testBit] at hbit
    exact hbit.symm
  label i hlow hhigh := by
    have hroom := h.room
    rw [List.length_map, List.length_range] at hlow hhigh ⊢
    rw [show 8 * value.length - 97 - padding + 1 = 8 * value.length - 96 - padding by omega]
      at hlow hhigh ⊢
    rw [← h.label, testBit_weight_field value hlow hhigh]
  epoch i hlow hhigh := by
    have hroom := h.room
    have hepoch := h.epoch
    rw [List.length_map, List.length_range] at hlow hhigh ⊢
    rw [show 8 * value.length - 97 - padding + 33 = 8 * value.length - 64 - padding by omega]
      at hlow hhigh ⊢
    rw [← hepoch, Int.toNat_natCast, testBit_weight_field value hlow hhigh]
  advertId i hlow hhigh := by
    have hroom := h.room
    rw [List.length_map, List.length_range] at hlow hhigh ⊢
    rw [show 8 * value.length - 97 - padding + 65 = 8 * value.length - 32 - padding by omega]
      at hlow hhigh ⊢
    rw [← h.advertId, testBit_weight_field value hlow hhigh]
  zeros i hlow hhigh := by
    have hroom := h.room
    rw [List.length_map, List.length_range] at hlow hhigh
    have hbit := testBit_weight_field value (by omega : 8 * value.length - padding ≤ i)
      (by omega : i < 8 * value.length - padding + padding)
    rw [h.zeros, Nat.zero_testBit] at hbit
    exact hbit.symm

/-! ## The writing and the reading together -/

/-- The stream that writing an advert makes. -/
def advertBit (shortLink : List Bool) (advert : AdvertHandle) (i : Nat) : Bool :=
  if i < shortLink.length then shortLink.getD i false
  else if i < shortLink.length + 1 then false
  else if i < shortLink.length + 33 then
    advert.serverLabel.toNat.testBit (Bsn.weight (shortLink.length + 1) 32 i)
  else if i < shortLink.length + 65 then
    (advert.serverEpoch.toInt + 2 ^ 31).toNat.testBit (Bsn.weight (shortLink.length + 33) 32 i)
  else if i < shortLink.length + 97 then
    advert.advertId.toNat.testBit (Bsn.weight (shortLink.length + 65) 32 i)
  else false

theorem spells_advertBit (shortLink : List Bool) (advert : AdvertHandle) :
    SpellsAdvert (advertBit shortLink advert) shortLink advert where
  link i hi := by rw [advertBit, if_pos hi]
  tag := by rw [advertBit, if_neg (lt_irrefl _), if_pos (Nat.lt_succ_self _)]
  label i hlow hhigh := by
    rw [advertBit, if_neg (by omega), if_neg (by omega), if_pos (by omega)]
  epoch i hlow hhigh := by
    rw [advertBit, if_neg (by omega), if_neg (by omega), if_neg (by omega), if_pos (by omega)]
  advertId i hlow hhigh := by
    rw [advertBit, if_neg (by omega), if_neg (by omega), if_neg (by omega), if_neg (by omega),
      if_pos (by omega)]
  zeros i hlow _ := by
    rw [advertBit, if_neg (by omega), if_neg (by omega), if_neg (by omega), if_neg (by omega),
      if_neg (by omega)]

/-- A value that spells an advert with an epoch in range reads as it in front of its padding. -/
theorem SpellsAdvert.readsAt {bit : Nat → Bool} {shortLink : List Bool} {advert : AdvertHandle}
    (h : SpellsAdvert bit shortLink advert) (hfloor : epochFloor ≤ advert.serverEpoch.toInt)
    (hceiling : advert.serverEpoch.toInt ≤ epochCeiling) {value : List UInt8}
    (hlength : 8 * value.length =
      shortLink.length + 97 + (8 - (shortLink.length + 97) % 8) % 8)
    (hvalue : ∀ i, i < 8 * value.length → bitAt value i = bit i) :
    ReadsAt value ((8 - (shortLink.length + 97) % 8) % 8) advert := by
  have hlower := Int32.le_toInt advert.serverEpoch
  have hupper := Int32.toInt_lt advert.serverEpoch
  constructor
  · omega
  · refine field_eq (by omega) fun i hlow hhigh => ?_
    obtain rfl : i = shortLink.length := by omega
    rw [hvalue _ (by omega), h.tag, Nat.zero_testBit]
  · rw [show 8 * value.length - 96 - (8 - (shortLink.length + 97) % 8) % 8 =
      shortLink.length + 1 by omega]
    refine field_eq (UInt32.toNat_lt _) fun i hlow hhigh => ?_
    rw [hvalue _ (by omega), h.label i hlow hhigh]
  · have hseconds : field value (8 * value.length - 64 - (8 - (shortLink.length + 97) % 8) % 8) 32 =
        (advert.serverEpoch.toInt + 2 ^ 31).toNat := by
      rw [show 8 * value.length - 64 - (8 - (shortLink.length + 97) % 8) % 8 =
        shortLink.length + 33 by omega]
      refine field_eq (by omega) fun i hlow hhigh => ?_
      rw [hvalue _ (by omega), h.epoch i hlow hhigh]
    rw [hseconds]
    omega
  · rw [show 8 * value.length - 32 - (8 - (shortLink.length + 97) % 8) % 8 =
      shortLink.length + 65 by omega]
    refine field_eq (UInt32.toNat_lt _) fun i hlow hhigh => ?_
    rw [hvalue _ (by omega), h.advertId i hlow hhigh]
  · refine field_eq (Nat.two_pow_pos _) fun i hlow hhigh => ?_
    rw [hvalue _ (by omega), h.zeros i (by omega) (by omega), Nat.zero_testBit]
  · exact hfloor
  · exact hceiling

/-- What a value reads as, written behind the value's own leading bits, is the value. -/
theorem ReadsAt.write {value : List UInt8} {padding : Nat} {advert : AdvertHandle}
    (hpadding : padding < 8) (h : ReadsAt value padding advert) :
    writeAdvert ((List.range (8 * value.length - 97 - padding)).map (bitAt value)) advert =
      .ok value := by
  have hroom := h.room
  obtain ⟨written, hwritten, hlength, hbits⟩ := (h.spells hpadding).write
  rw [List.length_map, List.length_range] at hlength
  have hsame : written = value :=
    BitWriter.eq_of_bitAt (by omega) hbits
  rw [hwritten, hsame]

/-! ## Resolving -/

/-- The item with the larger key, the later of two that are equal. -/
def larger {α : Type} (key : α → UInt64) (best : Option α) (item : α) : Option α :=
  some (best.elim item fun held => if key held ≤ key item then item else held)

theorem maxByKey_eq_foldl {α : Type} (key : α → UInt64) (items : List α) :
    maxByKey key items = items.foldl (larger key) none := by
  unfold maxByKey
  congr 1
  funext best item
  cases best with
  | none => rfl
  | some held => exact (apply_ite some ..).symm

/-- An item whose key beats every other's is the maximum. -/
theorem maxByKey_eq_some {α : Type} {key : α → UInt64} {items : List α} {a : α} (ha : a ∈ items)
    (hbest : ∀ b ∈ items, b = a ∨ key b < key a) : maxByKey key items = some a := by
  -- The item held so far is the best one or one it beats, and the best one stays.
  have hfold : ∀ (rest : List α) (best : Option α), (∀ b ∈ rest, b = a ∨ key b < key a) →
      (∀ b ∈ best, b = a ∨ key b < key a) → best = some a ∨ a ∈ rest →
      rest.foldl (larger key) best = some a := by
    intro rest
    induction rest with
    | nil =>
      intro best _ _ hin
      rcases hin with h | h
      · exact h
      · exact absurd h List.not_mem_nil
    | cons b rest ih =>
      intro best hrest hheld hin
      have hb := hrest b List.mem_cons_self
      have hrest' := fun x hx => hrest x (List.mem_cons_of_mem b hx)
      rw [List.foldl_cons]
      cases best with
      | none =>
        refine ih (some b) hrest' (fun x hx => Option.mem_some_iff.1 hx ▸ hb) ?_
        rcases hin with h | h
        · cases h
        · rcases List.mem_cons.1 h with rfl | h
          · exact Or.inl rfl
          · exact Or.inr h
      | some held =>
        have hheld' := hheld held rfl
        rw [larger, Option.elim_some]
        split_ifs with hle
        · refine ih (some b) hrest' (fun x hx => Option.mem_some_iff.1 hx ▸ hb) ?_
          rcases hin with h | h
          · obtain rfl := Option.some.inj h
            rcases hb with rfl | hlt
            · exact Or.inl rfl
            · exact absurd hle (UInt64.not_le.2 hlt)
          · rcases List.mem_cons.1 h with rfl | h
            · exact Or.inl rfl
            · exact Or.inr h
        · refine ih (some held) hrest' (fun x hx => Option.mem_some_iff.1 hx ▸ hheld') ?_
          rcases hin with h | h
          · exact Or.inl h
          · rcases List.mem_cons.1 h with rfl | h
            · rcases hheld' with rfl | hlt
              · exact Or.inl rfl
              · exact absurd (UInt64.le_of_lt hlt) hle
            · exact Or.inr h
  rw [maxByKey_eq_foldl]
  exact hfold items none hbest (fun b hb => by cases hb) (Or.inr ha)

/-- How many presences vote for a server. -/
def votes (attested : ExtTreeMap GameServer UInt64) (advert : AdvertHandle) : UInt64 :=
  attested[advert.server]?.getD 0

theorem resolveAdvert_eq_some {value : List UInt8} {attested : ExtTreeMap GameServer UInt64}
    {advert : AdvertHandle} (hmem : advert ∈ gameAdvertCandidates value)
    (hothers : ∀ other ∈ (gameAdvertCandidates value).erase advert,
      votes attested other < votes attested advert ∨ other = advert ∧ 0 < votes attested advert) :
    resolveAdvert value attested = some advert := by
  unfold resolveAdvert
  split
  · next single hsingle =>
    rw [hsingle, List.mem_singleton] at hmem
    rw [hmem]
  · next hseveral =>
    -- Some other candidate is there, and the handle has more votes than it, so it has some.
    have hpositive : 0 < votes attested advert := by
      cases herase : (gameAdvertCandidates value).erase advert with
      | nil =>
        have hperm := List.perm_cons_erase hmem
        rw [herase] at hperm
        exact absurd (List.perm_singleton.1 hperm) (hseveral advert)
      | cons other rest =>
        rcases hothers other (by rw [herase]; exact List.mem_cons_self) with hlt | h
        · exact UInt64.lt_of_le_of_lt UInt64.zero_le hlt
        · exact h.2
    have hvotes : attested[advert.server]? = some (votes attested advert) := by
      cases h : attested[advert.server]? with
      | none => simp [votes, h] at hpositive
      | some v => simp [votes, h]
    rw [maxByKey_eq_some (a := (votes attested advert, advert))]
    · rfl
    · refine List.mem_filterMap.2 ⟨advert, hmem, ?_⟩
      rw [hvotes]
      exact if_pos hpositive
    · intro entry hentry
      obtain ⟨other, hother, hentry⟩ := List.mem_filterMap.1 hentry
      cases h : attested[other.server]? with
      | none => simp [h] at hentry
      | some v =>
        simp only [h, Option.ite_none_right_eq_some, Option.some.injEq] at hentry
        obtain ⟨-, rfl⟩ := hentry
        by_cases hsame : other = advert
        · left
          rw [hsame, hvotes] at h
          rw [hsame, Option.some.inj h]
        · right
          have hrest : other ∈ (gameAdvertCandidates value).erase advert :=
            (List.mem_erase_of_ne hsame).2 hother
          rcases hothers other hrest with hlt | hsame'
          · simpa [votes, h] using hlt
          · exact absurd hsame'.1 hsame

/-- **A joinable advert is found.** The handle that a value was written with is among its
candidates; a candidate of any value, written behind the value's own leading bits, gives it back;
and a candidate is the one resolved when its server has more votes than that of each other
candidate, another reading of the same attested handle aside. -/
theorem joinable_advert_found (shortLink : List Bool) (advert : AdvertHandle) :
    (epochFloor ≤ advert.serverEpoch.toInt → advert.serverEpoch.toInt ≤ epochCeiling →
      ∃ value, writeAdvert shortLink advert = .ok value ∧ advert ∈ gameAdvertCandidates value) ∧
    (∀ value, advert ∈ gameAdvertCandidates value → ∃ padding < 8,
      97 + padding ≤ 8 * value.length ∧
      writeAdvert ((List.range (8 * value.length - 97 - padding)).map (bitAt value)) advert =
        .ok value) ∧
    (∀ value attested, advert ∈ gameAdvertCandidates value →
      (∀ other ∈ (gameAdvertCandidates value).erase advert,
        votes attested other < votes attested advert ∨
          other = advert ∧ 0 < votes attested advert) →
      resolveAdvert value attested = some advert) := by
  refine ⟨fun hfloor hceiling => ?_, fun value hmem => ?_, fun value attested => ?_⟩
  · have hspells := spells_advertBit shortLink advert
    obtain ⟨value, hwrite, hlength, hbits⟩ := hspells.write
    have hreads := hspells.readsAt hfloor hceiling hlength hbits
    exact ⟨value, hwrite, mem_gameAdvertCandidates.2 ⟨_, Nat.mod_lt _ (by omega), hreads⟩⟩
  · obtain ⟨padding, hpadding, hreads⟩ := mem_gameAdvertCandidates.1 hmem
    exact ⟨padding, hpadding, hreads.room, hreads.write hpadding⟩
  · exact resolveAdvert_eq_some

/-- A value written behind three link bits reads two ways, and one vote settles it. -/
theorem joinable_advert_found_twice :
    let advert : AdvertHandle := ⟨7, 1500000000, 9⟩
    let value : List UInt8 := [5, 0, 0, 0, 215, 150, 130, 240, 0, 0, 0, 0, 9]
    (∃ value, writeAdvert [true, false, true] advert = .ok value ∧
      advert ∈ gameAdvertCandidates value) ∧
    (∃ padding < 8, 97 + padding ≤ 8 * value.length ∧
      writeAdvert ((List.range (8 * value.length - 97 - padding)).map (bitAt value)) advert =
        .ok value) ∧
    resolveAdvert value ((∅ : ExtTreeMap GameServer UInt64).insert advert.server 1) =
      some advert := by
  intro advert value
  have hmem : advert ∈ gameAdvertCandidates value := by decide +kernel
  have h := joinable_advert_found [true, false, true] advert
  exact ⟨h.1 (by decide) (by decide), h.2.1 value hmem, h.2.2 value _ hmem (by decide +kernel)⟩

/-! ## Neighbours that are equal -/

section dedup

variable {α : Type} [DecidableEq α]

theorem mem_destutter'_ne {l : List α} {a x : α} :
    x ∈ l.destutter' (· ≠ ·) a ↔ x = a ∨ x ∈ l := by
  induction l generalizing a with
  | nil => simp
  | cons b l ih =>
    by_cases hab : a = b
    · subst hab
      rw [List.destutter'_cons_neg _ (by simp), ih, List.mem_cons]
      tauto
    · rw [List.destutter'_cons_pos _ hab, List.mem_cons, ih, List.mem_cons]

/-- Taking out equal neighbours takes out every repetition when nothing stands between equals. -/
theorem nodup_destutter'_ne {l : List α} {a : α} :
    (l.destutter' (· ≠ ·) a).Nodup ↔ ∀ x y, [x, y, x] <+ a :: l → x = y := by
  induction l generalizing a with
  | nil =>
    simp only [List.destutter'_nil, List.nodup_singleton, true_iff]
    intro x y h
    exact absurd h.length_le (by simp)
  | cons b l ih =>
    by_cases hab : a = b
    · subst hab
      rw [List.destutter'_cons_neg _ (by simp), ih]
      constructor
      · intro h x y hxy
        rcases List.sublist_cons_iff.1 hxy with hrest | ⟨rest, hx, hrest⟩
        · exact h x y hrest
        · obtain ⟨rfl, rfl⟩ := List.cons_eq_cons.1 hx
          rcases List.sublist_cons_iff.1 hrest with hrest | ⟨rest, hy, -⟩
          · exact h x y (hrest.cons_cons x)
          · exact (List.cons_eq_cons.1 hy).1.symm
      · intro h x y hxy
        exact h x y (hxy.trans (List.sublist_cons_self a _))
    · rw [List.destutter'_cons_pos _ hab, List.nodup_cons, ih, mem_destutter'_ne]
      constructor
      · intro ⟨hfresh, h⟩ x y hxy
        rcases List.sublist_cons_iff.1 hxy with hrest | ⟨rest, hx, hrest⟩
        · exact h x y hrest
        · obtain ⟨rfl, rfl⟩ := List.cons_eq_cons.1 hx
          have hmem : x ∈ b :: l := hrest.subset (by simp)
          exact absurd (List.mem_cons.1 hmem) hfresh
      · intro h
        refine ⟨?_, fun x y hxy => h x y (hxy.trans (List.sublist_cons_self a _))⟩
        rintro (rfl | hmem)
        · exact hab rfl
        · have hbetween : [a, b, a] <+ a :: b :: l :=
            ((List.singleton_sublist.2 hmem).cons_cons b).cons_cons a
          exact hab (h a b hbetween)

theorem mem_destutter_ne {l : List α} {x : α} : x ∈ l.destutter (· ≠ ·) ↔ x ∈ l := by
  cases l with
  | nil => simp
  | cons a l => rw [List.destutter_cons', mem_destutter'_ne, List.mem_cons]

theorem nodup_destutter_ne {l : List α} :
    (l.destutter (· ≠ ·)).Nodup ↔ ∀ x y, [x, y, x] <+ l → x = y := by
  cases l with
  | nil => simp
  | cons a l => rw [List.destutter_cons', nodup_destutter'_ne]

end dedup

/-! ## The list of lobbies -/

namespace PresenceDirectory

variable {d : PresenceDirectory}

instance : Std.Total NewerFirst := ⟨fun a b => Int32.le_total b.serverEpoch a.serverEpoch⟩

instance : IsTrans AdvertHandle NewerFirst := ⟨fun _ _ _ hab hbc => Int32.le_trans hbc hab⟩

/-- A stable sort leaves the lobbies of one epoch in their order. -/
theorem filter_insertionSort (epoch : Int32) (adverts : List AdvertHandle) :
    (adverts.insertionSort NewerFirst).filter (·.serverEpoch = epoch) =
      adverts.filter (·.serverEpoch = epoch) := by
  have hsorted : (adverts.filter (·.serverEpoch = epoch)).Pairwise NewerFirst := by
    refine List.pairwise_of_forall_mem_list fun a ha b hb => ?_
    have ha := (List.mem_filter.1 ha).2
    have hb := (List.mem_filter.1 hb).2
    simp only [decide_eq_true_eq] at ha hb
    rw [NewerFirst, ha, hb]
    exact Int32.le_refl epoch
  have hsublist := (List.sublist_insertionSort hsorted List.filter_sublist).filter
    (·.serverEpoch = epoch)
  rw [List.filter_filter] at hsublist
  simp only [Bool.and_self] at hsublist
  refine (hsublist.eq_of_length ?_).symm
  exact ((List.perm_insertionSort NewerFirst adverts).filter _).length_eq.symm

/-- A lobby is met again behind another one of the same epoch, in the sorted list as in the list it
was made of. -/
theorem between_insertionSort {adverts : List AdvertHandle} {a b : AdvertHandle} :
    [a, b, a] <+ adverts.insertionSort NewerFirst ↔
      [a, b, a] <+ adverts ∧ a.serverEpoch = b.serverEpoch := by
  constructor
  · intro h
    have hpairwise := (List.pairwise_insertionSort NewerFirst adverts).sublist h
    simp only [List.pairwise_cons, List.mem_cons, List.not_mem_nil, or_false, forall_eq_or_imp,
      forall_eq, NewerFirst] at hpairwise
    have hepoch : a.serverEpoch = b.serverEpoch :=
      Int32.le_antisymm hpairwise.2.1 hpairwise.1.1
    refine ⟨?_, hepoch⟩
    have hfilter := h.filter (·.serverEpoch = a.serverEpoch)
    rw [filter_insertionSort] at hfilter
    simp only [List.filter_cons, List.filter_nil, hepoch, decide_true, if_true] at hfilter
    exact hfilter.trans List.filter_sublist
  · intro ⟨h, hepoch⟩
    refine List.sublist_insertionSort ?_ h
    simp [NewerFirst, hepoch]

/-- The list of lobbies is what it should be: the newest server first, the lobbies that presence
shows and no others, and each of them once. -/
structure ListsLobbies (d : PresenceDirectory) : Prop where
  sorted : d.adverts.Pairwise fun a b => b.serverEpoch ≤ a.serverEpoch
  complete : ∀ advert, advert ∈ d.adverts ↔ ∃ (id : UInt32) (values : FieldValues) (value : _),
    d.values[id]? = some values ∧ values[fieldGameInfo]? = some value ∧
      resolveAdvert value d.attestedServers = some advert
  nodup : d.adverts.Nodup

/-- Between two people of one lobby, in the order of their ids, there is nobody in another lobby of
the same server epoch. -/
def LobbiesTogether (d : PresenceDirectory) : Prop :=
  ∀ a b, [a, b, a] <+ d.shownAdverts → a.serverEpoch = b.serverEpoch → a = b

theorem mem_shownAdverts {advert : AdvertHandle} :
    advert ∈ d.shownAdverts ↔ ∃ (id : UInt32) (values : FieldValues) (value : _),
      d.values[id]? = some values ∧ values[fieldGameInfo]? = some value ∧
        resolveAdvert value d.attestedServers = some advert := by
  simp only [shownAdverts, List.mem_filterMap, Option.bind_eq_bind, Option.bind_eq_some_iff]
  constructor
  · rintro ⟨⟨id, values⟩, hmem, value, hvalue, hresolve⟩
    exact ⟨id, values, value, ExtTreeMap.mem_toList_iff_getElem?_eq_some.1 hmem, hvalue, hresolve⟩
  · rintro ⟨id, values, value, hvalues, hvalue, hresolve⟩
    exact ⟨(id, values), ExtTreeMap.mem_toList_iff_getElem?_eq_some.2 hvalues, value, hvalue,
      hresolve⟩

theorem nodup_adverts : d.adverts.Nodup ↔ d.LobbiesTogether := by
  rw [adverts, nodup_destutter_ne]
  constructor
  · intro h a b hbetween hepoch
    exact h a b (between_insertionSort.2 ⟨hbetween, hepoch⟩)
  · intro h a b hbetween
    obtain ⟨hbetween, hepoch⟩ := between_insertionSort.1 hbetween
    exact h a b hbetween hepoch

/-- **Only neighbours are compared.** The list is sorted and complete for every directory; a lobby
is in it once exactly when the people of each lobby stand together. -/
theorem lists_lobbies_iff (d : PresenceDirectory) : d.ListsLobbies ↔ d.LobbiesTogether := by
  constructor
  · intro h
    exact nodup_adverts.1 h.nodup
  · intro h
    refine ⟨?_, fun advert => ?_, nodup_adverts.2 h⟩
    · exact (List.pairwise_insertionSort NewerFirst d.shownAdverts).sublist
        (List.destutter_sublist _ _)
    · rw [adverts, mem_destutter_ne, List.mem_insertionSort, mem_shownAdverts]

/-- A game-info value that reads one way, as lobby `lobby` of a server. -/
def lobbyValue (lobby : UInt8) : List UInt8 := [0, 0, 0, 0, 7, 217, 104, 47, 0, 0, 0, 0, lobby]

/-- Presence 1 and presence 3 are in lobby 1, and presence 2 in lobby 2 of the same server. -/
def splitLobbyRun : List Step :=
  let showing (id : UInt32) (lobby : UInt8) : Step := .apply {
    localPresenceId := id, masterPresenceId := 0, fieldData := lobbyValue lobby
    clearedHandles := [], handles := [fieldGameInfo], variableSizes := [13], online := true }
  [.announce ⟨[⟨fieldGameInfo, 0, ⟨0⟩, none⟩]⟩, showing 1 1, showing 2 2, showing 3 1]

/-- Lobby 1 is in the list twice. -/
theorem splitLobby_not_listed : ¬ ∀ d : PresenceDirectory, d.ListsLobbies := by
  intro h
  have hnodup := (h (run step {} splitLobbyRun)).nodup
  have hadverts : (run step {} splitLobbyRun).adverts =
      [⟨7, 1500000000, 1⟩, ⟨7, 1500000000, 2⟩, ⟨7, 1500000000, 1⟩] := by decide +kernel
  rw [hadverts] at hnodup
  exact absurd hnodup (by decide)

end PresenceDirectory

end Superiority
