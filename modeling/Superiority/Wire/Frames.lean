import Superiority.Error
import Superiority.Library.Bytes
import Superiority.Library.Incremental
import Superiority.Library.Keystream

/-!
# Frames of the classic channel

`platform/wire/frames.rs`: WebSocket frames, encoded with a mask and decoded with or without one
from a buffer that reads of any size fill. A frame is decoded anew on every read until the buffer
holds it.

* **`decodeFrame_encodeFrame`** – an encoded frame is decoded as it was sent, whatever follows.
* **`frames`** – decoding is incremental: what is found in a buffer is found in every longer one.
* **`framing_cut_independent`** – so the frames that are received, and the point where receiving
  fails, are those of the byte stream, however the reads cut it.
-/

namespace Superiority

/-! ## Frames -/

def finBit : UInt8 := 0x80
def maskedBit : UInt8 := 0x80
def reservedBits : UInt8 := 0x70
def opcodeBits : UInt8 := 0x0F
def lengthBits : UInt8 := 0x7F

/-- Lengths that select the extended length fields of 16 and 64 bits. -/
def length16 : UInt8 := 0x7E
def length64 : UInt8 := 0x7F

def maxControlPayload : Nat := 125

structure Frame where
  fin : Bool
  opcode : UInt8
  payload : List UInt8
  deriving DecidableEq, Repr

def frameError (message : String) : Error := .transport message

/-- `byte ^ mask_key[index & 3]` throughout. -/
def maskPayload (maskKey payload : List UInt8) : List UInt8 :=
  xorFrom (fun index => maskKey.getD (index &&& 3) 0) 0 payload

/-- The second byte of a header and the extended length. -/
def lengthField (length : Nat) : List UInt8 :=
  if length < length16.toNat then [maskedBit ||| UInt8.ofNat length]
  else if length < 2 ^ 16 then (maskedBit ||| length16) :: toBigEndian 2 length
  else (maskedBit ||| length64) :: toBigEndian 8 length

def encodeFrame (payload : Slice) (opcode : UInt8) (maskKey : Vector UInt8 4) :
    Except Error (List UInt8) :=
  if opcode ≥ 8 ∧ payload.bytes.length > maxControlPayload then
    .error (frameError s!"control frames may carry {maxControlPayload} bytes at most")
  else
    .ok ((finBit ||| opcode) :: lengthField payload.bytes.length ++ maskKey.toList ++
      maskPayload maskKey.toList payload.bytes)

/-- The length that a header gives and the offset behind it. -/
def decodeLength (data : List UInt8) (second : UInt8) : Except Error (Option (Nat × Nat)) :=
  let short := second &&& lengthBits
  if short = length16 then
    match getRange data 2 4 with
    | none => .ok none
    | some bytes => .ok (some (bigEndian bytes, 4))
  else if short = length64 then
    match getRange data 2 10 with
    | none => .ok none
    | some bytes =>
      if bigEndian bytes ≥ 2 ^ 63 then .error (frameError "invalid 64-bit payload length")
      else .ok (some (bigEndian bytes, 10))
  else
    .ok (some (short.toNat, 2))

/-- The mask key, if there is to be one, and the offset behind it. -/
def decodeMask (data : List UInt8) (masked : Bool) (offset : Nat) :
    Option (Option (List UInt8) × Nat) :=
  if masked then (getRange data offset (offset + 4)).map fun bytes => (some bytes, offset + 4)
  else some (none, offset)

/-- `decode_frame`: `none` means that the buffer holds only a part of a frame. Every length fits
the 64 bits of a `usize`. -/
def decodeFrame (data : List UInt8) : Except Error (Option (Frame × Nat)) :=
  match data with
  | first :: second :: _ =>
    if first &&& reservedBits ≠ 0 then .error (frameError "reserved frame bits are set")
    else
      let fin := decide (first &&& finBit ≠ 0)
      let opcode := first &&& opcodeBits
      let masked := decide (second &&& maskedBit ≠ 0)
      match decodeLength data second with
      | .error error => .error error
      | .ok none => .ok none
      | .ok (some (length, offset)) =>
        if opcode ≥ 8 ∧ (!fin ∨ length > maxControlPayload) then
          .error (frameError "invalid control frame")
        else
          match decodeMask data masked offset with
          | none => .ok none
          | some (maskKey, offset) =>
            match getRange data offset (offset + length) with
            | none => .ok none
            | some payload =>
              let payload := match maskKey with
                | some key => maskPayload key payload
                | none => payload
              .ok (some ({ fin, opcode, payload }, offset + length))
  | _ => .ok none

/-! ## Receiving -/

/-- `Framing`: what is buffered and what the reads to come give. After the last one the stream is
at its end, as after a read of no bytes. -/
structure Framing where
  buffer : List UInt8
  reads : List (Except Error (List UInt8))

namespace Framing

def closedError : Error := frameError "server closed the connection"

/-- The loop of `receive`, read by read. -/
def receiveFrom (buffer : List UInt8) (reads : List (Except Error (List UInt8))) :
    Except Error Frame × Framing :=
  match decodeFrame buffer with
  | .error error => (.error error, ⟨buffer, reads⟩)
  | .ok (some (frame, consumed)) => (.ok frame, ⟨buffer.drop consumed, reads⟩)
  | .ok none =>
    match reads with
    | [] => (.error closedError, ⟨buffer, []⟩)
    | .error error :: reads => (.error error, ⟨buffer, reads⟩)
    | .ok [] :: reads => (.error closedError, ⟨buffer, reads⟩)
    | .ok (byte :: chunk) :: reads => receiveFrom (buffer ++ byte :: chunk) reads

def receive (s : Framing) : Except Error Frame × Framing := receiveFrom s.buffer s.reads

end Framing

/-! ## Decoding is incremental -/

variable {data : List UInt8}

theorem decodeLength_grows {second : UInt8} {found} (h : decodeLength data second = found)
    (hfound : found ≠ .ok none) (more : List UInt8) :
    decodeLength (data ++ more) second = found := by
  subst h
  unfold decodeLength at *
  dsimp only at *
  split_ifs at * with hshort hlong
  · cases hrange : getRange data 2 4 with
    | none => simp [hrange] at hfound
    | some bytes => rw [getRange_append hrange]
  · cases hrange : getRange data 2 10 with
    | none => simp [hrange] at hfound
    | some bytes => rw [getRange_append hrange]
  · rfl

theorem decodeMask_grows {masked : Bool} {offset : Nat} {found}
    (h : decodeMask data masked offset = some found) (more : List UInt8) :
    decodeMask (data ++ more) masked offset = some found := by
  unfold decodeMask at *
  split_ifs at * with hmasked
  · obtain ⟨bytes, hbytes, rfl⟩ := Option.map_eq_some_iff.1 h
    rw [getRange_append hbytes]
    rfl
  · exact h

theorem decodeFrame_grows {found} (h : decodeFrame data = found) (hfound : found ≠ .ok none)
    (more : List UInt8) : decodeFrame (data ++ more) = found := by
  subst h
  match data with
  | [] => exact absurd rfl hfound
  | [_] => exact absurd rfl hfound
  | first :: second :: rest =>
    have hcons : first :: second :: rest ++ more = first :: second :: (rest ++ more) := rfl
    unfold decodeFrame at hfound ⊢
    rw [hcons]
    dsimp only at *
    split_ifs at * with hreserved
    · rfl
    cases hlength : decodeLength (first :: second :: rest) second with
    | error error =>
      have hgrown := decodeLength_grows hlength (by simp) more
      rw [hcons] at hgrown
      rw [hgrown]
    | ok found =>
      cases found with
      | none =>
        rw [hlength] at hfound
        exact absurd rfl hfound
      | some field =>
        have hgrown := decodeLength_grows hlength (by simp) more
        rw [hcons] at hgrown
        rw [hlength] at hfound
        rw [hgrown]
        dsimp only at *
        split_ifs at * with hcontrol
        · rfl
        cases hmask : decodeMask (first :: second :: rest) (decide (second &&& maskedBit ≠ 0))
            field.2 with
        | none =>
          rw [hmask] at hfound
          exact absurd rfl hfound
        | some mask =>
          have hgrown := decodeMask_grows hmask more
          rw [hcons] at hgrown
          rw [hmask] at hfound
          rw [hgrown]
          dsimp only at *
          cases hpayload : getRange (first :: second :: rest) mask.2 (mask.2 + field.1) with
          | none =>
            rw [hpayload] at hfound
            exact absurd rfl hfound
          | some payload =>
            have hgrown := getRange_append hpayload more
            rw [hcons] at hgrown
            rw [hgrown]

/-- The offset behind the length of a header, which lies within the data. -/
theorem decodeLength_offset {second : UInt8} {length offset : Nat}
    (h : decodeLength data second = .ok (some (length, offset))) : 2 ≤ offset := by
  unfold decodeLength at h
  dsimp only at h
  split_ifs at h
  · split at h
    · cases h
    · cases h
      omega
  · split at h
    · cases h
    · split_ifs at h
      cases h
      omega
  · cases h
    omega

theorem decodeMask_offset {masked : Bool} {offset : Nat} {maskKey : Option (List UInt8)}
    {behind : Nat} (h : decodeMask data masked offset = some (maskKey, behind)) :
    offset ≤ behind := by
  unfold decodeMask at h
  split_ifs at h
  · obtain ⟨bytes, -, hbytes⟩ := Option.map_eq_some_iff.1 h
    cases hbytes
    omega
  · cases h
    omega

/-- A frame takes a part of the data. -/
theorem decodeFrame_takes {frame : Frame} {consumed : Nat}
    (h : decodeFrame data = .ok (some (frame, consumed))) : 0 < consumed ∧ consumed ≤ data.length := by
  unfold decodeFrame at h
  split at h
  · split_ifs at h
    dsimp only at h
    split at h
    · cases h
    · cases h
    · rename_i length offset hlength
      split_ifs at h
      split at h
      · cases h
      · rename_i maskKey behind hmask
        split at h
        · cases h
        · rename_i payload hpayload
          cases h
          have hrange := getRange_eq_some hpayload
          have hoffset := decodeLength_offset hlength
          have hbehind := decodeMask_offset hmask
          omega
  · cases h

/-- `decode_frame` as an incremental decoder. -/
def frames : Incremental UInt8 Frame Error where
  decode := decodeFrame
  grows := decodeFrame_grows
  takes := decodeFrame_takes

/-! ## Encoded frames -/

theorem maskPayload_maskPayload (maskKey payload : List UInt8) :
    maskPayload maskKey (maskPayload maskKey payload) = payload := xorFrom_xorFrom _ _ _

theorem length_maskPayload (maskKey payload : List UInt8) :
    (maskPayload maskKey payload).length = payload.length := length_xorFrom _ _ _

/-- The bits of a first byte. -/
theorem first_bits {opcode : UInt8} (h : opcode < 16) :
    (finBit ||| opcode) &&& reservedBits = 0 ∧ (finBit ||| opcode) &&& finBit ≠ 0 ∧
      (finBit ||| opcode) &&& opcodeBits = opcode := by
  have hall : ∀ n ∈ List.range 16, (finBit ||| UInt8.ofNat n) &&& reservedBits = 0 ∧
      (finBit ||| UInt8.ofNat n) &&& finBit ≠ 0 ∧
      (finBit ||| UInt8.ofNat n) &&& opcodeBits = UInt8.ofNat n := by decide
  have hopcode := hall opcode.toNat (List.mem_range.2 (UInt8.lt_iff_toNat_lt.1 h))
  rwa [UInt8.ofNat_toNat] at hopcode

/-- The bits of a second byte that holds the length itself. -/
theorem second_bits {length : Nat} (h : length < length16.toNat) :
    (maskedBit ||| UInt8.ofNat length) &&& maskedBit ≠ 0 ∧
      (maskedBit ||| UInt8.ofNat length) &&& lengthBits = UInt8.ofNat length ∧
      UInt8.ofNat length ≠ length16 ∧ UInt8.ofNat length ≠ length64 := by
  have hall : ∀ n ∈ List.range 126, (maskedBit ||| UInt8.ofNat n) &&& maskedBit ≠ 0 ∧
      (maskedBit ||| UInt8.ofNat n) &&& lengthBits = UInt8.ofNat n ∧
      UInt8.ofNat n ≠ length16 ∧ UInt8.ofNat n ≠ length64 := by decide +kernel
  exact hall length (List.mem_range.2 h)

/-- **Lengths.** Each of the three forms is read back, and says that there is a mask. -/
theorem decodeLength_lengthField {length : Nat} (h : length < 2 ^ 63) :
    ∃ second extended, lengthField length = second :: extended ∧ second &&& maskedBit ≠ 0 ∧
      ∀ first more, decodeLength (first :: second :: extended ++ more) second =
        .ok (some (length, 2 + extended.length)) := by
  unfold lengthField
  split_ifs with hshort hmedium
  · obtain ⟨hmasked, hlength, hne16, hne64⟩ := second_bits hshort
    refine ⟨_, [], rfl, hmasked, fun first more => ?_⟩
    have hsmall : length < 256 := lt_trans hshort (by decide)
    rw [decodeLength, hlength, if_neg hne16, if_neg hne64, UInt8.toNat_ofNat', Nat.mod_eq_of_lt hsmall]
    rfl
  · refine ⟨_, _, rfl, by decide, fun first more => ?_⟩
    have hbits : (maskedBit ||| length16) &&& lengthBits = length16 := by decide
    have hrange : getRange (first :: (maskedBit ||| length16) :: toBigEndian 2 length ++ more) 2 4 =
        some (toBigEndian 2 length) :=
      getRange_middle (show _ = [first, maskedBit ||| length16] ++ toBigEndian 2 length ++ more
        from rfl) rfl (by simp)
    rw [decodeLength, hbits, if_pos rfl, hrange, length_toBigEndian]
    dsimp only
    rw [bigEndian_toBigEndian (by omega)]
  · refine ⟨_, _, rfl, by decide, fun first more => ?_⟩
    have hbits : (maskedBit ||| length64) &&& lengthBits = length64 := by decide
    have hrange : getRange (first :: (maskedBit ||| length64) :: toBigEndian 8 length ++ more) 2 10 =
        some (toBigEndian 8 length) :=
      getRange_middle (show _ = [first, maskedBit ||| length64] ++ toBigEndian 8 length ++ more
        from rfl) rfl (by simp)
    rw [decodeLength, hbits, if_neg (by decide), if_pos rfl, hrange, length_toBigEndian]
    dsimp only
    rw [bigEndian_toBigEndian (by omega), if_neg (by omega)]

/-- **The round trip.** Whatever follows, an encoded frame is decoded as it was sent. -/
theorem decodeFrame_encodeFrame {payload : Slice} {opcode : UInt8} {maskKey : Vector UInt8 4}
    {encoded : List UInt8} (hopcode : opcode < 16)
    (h : encodeFrame payload opcode maskKey = .ok encoded) (more : List UInt8) :
    decodeFrame (encoded ++ more) =
      .ok (some ({ fin := true, opcode, payload := payload.bytes }, encoded.length)) := by
  unfold encodeFrame at h
  split_ifs at h with hcontrol
  cases h
  obtain ⟨hreserved, hfin, hbits⟩ := first_bits hopcode
  obtain ⟨second, extended, hfield, hmasked, hlength⟩ :=
    decodeLength_lengthField payload.length_lt
  have hkey : maskKey.toList.length = 4 := by simp
  have hpayload := length_maskPayload maskKey.toList payload.bytes
  generalize hbody : maskPayload maskKey.toList payload.bytes = body at *
  have hdata : (finBit ||| opcode) :: lengthField payload.bytes.length ++ maskKey.toList ++ body ++
      more = (finBit ||| opcode) :: second :: (extended ++ maskKey.toList ++ body ++ more) := by
    simp [hfield]
  have hmask : decodeMask ((finBit ||| opcode) :: second :: (extended ++ maskKey.toList ++ body ++
      more)) true (2 + extended.length) = some (some maskKey.toList, 2 + extended.length + 4) := by
    rw [decodeMask, if_pos rfl, getRange_middle (show _ = ((finBit ||| opcode) :: second ::
      extended) ++ maskKey.toList ++ (body ++ more) by simp) (by simp; omega) (by simp; omega)]
    rfl
  have hrange : getRange ((finBit ||| opcode) :: second :: (extended ++ maskKey.toList ++ body ++
      more)) (2 + extended.length + 4) (2 + extended.length + 4 + payload.bytes.length) =
        some body :=
    getRange_middle (show _ = ((finBit ||| opcode) :: second :: extended ++ maskKey.toList) ++ body
      ++ more by simp) (by simp; omega) (by simp; omega)
  have hlength' : decodeLength ((finBit ||| opcode) :: second :: (extended ++ maskKey.toList ++
      body ++ more)) second = .ok (some (payload.bytes.length, 2 + extended.length)) := by
    simpa using hlength (finBit ||| opcode) (maskKey.toList ++ body ++ more)
  have hfits : ¬ (opcode ≥ 8 ∧ ((!true) = true ∨ payload.bytes.length > maxControlPayload)) := by
    rintro ⟨hlarge, hfalse | hlong⟩
    · cases hfalse
    · exact hcontrol ⟨hlarge, hlong⟩
  rw [hdata, decodeFrame]
  dsimp only
  rw [if_neg (not_not.2 hreserved), hlength', hbits, decide_eq_true hfin, decide_eq_true hmasked]
  dsimp only
  rw [if_neg hfits, hmask]
  dsimp only
  rw [hrange]
  dsimp only
  rw [← hbody, maskPayload_maskPayload]
  congr 3
  simp [hfield, length_maskPayload]
  omega

/-- What an encoding begins with is a part of a frame. -/
theorem decodeFrame_prefix {payload : Slice} {opcode : UInt8} {maskKey : Vector UInt8 4}
    {front back : List UInt8} (hopcode : opcode < 16)
    (h : encodeFrame payload opcode maskKey = .ok (front ++ back)) (hback : back ≠ []) :
    decodeFrame front = .ok none := by
  have hwhole := decodeFrame_encodeFrame hopcode h []
  rw [List.append_nil] at hwhole
  exact frames.decode_prefix hback hwhole

/-! ## Streams of frames -/

/-- A frame as it was sent. -/
structure Sent where
  payload : Slice
  opcode : UInt8
  maskKey : Vector UInt8 4
  encoded : List UInt8
  opcode_lt : opcode < 16
  encodes : encodeFrame payload opcode maskKey = .ok encoded

def Sent.frame (s : Sent) : Frame where
  fin := true
  opcode := s.opcode
  payload := s.payload.bytes

/-- The frames of a stream are those that were sent into it. -/
theorem all_sent (sent : List Sent) :
    frames.all (sent.map Sent.encoded).flatten = ⟨sent.map Sent.frame, none, []⟩ := by
  induction sent with
  | nil => exact frames.all_of_none rfl
  | cons s sent ih =>
    have hframe := decodeFrame_encodeFrame s.opcode_lt s.encodes []
    rw [List.append_nil] at hframe
    rw [List.map_cons, List.flatten_cons, Incremental.all_of_value hframe, List.drop_length,
      List.nil_append, ih]
    rfl

namespace Framing

/-- The bytes before the first read that fails or gives none, that failure, and the reads after
it. -/
def stream : List (Except Error (List UInt8)) →
    List UInt8 × Error × List (Except Error (List UInt8))
  | [] => ([], closedError, [])
  | .error error :: reads => ([], error, reads)
  | .ok [] :: reads => ([], closedError, reads)
  | .ok (byte :: chunk) :: reads =>
    let later := stream reads
    (byte :: chunk ++ later.1, later.2)

/-- The bytes that the reads give. -/
def unread (reads : List (Except Error (List UInt8))) : List UInt8 :=
  (reads.map fun read => read.toOption.getD []).flatten

/-- The bytes that no frame has taken. -/
def pending (s : Framing) : List UInt8 := s.buffer ++ unread s.reads

/-- Data left in memory: what is buffered and what is still to be read. -/
def size (s : Framing) : Nat := s.pending.length

theorem unread_ok (data : List UInt8) (reads : List (Except Error (List UInt8))) :
    unread (.ok data :: reads) = data ++ unread reads := rfl

theorem unread_eq (reads : List (Except Error (List UInt8))) :
    unread reads = (stream reads).1 ++ unread (stream reads).2.2 := by
  induction reads with
  | nil => rfl
  | cons read reads ih =>
    match read with
    | .error error => rfl
    | .ok [] => rfl
    | .ok (byte :: chunk) =>
      change byte :: chunk ++ unread reads = (byte :: chunk ++ (stream reads).1) ++ _
      rw [ih, List.append_assoc]
      rfl

/-- A frame that is received is the next of the stream. -/
structure Advances (s s' : Framing) (frame : Frame) : Prop where
  values : frames.all (s.buffer ++ (stream s.reads).1) =
    { frames.all (s'.buffer ++ (stream s'.reads).1) with
      values := frame :: (frames.all (s'.buffer ++ (stream s'.reads).1)).values }
  ending : (stream s'.reads).2 = (stream s.reads).2
  size : s'.size < s.size

/-- When none is received, the stream has no more: it is malformed, or it ends. -/
structure Ends (s s' : Framing) (error : Error) : Prop where
  values : (frames.all (s.buffer ++ (stream s.reads).1)).values = []
  error : error = (frames.all (s.buffer ++ (stream s.reads).1)).error.getD (stream s.reads).2.1
  pending : s'.pending =
    (frames.all (s.buffer ++ (stream s.reads).1)).rest ++ unread (stream s.reads).2.2

/-- What one call does to the stream. -/
def Follows (s : Framing) : Except Error Frame × Framing → Prop
  | (.ok frame, s') => Advances s s' frame
  | (.error error, s') => Ends s s' error

variable {buffer : List UInt8} {reads : List (Except Error (List UInt8))}

/-- Data that has been read and not yet decoded counts as data to be read. -/
theorem Follows.congr {s t : Framing} {outcome : Except Error Frame × Framing}
    (h : Follows s outcome) (hbytes : s.buffer ++ (stream s.reads).1 = t.buffer ++ (stream t.reads).1)
    (hending : (stream s.reads).2 = (stream t.reads).2) (hsize : s.size = t.size) :
    Follows t outcome := by
  obtain ⟨result, s'⟩ := outcome
  cases result with
  | ok frame => exact ⟨hbytes ▸ h.values, h.ending.trans hending, hsize ▸ h.size⟩
  | error error =>
    exact ⟨hbytes ▸ h.values, hending ▸ hbytes ▸ h.error, hending ▸ hbytes ▸ h.pending⟩

theorem advances_of_value {frame : Frame} {consumed : Nat}
    (h : decodeFrame buffer = .ok (some (frame, consumed))) :
    Advances ⟨buffer, reads⟩ ⟨buffer.drop consumed, reads⟩ frame where
  values := Incremental.all_of_value h _
  ending := rfl
  size := by
    have htaken := decodeFrame_takes h
    simp only [size, pending, List.length_append, List.length_drop]
    omega

theorem ends_of_error {error : Error} (h : decodeFrame buffer = .error error) :
    Ends ⟨buffer, reads⟩ ⟨buffer, reads⟩ error := by
  have hall := frames.all_of_error h (stream reads).1
  constructor
  · exact congrArg Decoded.values hall
  · rw [hall]
    rfl
  · rw [hall, pending, unread_eq, List.append_assoc]

theorem ends_of_none (h : decodeFrame buffer = .ok none) (hstream : (stream reads).1 = [])
    {reads' : List (Except Error (List UInt8))}
    (hreads : unread reads' = unread (stream reads).2.2) :
    Ends ⟨buffer, reads⟩ ⟨buffer, reads'⟩ (stream reads).2.1 := by
  have hall := frames.all_of_none h
  have hbytes : buffer ++ (stream reads).1 = buffer := by rw [hstream, List.append_nil]
  constructor
  · rw [hbytes, hall]
  · rw [hbytes, hall]
    rfl
  · rw [hbytes, hall, pending, hreads]

theorem follows_receiveFrom (buffer : List UInt8) (reads : List (Except Error (List UInt8))) :
    Follows ⟨buffer, reads⟩ (receiveFrom buffer reads) := by
  fun_induction receiveFrom buffer reads with
  | case1 buffer reads error hdecode => exact ends_of_error hdecode
  | case2 buffer reads frame consumed hdecode => exact advances_of_value hdecode
  | case3 buffer hdecode =>
    exact (ends_of_none hdecode rfl rfl : Ends ⟨buffer, []⟩ ⟨buffer, []⟩ (stream []).2.1)
  | case4 buffer hdecode error reads => exact ends_of_none hdecode rfl rfl
  | case5 buffer hdecode reads => exact ends_of_none hdecode rfl rfl
  | case6 buffer hdecode byte chunk reads ih =>
    refine ih.congr ?_ rfl ?_
    · exact List.append_assoc _ _ _
    · rw [size, size, pending, pending, unread_ok, List.append_assoc]

/-- Receives until there is no frame: the frames, the error and what is left. -/
def receiveAll (s : Framing) : List Frame × Error × Framing :=
  match hreceive : s.receive with
  | (.error error, s') => ([], error, s')
  | (.ok frame, s') =>
    have : s'.size < s.size := by
      have hfollows := follows_receiveFrom s.buffer s.reads
      rw [receive] at hreceive
      rw [hreceive] at hfollows
      exact hfollows.size
    let later := s'.receiveAll
    (frame :: later.1, later.2)
termination_by s.size

/-- The frames of the stream are received, and then the error that ends it. -/
theorem receiveAll_eq (s : Framing) :
    s.receiveAll.1 = (frames.all (s.buffer ++ (stream s.reads).1)).values ∧
      s.receiveAll.2.1 =
        (frames.all (s.buffer ++ (stream s.reads).1)).error.getD (stream s.reads).2.1 ∧
      s.receiveAll.2.2.pending =
        (frames.all (s.buffer ++ (stream s.reads).1)).rest ++ unread (stream s.reads).2.2 := by
  have hfollows := follows_receiveFrom s.buffer s.reads
  fun_induction receiveAll s with
  | case1 s error s' hreceive =>
    rw [receive] at hreceive
    rw [hreceive] at hfollows
    exact ⟨hfollows.values.symm, hfollows.error, hfollows.pending⟩
  | case2 s frame s' hreceive _ later ih =>
    rw [receive] at hreceive
    rw [hreceive] at hfollows
    obtain ⟨hvalues, herror, hpending⟩ := ih (follows_receiveFrom s'.buffer s'.reads)
    rw [hfollows.values]
    rw [hfollows.ending] at herror hpending
    exact ⟨congrArg (frame :: ·) hvalues, herror, hpending⟩

/-- Reads that cut the bytes, each giving some. -/
theorem stream_cut {chunks : List (List UInt8)} (h : ∀ chunk ∈ chunks, chunk ≠ [])
    (reads : List (Except Error (List UInt8))) :
    stream (chunks.map .ok ++ reads) = (chunks.flatten ++ (stream reads).1, (stream reads).2) := by
  induction chunks with
  | nil => rfl
  | cons chunk chunks ih =>
    obtain ⟨byte, rest, rfl⟩ := List.exists_cons_of_ne_nil (h chunk List.mem_cons_self)
    rw [List.map_cons, List.cons_append, stream, ih fun c hc => h c (List.mem_cons_of_mem _ hc),
      List.flatten_cons, List.append_assoc]

/-- **Framing does not depend on the cutting.** An encoded frame is decoded as it was sent,
whatever follows, and a proper prefix of it asks for more. However the frames that were sent are
cut into reads, they are received in order, up to the end of the stream. And of any bytes, cut in
two ways and followed by the same reads, the same frames are received, the same error ends them,
and the same bytes are left. -/
theorem framing_cut_independent :
    (∀ (payload : Slice) (opcode : UInt8) (maskKey : Vector UInt8 4) (encoded : List UInt8),
      opcode < 16 → encodeFrame payload opcode maskKey = .ok encoded →
        (∀ more, decodeFrame (encoded ++ more) =
          .ok (some ({ fin := true, opcode, payload := payload.bytes }, encoded.length))) ∧
        ∀ front back, encoded = front ++ back → back ≠ [] → decodeFrame front = .ok none) ∧
    (∀ (sent : List Sent) (chunks : List (List UInt8)), (∀ chunk ∈ chunks, chunk ≠ []) →
      chunks.flatten = (sent.map Sent.encoded).flatten →
        (receiveAll ⟨[], chunks.map .ok⟩).1 = sent.map Sent.frame ∧
        (receiveAll ⟨[], chunks.map .ok⟩).2.1 = closedError ∧
        (receiveAll ⟨[], chunks.map .ok⟩).2.2.pending = []) ∧
    (∀ (chunks chunks' : List (List UInt8)) (reads : List (Except Error (List UInt8))),
      (∀ chunk ∈ chunks, chunk ≠ []) → (∀ chunk ∈ chunks', chunk ≠ []) →
      chunks.flatten = chunks'.flatten →
        (receiveAll ⟨[], chunks.map .ok ++ reads⟩).1 =
          (receiveAll ⟨[], chunks'.map .ok ++ reads⟩).1 ∧
        (receiveAll ⟨[], chunks.map .ok ++ reads⟩).2.1 =
          (receiveAll ⟨[], chunks'.map .ok ++ reads⟩).2.1 ∧
        (receiveAll ⟨[], chunks.map .ok ++ reads⟩).2.2.pending =
          (receiveAll ⟨[], chunks'.map .ok ++ reads⟩).2.2.pending) := by
  refine ⟨fun payload opcode maskKey encoded hopcode hencodes => ⟨?_, ?_⟩, ?_, ?_⟩
  · exact decodeFrame_encodeFrame hopcode hencodes
  · intro front back hencoded hback
    exact decodeFrame_prefix hopcode (hencoded ▸ hencodes) hback
  · intro sent chunks hchunks hflatten
    have hstream := stream_cut hchunks []
    rw [List.append_nil, hflatten] at hstream
    obtain ⟨hframes, herror, hpending⟩ := receiveAll_eq ⟨[], chunks.map .ok⟩
    simp only [hstream, List.nil_append, stream, List.append_nil, all_sent] at hframes herror hpending
    exact ⟨hframes, herror, hpending⟩
  · intro chunks chunks' reads hchunks hchunks' hflatten
    obtain ⟨hframes, herror, hpending⟩ := receiveAll_eq ⟨[], chunks.map .ok ++ reads⟩
    obtain ⟨hframes', herror', hpending'⟩ := receiveAll_eq ⟨[], chunks'.map .ok ++ reads⟩
    simp only [stream_cut hchunks, hflatten] at hframes herror hpending
    simp only [stream_cut hchunks'] at hframes' herror' hpending'
    exact ⟨hframes.trans hframes'.symm, herror.trans herror'.symm, hpending.trans hpending'.symm⟩

end Framing

end Superiority
