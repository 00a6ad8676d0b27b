import Superiority.Library.Arrivals
import Superiority.Library.Bytes
import Superiority.Utf8

/-!
# Packets to and from a legacy client

A packet is a marker, its id, its length with these four bytes, and a payload of dwords and strings
that end with a NUL. Strings are written as they are: one with a NUL in it ends there for the reader.
-/

namespace Superiority.Gateway

/-- `io::Error`, of the kinds that the modelled functions return. -/
inductive IoError where
  | unexpectedEof
  | invalidData (message : String)
  deriving DecidableEq, Repr

structure FriendEntry where
  name : String
  status : UInt8
  location : UInt8
  product : UInt32
  locationName : String
  deriving DecidableEq, Repr

/-! ## Packets -/

structure Packet where
  id : UInt8
  payload : List UInt8
  deriving DecidableEq, Repr

def sidEnterChat : UInt8 := 0x0A

def sidGetChannelList : UInt8 := 0x0B

def sidChatEvent : UInt8 := 0x0F

def sidFriendsList : UInt8 := 0x65

def syntheticAccountNumber : UInt32 := 0xBAADF00D

def headerBytes : Nat := 4

def maxPacketBytes : Nat := 65535

/-- `{:02X}`. -/
def hexByte (b : UInt8) : String :=
  let digit := fun n => Char.ofNat (if n < 10 then 48 + n else 55 + n)
  String.ofList [digit (b.toNat / 16), digit (b.toNat % 16)]

/-- `Packet::read_from`: a packet, with what arrives behind it, or `none` at the end. -/
def Packet.readFrom (arrivals : List (Arrival UInt8)) :
    Except IoError (Option (Packet × List (Arrival UInt8))) :=
  match readOne arrivals with
  | none => .ok none
  | some (marker, arrivals) =>
    if marker ≠ 0xFF then
      .error (.invalidData s!"invalid BNCS packet marker 0x{hexByte marker}")
    else match readExact 3 arrivals with
    | none => .error .unexpectedEof
    | some (rest, arrivals) =>
      let length := littleEndian (rest.drop 1)
      if ¬ (headerBytes ≤ length ∧ length ≤ maxPacketBytes) then
        .error (.invalidData s!"invalid BNCS packet length {length}")
      else match readExact (length - headerBytes) arrivals with
      | none => .error .unexpectedEof
      | some (payload, arrivals) => .ok (some (⟨rest.getD 0 0, payload⟩, arrivals))

/-- The bytes of a packet. -/
def Packet.bytes (p : Packet) : List UInt8 :=
  [0xFF, p.id] ++ toLittleEndian 2 (p.payload.length + headerBytes) ++ p.payload

/-- `Packet::write_to`, to a writer that takes all bytes. -/
def Packet.writeTo (p : Packet) (writer : List UInt8) : Except IoError Unit × List UInt8 :=
  if p.payload.length + headerBytes < 2 ^ 16 then (.ok (), writer ++ p.bytes)
  else (.error (.invalidData "BNCS packet exceeds 65535 bytes"), writer)

/-! ## What is sent -/

/-- `PayloadWriter::dword`. -/
def dword (value : UInt32) : List UInt8 := toLittleEndian 4 value.toNat

/-- `PayloadWriter::c_string`. -/
def cString (value : String) : List UInt8 := utf8Bytes value ++ [0]

/-- `write_friend`. -/
def writeFriend (friend : FriendEntry) (includeName : Bool) : List UInt8 :=
  (if includeName then cString friend.name else []) ++ [friend.status, friend.location] ++
    dword friend.product ++ cString friend.locationName

/-- `LegacyPeer::send_enter_chat`. -/
def sendEnterChat (username stats : String) : List UInt8 → Except IoError Unit × List UInt8 :=
  Packet.writeTo ⟨sidEnterChat, cString username ++ cString stats ++ cString username⟩

/-- `LegacyPeer::send_chat_event`. -/
def sendChatEvent (eventId : UInt32) (username text : String) (flags ping : UInt32) :
    List UInt8 → Except IoError Unit × List UInt8 :=
  Packet.writeTo ⟨sidChatEvent, dword eventId ++ dword flags ++ dword ping ++ dword 0 ++
    dword syntheticAccountNumber ++ dword syntheticAccountNumber ++ cString username ++
    cString text⟩

/-- `LegacyPeer::send_friends_list`. -/
def sendFriendsList (friends : List FriendEntry) (writer : List UInt8) :
    Except IoError Unit × List UInt8 :=
  if friends.length < 2 ^ 8 then
    Packet.writeTo ⟨sidFriendsList, [UInt8.ofNat friends.length] ++
      friends.flatMap fun friend => writeFriend friend true⟩ writer
  else (.error (.invalidData "BNCS friend lists cannot exceed 255 entries"), writer)

/-- `LegacyPeer::send_channel_list`. -/
def sendChannelList (channels : List String) : List UInt8 → Except IoError Unit × List UInt8 :=
  Packet.writeTo ⟨sidGetChannelList, channels.flatMap cString ++ [0]⟩

/-! ## Reading a payload -/

structure PayloadReader where
  data : List UInt8
  offset : Nat := 0
  deriving DecidableEq

namespace PayloadReader

/-- `PayloadReader::dword`. -/
def dword (r : PayloadReader) : Option (UInt32 × PayloadReader) :=
  (getRange r.data r.offset (r.offset + 4)).map fun bytes =>
    (UInt32.ofNat (littleEndian bytes), { r with offset := r.offset + 4 })

/-- `PayloadReader::byte`. -/
def byte (r : PayloadReader) : Option (UInt8 × PayloadReader) :=
  r.data[r.offset]?.map fun value => (value, { r with offset := r.offset + 1 })

/-- `PayloadReader::c_string`. -/
def cString (r : PayloadReader) : Option (String × PayloadReader) :=
  if r.offset ≤ r.data.length then
    let tail := r.data.drop r.offset
    (tail.findIdx? fun byte => byte = 0).map fun length =>
      (fromUtf8Lossy (tail.take length), { r with offset := r.offset + (length + 1) })
  else none

/-- `PayloadReader::remaining`. -/
def remaining (r : PayloadReader) : Nat := r.data.length - r.offset

end PayloadReader

/-! ## Packets are read back -/

/-- The length in the header is the one written. -/
theorem Packet.readFrom_eq {p : Packet} (hp : p.payload.length + headerBytes < 2 ^ 16)
    {arrivals : List (Arrival UInt8)} {rest : List UInt8}
    (h : arrived arrivals = p.bytes ++ rest) :
    ∃ arrivals', readFrom arrivals = .ok (some (p, arrivals')) ∧ arrived arrivals' = rest := by
  have hsplit : arrived arrivals = 0xFF ::
      ([p.id] ++ toLittleEndian 2 (p.payload.length + headerBytes) ++ (p.payload ++ rest)) := by
    rw [h]
    simp [Packet.bytes]
  obtain ⟨arrivals₁, hmarker, harrived₁⟩ := readOne_cons hsplit
  obtain ⟨arrivals₂, hheader, harrived₂⟩ := readExact_append harrived₁
  obtain ⟨arrivals₃, hpayload, harrived₃⟩ := readExact_append harrived₂
  have hthree : ([p.id] ++ toLittleEndian 2 (p.payload.length + headerBytes)).length = 3 := by
    simp
  have hlength : littleEndian (([p.id] ++ toLittleEndian 2 (p.payload.length + headerBytes)).drop 1)
      = p.payload.length + headerBytes := littleEndian_toLittleEndian hp
  refine ⟨arrivals₃, ?_, harrived₃⟩
  rw [hthree] at hheader
  unfold readFrom
  rw [hmarker]
  dsimp only
  rw [if_neg (not_not_intro rfl), hheader]
  dsimp only
  have hrange : headerBytes ≤ p.payload.length + headerBytes ∧
      p.payload.length + headerBytes ≤ maxPacketBytes :=
    ⟨Nat.le_add_left _ _, Nat.le_of_lt_succ hp⟩
  rw [hlength, if_neg (not_not_intro hrange), Nat.add_sub_cancel, hpayload]
  rfl

/-- Nothing is read at the end. -/
theorem Packet.readFrom_nil {arrivals : List (Arrival UInt8)} (h : arrived arrivals = []) :
    readFrom arrivals = .ok none := by
  unfold readFrom
  rw [readOne_nil h]

/-- A packet that is cut off is an error. -/
theorem Packet.readFrom_short {p : Packet} (hp : p.payload.length + headerBytes < 2 ^ 16)
    {arrivals : List (Arrival UInt8)} (h : arrived arrivals <+: p.bytes)
    (hne : arrived arrivals ≠ []) (hshort : arrived arrivals ≠ p.bytes) :
    readFrom arrivals = .error .unexpectedEof := by
  obtain ⟨behind, hbytes⟩ := h
  have hbehind : behind ≠ [] := by
    rintro rfl
    exact hshort (by simpa using hbytes)
  have hpos : 0 < behind.length := List.length_pos_iff.2 hbehind
  obtain ⟨marker, tail, harrived⟩ := List.exists_cons_of_ne_nil hne
  have hheader : ([p.id] ++ toLittleEndian 2 (p.payload.length + headerBytes)).length = 3 := by
    simp
  rw [harrived, Packet.bytes, List.append_assoc, List.cons_append, List.cons_append] at hbytes
  obtain ⟨rfl, htail⟩ := List.cons.inj hbytes
  have hsame : tail ++ behind =
      ([p.id] ++ toLittleEndian 2 (p.payload.length + headerBytes)) ++ p.payload := htail
  obtain ⟨arrivals₁, hmarker, harrived₁⟩ := readOne_cons harrived
  unfold readFrom
  rw [hmarker]
  dsimp only
  rw [if_neg (not_not_intro rfl)]
  by_cases hlong : 3 ≤ tail.length
  · -- the header is complete
    have hprefix : [p.id] ++ toLittleEndian 2 (p.payload.length + headerBytes) <+: tail :=
      List.prefix_of_prefix_length_le ⟨p.payload, hsame.symm⟩ (List.prefix_append tail behind)
        (by omega)
    obtain ⟨payload, rfl⟩ := hprefix
    obtain ⟨arrivals₂, hread, harrived₂⟩ := readExact_append harrived₁
    rw [List.append_assoc] at hsame
    have hpayload := congrArg List.length (List.append_cancel_left hsame)
    rw [List.length_append] at hpayload
    have hlength : littleEndian (([p.id] ++ toLittleEndian 2
        (p.payload.length + headerBytes)).drop 1) = p.payload.length + headerBytes :=
      littleEndian_toLittleEndian hp
    have hrange : headerBytes ≤ p.payload.length + headerBytes ∧
        p.payload.length + headerBytes ≤ maxPacketBytes :=
      ⟨Nat.le_add_left _ _, Nat.le_of_lt_succ hp⟩
    rw [hheader] at hread
    rw [hread]
    dsimp only
    rw [hlength, if_neg (not_not_intro hrange), Nat.add_sub_cancel,
      readExact_short (by rw [harrived₂]; omega)]
  · rw [readExact_short (by rw [harrived₁]; omega)]

end Superiority.Gateway
