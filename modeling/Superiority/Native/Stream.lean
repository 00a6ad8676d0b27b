import Superiority.Native.Crypto

/-!
# The record stream

`native/stream.rs`: a socket, the decrypted bytes not yet consumed, and a cipher for each
direction once protection is on. The socket is left to the environment: `readMore` is given the
bytes a read returned, `send` returns the bytes it writes.
-/

namespace Superiority

/-- `READ_CHUNK_SIZE`. -/
def readChunkSize : Nat := 4096

/-- `RecordStream`, without its socket and protocol tables. -/
structure RecordStream where
  buffer : List UInt8 := []
  inboundCipher : Option Rc4State := none
  outboundCipher : Option Rc4State := none
  serverMode : Bool := false
  deriving DecidableEq, Repr

namespace RecordStream

/-- `protection_enabled`. -/
def protectionEnabled (s : RecordStream) : Bool := s.inboundCipher.isSome

/-- The two `enable_protection` functions once the ciphers are chosen: what is already buffered is
decrypted by the inbound cipher. -/
def installCiphers (P : Primitives) (s : RecordStream)
    (ciphers : Except Error (Rc4State × Rc4State)) : Except Error Unit × RecordStream :=
  if s.inboundCipher.isSome || s.outboundCipher.isSome then
    (.error (.native "native transport protection is already enabled"), s)
  else
    match ciphers with
    | .error e => (.error e, s)
    | .ok (inboundCipher, outboundCipher) =>
      let (buffer, inboundCipher) := inboundCipher.apply P s.buffer
      (.ok (), { s with buffer, inboundCipher := inboundCipher, outboundCipher := outboundCipher })

def enableProtection (P : Primitives) (s : RecordStream) (transportKey : List UInt8) :
    Except Error Unit × RecordStream :=
  s.installCiphers P do
    let (inboundKey, outboundKey) ← deriveTransportRc4Keys P transportKey
    return (← Rc4State.new inboundKey, ← Rc4State.new outboundKey)

/-- `enable_protection_server`: the client's outbound key is inbound here. -/
def enableProtectionServer (P : Primitives) (s : RecordStream) (transportKey : List UInt8) :
    Except Error Unit × RecordStream :=
  s.installCiphers P do
    let (clientInboundKey, clientOutboundKey) ← deriveTransportRc4Keys P transportKey
    return (← Rc4State.new clientOutboundKey, ← Rc4State.new clientInboundKey)

/-- `read_more`, for the bytes the read returned; none means that the peer closed the socket. -/
def readMore (P : Primitives) (s : RecordStream) (chunk : List UInt8) : Bool × RecordStream :=
  if chunk.isEmpty then (false, s)
  else
    match s.inboundCipher with
    | none => (true, { s with buffer := s.buffer ++ chunk })
    | some cipher =>
      let (chunk, cipher) := cipher.apply P chunk
      (true, { s with buffer := s.buffer ++ chunk, inboundCipher := cipher })

/-- `send`: the bytes that go on the socket. -/
def send (P : Primitives) (s : RecordStream) (data : List UInt8) : List UInt8 × RecordStream :=
  match s.outboundCipher with
  | none => (data, s)
  | some cipher =>
    let (bytes, cipher) := cipher.apply P data
    (bytes, { s with outboundCipher := cipher })

/-- `consume_buffered`. -/
def consumeBuffered (s : RecordStream) (count : Nat) : RecordStream :=
  { s with buffer := s.buffer.drop (min count s.buffer.length) }

end RecordStream

end Superiority
