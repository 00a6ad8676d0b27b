import Superiority.Error
import Superiority.Library.Keystream

/-!
# Transport ciphers

`native/crypto.rs`: the RC4 state of one direction and the derivation of the two transport keys.
HMAC-SHA256 and the RC4 keystream come from other crates and are parameters.
-/

namespace Superiority

/-- What the client takes from the `hmac` and `rc4` crates: HMAC-SHA256 of a key and a message,
and the keystream an RC4 key determines. -/
structure Primitives where
  hmac : List UInt8 → List UInt8 → Vector UInt8 32
  rc4Keystream : List UInt8 → Nat → UInt8

def inboundRc4Label : List UInt8 :=
  [0x68, 0xe0, 0xc7, 0x2e, 0xdd, 0xd6, 0xd2, 0xf3, 0x1e, 0x5a, 0xb1, 0x55, 0xb1, 0x8b, 0x63, 0x1e]

def outboundRc4Label : List UInt8 :=
  [0xde, 0xa9, 0x65, 0xae, 0x54, 0x3a, 0x1e, 0x93, 0x9e, 0x69, 0x0c, 0xaa, 0x68, 0xde, 0x78, 0x39]

def requireLength (value : List UInt8) (expected : Nat) (label : String) : Except Error Unit :=
  if value.length = expected then .ok ()
  else .error (.native s!"{label} is {value.length} bytes; expected {expected}")

/-- `hmac_sha256`: the parts are hashed one after another. HMAC takes a key of any length. -/
def hmacSha256 (P : Primitives) (key : List UInt8) (parts : List (List UInt8)) : List UInt8 :=
  (P.hmac key parts.flatten).toList

/-- `derive_transport_rc4_keys`: the client's inbound key and its outbound key. -/
def deriveTransportRc4Keys (P : Primitives) (protectedSecret : List UInt8) :
    Except Error (List UInt8 × List UInt8) := do
  requireLength protectedSecret 64 "protected transport secret"
  return (hmacSha256 P protectedSecret [inboundRc4Label],
    hmacSha256 P protectedSecret [outboundRc4Label])

/-- `Rc4State`: a key and how much of its keystream is spent. -/
structure Rc4State where
  key : List UInt8
  position : Nat
  deriving DecidableEq, Repr

namespace Rc4State

def new (key : List UInt8) : Except Error Rc4State :=
  if 1 ≤ key.length ∧ key.length ≤ 256 then .ok { key, position := 0 }
  else .error (.native "RC4 key length is outside 1..=256 bytes")

/-- `apply` and `apply_in_place`: the data under the keystream, which moves on by its length. -/
def apply (P : Primitives) (cipher : Rc4State) (data : List UInt8) : List UInt8 × Rc4State :=
  (xorFrom (P.rc4Keystream cipher.key) cipher.position data,
    { cipher with position := cipher.position + data.length })

end Rc4State

@[simp] theorem length_hmacSha256 (P : Primitives) (key : List UInt8) (parts : List (List UInt8)) :
    (hmacSha256 P key parts).length = 32 := by
  simp [hmacSha256]

end Superiority
