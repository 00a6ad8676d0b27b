import Superiority.Library.Incremental
import Superiority.Native.Crypto

/-!
# The records of a protected stream

`ProtectedDirection` of the sweep decrypts one direction of a connection as its bytes come in, and
takes records off the front of what is decrypted. A record whose layout is only a candidate has to
wait for its follower. What cannot be a record halts the sweep.

What is not in the crate (`inspect_native_record`, `candidate_layout` and `read_routing_header` for
one protocol and direction) is an `Inspection`. The time of capture is left out of the records.
-/

namespace Superiority.Sweep

inductive Direction where
  | incoming
  | outgoing
  deriving DecidableEq, Repr

def Direction.label : Direction → String
  | incoming => "incoming"
  | outgoing => "outgoing"

/-- `inspect::Field`, as far as the sweep reads it. -/
structure RecordField where
  path : String
  kind : String
  value : String
  deriving DecidableEq, Repr

structure Record where
  sequence : UInt64 := 0
  typeName : String
  bytes : List UInt8
  fields : List RecordField := []
  deriving DecidableEq, Repr

inductive SweepUpdate where
  | status (text : String)
  | record (record : Record)
  deriving DecidableEq, Repr

structure UnknownPacket (φ : Type) where
  flow : φ
  direction : Direction
  streamOffset : Nat
  route : Option (Option UInt8 × UInt8)
  reason : String
  plaintext : List UInt8
  ciphertext : List UInt8

inductive SweepError (φ : Type) where
  | capture (message : String)
  | unknownPacket (packet : UnknownPacket φ)

/-- `Error::IncompleteFrame`. -/
def isIncomplete : Error → Bool
  | .incompleteFrame _ => true
  | _ => false

/-- An error that is not for want of bytes. -/
def refusal {α : Type} : Except Error α → Option Error
  | .error error => if isIncomplete error then none else some error
  | .ok _ => none

/-- What the sweep is given: it inspects the start of some bytes for a record, and knows which
layouts are candidates. A truncated record is incomplete; anything else is found by the bytes of the
first record alone. -/
structure Inspection where
  inspect : List UInt8 → Except Error Record
  candidate : Record → Bool
  route : List UInt8 → Option (Option UInt8 × UInt8)
  /-- How an error is displayed. -/
  display : Error → String
  takes : ∀ {data : List UInt8} {record : Record}, inspect data = .ok record →
    record.bytes ≠ [] ∧ record.bytes <+: data ∧ inspect record.bytes = .ok record
  grows : ∀ {data : List UInt8} {found : Except Error Record}, inspect data = found →
    (∀ message, found ≠ .error (.incompleteFrame message)) → ∀ more, inspect (data ++ more) = found

/-- What is said of a record that is taken. -/
def Inspection.accepted (I : Inspection) (record : Record) : List SweepUpdate :=
  let candidate := I.candidate record
  let audits := record.fields.filter fun field =>
    "audit.".toList.isPrefixOf field.path.toList && !(candidate && field.path = "audit.wire_layout")
  audits.map (fun audit => .status s!"parser audit: {audit.kind} — {audit.value}") ++
    (if candidate then [.status s!"candidate wire layout accepted for {record.typeName}; its {
      record.bytes.length}-byte boundary is consistent with the following record"] else []) ++
    [.record record]

structure ProtectedDirection where
  cipher : Rc4State
  cipherConsumed : Nat
  streamOffset : Nat
  plaintext : List UInt8 := []
  ciphertext : List UInt8 := []
  deriving DecidableEq, Repr

namespace ProtectedDirection

def new (key : List UInt8) (offset : Nat) : Except Error ProtectedDirection := do
  return { cipher := ← Rc4State.new key, cipherConsumed := offset, streamOffset := offset }

variable {φ : Type}

/-- The packet that the buffers start with, for a halt. -/
def unknown (d : ProtectedDirection) (I : Inspection) (flow : φ) (direction : Direction)
    (reason : String) : SweepError φ :=
  .unknownPacket {
    flow, direction, reason
    streamOffset := d.streamOffset
    route := I.route d.plaintext
    plaintext := d.plaintext
    ciphertext := d.ciphertext }

/-- The buffers without their first bytes. -/
def release (d : ProtectedDirection) (consumed : Nat) : ProtectedDirection :=
  { d with
    streamOffset := d.streamOffset + consumed
    plaintext := d.plaintext.drop consumed
    ciphertext := d.ciphertext.drop consumed }

/-- The loop of `consume`, with the turns it may take. -/
def drain (I : Inspection) (flow : φ) (direction : Direction) :
    Nat → ProtectedDirection → UInt64 → List SweepUpdate →
      Except (SweepError φ) (List SweepUpdate) × ProtectedDirection × UInt64
  | 0, d, nextSequence, updates => (.ok updates, d, nextSequence)
  | turns + 1, d, nextSequence, updates =>
    if d.plaintext = [] then (.ok updates, d, nextSequence)
    else match I.inspect d.plaintext with
    | .error error =>
      if isIncomplete error then (.ok updates, d, nextSequence)
      else (.error (d.unknown I flow direction (I.display error)), d, nextSequence)
    | .ok record =>
      let consumed := record.bytes.length
      if consumed = 0 ∨ consumed > d.plaintext.length then
        (.error (.capture "native decoder returned an invalid record length"), d, nextSequence)
      else
        let candidate := I.candidate record
        let remaining := d.plaintext.drop consumed
        if candidate ∧ remaining.length < 2 then (.ok updates, d, nextSequence)
        else match if candidate then refusal (I.inspect remaining) else none with
        | some error =>
          (.error (d.unknown I flow direction s!"candidate wire layout {record.typeName} consumed {
            consumed} bytes, but the following stream does not begin with a decodable record: {
            I.display error}"), d, nextSequence)
        | none =>
          drain I flow direction turns (d.release consumed) (nextSequence + 1)
            (updates ++ I.accepted { record with sequence := nextSequence })

/-- `consume`. Each turn takes a byte at least, so there are turns enough for the buffer. -/
def consume (P : Primitives) (I : Inspection) (flow : φ) (direction : Direction)
    (stream : List UInt8) (d : ProtectedDirection) (nextSequence : UInt64) :
    Except (SweepError φ) (List SweepUpdate) × ProtectedDirection × UInt64 :=
  if stream.length < d.cipherConsumed then
    (.error (.capture s!"{direction.label} TCP stream shrank from {d.cipherConsumed} to {
      stream.length} bytes"), d, nextSequence)
  else
    let encrypted := stream.drop d.cipherConsumed
    let (plaintext, cipher) := d.cipher.apply P encrypted
    let d := { d with
      cipher
      cipherConsumed := stream.length
      ciphertext := d.ciphertext ++ encrypted
      plaintext := d.plaintext ++ plaintext }
    drain I flow direction d.plaintext.length d nextSequence []

/-- `finish`: what is said of the bytes that are left at the end of a capture. -/
def finish (d : ProtectedDirection) (I : Inspection) (flow : φ) (direction : Direction) :
    Except (SweepError φ) (Option SweepUpdate) :=
  if d.plaintext = [] then .ok none
  else match I.inspect d.plaintext with
  | .ok record =>
    if I.candidate record then
      .ok (some (.status s!"capture ended after candidate wire layout {record.typeName} decoded {
        record.bytes.length} bytes; a following record is needed to corroborate its boundary"))
    else .error (d.unknown I flow direction
      s!"capture ended with a complete {record.typeName} record still buffered unexpectedly")
  | .error error =>
    if isIncomplete error then
      let route := match I.route d.plaintext with
        | none => "an unreadable route"
        | some (some slot, command) => s!"slot {slot}, command {command}"
        | some (none, command) => s!"service-less command {command}"
      .ok (some (.status s!"capture ended partway through {route}; {
        d.plaintext.length} decrypted bytes remain buffered"))
    else .error (d.unknown I flow direction (I.display error))

end ProtectedDirection

/-! ## One turn -/

/-- What a turn of the loop makes of a buffer. -/
inductive Verdict where
  | waits
  | takes (record : Record)
  | refuses (reason : String)

namespace Inspection

/-- The bytes start with no record, and more of them will not change that. -/
def Refuses (I : Inspection) (data : List UInt8) : Prop := refusal (I.inspect data) ≠ none

instance (I : Inspection) (data : List UInt8) : Decidable (I.Refuses data) :=
  inferInstanceAs (Decidable (_ ≠ _))

/-- What a turn of the loop makes of a buffer. -/
def judge (I : Inspection) (data : List UInt8) : Verdict :=
  if data = [] then .waits
  else match I.inspect data with
  | .error error => if isIncomplete error then .waits else .refuses (I.display error)
  | .ok record =>
    let remaining := data.drop record.bytes.length
    if I.candidate record ∧ remaining.length < 2 then .waits
    else match if I.candidate record then refusal (I.inspect remaining) else none with
    | some error => .refuses s!"candidate wire layout {record.typeName} consumed {
        record.bytes.length} bytes, but the following stream does not begin with a decodable record: {
        I.display error}"
    | none => .takes record

variable {I : Inspection}

theorem grows_refusal {data : List UInt8} (h : I.Refuses data) (more : List UInt8) :
    I.inspect (data ++ more) = I.inspect data := by
  apply I.grows rfl
  intro message hmessage
  apply h
  rw [hmessage]
  rfl

theorem Refuses.grows {data : List UInt8} (h : I.Refuses data) (more : List UInt8) :
    I.Refuses (data ++ more) := by
  unfold Refuses
  rw [grows_refusal h]
  exact h

/-- A record is found in whatever the stream goes on with. -/
theorem inspect_append {data : List UInt8} {record : Record} (h : I.inspect data = .ok record)
    (more : List UInt8) : I.inspect (record.bytes ++ more) = .ok record :=
  I.grows (I.takes h).2.2 (fun _ => by simp) more

theorem bytes_append_drop {data : List UInt8} {record : Record}
    (h : I.inspect data = .ok record) :
    record.bytes ++ data.drop record.bytes.length = data := by
  obtain ⟨rest, rfl⟩ := (I.takes h).2.1
  rw [List.drop_left]

theorem length_bytes {data : List UInt8} {record : Record} (h : I.inspect data = .ok record) :
    0 < record.bytes.length ∧ record.bytes.length ≤ data.length :=
  ⟨List.length_pos_iff.2 (I.takes h).1, (I.takes h).2.1.length_le⟩

end Inspection

namespace ProtectedDirection

variable {φ : Type} {I : Inspection}

/-- A turn is as the buffer is judged. -/
theorem drain_succ (flow : φ) (direction : Direction) (turns : Nat) (d : ProtectedDirection)
    (nextSequence : UInt64) (updates : List SweepUpdate) :
    drain I flow direction (turns + 1) d nextSequence updates =
      match I.judge d.plaintext with
      | .waits => (.ok updates, d, nextSequence)
      | .refuses reason => (.error (d.unknown I flow direction reason), d, nextSequence)
      | .takes record =>
        drain I flow direction turns (d.release record.bytes.length) (nextSequence + 1)
          (updates ++ I.accepted { record with sequence := nextSequence }) := by
  rw [drain, Inspection.judge]
  by_cases hnil : d.plaintext = []
  · rw [if_pos hnil, if_pos hnil]
  rw [if_neg hnil, if_neg hnil]
  cases hfound : I.inspect d.plaintext with
  | error error =>
    dsimp only
    split_ifs <;> rfl
  | ok record =>
    obtain ⟨hpos, hle⟩ := I.length_bytes hfound
    dsimp only
    rw [if_neg (by omega)]
    split_ifs
    · rfl
    · cases refusal (I.inspect (d.plaintext.drop record.bytes.length)) <;> rfl
    · rfl

end ProtectedDirection

end Superiority.Sweep
