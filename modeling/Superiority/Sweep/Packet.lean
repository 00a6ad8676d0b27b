import Superiority.Library.Map

/-!
# Reassembling one direction of a TCP connection

`TcpDirection` of the sweep: the bytes held so far, the sequence number of the first of them, and
the segments put aside because they touch neither end. Numbers are compared by their wrapping
difference.

`add` and `flush_pending` call each other. Here a segment is first placed (`place`: all that `add`
does up to its call of `flush_pending`), and `flushPending` has a number of rounds it may take;
whether there is a number that is enough is a question of its own (`Returns`).
-/

namespace Superiority.Sweep

open Std

/-- `TcpDirection`. -/
structure TcpDirection where
  startSequence : Option UInt32 := none
  data : List UInt8 := []
  pending : ExtTreeMap UInt32 (List UInt8) := ∅

/-- The text of an `Error::Capture`. -/
abbrev CaptureError := String

namespace TcpDirection

/-- The end of the bytes held: `start.wrapping_add(u32::try_from(self.data.len())?)`. -/
def endOf (start : UInt32) (data : List UInt8) : Except CaptureError UInt32 :=
  if data.length < 2 ^ 32 then .ok (start + .ofNat data.length)
  else .error "TCP direction exceeded the 32-bit sequence space"

/-- `insert_pending`. -/
def insertPending (d : TcpDirection) (sequence : UInt32) (payload : List UInt8) :
    Except CaptureError TcpDirection :=
  if d.pending[sequence]?.any (· ≠ payload) then
    .error s!"conflicting out-of-order TCP segment at sequence {sequence.toNat}"
  else .ok { d with pending := d.pending.insert sequence payload }

/-- What becomes of a segment: `add` returns without a flush, or the bytes held have changed and
`flush_pending` is next. Then `add` returns whether they have become more, from the number that
there were; the first segment always makes them more. -/
inductive Placed where
  | returns (result : Except CaptureError Bool) (d : TcpDirection)
  | merges (d : TcpDirection) (previousLen : Option Nat)

/-- A segment that is put aside adds nothing yet. -/
def putAside (d : TcpDirection) (sequence : UInt32) (payload : List UInt8) : Placed :=
  match d.insertPending sequence payload with
  | .ok d => .returns (.ok false) d
  | .error e => .returns (.error e) d

/-- A segment that starts before the first byte held. -/
def placeBefore (d : TcpDirection) (start sequence : UInt32) (payload : List UInt8) : Placed :=
  let distance := (start - sequence).toNat
  if distance ≤ payload.length then
    let overlap := payload.drop distance
    let comparable := min overlap.length d.data.length
    if d.data.take comparable ≠ overlap.take comparable then
      .returns (.error s!"conflicting TCP segment before sequence {start.toNat}") d
    else
      -- what the segment has beyond the bytes held is not kept
      .merges { d with
        startSequence := some sequence
        data := payload.take distance ++ d.data } (some d.data.length)
  else d.putAside sequence payload

/-- A segment that starts among the bytes held or at their end. -/
def placeWithin (d : TcpDirection) (start sequence : UInt32) (payload : List UInt8) : Placed :=
  let offset := (sequence - start).toNat
  if offset < d.data.length then
    let comparable := min payload.length (d.data.length - offset)
    if (d.data.drop offset).take comparable ≠ payload.take comparable then
      .returns (.error s!"conflicting TCP retransmission at sequence {sequence.toNat}") d
    else .merges { d with data := d.data ++ payload.drop comparable } (some d.data.length)
  else .merges { d with data := d.data ++ payload } (some d.data.length)

/-- `add`, up to its call of `flush_pending`. -/
def place (d : TcpDirection) (sequence : UInt32) (payload : List UInt8) : Placed :=
  if payload = [] then .returns (.ok false) d
  else
    match d.startSequence with
    | none => .merges { d with startSequence := some sequence, data := d.data ++ payload } none
    | some start =>
      match endOf start d.data with
      | .error e => .returns (.error e) d
      | .ok endSequence =>
        if 0x80000000 < sequence - start then d.placeBefore start sequence payload
        else if sequence - endSequence < 0x80000000 ∧ sequence ≠ endSequence then
          d.putAside sequence payload
        else d.placeWithin start sequence payload

/-- A segment that `flush_pending` takes up: it starts before the end of the bytes held, or there. -/
def isDue (endSequence sequence : UInt32) : Bool :=
  0x80000000 < sequence - endSequence || sequence = endSequence

/-- The segment that `flush_pending` takes up next, in the order of their numbers. -/
def nextDue (d : TcpDirection) : Except CaptureError (Option (UInt32 × List UInt8)) :=
  match d.startSequence with
  | none => .ok none
  | some start =>
    match endOf start d.data with
    | .error e => .error e
    | .ok endSequence =>
      .ok (d.pending.toList.find? fun segment => isDue endSequence segment.1)

/-- `self.pending.remove(&sequence)`. -/
def withdraw (d : TcpDirection) (sequence : UInt32) : TcpDirection :=
  { d with pending := d.pending.erase sequence }

/-- `add`, given what `flush_pending` does. Without a result it does not return. -/
def addWith (flush : TcpDirection → Option (Except CaptureError Unit × TcpDirection))
    (d : TcpDirection) (sequence : UInt32) (payload : List UInt8) :
    Option (Except CaptureError Bool × TcpDirection) :=
  match d.place sequence payload with
  | .returns result d => some (result, d)
  | .merges d previousLen =>
    match flush d with
    | none => none
    | some (.error e, d) => some (.error e, d)
    | some (.ok _, d) => some (.ok (previousLen.all (d.data.length ≠ ·)), d)

/-- `flush_pending`, if it takes no more rounds than given, in itself and in the `add`s it calls. -/
def flushPending : Nat → TcpDirection → Option (Except CaptureError Unit × TcpDirection)
  | 0, _ => none
  | rounds + 1, d =>
    match d.nextDue with
    | .error e => some (.error e, d)
    | .ok none => some (.ok (), d)
    | .ok (some (sequence, payload)) =>
      match addWith (flushPending rounds) (d.withdraw sequence) sequence payload with
      | none => none
      | some (.error e, d) => some (.error e, d)
      | some (.ok _, d) => flushPending rounds d

/-- `add`, if its flush takes no more rounds than given. -/
def add (rounds : Nat) (d : TcpDirection) (sequence : UInt32) (payload : List UInt8) :
    Option (Except CaptureError Bool × TcpDirection) :=
  addWith (flushPending rounds) d sequence payload

/-- The call of `add` returns. -/
def Returns (d : TcpDirection) (sequence : UInt32) (payload : List UInt8) : Prop :=
  ∃ rounds, (add rounds d sequence payload).isSome

/-! ## What is done in enough rounds is done in more -/

theorem addWith_mono {f g : TcpDirection → Option (Except CaptureError Unit × TcpDirection)}
    (hfg : ∀ d r, f d = some r → g d = some r) {d : TcpDirection} {sequence : UInt32}
    {payload : List UInt8} {r : Except CaptureError Bool × TcpDirection}
    (h : addWith f d sequence payload = some r) : addWith g d sequence payload = some r := by
  unfold addWith at h ⊢
  cases hplace : d.place sequence payload with
  | returns result d =>
    rw [hplace] at h
    exact h
  | merges d previousLen =>
    rw [hplace] at h
    dsimp only at h ⊢
    cases hf : f d with
    | none =>
      rw [hf] at h
      cases h
    | some flushed =>
      rw [hf] at h
      rw [hfg d flushed hf]
      exact h

theorem flushPending_succ {rounds : Nat} {d : TcpDirection}
    {r : Except CaptureError Unit × TcpDirection} (h : flushPending rounds d = some r) :
    flushPending (rounds + 1) d = some r := by
  induction rounds generalizing d r with
  | zero => cases h
  | succ rounds ih =>
    unfold flushPending at h ⊢
    rcases hdue : d.nextDue with e | _ | ⟨sequence, payload⟩
    · rw [hdue] at h
      exact h
    · rw [hdue] at h
      exact h
    · rw [hdue] at h
      dsimp only at h ⊢
      rcases hadd : addWith (flushPending rounds) (d.withdraw sequence) sequence payload
        with _ | ⟨e | _, d'⟩
      · rw [hadd] at h
        cases h
      · rw [hadd] at h
        rw [addWith_mono (fun _ _ => ih) hadd]
        exact h
      · rw [hadd] at h
        rw [addWith_mono (fun _ _ => ih) hadd]
        exact ih h

theorem flushPending_mono {rounds rounds' : Nat} (hle : rounds ≤ rounds') {d : TcpDirection}
    {r : Except CaptureError Unit × TcpDirection} (h : flushPending rounds d = some r) :
    flushPending rounds' d = some r := by
  induction rounds', hle using Nat.le_induction with
  | base => exact h
  | succ rounds' _ ih => exact flushPending_succ ih

/-- **The result of `add` does not depend on the number of rounds** it is given. -/
theorem add_unique {rounds rounds' : Nat} {d : TcpDirection} {sequence : UInt32}
    {payload : List UInt8} {r r' : Except CaptureError Bool × TcpDirection}
    (h : add rounds d sequence payload = some r) (h' : add rounds' d sequence payload = some r') :
    r = r' := by
  have hmax (n : Nat) (hn : n ≤ max rounds rounds') {r : Except CaptureError Bool × TcpDirection}
      (h : add n d sequence payload = some r) :
      add (max rounds rounds') d sequence payload = some r :=
    addWith_mono (fun _ _ => flushPending_mono hn) h
  have heq := (hmax rounds (le_max_left _ _) h).symm.trans (hmax rounds' (le_max_right _ _) h')
  exact Option.some.inj heq

end TcpDirection

end Superiority.Sweep
