import Superiority.Live.Projector

/-!
# Batches

`uplink/model.rs`: the buffer of the uplink worker and its backoff. Instants and durations are in
milliseconds. A batch never splits a reconciliation that it could hand out whole.
-/

namespace Superiority

/-- `MAX_BATCH_EVENTS`. -/
def maxBatchEvents : Nat := 64

/-- `FLUSH_AFTER`. -/
def flushAfter : Nat := 500

/-- `MAX_PENDING_EVENTS`. -/
def maxPendingEvents : Nat := 4096

/-- `Batcher`. -/
structure Batcher where
  pending : List EventDto := []
  firstBuffered : Option Nat := none
  deriving DecidableEq, Repr

namespace Batcher

/-- `push`: the oldest events make room; their number is returned. -/
def push (b : Batcher) (event : EventDto) (now : Nat) : Nat × Batcher :=
  let dropped := b.pending.length + 1 - maxPendingEvents
  let pending := b.pending.drop dropped
  (dropped, {
    pending := pending ++ [event]
    firstBuffered := if pending = [] then some now else b.firstBuffered })

def isEmpty (b : Batcher) : Bool := b.pending.isEmpty

/-- `flush_deadline`. -/
def flushDeadline (b : Batcher) : Option Nat := b.firstBuffered.map (· + flushAfter)

/-- `ready_count`: how many events may go out now. A reconciliation that has begun in the first
batch goes out with its end or waits. -/
def readyCount (b : Batcher) : Option Nat :=
  let limit := min b.pending.length maxBatchEvents
  match (b.pending.take limit).findIdx? (·.kind = .syncStarted) with
  | none => if limit > 0 then some limit else none
  | some syncStart =>
    let syncEnd := ((b.pending.drop syncStart).findIdx? (·.kind = .sessionSynced)).map
      (syncStart + ·)
    if syncEnd.any (· < limit) then some limit
    else if syncStart > 0 then some syncStart
    else none

/-- `take_count`. -/
def takeCount (b : Batcher) (count now : Nat) : List EventDto × Batcher :=
  let pending := b.pending.drop count
  (b.pending.take count, { pending, firstBuffered := if pending = [] then none else some now })

/-- `take_batch`. -/
def takeBatch (b : Batcher) (now takenAt : Nat) : Option (List EventDto × Batcher) :=
  let dueBySize := b.pending.length ≥ maxBatchEvents
  let dueByAge := b.flushDeadline.any (· ≤ now)
  let completesSync := b.pending.any (·.kind = .sessionSynced)
  if ¬ dueBySize ∧ ¬ dueByAge ∧ ¬ completesSync then none
  else b.readyCount.map fun count => b.takeCount count takenAt

/-- `take_now`. -/
def takeNow (b : Batcher) (takenAt : Nat) : List EventDto × Batcher :=
  b.takeCount (b.readyCount.getD 0) takenAt

/-- `discard_batch`: the oldest events, whatever they are. -/
def discardBatch (b : Batcher) (takenAt : Nat) : List EventDto × Batcher :=
  b.takeCount (min b.pending.length maxBatchEvents) takenAt

/-- `restore`. -/
def restore (b : Batcher) (batch : List EventDto) (now : Nat) : Batcher :=
  let pending := batch ++ b.pending
  { pending
    firstBuffered := if b.firstBuffered = none ∧ pending ≠ [] then some now else b.firstBuffered }

theorem pending_push (b : Batcher) (event : EventDto) (now : Nat) :
    (b.push event now).2.pending = b.pending.drop (b.push event now).1 ++ [event] := by
  simp only [push]

theorem push_pending (b : Batcher) (event : EventDto) (now : Nat) :
    b.pending.take (b.push event now).1 ++ (b.push event now).2.pending = b.pending ++ [event] := by
  rw [pending_push, ← List.append_assoc, List.take_append_drop]

theorem length_take_push (b : Batcher) (event : EventDto) (now : Nat) :
    (b.pending.take (b.push event now).1).length = (b.push event now).1 := by
  have hpos : 0 < maxPendingEvents := by decide
  simp only [push, List.length_take]
  omega

/-- Taking events splits what was pending. -/
theorem takeCount_pending (b : Batcher) (count now : Nat) :
    (b.takeCount count now).1 ++ (b.takeCount count now).2.pending = b.pending :=
  List.take_append_drop count b.pending

theorem takeBatch_pending {b b' : Batcher} {now takenAt : Nat} {batch : List EventDto}
    (h : b.takeBatch now takenAt = some (batch, b')) : batch ++ b'.pending = b.pending := by
  unfold takeBatch at h
  dsimp only at h
  split_ifs at h
  obtain ⟨count, -, htake⟩ := Option.map_eq_some_iff.1 h
  have hpending := b.takeCount_pending count takenAt
  rwa [htake] at hpending

theorem takeNow_pending (b : Batcher) (takenAt : Nat) :
    (b.takeNow takenAt).1 ++ (b.takeNow takenAt).2.pending = b.pending :=
  b.takeCount_pending _ takenAt

theorem discardBatch_pending (b : Batcher) (takenAt : Nat) :
    (b.discardBatch takenAt).1 ++ (b.discardBatch takenAt).2.pending = b.pending :=
  b.takeCount_pending _ takenAt

@[simp] theorem restore_pending (b : Batcher) (batch : List EventDto) (now : Nat) :
    (b.restore batch now).pending = batch ++ b.pending := rfl

end Batcher

/-- `Backoff`. -/
structure Backoff where
  failures : Nat := 0
  deriving DecidableEq, Repr

namespace Backoff

/-- `note_failure`. -/
def noteFailure (b : Backoff) : Backoff := ⟨min (b.failures + 1) (2 ^ 32 - 1)⟩

def reset (_ : Backoff) : Backoff := ⟨0⟩

/-- The full delay for the current failure count. -/
def delay (b : Backoff) : Nat :=
  if b.failures = 0 then 0 else min (1000 * 2 ^ min (b.failures - 1) 6) 60000

end Backoff

end Superiority
