import Superiority.Library.Run
import Superiority.Sweep.Protected

/-!
# One stream, cut in different ways

The bytes of a connection come in pieces, and `consume` sees a longer prefix of the stream each time.
What it finds should not depend on where the pieces end.

* **`Reached`** – after any pieces the sweep is still going, with the records so far and a buffer that
  waits, or it has stopped at a buffer that is refused.
* **`Sweeping.cutIndependent_iff`** – everything that is found is the same for every cut, and all bytes are
  accounted for at every moment, exactly when the stream is `Whole`: it has no bytes that are refused,
  or they come first, or behind a single candidate that they refute with their first two.
-/

namespace Superiority.Sweep

/-! ## The records of a stream -/

namespace Inspection

variable {I : Inspection}

/-- What is decoded at the start of some bytes. A candidate needs two bytes behind it. -/
def decode (I : Inspection) (data : List UInt8) : Except Error (Option (Record × Nat)) :=
  if data = [] then .ok none
  else match I.inspect data with
  | .error error => if isIncomplete error then .ok none else .error error
  | .ok record =>
    if I.candidate record ∧ (data.drop record.bytes.length).length < 2 then .ok none
    else .ok (some (record, record.bytes.length))

theorem decode_grows {data : List UInt8} {found : Except Error (Option (Record × Nat))}
    (h : I.decode data = found) (hfound : found ≠ .ok none) (more : List UInt8) :
    I.decode (data ++ more) = found := by
  subst h
  unfold decode at *
  by_cases hnil : data = []
  · rw [if_pos hnil] at hfound
    exact absurd rfl hfound
  rw [if_neg hnil] at *
  rw [if_neg (by simp [hnil])]
  cases hinspect : I.inspect data with
  | error error =>
    rw [hinspect] at hfound
    dsimp only at hfound
    by_cases hincomplete : isIncomplete error = true
    · rw [if_pos hincomplete] at hfound
      exact absurd rfl hfound
    · rw [I.grows hinspect (fun message hmessage => hincomplete (by cases hmessage; rfl))]
  | ok record =>
    rw [hinspect] at hfound
    dsimp only at hfound
    by_cases hblocked : I.candidate record ∧ (data.drop record.bytes.length).length < 2
    · rw [if_pos hblocked] at hfound
      exact absurd rfl hfound
    · rw [I.grows hinspect (fun message hmessage => by cases hmessage)]
      dsimp only
      rw [if_neg hblocked, if_neg]
      intro hlater
      apply hblocked
      refine ⟨hlater.1, ?_⟩
      have hlength := hlater.2
      rw [List.drop_append_of_le_length (I.length_bytes hinspect).2, List.length_append] at hlength
      omega

theorem decode_takes {data : List UInt8} {record : Record} {taken : Nat}
    (h : I.decode data = .ok (some (record, taken))) :
    I.inspect data = .ok record ∧ taken = record.bytes.length ∧
      (I.candidate record = true → 2 ≤ (data.drop record.bytes.length).length) := by
  unfold decode at h
  by_cases hnil : data = []
  · rw [if_pos hnil] at h
    cases h
  rw [if_neg hnil] at h
  cases hinspect : I.inspect data with
  | error error =>
    rw [hinspect] at h
    dsimp only at h
    split_ifs at h
    cases h
  | ok found =>
    rw [hinspect] at h
    dsimp only at h
    split_ifs at h with hblocked
    · cases h
    cases h
    exact ⟨rfl, rfl, fun hcandidate => Nat.le_of_not_lt fun hlt => hblocked ⟨hcandidate, hlt⟩⟩

/-- The records of a stream. -/
def records (I : Inspection) : Incremental UInt8 Record Error where
  decode := I.decode
  grows := decode_grows
  takes h := by
    obtain ⟨hinspect, rfl, -⟩ := decode_takes h
    exact I.length_bytes hinspect

/-- Bytes that are refused are an error of the stream. -/
theorem decode_of_refuses {data : List UInt8} (h : I.Refuses data) (hnil : data ≠ []) :
    ∃ error, I.decode data = .error error := by
  unfold Refuses refusal at h
  unfold decode
  rw [if_neg hnil]
  cases hinspect : I.inspect data with
  | error error =>
    rw [hinspect] at h
    dsimp only at h ⊢
    split_ifs at h ⊢ with hincomplete
    · exact absurd rfl h
    · exact ⟨error, rfl⟩
  | ok record =>
    rw [hinspect] at h
    exact absurd rfl h

theorem refuses_of_decode {data : List UInt8} {error : Error} (h : I.decode data = .error error) :
    I.Refuses data := by
  unfold decode at h
  by_cases hnil : data = []
  · rw [if_pos hnil] at h
    cases h
  rw [if_neg hnil] at h
  unfold Refuses refusal
  cases hinspect : I.inspect data with
  | error error =>
    rw [hinspect] at h
    dsimp only at h ⊢
    split_ifs at h ⊢
    exact Option.some_ne_none error
  | ok record =>
    rw [hinspect] at h
    dsimp only at h
    split_ifs at h <;> cases h

theorem decode_of_waits {data : List UInt8} (h : I.judge data = .waits) :
    I.decode data = .ok none := by
  unfold judge at h
  unfold decode
  by_cases hnil : data = []
  · rw [if_pos hnil]
  rw [if_neg hnil] at *
  cases hinspect : I.inspect data with
  | error error =>
    rw [hinspect] at h
    dsimp only at h ⊢
    split_ifs at h ⊢
    rfl
  | ok record =>
    rw [hinspect] at h
    dsimp only at h ⊢
    by_cases hblocked : I.candidate record ∧ (data.drop record.bytes.length).length < 2
    · rw [if_pos hblocked]
    · rw [if_neg hblocked] at h
      split at h <;> cases h

theorem decode_record {data : List UInt8} {record : Record} (h : I.inspect data = .ok record)
    {more : List UInt8} (hmore : 2 ≤ more.length) :
    I.decode (record.bytes ++ more) = .ok (some (record, record.bytes.length)) := by
  have hnil : record.bytes ++ more ≠ [] := List.append_ne_nil_of_left_ne_nil (I.takes h).1 _
  rw [decode, if_neg hnil, I.inspect_append h]
  dsimp only
  rw [List.drop_left]
  exact if_neg fun hblocked => absurd hblocked.2 (by omega)

/-- A record is taken when it decodes and, being a candidate, is not refuted. -/
theorem judge_takes {data : List UInt8} {record : Record} :
    I.judge data = .takes record ↔
      I.decode data = .ok (some (record, record.bytes.length)) ∧
        (I.candidate record = true → ¬ I.Refuses (data.drop record.bytes.length)) := by
  unfold judge decode Refuses
  by_cases hnil : data = []
  · simp [hnil]
  rw [if_neg hnil, if_neg hnil]
  cases hinspect : I.inspect data with
  | error error =>
    dsimp only
    split_ifs <;> simp
  | ok found =>
    dsimp only
    by_cases hblocked : I.candidate found ∧ (data.drop found.bytes.length).length < 2
    · rw [if_pos hblocked, if_pos hblocked]
      simp
    rw [if_neg hblocked, if_neg hblocked]
    by_cases hcandidate : I.candidate found = true
    · rw [if_pos hcandidate]
      cases hrefusal : refusal (I.inspect (data.drop found.bytes.length)) with
      | none =>
        constructor
        · intro h
          cases h
          exact ⟨rfl, fun _ => not_not.2 hrefusal⟩
        · intro ⟨h, _⟩
          cases h
          rfl
      | some error =>
        constructor
        · intro h
          cases h
        · intro ⟨h, hnot⟩
          cases h
          exact absurd hrefusal (by rw [not_not.1 (hnot hcandidate)]; simp)
    · rw [if_neg hcandidate]
      constructor
      · intro h
        cases h
        exact ⟨rfl, fun hc => absurd hc hcandidate⟩
      · intro ⟨h, _⟩
        cases h
        rfl

/-- A buffer is refused for what it starts with, or for what stands behind a candidate. -/
theorem judge_refuses {data : List UInt8} {reason : String} (h : I.judge data = .refuses reason) :
    (∃ error, I.decode data = .error error) ∨
      ∃ record, I.decode data = .ok (some (record, record.bytes.length)) ∧
        I.candidate record = true ∧ I.Refuses (data.drop record.bytes.length) := by
  unfold judge at h
  unfold decode Refuses
  by_cases hnil : data = []
  · rw [if_pos hnil] at h
    cases h
  rw [if_neg hnil] at *
  cases hinspect : I.inspect data with
  | error error =>
    rw [hinspect] at h
    dsimp only at h ⊢
    split_ifs at h ⊢
    exact Or.inl ⟨error, rfl⟩
  | ok record =>
    rw [hinspect] at h
    dsimp only at h ⊢
    by_cases hblocked : I.candidate record ∧ (data.drop record.bytes.length).length < 2
    · rw [if_pos hblocked] at h
      cases h
    rw [if_neg hblocked] at h ⊢
    right
    by_cases hcandidate : I.candidate record = true
    · rw [if_pos hcandidate] at h
      refine ⟨record, rfl, hcandidate, ?_⟩
      intro hnone
      rw [hnone] at h
      cases h
    · rw [if_neg hcandidate] at h
      cases h

theorem waits_of_decode {data : List UInt8} (h : I.decode data = .ok none) :
    I.judge data = .waits := by
  cases hjudge : I.judge data with
  | waits => rfl
  | takes record =>
    have hdecode := (judge_takes.1 hjudge).1
    rw [h] at hdecode
    cases hdecode
  | refuses reason =>
    rcases judge_refuses hjudge with ⟨error, hdecode⟩ | ⟨record, hdecode, -⟩
    · rw [h] at hdecode
      cases hdecode
    · rw [h] at hdecode
      cases hdecode

/-- A part of what is refused that is not refused itself waits. -/
theorem waits_of_refuses {data : List UInt8} (hrefused : I.Refuses data) (hnil : data ≠ [])
    {front back : List UInt8} (hdata : front ++ back = data) (hnot : ¬ I.Refuses front) :
    I.judge front = .waits := by
  obtain ⟨error, herror⟩ := decode_of_refuses hrefused hnil
  apply waits_of_decode
  by_contra hfound
  have hgrown := decode_grows rfl hfound back
  rw [hdata, herror] at hgrown
  exact hnot (refuses_of_decode hgrown.symm)

/-- A buffer that waits is the end of the stream so far. -/
theorem all_of_waits {data : List UInt8} (h : I.judge data = .waits) :
    I.records.all data = ⟨[], none, data⟩ :=
  Incremental.all_of_none (decode_of_waits h)

/-- A buffer that is refused is an error of the stream, however it goes on. -/
theorem error_of_refuses {data : List UInt8} {reason : String} (h : I.judge data = .refuses reason)
    (more : List UInt8) : (I.records.all (data ++ more)).error ≠ none := by
  rcases judge_refuses h with ⟨error, hdecode⟩ | ⟨record, hdecode, hcandidate, hrefused⟩
  · rw [Incremental.all_of_error hdecode]
    exact Option.some_ne_none error
  · have hroom := (decode_takes hdecode).2.2 hcandidate
    have hnil : data.drop record.bytes.length ≠ [] := by
      apply List.ne_nil_of_length_pos
      omega
    obtain ⟨error, herror⟩ := decode_of_refuses hrefused hnil
    rw [Incremental.all_of_value hdecode]
    dsimp only
    rw [Incremental.all_of_error herror]
    exact Option.some_ne_none error

end Inspection

/-! ## What a call takes off the buffer -/

/-- The bytes of some records. -/
def bytesOf (records : List Record) : List UInt8 := records.flatMap (·.bytes)

@[simp] theorem bytesOf_nil : bytesOf [] = [] := rfl

@[simp] theorem bytesOf_append (rs rs' : List Record) :
    bytesOf (rs ++ rs') = bytesOf rs ++ bytesOf rs' := List.flatMap_append

@[simp] theorem bytesOf_cons (r : Record) (rs : List Record) :
    bytesOf (r :: rs) = r.bytes ++ bytesOf rs := rfl

/-- What is said of some records that are taken, numbered from the first. -/
def Inspection.acceptedFrom (I : Inspection) : UInt64 → List Record → List SweepUpdate
  | _, [] => []
  | first, record :: records =>
    I.accepted { record with sequence := first } ++ I.acceptedFrom (first + 1) records

/-- Records that a call takes off a buffer, and what it leaves. -/
inductive Inspection.Releases (I : Inspection) : List UInt8 → List Record → List UInt8 → Prop
  | nil (data : List UInt8) : I.Releases data [] data
  | cons {data : List UInt8} {record : Record} {records : List Record} {rest : List UInt8} :
    I.judge data = .takes record → I.Releases (data.drop record.bytes.length) records rest →
      I.Releases data (record :: records) rest

/-- The values of a stream behind others. -/
def prepend (records : List Record) (found : Decoded UInt8 Record Error) :
    Decoded UInt8 Record Error :=
  { found with values := records ++ found.values }

namespace Inspection

variable {I : Inspection}

theorem add_ofNat_succ (first : UInt64) (n : Nat) :
    first + 1 + UInt64.ofNat n = first + UInt64.ofNat (n + 1) := by
  rw [UInt64.ofNat_add, UInt64.add_comm (UInt64.ofNat n), ← UInt64.add_assoc]
  rfl

theorem acceptedFrom_append (first : UInt64) (rs rs' : List Record) :
    I.acceptedFrom first (rs ++ rs') =
      I.acceptedFrom first rs ++ I.acceptedFrom (first + UInt64.ofNat rs.length) rs' := by
  induction rs generalizing first with
  | nil => simp [acceptedFrom]
  | cons r rs ih =>
    rw [List.cons_append, acceptedFrom, acceptedFrom, ih, add_ofNat_succ, List.append_assoc,
      List.length_cons]

theorem acceptedFrom_cons_ne_nil (first : UInt64) (r : Record) (rs : List Record) :
    I.acceptedFrom first (r :: rs) ≠ [] := by
  simp [acceptedFrom, accepted]

namespace Releases

variable {data : List UInt8} {rs : List Record} {rest : List UInt8}

theorem split (h : I.Releases data rs rest) : data = bytesOf rs ++ rest := by
  induction h with
  | nil data => rfl
  | cons htakes _ ih =>
    obtain ⟨hinspect, -, -⟩ := decode_takes (judge_takes.1 htakes).1
    rw [bytesOf_cons, List.append_assoc, ← ih, I.bytes_append_drop hinspect]

/-- The records are the next of the stream, whatever follows. -/
theorem all_append (h : I.Releases data rs rest) (more : List UInt8) :
    I.records.all (data ++ more) = prepend rs (I.records.all (rest ++ more)) := by
  induction h with
  | nil data => rfl
  | cons htakes _ ih =>
    rw [Incremental.all_of_value (judge_takes.1 htakes).1, ih]
    rfl

/-- The last record that was taken, if it is a candidate, has two bytes behind it that are not
refused. -/
theorem vouched (h : I.Releases data rs rest) {front : List Record} {last : Record}
    (hlast : rs = front ++ [last]) (hcandidate : I.candidate last = true) :
    2 ≤ rest.length ∧ ¬ I.Refuses (rest.take 2) := by
  induction h generalizing front with
  | nil data =>
    have hlength := congrArg List.length hlast
    simp at hlength
  | cons htakes hrest ih =>
    cases front with
    | cons r front => exact ih (List.cons.inj hlast).2
    | nil =>
      obtain ⟨rfl, rfl⟩ := List.cons.inj hlast
      obtain ⟨hdecode, hnot⟩ := judge_takes.1 htakes
      obtain ⟨-, -, hroom⟩ := decode_takes hdecode
      cases hrest
      refine ⟨hroom hcandidate, fun hrefused => hnot hcandidate ?_⟩
      rw [← List.take_append_drop 2 (List.drop _ _)]
      exact hrefused.grows _

end Releases

end Inspection

namespace ProtectedDirection

variable {φ : Type} {I : Inspection}

@[simp] theorem release_zero (d : ProtectedDirection) : d.release 0 = d := rfl

theorem release_release (d : ProtectedDirection) (m n : Nat) :
    (d.release m).release n = d.release (m + n) := by
  simp [release, Nat.add_assoc]

/-- **A call** takes records off its buffer until it waits or refuses. -/
theorem drain_spec (flow : φ) (direction : Direction) {turns : Nat} {d : ProtectedDirection}
    (hturns : d.plaintext.length ≤ turns) (nextSequence : UInt64) (updates : List SweepUpdate) :
    ∃ rs rest, I.Releases d.plaintext rs rest ∧
      let d' := d.release (bytesOf rs).length
      let next := nextSequence + UInt64.ofNat rs.length
      (I.judge rest = .waits ∧ drain I flow direction turns d nextSequence updates =
          (.ok (updates ++ I.acceptedFrom nextSequence rs), d', next)) ∨
        ∃ reason, I.judge rest = .refuses reason ∧
          drain I flow direction turns d nextSequence updates =
            (.error (d'.unknown I flow direction reason), d', next) := by
  induction turns generalizing d nextSequence updates with
  | zero =>
    have hnil : d.plaintext = [] := List.eq_nil_of_length_eq_zero (Nat.le_zero.1 hturns)
    refine ⟨[], d.plaintext, .nil _, Or.inl ⟨?_, ?_⟩⟩
    · rw [hnil]
      rfl
    · simp [drain, Inspection.acceptedFrom]
  | succ turns ih =>
    rw [drain_succ]
    cases hjudge : I.judge d.plaintext with
    | waits =>
      refine ⟨[], d.plaintext, .nil _, Or.inl ⟨hjudge, ?_⟩⟩
      simp [Inspection.acceptedFrom]
    | refuses reason =>
      refine ⟨[], d.plaintext, .nil _, Or.inr ⟨reason, hjudge, ?_⟩⟩
      simp
    | takes record =>
      obtain ⟨hinspect, -, -⟩ := Inspection.decode_takes (Inspection.judge_takes.1 hjudge).1
      have hlength := I.length_bytes hinspect
      have hleft : (d.release record.bytes.length).plaintext.length ≤ turns := by
        change (d.plaintext.drop record.bytes.length).length ≤ turns
        rw [List.length_drop]
        omega
      obtain ⟨rs, rest, hreleases, hend⟩ := ih hleft (nextSequence + 1)
        (updates ++ I.accepted { record with sequence := nextSequence })
      refine ⟨record :: rs, rest, .cons hjudge hreleases, ?_⟩
      rw [release_release, Inspection.add_ofNat_succ, List.append_assoc] at hend
      rw [bytesOf_cons, List.length_append]
      exact hend

end ProtectedDirection

/-! ## Feeding the pieces -/

/-- A direction, what it was shown of its stream, and what `consume` gave back: the updates, and the
error that halts the sweep. -/
structure Sweeping (φ : Type) where
  d : ProtectedDirection
  nextSequence : UInt64
  stream : List UInt8
  updates : List SweepUpdate := []
  halted : Option (SweepError φ) := none

/-- The bytes of the records among the updates. -/
def emitted (updates : List SweepUpdate) : List UInt8 :=
  updates.flatMap fun update =>
    match update with
    | .status _ => []
    | .record record => record.bytes

theorem emitted_accepted (I : Inspection) (record : Record) :
    emitted (I.accepted record) = record.bytes := by
  have hstatus {α : Type} (audits : List α) (text : α → String) :
      emitted (audits.map fun audit => .status (text audit)) = [] := by
    simp [emitted, List.flatMap_map]
  unfold Inspection.accepted
  dsimp only
  unfold emitted at *
  rw [List.flatMap_append, List.flatMap_append, hstatus]
  split_ifs <;> simp

theorem emitted_acceptedFrom (I : Inspection) (first : UInt64) (rs : List Record) :
    emitted (I.acceptedFrom first rs) = bytesOf rs := by
  induction rs generalizing first with
  | nil => rfl
  | cons r rs ih =>
    rw [Inspection.acceptedFrom, emitted, List.flatMap_append, bytesOf_cons]
    exact congrArg₂ (· ++ ·) (emitted_accepted I _) (ih _)

namespace Sweeping

variable {φ : Type} (P : Primitives) (I : Inspection) (flow : φ) (direction : Direction)

/-- One more piece of the stream, unless the sweep is halted. -/
def feed (s : Sweeping φ) (piece : List UInt8) : Sweeping φ :=
  if s.halted.isSome then s
  else
    let stream := s.stream ++ piece
    match s.d.consume P I flow direction stream s.nextSequence with
    | (.ok updates, d, nextSequence) =>
      { s with d, nextSequence, stream, updates := s.updates ++ updates }
    | (.error error, d, nextSequence) => { s with d, nextSequence, stream, halted := some error }

/-- A direction whose protected part starts behind some bytes. -/
def start (key lead : List UInt8) (first : UInt64) : Sweeping φ where
  d := {
    cipher := ⟨key, 0⟩
    cipherConsumed := lead.length
    streamOffset := lead.length }
  nextSequence := first
  stream := lead

/-- What a sweep found: its updates, and where it halted. -/
def outcome (s : Sweeping φ) : List SweepUpdate × Option Nat :=
  (s.updates, s.halted.bind fun error =>
    match error with
    | .capture _ => none
    | .unknownPacket packet => some packet.streamOffset)

/-- Every byte is accounted for: what was given back and what waits is the decrypted stream, the
buffers are as long, and the offset is behind what was given back. -/
def Accounted (key lead : List UInt8) (s : Sweeping φ) : Prop :=
  emitted s.updates ++ s.d.plaintext =
      xorFrom (P.rc4Keystream key) 0 (s.stream.drop lead.length) ∧
    s.d.plaintext.length = s.d.ciphertext.length ∧
    s.d.streamOffset = lead.length + (emitted s.updates).length

/-- What is found of a stream is the same for every cut, and is accounted for at every moment. -/
def CutIndependent (key lead : List UInt8) (first : UInt64) (plaintext : List UInt8) : Prop :=
  let ciphertext := xorFrom (P.rc4Keystream key) 0 plaintext
  let feed := feed P I flow direction
  (∀ cut cut' : List (List UInt8), cut.flatten = ciphertext → cut'.flatten = ciphertext →
    (run feed (start key lead first) cut).outcome = (run feed (start key lead first) cut').outcome) ∧
  ∀ cut : List (List UInt8), cut.flatten = ciphertext →
    StatesMeet feed (Accounted P key lead) (start key lead first) cut

end Sweeping

/-- The stream is found the same however it is cut: none of it is refused, or it starts with what is
refused, or with one candidate that is refuted by the first two bytes behind it. -/
def Inspection.Whole (I : Inspection) (plaintext : List UInt8) : Prop :=
  let found := I.records.all plaintext
  found.error = none ∨ found.values = [] ∨
    ∃ record, found.values = [record] ∧ I.candidate record = true ∧ I.Refuses (found.rest.take 2)

namespace Sweeping

section

variable {φ : Type} {P : Primitives} {I : Inspection} {flow : φ} {direction : Direction}
variable {key lead : List UInt8} {first : UInt64} {s : Sweeping φ} {T : List UInt8}
  {rs rs' : List Record}

/-- What holds of the buffers after some of the stream: it is some records and what waits. -/
structure Read (P : Primitives) (I : Inspection) (key lead : List UInt8) (s : Sweeping φ)
    (T : List UInt8) (rs : List Record) : Prop where
  stream : s.stream = lead ++ xorFrom (P.rc4Keystream key) 0 T
  split : T = bytesOf rs ++ s.d.plaintext
  ciphertext : s.d.ciphertext = (xorFrom (P.rc4Keystream key) 0 T).drop (bytesOf rs).length
  offset : s.d.streamOffset = lead.length + (bytesOf rs).length
  all : ∀ more, I.records.all (T ++ more) = prepend rs (I.records.all (s.d.plaintext ++ more))
  vouched : ∀ front last, rs = front ++ [last] → I.candidate last = true →
    2 ≤ s.d.plaintext.length ∧ ¬ I.Refuses (s.d.plaintext.take 2)

/-- The sweep is still going: the records were given back, and the buffer waits. -/
structure Going (P : Primitives) (I : Inspection) (key lead : List UInt8) (first : UInt64)
    (s : Sweeping φ) (T : List UInt8) (rs : List Record) : Prop where
  read : s.Read P I key lead T rs
  running : s.halted = none
  cipher : s.d.cipher = ⟨key, T.length⟩
  consumed : s.d.cipherConsumed = s.stream.length
  sequence : s.nextSequence = first + UInt64.ofNat rs.length
  updates : s.updates = I.acceptedFrom first rs
  waits : I.judge s.d.plaintext = .waits

/-- The sweep has stopped: the last call took records that it did not give back, and refused the
buffer. -/
structure Stopped (P : Primitives) (I : Inspection) (flow : φ) (direction : Direction)
    (key lead : List UInt8) (first : UInt64) (s : Sweeping φ) (T : List UInt8)
    (rs rs' : List Record) : Prop where
  read : s.Read P I key lead T (rs ++ rs')
  updates : s.updates = I.acceptedFrom first rs
  refuses : ∃ reason, I.judge s.d.plaintext = .refuses reason ∧
    s.halted = some (s.d.unknown I flow direction reason)

/-- Where a sweep may be after some of the stream. -/
def Reached (P : Primitives) (I : Inspection) (flow : φ) (direction : Direction)
    (key lead : List UInt8) (first : UInt64) (s : Sweeping φ) (T : List UInt8) : Prop :=
  (∃ rs, s.Going P I key lead first T rs) ∨
    ∃ D rs rs', D <+: T ∧ s.Stopped P I flow direction key lead first D rs rs'

theorem going_start : (start key lead first : Sweeping φ).Going P I key lead first [] [] := by
  refine ⟨⟨by simp [start], rfl, rfl, rfl, fun more => rfl, ?_⟩, rfl, rfl, rfl, ?_, rfl, rfl⟩
  · intro front last h
    exact absurd (congrArg List.length h) (by simp)
  · simp [start]

/-- The bytes in front of some records and those behind. -/
theorem Read.more {B : List UInt8} (h : s.Read P I key lead T rs) {p : List UInt8}
    (hrelease : I.Releases (s.d.plaintext ++ p) rs' B) {s' : Sweeping φ}
    (hstream : s'.stream = s.stream ++ xorFrom (P.rc4Keystream key) T.length p)
    (hplaintext : s'.d.plaintext = B)
    (hciphertext : s'.d.ciphertext =
      (s.d.ciphertext ++ xorFrom (P.rc4Keystream key) T.length p).drop (bytesOf rs').length)
    (hoffset : s'.d.streamOffset = s.d.streamOffset + (bytesOf rs').length) :
    s'.Read P I key lead (T ++ p) (rs ++ rs') where
  stream := by
    rw [hstream, h.stream, xorFrom_append, List.append_assoc, Nat.zero_add]
  split := by
    rw [hplaintext, bytesOf_append, List.append_assoc, ← hrelease.split, ← List.append_assoc,
      ← h.split]
  ciphertext := by
    have hle : (bytesOf rs).length ≤ (xorFrom (P.rc4Keystream key) 0 T).length := by
      rw [length_xorFrom, h.split, List.length_append]
      exact Nat.le_add_right _ _
    rw [hciphertext, h.ciphertext, xorFrom_append, Nat.zero_add,
      ← List.drop_append_of_le_length hle, List.drop_drop, bytesOf_append, List.length_append]
  offset := by
    rw [hoffset, h.offset, bytesOf_append, List.length_append, Nat.add_assoc]
  all more := by
    rw [List.append_assoc, h.all, ← List.append_assoc, hrelease.all_append, hplaintext]
    unfold prepend
    rw [List.append_assoc]
  vouched front last hlast hcandidate := by
    rw [hplaintext]
    rcases List.eq_nil_or_concat' rs' with rfl | ⟨front', last', rfl⟩
    · obtain ⟨hroom, hnot⟩ := h.vouched front last (by simpa using hlast) hcandidate
      cases hrelease
      rw [List.length_append, List.take_append_of_le_length hroom]
      exact ⟨by omega, hnot⟩
    · rw [← List.append_assoc] at hlast
      obtain ⟨-, hsame⟩ := List.append_inj' hlast rfl
      obtain rfl := (List.cons.inj hsame).1
      exact hrelease.vouched rfl hcandidate

/-- **One piece more.** -/
theorem Going.feed (flow : φ) (direction : Direction) (h : s.Going P I key lead first T rs) (p : List UInt8) :
    let s' := s.feed P I flow direction (xorFrom (P.rc4Keystream key) T.length p)
    ∃ rs' B, I.Releases (s.d.plaintext ++ p) rs' B ∧ s'.d.plaintext = B ∧
      (s'.Going P I key lead first (T ++ p) (rs ++ rs') ∨
        s'.Stopped P I flow direction key lead first (T ++ p) rs rs') := by
  intro s'
  let c := xorFrom (P.rc4Keystream key) T.length p
  have hencrypted : (s.stream ++ c).drop s.d.cipherConsumed = c := by
    rw [h.consumed, List.drop_left]
  let d : ProtectedDirection := { s.d with
    cipher := ⟨key, T.length + c.length⟩
    cipherConsumed := (s.stream ++ c).length
    ciphertext := s.d.ciphertext ++ c
    plaintext := s.d.plaintext ++ p }
  have hconsume : s.d.consume P I flow direction (s.stream ++ c) s.nextSequence =
      d.drain I flow direction d.plaintext.length s.nextSequence [] := by
    have hshrank : ¬ (s.stream ++ c).length < s.d.cipherConsumed := by
      rw [h.consumed, List.length_append]
      omega
    rw [ProtectedDirection.consume, if_neg hshrank]
    dsimp only
    rw [hencrypted, h.cipher, Rc4State.apply]
    dsimp only
    rw [xorFrom_xorFrom]
  obtain ⟨rs', B, hrelease, hend⟩ := ProtectedDirection.drain_spec flow direction
    (Nat.le_refl d.plaintext.length) s.nextSequence [] (I := I)
  have hbuffer : (d.release (bytesOf rs').length).plaintext = B := by
    change d.plaintext.drop (bytesOf rs').length = B
    rw [hrelease.split, List.drop_left]
  refine ⟨rs', B, hrelease, ?_⟩
  rcases hend with ⟨hwaits, hdrain⟩ | ⟨reason, hrefuses, hdrain⟩
  · have hs' : s' = { s with
        d := d.release (bytesOf rs').length
        nextSequence := s.nextSequence + UInt64.ofNat rs'.length
        stream := s.stream ++ c
        updates := s.updates ++ I.acceptedFrom s.nextSequence rs' } := by
      change s.feed P I flow direction c = _
      rw [Sweeping.feed, h.running, Option.isSome_none, if_neg Bool.false_ne_true]
      dsimp only
      rw [hconsume, hdrain]
      rfl
    rw [hs']
    refine ⟨hbuffer, Or.inl ⟨?_, h.running, ?_, ?_, ?_, ?_, ?_⟩⟩
    · exact h.read.more hrelease rfl hbuffer rfl rfl
    · change (⟨key, T.length + c.length⟩ : Rc4State) = _
      rw [length_xorFrom, List.length_append]
    · rfl
    · change s.nextSequence + _ = _
      rw [h.sequence, List.length_append, UInt64.ofNat_add, UInt64.add_assoc]
    · change s.updates ++ _ = _
      rw [h.updates, h.sequence, Inspection.acceptedFrom_append]
    · change I.judge (d.release (bytesOf rs').length).plaintext = _
      rw [hbuffer]
      exact hwaits
  · have hs' : s' = { s with
        d := d.release (bytesOf rs').length
        nextSequence := s.nextSequence + UInt64.ofNat rs'.length
        stream := s.stream ++ c
        halted := some ((d.release (bytesOf rs').length).unknown I flow direction reason) } := by
      change s.feed P I flow direction c = _
      rw [Sweeping.feed, h.running, Option.isSome_none, if_neg Bool.false_ne_true]
      dsimp only
      rw [hconsume, hdrain]
    rw [hs']
    refine ⟨hbuffer, Or.inr ⟨?_, h.updates, reason, ?_, rfl⟩⟩
    · exact h.read.more hrelease rfl hbuffer rfl rfl
    · change I.judge (d.release (bytesOf rs').length).plaintext = _
      rw [hbuffer]
      exact hrefuses

/-- The first piece. -/
theorem start_feed (P : Primitives) (I : Inspection) (key lead : List UInt8) (first : UInt64)
    (flow : φ) (direction : Direction) (p : List UInt8) :
    let s' := Sweeping.feed P I flow direction (start key lead first)
      (xorFrom (P.rc4Keystream key) 0 p)
    ∃ rs B, I.Releases p rs B ∧ s'.d.plaintext = B ∧ (s'.Going P I key lead first p rs ∨
      s'.Stopped P I flow direction key lead first p [] rs) :=
  going_start.feed flow direction p

theorem Reached.feed (h : s.Reached P I flow direction key lead first T) (p : List UInt8) :
    (s.feed P I flow direction (xorFrom (P.rc4Keystream key) T.length p)).Reached P I flow direction
      key lead first (T ++ p) := by
  rcases h with ⟨rs, hgoing⟩ | ⟨D, rs, rs', hfront, hstopped⟩
  · obtain ⟨rs', B, -, -, hnext | hnext⟩ := hgoing.feed flow direction p
    · exact Or.inl ⟨_, hnext⟩
    · exact Or.inr ⟨_, rs, rs', List.prefix_refl _, hnext⟩
  · obtain ⟨reason, -, hhalted⟩ := hstopped.refuses
    rw [Sweeping.feed, hhalted, Option.isSome_some, if_pos rfl]
    exact Or.inr ⟨D, rs, rs', hfront.trans (List.prefix_append _ _), hstopped⟩

/-- **A run over the pieces.** -/
theorem Reached.run {S : List UInt8} {cut : List (List UInt8)}
    (h : s.Reached P I flow direction key lead first T) {R : List UInt8} (hS : T ++ R = S)
    (hcut : cut.flatten = xorFrom (P.rc4Keystream key) T.length R) :
    StatesMeet (Sweeping.feed P I flow direction)
        (fun s' => ∃ D, D <+: S ∧ s'.Reached P I flow direction key lead first D) s cut ∧
      (run (Sweeping.feed P I flow direction) s cut).Reached P I flow direction key lead first S := by
  have hfront : T <+: S := ⟨R, hS⟩
  induction cut generalizing s T R with
  | nil =>
    have hnil : R = [] := by
      apply List.eq_nil_of_length_eq_zero
      rw [← length_xorFrom (P.rc4Keystream key) T.length R, ← hcut]
      rfl
    rw [hnil, List.append_nil] at hS
    subst hS
    exact ⟨⟨T, hfront, h⟩, h⟩
  | cons c cut ih =>
    rw [List.flatten_cons] at hcut
    obtain ⟨p, R, rfl, hp, hR⟩ := exists_append_of_xorFrom _ hcut.symm
    have hnext := h.feed p
    rw [hp] at hnext
    rw [← List.append_assoc] at hS
    obtain ⟨hstates, hlast⟩ := ih hnext hS (by rw [List.length_append, hR]) ⟨R, hS⟩
    exact ⟨⟨⟨T, hfront, h⟩, hstates⟩, hlast⟩

/-! ## Whole streams -/

theorem Read.error_of_refuses (h : s.Read P I key lead T rs) {reason : String}
    (hrefuses : I.judge s.d.plaintext = .refuses reason) (more : List UInt8) :
    (I.records.all (T ++ more)).error ≠ none := by
  rw [h.all]
  exact Inspection.error_of_refuses hrefuses more

/-- No record is taken off a stream that is refused at once. -/
theorem Read.nothing (h : s.Read P I key lead T rs) {S : List UInt8} (hfront : T <+: S)
    (hwhole : I.Whole S) (herror : (I.records.all S).error ≠ none) : rs = [] := by
  obtain ⟨more, rfl⟩ := hfront
  have hall := h.all more
  rcases hwhole with hnone | hnil | ⟨record, hsingle, hcandidate, hrefused⟩
  · exact absurd hnone herror
  · rw [hall] at hnil
    exact (List.append_eq_nil_iff.1 hnil).1
  · rw [hall] at hsingle hrefused
    rcases List.append_eq_singleton_iff.1 hsingle with ⟨hnil, -⟩ | ⟨hone, hnil⟩
    · exact hnil
    · obtain ⟨hroom, hnot⟩ := h.vouched [] record hone hcandidate
      change I.Refuses ((I.records.all (s.d.plaintext ++ more)).rest.take 2) at hrefused
      rw [Incremental.rest_of_values_nil hnil, List.take_append_of_le_length hroom] at hrefused
      exact absurd hrefused hnot

theorem Read.accounted (h : s.Read P I key lead T rs) (hupdates : emitted s.updates = bytesOf rs) :
    s.Accounted P key lead := by
  have hdecrypted : xorFrom (P.rc4Keystream key) 0 (s.stream.drop lead.length) = T := by
    rw [h.stream, List.drop_left, xorFrom_xorFrom]
  refine ⟨?_, ?_, ?_⟩
  · rw [hdecrypted, hupdates]
    exact h.split.symm
  · have hlength := congrArg List.length h.split
    rw [List.length_append] at hlength
    rw [h.ciphertext, List.length_drop, length_xorFrom]
    omega
  · rw [hupdates]
    exact h.offset

/-- Every byte of a whole stream is accounted for at every moment. -/
theorem Reached.accounted (h : s.Reached P I flow direction key lead first T) {S : List UInt8}
    (hfront : T <+: S) (hwhole : I.Whole S) : s.Accounted P key lead := by
  rcases h with ⟨rs, hgoing⟩ | ⟨D, rs, rs', hD, hstopped⟩
  · apply hgoing.read.accounted
    rw [hgoing.updates, emitted_acceptedFrom]
  · have hDS := hD.trans hfront
    have herror : (I.records.all S).error ≠ none := by
      obtain ⟨reason, hrefuses, -⟩ := hstopped.refuses
      obtain ⟨more, rfl⟩ := hDS
      exact hstopped.read.error_of_refuses hrefuses more
    have hnothing := hstopped.read.nothing hDS hwhole herror
    apply hstopped.read.accounted
    rw [hnothing, hstopped.updates, (List.append_eq_nil_iff.1 hnothing).1]
    rfl

/-- What is found of a whole stream: all its records, or none and where it starts. -/
theorem Reached.outcome {S : List UInt8} (h : s.Reached P I flow direction key lead first S)
    (hwhole : I.Whole S) :
    s.outcome = match (I.records.all S).error with
      | none => (I.acceptedFrom first (I.records.all S).values, none)
      | some _ => ([], some lead.length) := by
  rcases h with ⟨rs, hgoing⟩ | ⟨D, rs, rs', hD, hstopped⟩
  · have hall := hgoing.read.all []
    rw [List.append_nil, List.append_nil, Inspection.all_of_waits hgoing.waits] at hall
    rw [hall, Sweeping.outcome, hgoing.running, hgoing.updates]
    simp [prepend]
  · obtain ⟨reason, hrefuses, hhalted⟩ := hstopped.refuses
    have herror : (I.records.all S).error ≠ none := by
      obtain ⟨more, rfl⟩ := hD
      exact hstopped.read.error_of_refuses hrefuses more
    have hnothing := hstopped.read.nothing hD hwhole herror
    obtain ⟨error, hsome⟩ := Option.ne_none_iff_exists'.1 herror
    have hoffset := hstopped.read.offset
    rw [hnothing] at hoffset
    rw [hsome, Sweeping.outcome, hhalted, hstopped.updates, (List.append_eq_nil_iff.1 hnothing).1]
    simp [Inspection.acceptedFrom, ProtectedDirection.unknown, hoffset]

theorem cutIndependent_of_whole (flow : φ) (direction : Direction) (key lead : List UInt8)
    (first : UInt64) {S : List UInt8} (hwhole : I.Whole S) :
    CutIndependent P I flow direction key lead first S := by
  have hrun {cut : List (List UInt8)} (hcut : cut.flatten = xorFrom (P.rc4Keystream key) 0 S) :=
    (Reached.run (s := start key lead first) (T := []) (Or.inl ⟨[], going_start⟩) rfl hcut :
      StatesMeet (Sweeping.feed P I flow direction) _ _ _ ∧ _)
  refine ⟨fun cut cut' hcut hcut' => ?_, fun cut hcut => ?_⟩
  · rw [(hrun hcut).2.outcome hwhole, (hrun hcut').2.outcome hwhole]
  · exact (hrun hcut).1.mono fun s ⟨D, hD, h⟩ => h.accounted hD hwhole

/-! ## The others -/

theorem updates_feed (P : Primitives) (I : Inspection) (flow : φ) (direction : Direction) (s : Sweeping φ)
    (piece : List UInt8) : s.updates <+: (s.feed P I flow direction piece).updates := by
  unfold Sweeping.feed
  split_ifs
  · exact List.prefix_refl _
  · dsimp only
    split
    · exact List.prefix_append _ _
    · exact List.prefix_refl _

/-- A candidate is taken, and given back, when all that has come behind it may still be the start of
a record. -/
theorem exists_cut_of_candidate (P : Primitives) (key lead : List UInt8) (first : UInt64)
    (flow : φ) (direction : Direction) {S : List UInt8} {record : Record}
    (hdecode : I.decode S = .ok (some (record, record.bytes.length)))
    (hcandidate : I.candidate record = true) (hrefused : I.Refuses (S.drop record.bytes.length))
    (hnot : ¬ I.Refuses ((S.drop record.bytes.length).take 2)) :
    ∃ cut : List (List UInt8), cut.flatten = xorFrom (P.rc4Keystream key) 0 S ∧
      (Superiority.run (Sweeping.feed P I flow direction) (start key lead first) cut).updates ≠
        [] := by
  obtain ⟨hinspect, -, hroom⟩ := Inspection.decode_takes hdecode
  have hroom := hroom hcandidate
  let follower := S.drop record.bytes.length
  let p := record.bytes ++ follower.take 2
  have hS : p ++ follower.drop 2 = S := by
    rw [List.append_assoc, List.take_append_drop, I.bytes_append_drop hinspect]
  have htwo : (follower.take 2).length = 2 := by
    rw [List.length_take]
    exact Nat.min_eq_left hroom
  have hdrop : p.drop record.bytes.length = follower.take 2 := List.drop_left
  have htakes : I.judge p = .takes record := by
    refine Inspection.judge_takes.2 ⟨Inspection.decode_record hinspect htwo.ge, fun _ => ?_⟩
    rw [hdrop]
    exact hnot
  have hwaits : I.judge (follower.take 2) = .waits := by
    refine Inspection.waits_of_refuses hrefused ?_ (List.take_append_drop 2 follower) hnot
    apply List.ne_nil_of_length_pos
    omega
  refine ⟨[xorFrom (P.rc4Keystream key) 0 p,
    xorFrom (P.rc4Keystream key) (0 + p.length) (follower.drop 2)], ?_, ?_⟩
  · rw [List.flatten_cons, List.flatten_cons, List.flatten_nil, List.append_nil, ← xorFrom_append,
      hS]
  obtain ⟨rs, B, hreleases, hB, hend⟩ := start_feed P I key lead first flow direction p
  have hgiven : ∃ r rs, (Sweeping.feed P I flow direction (start key lead first)
      (xorFrom (P.rc4Keystream key) 0 p)).updates = I.acceptedFrom first (r :: rs) := by
    cases hreleases with
    | nil =>
      rcases hend with hgoing | hstopped
      · have hjudge := hgoing.waits
        rw [hB, htakes] at hjudge
        cases hjudge
      · obtain ⟨reason, hjudge, -⟩ := hstopped.refuses
        rw [hB, htakes] at hjudge
        cases hjudge
    | cons htakes' hrest =>
      rw [htakes] at htakes'
      cases htakes'
      rw [hdrop] at hrest
      rcases hend with hgoing | hstopped
      · exact ⟨_, _, hgoing.updates⟩
      · cases hrest with
        | nil =>
          obtain ⟨reason, hjudge, -⟩ := hstopped.refuses
          rw [hB, hwaits] at hjudge
          cases hjudge
        | cons htakes'' _ =>
          rw [hwaits] at htakes''
          cases htakes''
  obtain ⟨r, rs, hgiven⟩ := hgiven
  intro hnil
  have hfront := updates_feed P I flow direction (Sweeping.feed P I flow direction
    (start key lead first) (xorFrom (P.rc4Keystream key) 0 p))
    (xorFrom (P.rc4Keystream key) (0 + p.length) (follower.drop 2))
  rw [run_cons, run_cons, run_nil] at hnil
  rw [hnil, List.prefix_nil, hgiven] at hfront
  exact I.acceptedFrom_cons_ne_nil first r rs hfront

/-- A stream that is refused behind a record is found in another way when it comes at once. -/
theorem whole_of_cutIndependent {S : List UInt8}
    (h : CutIndependent P I flow direction key lead first S) : I.Whole S := by
  obtain ⟨hsame, haccounted⟩ := h
  have honce : [xorFrom (P.rc4Keystream key) 0 S].flatten = xorFrom (P.rc4Keystream key) 0 S :=
    List.append_nil _
  obtain ⟨rs, B, -, hB, hgoing | hstopped⟩ := start_feed P I key lead first flow direction S
  · left
    have hall := hgoing.read.all []
    rw [List.append_nil, List.append_nil, Inspection.all_of_waits hgoing.waits] at hall
    exact congrArg Decoded.error hall
  · right
    have hupdates := hstopped.updates
    -- the records of the call are lost, so there are none
    have hemitted := (haccounted _ honce).last.1
    rw [run_cons, run_nil, hstopped.read.stream, List.drop_left, xorFrom_xorFrom, hupdates,
      hB] at hemitted
    change B = S at hemitted
    obtain ⟨reason, hjudge, -⟩ := hstopped.refuses
    rw [hB, hemitted] at hjudge
    rcases Inspection.judge_refuses hjudge with ⟨error, hdecode⟩ | ⟨record, hdecode, hcandidate, hrefused⟩
    · left
      have hall := I.records.all_of_error hdecode []
      rw [List.append_nil] at hall
      rw [hall]
    · right
      have hroom := (Inspection.decode_takes hdecode).2.2 hcandidate
      obtain ⟨error, herror⟩ := Inspection.decode_of_refuses hrefused
        (List.ne_nil_of_length_pos (by omega))
      have hall := I.records.all_of_value hdecode []
      rw [I.records.all_of_error herror, List.append_nil, List.append_nil] at hall
      refine ⟨record, by rw [hall], hcandidate, ?_⟩
      rw [hall]
      by_contra hnot
      obtain ⟨cut, hcut, hgiven⟩ := exists_cut_of_candidate P key lead first flow direction hdecode
        hcandidate hrefused hnot
      apply hgiven
      have hfirst := congrArg Prod.fst (hsame cut _ hcut honce)
      exact hfirst.trans hupdates

end

/-- **The records do not depend on the cutting** exactly of the streams that are whole. -/
theorem cutIndependent_iff {φ : Type} (P : Primitives) (I : Inspection) (flow : φ)
    (direction : Direction) (key lead : List UInt8) (first : UInt64) (plaintext : List UInt8) :
    CutIndependent P I flow direction key lead first plaintext ↔ I.Whole plaintext :=
  ⟨whole_of_cutIndependent, cutIndependent_of_whole flow direction key lead first⟩

end Sweeping

/-! ## A stream that is found in different ways -/

/-- Every byte is a record, only the largest is none. -/
def bytewise : Inspection where
  inspect data :=
    match data with
    | [] => .error (.incompleteFrame "no record")
    | b :: _ =>
      if b = 0xff then .error (.native "no record starts so")
      else .ok { typeName := "byte", bytes := [b] }
  candidate _ := false
  route _ := none
  display _ := "no record"
  takes {data record} h := by
    cases data with
    | nil => cases h
    | cons b data =>
      dsimp only at h
      split_ifs at h with hb
      cases h
      exact ⟨List.cons_ne_nil _ _, ⟨data, rfl⟩, if_neg hb⟩
  grows {data found} h hfound more := by
    cases data with
    | nil => exact absurd h.symm (hfound _)
    | cons b data => exact h

/-- A record and then a byte that is refused. Byte by byte, the record is given back before the
sweep halts; at once, it is lost. -/
theorem not_cutIndependent :
    ¬ Sweeping.CutIndependent ⟨fun _ _ => .replicate 32 0, fun _ _ => 0⟩ bytewise () .incoming [1] []
      0 [1, 0xff] := by
  intro ⟨hsame, _⟩
  have h := hsame [[1], [0xff]] [[1, 0xff]] (by decide) (by decide)
  exact absurd (congrArg (fun found => found.1.length) h) (by decide +kernel)

end Superiority.Sweep
