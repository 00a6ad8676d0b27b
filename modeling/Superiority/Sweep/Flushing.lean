import Superiority.Sweep.Packet

/-!
# When a flush ends

`flush_pending` takes a segment out of those put aside and gives it back to `add`. A segment that
starts before the bytes held and does not reach them is put aside again by `add`, so the flush takes
it up again, for ever (`flushPending_of_blocked`).

If no such segment is put aside once the new one is in, each round leaves one segment less:
`returns_of_isFlushable`, for which the bytes of the segments may not be more than half of the
sequence space.
-/

namespace Superiority.Sweep

open Std

namespace TcpDirection

/-! ## Differences of sequence numbers -/

section Differences

variable (sequence start other : UInt32)

theorem toNat_sub_endOf {length : Nat} (h : length < 2 ^ 32) :
    (sequence - (start + .ofNat length)).toNat
      = ((sequence - start).toNat + 2 ^ 32 - length) % 2 ^ 32 := by
  have hlength : (UInt32.ofNat length).toNat = length := UInt32.toNat_ofNat_of_lt' h
  have hsequence := sequence.toNat_lt
  have hstart := start.toNat_lt
  simp only [UInt32.toNat_sub, UInt32.toNat_add, hlength]
  omega

theorem toNat_sub_rev :
    (start - sequence).toNat = (2 ^ 32 - (sequence - start).toNat) % 2 ^ 32 := by
  have hsequence := sequence.toNat_lt
  have hstart := start.toNat_lt
  simp only [UInt32.toNat_sub]
  omega

theorem toNat_sub_rebase : (sequence - other).toNat
    = ((sequence - start).toNat + (start - other).toNat) % 2 ^ 32 := by
  have hsequence := sequence.toNat_lt
  have hstart := start.toNat_lt
  have hother := other.toNat_lt
  simp only [UInt32.toNat_sub]
  omega

theorem half_lt_iff (a : UInt32) : 0x80000000 < a ↔ 2 ^ 31 < a.toNat := by
  rw [UInt32.lt_iff_toNat_lt]
  rfl

theorem eq_iff_toNat_sub : sequence = other ↔ (sequence - other).toNat = 0 := by
  have hsequence := sequence.toNat_lt
  have hother := other.toNat_lt
  rw [← UInt32.toNat_inj, UInt32.toNat_sub]
  omega

end Differences

/-! ## Segments that block a flush -/

/-- A segment is due and starts before the bytes held, but does not reach them. -/
def IsBlocked (d : TcpDirection) (sequence : UInt32) (payload : List UInt8) : Prop :=
  ∃ start endSequence, d.startSequence = some start ∧ endOf start d.data = .ok endSequence ∧
    isDue endSequence sequence = true ∧ 0x80000000 < sequence - start ∧
      payload.length < (start - sequence).toNat

/-- No segment that is put aside blocks a flush. -/
def IsClear (d : TcpDirection) : Prop :=
  ∀ sequence payload, d.pending[sequence]? = some payload → ¬ d.IsBlocked sequence payload

theorem endOf_eq_ok {start endSequence : UInt32} {data : List UInt8} :
    endOf start data = .ok endSequence ↔
      data.length < 2 ^ 32 ∧ start + .ofNat data.length = endSequence := by
  unfold endOf
  by_cases h : data.length < 2 ^ 32
  · rw [if_pos h]
    exact ⟨fun heq => ⟨h, Except.ok.inj heq⟩, fun heq => congrArg Except.ok heq.2⟩
  · rw [if_neg h]
    exact ⟨fun heq => (nomatch heq), fun heq => absurd heq.1 h⟩

theorem nextDue_eq_some {d : TcpDirection} {sequence : UInt32} {payload : List UInt8}
    (h : d.nextDue = .ok (some (sequence, payload))) :
    ∃ start endSequence, d.startSequence = some start ∧ endOf start d.data = .ok endSequence ∧
      isDue endSequence sequence = true ∧ d.pending[sequence]? = some payload := by
  unfold nextDue at h
  cases hstart : d.startSequence with
  | none => simp [hstart] at h
  | some start =>
    cases hend : endOf start d.data with
    | error e => simp [hstart, hend] at h
    | ok endSequence =>
      simp only [hstart, hend] at h
      have hfind := Except.ok.inj h
      have hdue := List.find?_some hfind
      refine ⟨start, endSequence, rfl, hend, hdue, ?_⟩
      exact ExtTreeMap.mem_toList_iff_getElem?_eq_some.1 (List.mem_of_find?_eq_some hfind)

theorem isDue_iff (endSequence sequence : UInt32) : isDue endSequence sequence = true ↔
    2 ^ 31 < (sequence - endSequence).toNat ∨ (sequence - endSequence).toNat = 0 := by
  rw [← half_lt_iff, ← eq_iff_toNat_sub]
  simp [isDue]

theorem place_of_some {d : TcpDirection} {start endSequence : UInt32}
    (hstart : d.startSequence = some start) (hend : endOf start d.data = .ok endSequence)
    {sequence : UInt32} {payload : List UInt8} (hpayload : payload ≠ []) :
    d.place sequence payload =
      if 0x80000000 < sequence - start then d.placeBefore start sequence payload
      else if sequence - endSequence < 0x80000000 ∧ sequence ≠ endSequence then
        d.putAside sequence payload
      else d.placeWithin start sequence payload := by
  unfold place
  rw [if_neg hpayload, hstart]
  dsimp only
  rw [hend]

/-- A segment that is put aside anew is where it was. -/
theorem putAside_withdraw {d : TcpDirection} {sequence : UInt32} {payload : List UInt8}
    (h : d.pending[sequence]? = some payload) :
    (d.withdraw sequence).putAside sequence payload = .returns (.ok false) d := by
  have hback : (d.pending.erase sequence).insert sequence payload = d.pending := by
    apply ExtTreeMap.ext_getElem?
    intro other
    by_cases hother : sequence = other
    · subst hother
      rw [ExtTreeMap.getElem?_insert_self, h]
    · rw [getElem?_insert_of_ne hother, getElem?_erase_of_ne hother]
  simp [putAside, insertPending, withdraw, hback]

/-- **A flush that comes upon such a segment does not end.** -/
theorem flushPending_of_blocked {d : TcpDirection} {sequence : UInt32} {payload : List UInt8}
    (hdue : d.nextDue = .ok (some (sequence, payload))) (hpayload : payload ≠ [])
    (h : d.IsBlocked sequence payload) (rounds : Nat) : flushPending rounds d = none := by
  induction rounds with
  | zero => rfl
  | succ rounds ih =>
    obtain ⟨start, endSequence, hstart, hend, -, hbefore, hgap⟩ := h
    obtain ⟨-, -, -, -, -, hpending⟩ := nextDue_eq_some hdue
    have hplace : (d.withdraw sequence).place sequence payload = .returns (.ok false) d := by
      rw [place_of_some (d := d.withdraw sequence) hstart hend hpayload, if_pos hbefore]
      unfold placeBefore
      dsimp only
      rw [if_neg (Nat.not_le.2 hgap)]
      exact putAside_withdraw hpending
    unfold flushPending
    rw [hdue]
    dsimp only
    unfold addWith
    rw [hplace]
    exact ih

/-! ## Flushes that end -/

/-- The number of bytes that are put aside. -/
def bytesPending (d : TcpDirection) : Nat := ((valuesOf d.pending).map List.length).sum

theorem bytesPending_withdraw {d : TcpDirection} {sequence : UInt32} {payload : List UInt8}
    (h : d.pending[sequence]? = some payload) :
    d.bytesPending = payload.length + (d.withdraw sequence).bytesPending := by
  unfold bytesPending valuesOf
  rw [((toList_perm_erase h).map (·.2)).map List.length |>.sum_eq]
  rfl

theorem pending_of_withdraw {d : TcpDirection} {sequence other : UInt32} {payload : List UInt8}
    (h : (d.withdraw sequence).pending[other]? = some payload) :
    d.pending[other]? = some payload := by
  unfold withdraw at h
  rw [ExtTreeMap.getElem?_erase] at h
  split at h
  · cases h
  · exact h

theorem size_withdraw {d : TcpDirection} {sequence : UInt32} {payload : List UInt8}
    (h : d.pending[sequence]? = some payload) :
    (d.withdraw sequence).pending.size + 1 = d.pending.size := by
  have hmem : sequence ∈ d.pending := ExtTreeMap.mem_iff_isSome_getElem?.2 (by rw [h]; rfl)
  have hpos := size_pos_of_mem hmem
  unfold withdraw
  rw [ExtTreeMap.size_erase, if_pos (ExtTreeMap.mem_iff_contains.1 hmem)]
  omega

/-- What is held and put aside is no more than half of the sequence space. -/
def IsBounded (d : TcpDirection) : Prop := d.data.length + d.bytesPending ≤ 2 ^ 31

/-- In such a state: a segment that blocks, by its distance from the first byte held. -/
theorem isBlocked_iff {d : TcpDirection} {start : UInt32} (hstart : d.startSequence = some start)
    (hlength : d.data.length ≤ 2 ^ 31) (sequence : UInt32) (payload : List UInt8) :
    d.IsBlocked sequence payload ↔ 2 ^ 31 + d.data.length < (sequence - start).toNat ∧
      (sequence - start).toNat + payload.length < 2 ^ 32 := by
  have hlt : d.data.length < 2 ^ 32 := by omega
  have hdistance := (sequence - start).toNat_lt
  have hdue := isDue_iff (start + .ofNat d.data.length) sequence
  rw [toNat_sub_endOf sequence start hlt] at hdue
  have hgap := toNat_sub_rev sequence start
  constructor
  · intro ⟨start', endSequence, hstart', hend, hdue', hbefore, hgap'⟩
    obtain rfl := Option.some.inj (hstart.symm.trans hstart')
    obtain ⟨-, rfl⟩ := endOf_eq_ok.1 hend
    rw [half_lt_iff] at hbefore
    have hends := hdue.1 hdue'
    omega
  · intro ⟨hfar, hshort⟩
    refine ⟨start, _, hstart, endOf_eq_ok.2 ⟨hlt, rfl⟩, hdue.2 (by omega), ?_, by omega⟩
    rw [half_lt_iff]
    omega

/-- What `place` makes of a segment that `flush_pending` has taken up and that does not block. -/
theorem place_withdraw {d : TcpDirection} {sequence : UInt32} {payload : List UInt8}
    (hdue : d.nextDue = .ok (some (sequence, payload))) (hbounded : d.IsBounded)
    (hclear : d.IsClear) :
    (∃ result, (d.withdraw sequence).place sequence payload
      = .returns result (d.withdraw sequence)) ∨
    ∃ merged previousLen, (d.withdraw sequence).place sequence payload
      = .merges merged previousLen ∧ merged.pending = d.pending.erase sequence ∧
        merged.IsBounded ∧ merged.IsClear := by
  obtain ⟨start, endSequence, hstart, hend, hsegment, hpending⟩ := nextDue_eq_some hdue
  have hunblocked := hclear sequence payload hpending
  have hbytes := bytesPending_withdraw hpending
  have hlength : d.data.length ≤ 2 ^ 31 := Nat.le_trans (Nat.le_add_right _ _) hbounded
  unfold IsBounded at hbounded
  rw [isBlocked_iff hstart hlength] at hunblocked
  obtain ⟨hlt, rfl⟩ := endOf_eq_ok.1 hend
  have hends := (isDue_iff _ sequence).1 hsegment
  rw [toNat_sub_endOf sequence start hlt] at hends
  have hdistance := (sequence - start).toNat_lt
  -- a segment that blocked after the merge would have blocked before
  have hkept {merged : TcpDirection} {start' : UInt32} (hstart' : merged.startSequence = some start')
      (hpending' : merged.pending = d.pending.erase sequence)
      (hmerged : merged.data.length
        = d.data.length + (start - start').toNat ∨ start' = start ∧
          d.data.length ≤ merged.data.length)
      (hlength' : merged.data.length ≤ d.data.length + payload.length) :
      merged.IsBounded ∧ merged.IsClear := by
    have hbounded' : merged.data.length + merged.bytesPending ≤ 2 ^ 31 := by
      have hsame : merged.bytesPending = (d.withdraw sequence).bytesPending := by
        unfold bytesPending
        rw [hpending']
        rfl
      omega
    refine ⟨hbounded', fun other bytes hother => ?_⟩
    rw [hpending'] at hother
    have hnot := hclear other bytes (pending_of_withdraw hother)
    rw [isBlocked_iff hstart hlength] at hnot
    rw [isBlocked_iff hstart' (by omega)]
    have hrebase := toNat_sub_rebase other start start'
    have hdistance' := (other - start).toNat_lt
    rcases hmerged with hmerged | ⟨rfl, hmerged⟩
    · omega
    · omega
  by_cases hempty : payload = []
  · refine Or.inl ⟨.ok false, ?_⟩
    unfold place
    rw [if_pos hempty]
  · rw [place_of_some (d := d.withdraw sequence) hstart hend hempty]
    have hrev := toNat_sub_rev sequence start
    by_cases hbefore : 0x80000000 < sequence - start
    · rw [if_pos hbefore]
      rw [half_lt_iff] at hbefore
      unfold placeBefore
      dsimp only
      rw [if_pos (by omega)]
      split_ifs
      · exact Or.inl ⟨_, rfl⟩
      · refine Or.inr ⟨_, _, rfl, rfl, hkept rfl rfl (Or.inl ?_) ?_⟩
        · rw [List.length_append, List.length_take]
          show _ + d.data.length = _
          omega
        · rw [List.length_append, List.length_take]
          show _ + d.data.length ≤ _
          omega
    · rw [if_neg hbefore]
      rw [half_lt_iff] at hbefore
      have hnot : ¬ (sequence - (start + .ofNat d.data.length) < 0x80000000 ∧
          sequence ≠ start + .ofNat d.data.length) := by
        rw [UInt32.lt_iff_toNat_lt, Ne, eq_iff_toNat_sub, toNat_sub_endOf sequence start hlt]
        show ¬ (_ < 2147483648 ∧ _)
        omega
      rw [if_neg hnot]
      unfold placeWithin
      dsimp only
      split_ifs
      · exact Or.inl ⟨_, rfl⟩
      · refine Or.inr ⟨_, _, rfl, rfl, hkept hstart rfl (Or.inr ⟨rfl, ?_⟩) ?_⟩
        · rw [List.length_append]
          exact Nat.le_add_right _ _
        · rw [List.length_append, List.length_drop]
          show d.data.length + _ ≤ _
          omega
      · refine Or.inr ⟨_, _, rfl, rfl, hkept hstart rfl (Or.inr ⟨rfl, ?_⟩) ?_⟩
        · rw [List.length_append]
          exact Nat.le_add_right _ _
        · rw [List.length_append]
          exact Nat.le_refl _

/-- When a flush is done, nothing is due. -/
theorem nextDue_of_flushPending {rounds : Nat} {d d' : TcpDirection}
    (h : flushPending rounds d = some (.ok (), d')) : d'.nextDue = .ok none := by
  induction rounds generalizing d with
  | zero => cases h
  | succ rounds ih =>
    unfold flushPending at h
    rcases hdue : d.nextDue with e | _ | ⟨sequence, payload⟩
    · rw [hdue] at h
      cases h
    · rw [hdue] at h
      cases h
      exact hdue
    · rw [hdue] at h
      dsimp only at h
      rcases hadd : addWith (flushPending rounds) (d.withdraw sequence) sequence payload
        with _ | ⟨e | _, d₁⟩
      · rw [hadd] at h
        cases h
      · rw [hadd] at h
        cases h
      · rw [hadd] at h
        exact ih h

/-- **Each round leaves one segment less**, so a flush ends if no segment blocks. -/
theorem isSome_flushPending {rounds : Nat} {d : TcpDirection} (hsize : d.pending.size ≤ rounds)
    (hbounded : d.IsBounded) (hclear : d.IsClear) : (flushPending (rounds + 1) d).isSome := by
  induction rounds generalizing d with
  | zero =>
    unfold flushPending
    rcases hdue : d.nextDue with e | _ | ⟨sequence, payload⟩
    · rfl
    · rfl
    · obtain ⟨-, -, -, -, -, hpending⟩ := nextDue_eq_some hdue
      have hless := size_withdraw hpending
      omega
  | succ rounds ih =>
    unfold flushPending
    rcases hdue : d.nextDue with e | _ | ⟨sequence, payload⟩
    · rfl
    · rfl
    · obtain ⟨-, -, -, -, -, hpending⟩ := nextDue_eq_some hdue
      have hless : (d.withdraw sequence).pending.size ≤ rounds := by
        have hone := size_withdraw hpending
        omega
      have hbytes := bytesPending_withdraw hpending
      dsimp only
      rcases place_withdraw hdue hbounded hclear with
        ⟨result, hplace⟩ | ⟨merged, previousLen, hplace, hmerged, hbounded', hclear'⟩
      · unfold addWith
        rw [hplace]
        dsimp only
        cases result with
        | error e => rfl
        | ok grown =>
          refine ih hless ?_ fun other bytes hother => hclear other bytes (pending_of_withdraw hother)
          unfold IsBounded at hbounded ⊢
          show d.data.length + _ ≤ _
          omega
      · obtain ⟨⟨flushed, d'⟩, hflush⟩ :=
          Option.isSome_iff_exists.1 (ih (hmerged ▸ hless) hbounded' hclear')
        unfold addWith
        rw [hplace]
        dsimp only
        rw [hflush]
        cases flushed with
        | error e => rfl
        | ok _ =>
          -- the flush in between has left nothing to do
          have hdone := nextDue_of_flushPending hflush
          dsimp only
          unfold flushPending
          rw [hdone]
          rfl

/-! ## Calls of `add` -/

/-- The bytes held, put aside and offered are no more than half of the sequence space, and if the
segment is taken in, none that is put aside then lies before the bytes held with a gap. -/
structure IsFlushable (d : TcpDirection) (sequence : UInt32) (payload : List UInt8) : Prop where
  bounded : d.data.length + d.bytesPending + payload.length ≤ 2 ^ 31
  clear : ∀ merged previousLen, d.place sequence payload = .merges merged previousLen →
    merged.IsClear

/-- What a segment that is taken in changes: it adds no more than its own bytes. -/
theorem place_eq_merges {d merged : TcpDirection} {sequence : UInt32} {payload : List UInt8}
    {previousLen : Option Nat} (h : d.place sequence payload = .merges merged previousLen) :
    merged.pending = d.pending ∧ merged.data.length ≤ d.data.length + payload.length := by
  have haside : d.putAside sequence payload ≠ .merges merged previousLen := by
    unfold putAside
    cases d.insertPending sequence payload <;> exact nofun
  unfold place at h
  split_ifs at h with hempty
  cases hstart : d.startSequence with
  | none =>
    rw [hstart] at h
    cases h
    exact ⟨rfl, (List.length_append ..).le⟩
  | some start =>
    rw [hstart] at h
    dsimp only at h
    cases hend : endOf start d.data with
    | error e =>
      rw [hend] at h
      cases h
    | ok endSequence =>
      rw [hend] at h
      dsimp only at h
      split_ifs at h
      · unfold placeBefore at h
        dsimp only at h
        split_ifs at h
        · cases h
          refine ⟨rfl, ?_⟩
          rw [List.length_append, List.length_take]
          omega
        · exact absurd h haside
      · exact absurd h haside
      · unfold placeWithin at h
        dsimp only at h
        split_ifs at h
        · cases h
          refine ⟨rfl, ?_⟩
          rw [List.length_append, List.length_drop]
          omega
        · cases h
          exact ⟨rfl, (List.length_append ..).le⟩

/-- **The call returns** if the flush after it is not blocked. -/
theorem returns_of_isFlushable {d : TcpDirection} {sequence : UInt32} {payload : List UInt8}
    (h : d.IsFlushable sequence payload) : d.Returns sequence payload := by
  cases hplace : d.place sequence payload with
  | returns result d' =>
    refine ⟨0, ?_⟩
    unfold add addWith
    rw [hplace]
    rfl
  | merges merged previousLen =>
    obtain ⟨hpending, hlength⟩ := place_eq_merges hplace
    have hbounded : merged.IsBounded := by
      have hbytes : merged.bytesPending = d.bytesPending := by
        unfold bytesPending
        rw [hpending]
      have hall := h.bounded
      unfold IsBounded
      omega
    obtain ⟨⟨flushed, d'⟩, hflush⟩ := Option.isSome_iff_exists.1
      (isSome_flushPending (Nat.le_refl _) hbounded (h.clear merged previousLen hplace))
    refine ⟨merged.pending.size + 1, ?_⟩
    unfold add addWith
    rw [hplace]
    dsimp only
    rw [hflush]
    cases flushed <;> rfl

/-! ## Sequences of calls -/

/-- Each call of `add` returns, whatever the earlier ones have left. -/
def EachReturns : TcpDirection → List (UInt32 × List UInt8) → Prop
  | _, [] => True
  | d, segment :: segments => d.Returns segment.1 segment.2 ∧
      ∀ rounds result d', add rounds d segment.1 segment.2 = some (result, d') →
        d'.EachReturns segments

/-- Each call of `add` meets the condition, in the state in which it is made. -/
def EachFlushable : TcpDirection → List (UInt32 × List UInt8) → Prop
  | _, [] => True
  | d, segment :: segments => d.IsFlushable segment.1 segment.2 ∧
      ∀ rounds result d', add rounds d segment.1 segment.2 = some (result, d') →
        d'.EachFlushable segments

/-- **Every call returns** in a sequence of calls that meet the condition. -/
theorem eachReturns_of_eachFlushable (d : TcpDirection) (segments : List (UInt32 × List UInt8))
    (h : d.EachFlushable segments) : d.EachReturns segments := by
  induction segments generalizing d with
  | nil => trivial
  | cons segment segments ih =>
    refine ⟨returns_of_isFlushable h.1, fun rounds result d' hadd => ?_⟩
    exact ih d' (h.2 rounds result d' hadd)

/-- The state after a call that is known to return. -/
theorem eachFlushable_cons {d d' : TcpDirection} {segment : UInt32 × List UInt8}
    {segments : List (UInt32 × List UInt8)} {rounds : Nat} {result : Except CaptureError Bool}
    (hadd : add rounds d segment.1 segment.2 = some (result, d'))
    (h : d.IsFlushable segment.1 segment.2) (h' : d'.EachFlushable segments) :
    d.EachFlushable (segment :: segments) := by
  refine ⟨h, fun rounds' result' d'' hadd' => ?_⟩
  cases add_unique hadd hadd'
  exact h'

/-- With nothing put aside nothing blocks. -/
theorem isFlushable_of_pending_eq_empty {d : TcpDirection} {sequence : UInt32}
    {payload : List UInt8} (hempty : d.pending = ∅)
    (hbounded : d.data.length + payload.length ≤ 2 ^ 31) : d.IsFlushable sequence payload where
  bounded := by
    have hnone : d.bytesPending = 0 := by
      unfold bytesPending
      rw [hempty]
      rfl
    omega
  clear := by
    intro merged previousLen hplace other bytes hother
    rw [(place_eq_merges hplace).1, hempty, ExtTreeMap.getElem?_empty] at hother
    cases hother

/-- The bytes `abc`, from number 100 on. -/
def abc : TcpDirection where
  startSequence := some 100
  data := [97, 98, 99]

theorem add_abc : add 1 {} 100 [97, 98, 99] = some (.ok true, abc) := by rfl

theorem eachReturns_abcde : EachReturns {} [(100, [97, 98, 99]), (103, [100, 101])] := by
  refine eachReturns_of_eachFlushable {} _ (eachFlushable_cons add_abc ?_ ⟨?_, ?_⟩)
  · exact isFlushable_of_pending_eq_empty rfl (by decide)
  · exact isFlushable_of_pending_eq_empty rfl (by decide)
  · exact fun _ _ _ _ => trivial

/-- One byte far before those held has been put aside. -/
def abcAfterGap : TcpDirection :=
  { abc with pending := (∅ : ExtTreeMap UInt32 (List UInt8)).insert 50 [120] }

theorem add_beforeGap : add 1 abc 50 [120] = some (.ok false, abcAfterGap) := by rfl

/-- The next byte is not taken in: the flush after it does not end. -/
theorem not_eachReturns : ¬ ∀ segments : List (UInt32 × List UInt8), EachReturns {} segments := by
  intro h
  have hall := h [(100, [97, 98, 99]), (50, [120]), (103, [100])]
  obtain ⟨rounds, hsome⟩ := ((hall.2 1 _ _ add_abc).2 1 _ _ add_beforeGap).1
  have hplace : abcAfterGap.place 103 [100]
      = .merges { abcAfterGap with data := [97, 98, 99, 100] } (some 3) := by rfl
  have hdue : ({ abcAfterGap with data := [97, 98, 99, 100] } : TcpDirection).nextDue
      = .ok (some (50, [120])) := by rfl
  have hnone := flushPending_of_blocked hdue (List.cons_ne_nil _ _)
    ⟨100, 104, rfl, rfl, by decide, by decide, by decide⟩ rounds
  unfold add addWith at hsome
  rw [hplace] at hsome
  dsimp only at hsome
  rw [hnone] at hsome
  cases hsome

end TcpDirection

end Superiority.Sweep
