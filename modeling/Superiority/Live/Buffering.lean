import Superiority.Library.Run
import Superiority.Live.Batcher

/-!
# What a batcher does to the events it is given

A `Buffering` is a batcher with its caller: the events pushed so far, the batches the caller keeps,
and what `push` has thrown out. The last batch may be restored until another one is taken.

Main results:

* **`conserves_order`** – the batches kept and then the events pending are the events pushed, in
  order, without those that were thrown out;
* **`takes_whole_iff`** – a take never splits a reconciliation exactly when, of the groups that
  begin among the first events it looks at, none but the oldest crosses the end of them.
-/

namespace Superiority

/-- A batcher and its caller. -/
structure Buffering where
  batcher : Batcher := {}
  pushed : List EventDto := []
  kept : List (List EventDto) := []
  restorable : Bool := false
  evicted : List EventDto := []
  dropped : Nat := 0
  deriving DecidableEq

namespace Buffering

/-- The calls of the worker. -/
inductive Call where
  | push (event : EventDto) (now : Nat)
  | takeBatch (now takenAt : Nat)
  | takeNow (takenAt : Nat)
  | discardBatch (takenAt : Nat)
  | restore (now : Nat)
  deriving DecidableEq

/-- The caller keeps a batch it was given. -/
def keep (s : Buffering) (taken : List EventDto × Batcher) : Buffering :=
  { s with
    batcher := taken.2
    kept := s.kept ++ [taken.1]
    restorable := true }

/-- The event has been pushed. `push` says how many events it has thrown out: they are the oldest
pending. -/
def noted (s : Buffering) (event : EventDto) (result : Nat × Batcher) : Buffering :=
  { s with
    batcher := result.2
    pushed := s.pushed ++ [event]
    evicted := s.evicted ++ s.batcher.pending.take result.1
    dropped := s.dropped + result.1 }

/-- One call. -/
def call (s : Buffering) : Call → Buffering
  | .push event now => s.noted event (s.batcher.push event now)
  | .takeBatch now takenAt => (s.batcher.takeBatch now takenAt).elim s s.keep
  | .takeNow takenAt => s.keep (s.batcher.takeNow takenAt)
  | .discardBatch takenAt => s.keep (s.batcher.discardBatch takenAt)
  | .restore now =>
    match s.restorable, s.kept.getLast? with
    | true, some batch => { s with
        batcher := s.batcher.restore batch now
        kept := s.kept.dropLast
        restorable := false }
    | _, _ => s

/-- The batches kept and then what is pending. -/
def held (s : Buffering) : List EventDto := s.kept.flatten ++ s.batcher.pending

/-! ## Order -/

/-- `first_buffered` is set exactly while something is pending. -/
def Timed (b : Batcher) : Prop := b.firstBuffered.isSome ↔ b.pending ≠ []

/-- What is held is what was pushed, in order, without what was thrown out. -/
structure Conserves (s : Buffering) : Prop where
  order : s.held.Sublist s.pushed
  missing : (s.held ++ s.evicted).Perm s.pushed
  counted : s.evicted.length = s.dropped
  timed : Timed s.batcher

theorem timed_push {b : Batcher} (h : Timed b) (event : EventDto) (now : Nat) :
    Timed (b.push event now).2 := by
  unfold Timed Batcher.push
  dsimp only
  split_ifs with hempty
  · simp
  · have hne : b.pending ≠ [] := fun hnil => hempty (by simp [hnil])
    simp [h.2 hne]

theorem timed_takeCount (b : Batcher) (count takenAt : Nat) : Timed (b.takeCount count takenAt).2 := by
  unfold Timed Batcher.takeCount
  dsimp only
  split_ifs with hempty <;> simp [hempty]

theorem timed_takeBatch {b : Batcher} {now takenAt : Nat} {taken : List EventDto × Batcher}
    (h : b.takeBatch now takenAt = some taken) : Timed taken.2 := by
  unfold Batcher.takeBatch at h
  dsimp only at h
  split_ifs at h
  obtain ⟨count, -, rfl⟩ := Option.map_eq_some_iff.1 h
  exact timed_takeCount b count takenAt

theorem timed_restore {b : Batcher} (h : Timed b) (batch : List EventDto) (now : Nat) :
    Timed (b.restore batch now) := by
  unfold Timed Batcher.restore
  dsimp only
  by_cases hpending : b.pending = []
  · have hnone : b.firstBuffered = none := by
      have hsome := mt h.1 (by simp [hpending])
      simpa using hsome
    by_cases hbatch : batch = []
    · simp [hnone, hpending, hbatch]
    · simp [hnone, hpending, hbatch]
  · have hsome := h.2 hpending
    have hne : b.firstBuffered ≠ none := by
      intro hnone
      simp [hnone] at hsome
    simp [hne, hsome, hpending]

/-- What moves between the batches and the buffer without changing the order is conserved. -/
theorem Conserves.of_held {s s' : Buffering} (h : Conserves s) (hheld : s'.held = s.held)
    (hpushed : s'.pushed = s.pushed) (hevicted : s'.evicted = s.evicted)
    (hdropped : s'.dropped = s.dropped) (htimed : Timed s'.batcher) : Conserves s' where
  order := by rw [hheld, hpushed]; exact h.order
  missing := by rw [hheld, hpushed, hevicted]; exact h.missing
  counted := by rw [hevicted, hdropped]; exact h.counted
  timed := htimed

theorem conserves_keep {s : Buffering} (h : Conserves s) {taken : List EventDto × Batcher}
    (hsplit : taken.1 ++ taken.2.pending = s.batcher.pending) (htimed : Timed taken.2) :
    Conserves (s.keep taken) :=
  h.of_held (by simp [held, keep, ← hsplit]) rfl rfl rfl htimed

theorem conserves_noted {s : Buffering} (h : Conserves s) {event : EventDto} {result : Nat × Batcher}
    (hpending : result.2.pending = s.batcher.pending.drop result.1 ++ [event])
    (hlength : (s.batcher.pending.take result.1).length = result.1) (htimed : Timed result.2) :
    Conserves (s.noted event result) where
  order := by
    simp only [held, noted, hpending]
    rw [← List.append_assoc]
    refine List.Sublist.append (List.Sublist.trans ?_ h.order) (List.Sublist.refl _)
    exact List.Sublist.append (List.Sublist.refl _) (List.drop_sublist _ _)
  missing := by
    have hmissing := h.missing
    rw [held, ← List.take_append_drop result.1 s.batcher.pending] at hmissing
    simp only [held, noted, hpending]
    refine List.Perm.trans ?_ (hmissing.append_right [event])
    rw [List.perm_iff_count]
    intro e
    simp only [List.count_append]
    omega
  counted := by
    simp only [noted]
    rw [List.length_append, hlength, h.counted]
  timed := htimed

/-- Every call conserves. -/
theorem conserves_call {s : Buffering} (h : Conserves s) (c : Call) : Conserves (s.call c) := by
  cases c with
  | push event now =>
    exact conserves_noted h (s.batcher.pending_push event now)
      (s.batcher.length_take_push event now) (timed_push h.timed event now)
  | takeBatch now takenAt =>
    rw [call]
    cases htaken : s.batcher.takeBatch now takenAt with
    | none => exact h
    | some taken =>
      exact conserves_keep h (Batcher.takeBatch_pending htaken) (timed_takeBatch htaken)
  | takeNow takenAt =>
    exact conserves_keep h (s.batcher.takeNow_pending takenAt) (timed_takeCount _ _ _)
  | discardBatch takenAt =>
    exact conserves_keep h (s.batcher.discardBatch_pending takenAt) (timed_takeCount _ _ _)
  | restore now =>
    rw [call]
    split
    · rename_i batch hrestorable hlast
      refine h.of_held ?_ rfl rfl rfl (timed_restore h.timed batch now)
      have hkept := List.dropLast_append_getLast? batch hlast
      rw [held, held, Batcher.restore_pending]
      conv_rhs => rw [← hkept]
      simp
    · exact h

/-- **Batches conserve order.** After any calls, the batches the caller keeps and then the events
pending are the events pushed, in push order and each once, without those that `push` has thrown
out; these are as many as it said, and each time they are the oldest pending; and the buffer is
timed exactly while something is pending. -/
theorem conserves_order (calls : List Call) :
    let s := run call {} calls
    (s.kept.flatten ++ s.batcher.pending).Sublist s.pushed ∧
      ((s.kept.flatten ++ s.batcher.pending) ++ s.evicted).Perm s.pushed ∧
      s.evicted.length = s.dropped ∧
      (s.batcher.firstBuffered.isSome ↔ s.batcher.pending ≠ []) ∧
      ∀ event now, s.batcher.pending.take (s.batcher.push event now).1 ++
          (s.batcher.push event now).2.pending = s.batcher.pending ++ [event] ∧
        (s.batcher.pending.take (s.batcher.push event now).1).length =
          (s.batcher.push event now).1 := by
  have h : Conserves (run call {} calls) := by
    refine run_invariant' (I := Conserves) (fun s c hs => conserves_call hs c) ?_ calls
    exact ⟨List.Sublist.refl _, List.Perm.refl _, rfl, by simp [Timed]⟩
  exact ⟨h.order, h.missing, h.counted, h.timed, fun event now =>
    ⟨Batcher.push_pending _ event now, Batcher.length_take_push _ event now⟩⟩

/-! ## Reconciliations -/

/-- Inside a reconciliation of so many events, or outside of one. -/
abbrev Grouping := Option Nat

/-- One more event. A reconciliation ends before the next one begins, and with its end it has at
most `maxBatchEvents` events. -/
def follow (g : Grouping) (event : EventDto) : Option Grouping :=
  match event.kind, g with
  | .syncStarted, none => some (some 1)
  | .syncStarted, some _ => none
  | .sessionSynced, _ => some none
  | _, none => some none
  | _, some size => if size + 1 < maxBatchEvents then some (some (size + 1)) else none

/-- Where a list of events leads to; nothing when its reconciliations are not as they should be. -/
def groups (g : Grouping) (events : List EventDto) : Option Grouping := events.foldlM follow g

/-- Every reconciliation that begins in the batch also ends in it. -/
def EndsInside (batch : List EventDto) : Prop :=
  ∀ before start after, batch = before ++ start :: after → start.kind = .syncStarted →
    ∃ e ∈ after, e.kind = .sessionSynced

/-- The batch is whole: no reconciliation is open where it starts, and each one that begins in it
also ends in it. -/
structure Whole (s : Buffering) (batch : List EventDto) : Prop where
  starts : groups none s.kept.flatten = some none
  ends : EndsInside batch

/-- The oldest reconciliation among the events is there with its end. -/
def OldestComplete (events : List EventDto) : Prop :=
  ∃ start, events.findIdx? (·.kind = .syncStarted) = some start ∧
    ∃ e ∈ events.drop start, e.kind = .sessionSynced

/-- A take hands out a whole batch; and one that is due while the oldest reconciliation is
complete hands out something. -/
def TakesWhole (s : Buffering) : Call → Prop
  | .takeBatch now takenAt =>
    (∀ taken, s.batcher.takeBatch now takenAt = some taken → Whole s taken.1) ∧
      (OldestComplete s.batcher.pending →
        ∃ taken, s.batcher.takeBatch now takenAt = some taken ∧ taken.1 ≠ [])
  | .takeNow takenAt => Whole s (s.batcher.takeNow takenAt).1
  | _ => True

/-- The events a take looks at. -/
def window (b : Batcher) : List EventDto := b.pending.take (min b.pending.length maxBatchEvents)

/-- When the oldest reconciliation among the first events ends among them, none is open where
they end. -/
def Fits (b : Batcher) : Prop := OldestComplete (window b) → groups none (window b) = some none

/-- Takes from a buffer whose first events fit. -/
def TakesFitting (s : Buffering) : Call → Prop
  | .takeBatch now takenAt => (s.batcher.takeBatch now takenAt).isSome → Fits s.batcher
  | .takeNow _ => Fits s.batcher
  | _ => True

/-- The events pushed are grouped as they should be, and the buffer is never full. -/
def Admits (s : Buffering) : Call → Prop
  | .push event _ =>
    (groups none (s.pushed ++ [event])).isSome ∧ s.batcher.pending.length < maxPendingEvents
  | .discardBatch _ => False
  | _ => True

theorem groups_append (g : Grouping) (events events' : List EventDto) :
    groups g (events ++ events') = (groups g events).bind fun g => groups g events' := by
  simp [groups]

/-- What one event can do to the grouping. -/
theorem follow_cases {g g' : Grouping} {event : EventDto} (h : follow g event = some g') :
    (event.kind = .syncStarted ∧ g = none ∧ g' = some 1) ∨
      (event.kind = .sessionSynced ∧ g' = none) ∨
      (event.kind ≠ .syncStarted ∧ event.kind ≠ .sessionSynced ∧
        (g = none ∧ g' = none ∨
          ∃ size, g = some size ∧ size + 1 < maxBatchEvents ∧ g' = some (size + 1))) := by
  unfold follow at h
  split at h
  · rename_i hkind
    exact Or.inl ⟨hkind, rfl, (Option.some.inj h).symm⟩
  · cases h
  · rename_i hkind
    exact Or.inr (Or.inl ⟨hkind, (Option.some.inj h).symm⟩)
  · rename_i hstart hsynced
    refine Or.inr (Or.inr ⟨hstart, hsynced, Or.inl ⟨rfl, ?_⟩⟩)
    exact (Option.some.inj h).symm
  · rename_i size hstart hsynced
    split_ifs at h with hsize
    exact Or.inr (Or.inr ⟨hstart, hsynced,
      Or.inr ⟨size, rfl, hsize, (Option.some.inj h).symm⟩⟩)

theorem groups_cons {g g' : Grouping} {event : EventDto} {events : List EventDto}
    (h : groups g (event :: events) = some g') :
    ∃ next, follow g event = some next ∧ groups next events = some g' := by
  rw [groups, List.foldlM_cons] at h
  exact Option.bind_eq_some_iff.1 h

theorem endsInside_cons {event : EventDto} {events : List EventDto} :
    EndsInside (event :: events) ↔
      (event.kind = .syncStarted → ∃ e ∈ events, e.kind = .sessionSynced) ∧ EndsInside events := by
  constructor
  · intro h
    refine ⟨h [] event events rfl, fun before start after heq hstart => ?_⟩
    exact h (event :: before) start after (by rw [heq, List.cons_append]) hstart
  · rintro ⟨hfirst, hrest⟩ before start after heq hstart
    cases before with
    | nil =>
      obtain ⟨rfl, rfl⟩ := List.cons.inj heq
      exact hfirst hstart
    | cons first before => exact hrest before start after (List.cons.inj heq).2 hstart

/-- What begins in the batch ends in it, and what it finds open too, exactly when the batch leaves
nothing open. -/
theorem endsInside_iff {g g' : Grouping} {batch : List EventDto} (h : groups g batch = some g') :
    g' = none ↔ EndsInside batch ∧ (g ≠ none → ∃ e ∈ batch, e.kind = .sessionSynced) := by
  induction batch generalizing g with
  | nil =>
    have hends : EndsInside [] := fun before start after heq => by simp at heq
    have heq : g = g' := Option.some.inj h
    simp [hends, heq]
  | cons event batch ih =>
    obtain ⟨next, hnext, hrest⟩ := groups_cons h
    rw [ih hrest, endsInside_cons]
    simp only [List.mem_cons, exists_eq_or_imp]
    rcases follow_cases hnext with ⟨hkind, rfl, rfl⟩ | ⟨hkind, rfl⟩ |
      ⟨hstart, hsynced, ⟨rfl, rfl⟩ | ⟨size, rfl, -, rfl⟩⟩
    · simp only [hkind]
      simp
      tauto
    · simp [hkind]
    · simp [hstart]
    · simp [hstart, hsynced]

/-- A reconciliation that has not ended is still open, and not too long. -/
theorem groups_open {size : Nat} {g' : Grouping} {events : List EventDto}
    (h : groups (some size) events = some g') (hopen : ∀ e ∈ events, e.kind ≠ .sessionSynced)
    (hsize : size < maxBatchEvents) : size + events.length < maxBatchEvents := by
  induction events generalizing size with
  | nil => exact hsize
  | cons event events ih =>
    obtain ⟨next, hnext, hrest⟩ := groups_cons h
    have hrestopen := fun e he => hopen e (List.mem_cons_of_mem event he)
    rcases follow_cases hnext with ⟨-, hnone, -⟩ | ⟨hkind, -⟩ |
      ⟨-, -, ⟨hnone, -⟩ | ⟨size', hsome, hlt, rfl⟩⟩
    · cases hnone
    · exact absurd hkind (hopen event List.mem_cons_self)
    · cases hnone
    · obtain rfl := Option.some.inj hsome
      have hlength := ih hrest hrestopen hlt
      rw [List.length_cons]
      omega

/-! ## How many events are ready -/

theorem any_findIdx?_lt {α : Type} (p : α → Bool) (items : List α) (count : Nat) :
    (items.findIdx? p).any (· < count) = true ↔ ∃ item ∈ items.take count, p item = true := by
  induction items generalizing count with
  | nil => simp
  | cons item items ih =>
    cases count with
    | zero => simp
    | succ count =>
      rw [List.findIdx?_cons, List.take_succ_cons]
      by_cases hitem : p item = true
      · simp [hitem]
      · simp only [hitem, Bool.false_eq_true, if_false, Option.any_map, List.mem_cons,
          exists_eq_or_imp, false_or, ← ih count]
        simp

/-- What is ready: all of the first events, unless their oldest reconciliation does not end among
them; then what is before it. -/
theorem readyCount_cases (b : Batcher) :
    ((window b).findIdx? (·.kind = .syncStarted) = none ∧
        b.readyCount = if window b = [] then none else some (window b).length) ∨
      (OldestComplete (window b) ∧ b.readyCount = some (window b).length) ∨
      ∃ start, (window b).findIdx? (·.kind = .syncStarted) = some start ∧
        (∀ e ∈ (window b).drop start, e.kind ≠ .sessionSynced) ∧
        b.readyCount = if start = 0 then none else some start := by
  have hlimit : (window b).length = min b.pending.length maxBatchEvents := by
    rw [window, List.length_take]
    omega
  have hempty : window b = [] ↔ ¬ min b.pending.length maxBatchEvents > 0 := by
    rw [← List.length_eq_zero_iff, hlimit]
    omega
  unfold Batcher.readyCount
  dsimp only
  rw [← hlimit] at hempty ⊢
  have hwindow : b.pending.take (window b).length = window b := by
    rw [hlimit, window]
  rw [hwindow]
  cases hstart : (window b).findIdx? (·.kind = .syncStarted) with
  | none =>
    refine Or.inl ⟨rfl, ?_⟩
    by_cases hnil : window b = []
    · simp [hnil]
    · rw [if_neg hnil]
      dsimp only
      rw [if_pos (List.length_pos_iff.2 hnil)]
  | some start =>
    refine Or.inr ?_
    have hend : (((b.pending.drop start).findIdx? (·.kind = .sessionSynced)).map
        (start + ·)).any (· < (window b).length) = true ↔
          ∃ e ∈ (window b).drop start, e.kind = .sessionSynced := by
      rw [Option.any_map]
      have hshift : (fun offset => decide (offset < (window b).length - start)) =
          fun offset => decide (start + offset < (window b).length) := by
        funext offset
        rw [decide_eq_decide]
        omega
      rw [← hshift, any_findIdx?_lt, ← List.drop_take, hwindow]
      simp
    by_cases hcomplete : ∃ e ∈ (window b).drop start, e.kind = .sessionSynced
    · refine Or.inl ⟨⟨start, hstart, hcomplete⟩, ?_⟩
      dsimp only
      rw [if_pos (hend.2 hcomplete)]
    · refine Or.inr ⟨start, rfl, by simpa using hcomplete, ?_⟩
      dsimp only
      rw [if_neg (mt hend.1 hcomplete)]
      by_cases hzero : start = 0
      · simp [hzero]
      · rw [if_pos (Nat.pos_of_ne_zero hzero), if_neg hzero]

theorem groups_take {g : Grouping} {events : List EventDto} (h : (groups g events).isSome)
    (count : Nat) : ∃ g', groups g (events.take count) = some g' := by
  rw [← List.take_append_drop count events, groups_append] at h
  cases htake : groups g (events.take count) with
  | none => simp [htake] at h
  | some g' => exact ⟨g', rfl⟩

theorem endsInside_of_findIdx?_none {events : List EventDto}
    (h : events.findIdx? (·.kind = .syncStarted) = none) : EndsInside events := by
  rw [List.findIdx?_eq_none_iff] at h
  intro before start after heq hstart
  have hmem : start ∈ events := by simp [heq]
  have hnot := h start hmem
  simp [hstart] at hnot

/-- What is ready is whole exactly when the first events fit. -/
theorem endsInside_ready {b : Batcher} (h : (groups none b.pending).isSome) :
    EndsInside (b.pending.take (b.readyCount.getD 0)) ↔ Fits b := by
  have hwindow : b.pending.take (window b).length = window b := by
    rw [window, List.length_take]
    congr 1
    omega
  obtain ⟨g, hg⟩ := groups_take h (min b.pending.length maxBatchEvents)
  rcases readyCount_cases b with ⟨hnone, hready⟩ | ⟨hcomplete, hready⟩ | ⟨start, hstart, hopen, hready⟩
  · have hfits : Fits b := by
      rintro ⟨start, hstart, -⟩
      rw [hnone] at hstart
      cases hstart
    have hends : EndsInside (b.pending.take (b.readyCount.getD 0)) := by
      rw [hready]
      split_ifs with hempty
      · intro before start after heq
        simp at heq
      · rw [Option.getD_some, hwindow]
        exact endsInside_of_findIdx?_none hnone
    exact iff_of_true hends hfits
  · have hiff := endsInside_iff hg
    rw [hready, Option.getD_some, hwindow]
    constructor
    · intro hends _
      rw [window, hg, hiff.2 ⟨hends, fun hne => absurd rfl hne⟩]
    · intro hfits
      have hclosed := hfits hcomplete
      rw [window, hg] at hclosed
      exact (hiff.1 (Option.some.inj hclosed)).1
  · have hfits : Fits b := by
      rintro ⟨start', hstart', e, he, hkind⟩
      rw [hstart] at hstart'
      obtain rfl := Option.some.inj hstart'
      exact absurd hkind (hopen e he)
    have htake : b.pending.take (b.readyCount.getD 0) = (window b).take start := by
      have hle : start ≤ (window b).length := (List.findIdx?_eq_some_iff_getElem.1 hstart).1.le
      rw [hready]
      by_cases hzero : start = 0
      · simp [hzero]
      · rw [if_neg hzero, Option.getD_some, ← hwindow, List.take_take, Nat.min_eq_left hle]
    have hends : EndsInside ((window b).take start) := by
      apply endsInside_of_findIdx?_none
      rw [List.findIdx?_eq_none_iff]
      intro e he
      obtain ⟨i, hi, rfl⟩ := List.mem_iff_getElem.1 he
      rw [List.length_take] at hi
      obtain ⟨hlt, -, hfirst⟩ := List.findIdx?_eq_some_iff_getElem.1 hstart
      have hnot := hfirst i (by omega)
      rw [List.getElem_take]
      simpa using hnot
    rw [htake]
    exact iff_of_true hends hfits

/-- A complete reconciliation is short enough to be found, so something is ready. -/
theorem ready_of_oldestComplete {b : Batcher} (h : (groups none b.pending).isSome)
    (hcomplete : OldestComplete b.pending) : ∃ count, 0 < count ∧ b.readyCount = some count := by
  obtain ⟨first, hfirst, e, he, hkind⟩ := hcomplete
  have hpending : 0 < b.pending.length := by
    obtain ⟨hlt, -⟩ := List.findIdx?_eq_some_iff_getElem.1 hfirst
    omega
  have hlength : (window b).length = min b.pending.length maxBatchEvents := by
    rw [window, List.length_take]
    omega
  have hmax : 0 < maxBatchEvents := by decide
  have hne : window b ≠ [] := by
    rw [← List.length_pos_iff, hlength]
    omega
  rcases readyCount_cases b with ⟨-, hready⟩ | ⟨-, hready⟩ | ⟨start, hstart, hopen, hready⟩
  · rw [if_neg hne] at hready
    exact ⟨_, List.length_pos_iff.2 hne, hready⟩
  · exact ⟨_, List.length_pos_iff.2 hne, hready⟩
  · by_cases hzero : start = 0
    · -- The oldest reconciliation begins the buffer and is open throughout the first events.
      exfalso
      subst hzero
      rw [List.drop_zero] at hopen
      obtain ⟨_, hkindstart, -⟩ := List.findIdx?_eq_some_iff_getElem.1 hstart
      cases hb : b.pending with
      | nil => simp [hb] at hpending
      | cons event events =>
        have hevent : event.kind = .syncStarted := by simpa [window, hb] using hkindstart
        have hlong : maxBatchEvents ≤ events.length := by
          by_contra hshort
          have hall : window b = b.pending := by
            rw [window, hb, List.length_cons, Nat.min_eq_left (by omega), ← List.length_cons,
              List.take_length]
          exact hopen e (hall ▸ List.mem_of_mem_drop he) hkind
        rw [hb] at h
        obtain ⟨g, hg⟩ := groups_take h maxBatchEvents
        obtain ⟨size, hsize⟩ : ∃ size, maxBatchEvents = size + 1 := ⟨maxBatchEvents - 1, by omega⟩
        have hwindow : window b = event :: events.take size := by
          rw [window, hb, List.length_cons, Nat.min_eq_right (by omega), hsize,
            List.take_succ_cons]
        rw [hsize, List.take_succ_cons] at hg
        obtain ⟨next, hnext, hrest⟩ := groups_cons hg
        rcases follow_cases hnext with ⟨-, -, rfl⟩ | ⟨hsynced, -⟩ | ⟨hnot, -⟩
        · have hshort := groups_open hrest
            (fun e he => hopen e (by rw [hwindow]; exact List.mem_cons_of_mem event he)) (by decide)
          rw [List.length_take, Nat.min_eq_left (by omega)] at hshort
          omega
        · rw [hevent] at hsynced
          cases hsynced
        · exact hnot hevent
    · rw [if_neg hzero] at hready
      exact ⟨start, Nat.pos_of_ne_zero hzero, hready⟩

/-! ## Runs -/

/-- The batches kept are whole, and what is pending follows them in what was pushed. -/
structure Grouped (s : Buffering) : Prop where
  stream : s.held = s.pushed
  grouped : (groups none s.pushed).isSome
  whole : ∀ batch ∈ s.kept, groups none batch = some none

theorem groups_flatten {batches : List (List EventDto)}
    (h : ∀ batch ∈ batches, groups none batch = some none) :
    groups none batches.flatten = some none := by
  induction batches with
  | nil => rfl
  | cons batch batches ih =>
    rw [List.flatten_cons, groups_append, h batch List.mem_cons_self, Option.bind_some]
    exact ih fun other hother => h other (List.mem_cons_of_mem batch hother)

theorem Grouped.pending {s : Buffering} (h : Grouped s) :
    (groups none s.batcher.pending).isSome := by
  have hgrouped := h.grouped
  rwa [← h.stream, held, groups_append, groups_flatten h.whole, Option.bind_some] at hgrouped

theorem Grouped.whole_iff {s : Buffering} (h : Grouped s) (batch : List EventDto) :
    Whole s batch ↔ EndsInside batch :=
  ⟨fun hwhole => hwhole.ends, fun hends => ⟨groups_flatten h.whole, hends⟩⟩

/-- A batch that is due consists of what is ready. -/
theorem takeBatch_taken {b : Batcher} {now takenAt : Nat} {taken : List EventDto × Batcher}
    (h : b.takeBatch now takenAt = some taken) :
    taken = b.takeCount (b.readyCount.getD 0) takenAt := by
  unfold Batcher.takeBatch at h
  dsimp only at h
  split_ifs at h
  obtain ⟨count, hready, rfl⟩ := Option.map_eq_some_iff.1 h
  rw [hready, Option.getD_some]

theorem takeBatch_of_oldestComplete {b : Batcher} (h : (groups none b.pending).isSome)
    (hcomplete : OldestComplete b.pending) (now takenAt : Nat) :
    ∃ taken, b.takeBatch now takenAt = some taken ∧ taken.1 ≠ [] := by
  obtain ⟨count, hcount, hready⟩ := ready_of_oldestComplete h hcomplete
  obtain ⟨start, hstart, e, he, hkind⟩ := hcomplete
  have hmem : e ∈ b.pending := List.mem_of_mem_drop he
  have hsynced : b.pending.any (·.kind = .sessionSynced) = true :=
    List.any_eq_true.2 ⟨e, hmem, by simp [hkind]⟩
  refine ⟨b.takeCount count takenAt, ?_, ?_⟩
  · simp [Batcher.takeBatch, hsynced, hready]
  · intro hempty
    have hlength := congrArg List.length hempty
    have hpos := List.length_pos_of_mem hmem
    simp only [Batcher.takeCount, List.length_take, List.length_nil] at hlength
    omega

theorem takesWhole_iff {s : Buffering} (h : Grouped s) (c : Call) :
    TakesWhole s c ↔ TakesFitting s c := by
  cases c with
  | takeBatch now takenAt =>
    have hdue := fun hcomplete => takeBatch_of_oldestComplete h.pending hcomplete now takenAt
    constructor
    · rintro ⟨hwhole, -⟩ hsome
      obtain ⟨taken, htaken⟩ := Option.isSome_iff_exists.1 hsome
      have hends := (h.whole_iff _).1 (hwhole taken htaken)
      rw [takeBatch_taken htaken] at hends
      exact (endsInside_ready h.pending).1 hends
    · intro hfits
      refine ⟨fun taken htaken => ?_, hdue⟩
      rw [h.whole_iff, takeBatch_taken htaken]
      exact (endsInside_ready h.pending).2 (hfits (by simp [htaken]))
  | takeNow takenAt =>
    show Whole s _ ↔ Fits s.batcher
    rw [h.whole_iff]
    exact endsInside_ready h.pending
  | push _ _ => exact Iff.rfl
  | discardBatch _ => exact Iff.rfl
  | restore _ => exact Iff.rfl

/-- Keeping a batch that is whole. -/
theorem grouped_keep {s : Buffering} (h : Grouped s) {taken : List EventDto × Batcher}
    (hsplit : taken.1 ++ taken.2.pending = s.batcher.pending) (hends : EndsInside taken.1) :
    Grouped (s.keep taken) where
  stream := by
    have hheld : (s.keep taken).held = s.held := by simp [held, keep, ← hsplit]
    exact hheld.trans h.stream
  grouped := h.grouped
  whole batch hbatch := by
    rcases List.mem_append.1 hbatch with hbatch | hbatch
    · exact h.whole batch hbatch
    · rw [List.mem_singleton.1 hbatch]
      have hpending := h.pending
      rw [← hsplit] at hpending
      obtain ⟨g, hg⟩ := groups_take hpending taken.1.length
      rw [List.take_left] at hg
      rw [hg, (endsInside_iff hg).2 ⟨hends, fun hne => absurd rfl hne⟩]

theorem grouped_noted {s : Buffering} (h : Grouped s) {event : EventDto} {result : Nat × Batcher}
    (hpending : result.2.pending = s.batcher.pending ++ [event])
    (hgrouped : (groups none (s.pushed ++ [event])).isSome) : Grouped (s.noted event result) where
  stream := by
    simp only [held, noted, hpending]
    rw [← List.append_assoc, ← held, h.stream]
  grouped := hgrouped
  whole := h.whole

theorem grouped_call {s : Buffering} (h : Grouped s) {c : Call} (hadmits : Admits s c)
    (hfits : TakesFitting s c) : Grouped (s.call c) := by
  have hwhole := (takesWhole_iff h c).2 hfits
  cases c with
  | push event now =>
    refine grouped_noted h ?_ hadmits.1
    have hnone : (s.batcher.push event now).1 = 0 := by
      have hroom := hadmits.2
      simp only [Batcher.push]
      omega
    rw [s.batcher.pending_push, hnone, List.drop_zero]
  | takeBatch now takenAt =>
    rw [call]
    cases htaken : s.batcher.takeBatch now takenAt with
    | none => exact h
    | some taken =>
      exact grouped_keep h (Batcher.takeBatch_pending htaken) (hwhole.1 taken htaken).ends
  | takeNow takenAt =>
    exact grouped_keep h (s.batcher.takeNow_pending takenAt) hwhole.ends
  | discardBatch takenAt => exact hadmits.elim
  | restore now =>
    rw [call]
    split
    · rename_i batch hrestorable hlast
      refine ⟨?_, h.grouped, fun other hother => h.whole other (List.dropLast_subset _ hother)⟩
      rw [← h.stream, held, held, Batcher.restore_pending]
      conv_rhs => rw [← List.dropLast_append_getLast? batch hlast]
      simp
    · exact h

/-- **When a take splits a reconciliation.** In every run that pushes well-formed reconciliations
into a buffer that is never full, all takes are whole exactly when at each of them the first
events fit: if the oldest reconciliation among them ends among them, no other one is open where
they end. A take that is due while the oldest reconciliation is complete always hands out
something. -/
theorem takes_whole_iff (calls : List Call) (hadmits : StepsMeet call Admits {} calls) :
    StepsMeet call TakesWhole {} calls ↔ StepsMeet call TakesFitting {} calls := by
  refine stepsMeet_congr (I := Grouped) (fun s c hs _ => takesWhole_iff hs c)
    (fun s c hs hc hfits => grouped_call hs hc hfits) ?_ hadmits
  exact ⟨rfl, rfl, fun batch hbatch => by simp at hbatch⟩

instance decidableAdmits (s : Buffering) : (c : Call) → Decidable (Admits s c)
  | .push event _ => inferInstanceAs (Decidable
      ((groups none (s.pushed ++ [event])).isSome ∧ s.batcher.pending.length < maxPendingEvents))
  | .takeBatch _ _ => .isTrue trivial
  | .takeNow _ => .isTrue trivial
  | .discardBatch _ => .isFalse id
  | .restore _ => .isTrue trivial

/-- A reconciliation and 61 heartbeats. -/
def crowd : List EventDto :=
  [⟨0, 0, .syncStarted⟩, ⟨0, 0, .sessionSynced⟩] ++ List.replicate 61 ⟨0, 0, .heartbeat⟩

/-- Another reconciliation begins as the 64th event. -/
def crowdedRun : List Call :=
  (crowd ++ ([⟨0, 0, .syncStarted⟩, ⟨0, 0, .sessionSynced⟩] : List EventDto)).map (.push · 0)

theorem takes_whole_crowdedRun :
    StepsMeet call TakesWhole {} (crowdedRun ++ [.takeBatch 0 0]) ↔
      StepsMeet call TakesFitting {} (crowdedRun ++ [.takeBatch 0 0]) :=
  takes_whole_iff (crowdedRun ++ [.takeBatch 0 0]) (by decide +kernel)

/-- The first 64 events go out, with the beginning of the second reconciliation and not its end. -/
theorem crowdedRun_splits : ¬ ∀ calls, StepsMeet call Admits {} calls →
    StepsMeet call TakesWhole {} calls := by
  intro h
  have hmeets := h (crowdedRun ++ [.takeBatch 0 0]) (by decide +kernel)
  have hlast := (stepsMeet_append.1 hmeets).2.1.1
  have htaken : (run call {} crowdedRun).batcher.takeBatch 0 0 =
      some (crowd ++ [⟨0, 0, .syncStarted⟩], ⟨[⟨0, 0, .sessionSynced⟩], some 0⟩) := by
    decide +kernel
  obtain ⟨e, he, -⟩ := (hlast _ htaken).ends crowd _ [] rfl rfl
  exact absurd he List.not_mem_nil

end Buffering

end Superiority
