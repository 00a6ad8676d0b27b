import Superiority.Library.Run
import Superiority.Live.Store

/-!
# Batches and retries

What the store holds should not depend on how a session's events were cut into envelopes, nor on
envelopes that arrive again. Receipt times apart, it does not, but for one column: the upkeep
marks a session ended from the newest event of an envelope, ahead of the envelope's own events.

* **`Alike`** – tables that agree but for receipt times and for the two columns the upkeep writes
  ahead (`last_seq`, `ended_at`). Every statement keeps it, as long as the statements guarded by
  `ended_at IS NULL` find the same mark on both sides (**`alike_statementsFor`**).
* **`MarksKept`** – the mark written ahead agrees, at each guarded statement and at the end of
  the envelope, with the mark its events give in their own order.
* **`stored_as_singly`** – when every envelope keeps its marks, the rows are those of storing
  each event once in an envelope of its own, and the session is marked ended exactly when its
  last `session_started` or `session_ended` is the latter.
-/

namespace Superiority

open Std

/-! ## Rows up to receipt times -/

/-- A session row without its receipt times. -/
def SessionRow.settled (row : SessionRow) : SessionRow :=
  { row with lastSeenAt := 0, endedAt := row.endedAt.map fun _ => 0 }

/-- A session row without what the upkeep writes ahead of the events. -/
def SessionRow.outline (row : SessionRow) : SessionRow :=
  { row with lastSeenAt := 0, lastSeq := 0, endedAt := none }

/-- A channel row without the time it was closed at. -/
def ChannelRow.settled (row : ChannelRow) : ChannelRow :=
  { row with closedAt := row.closedAt.map fun _ => 0 }

namespace SessionTables

/-- The session's row is there and marked ended. -/
def ended (t : SessionTables) : Bool := (t.session.bind (·.endedAt)).isSome

/-- The same rows, receipt times aside. -/
structure SameRows (t t' : SessionTables) : Prop where
  session : t.session.map SessionRow.settled = t'.session.map SessionRow.settled
  channels : ∀ key : String,
    t.channels[key]?.map ChannelRow.settled = t'.channels[key]?.map ChannelRow.settled
  roster : t.roster = t'.roster
  messages : t.messages = t'.messages

/-- The same rows, receipt times and the columns of the upkeep aside. -/
structure Alike (t t' : SessionTables) : Prop where
  session : t.session.map SessionRow.outline = t'.session.map SessionRow.outline
  channels : ∀ key : String,
    t.channels[key]?.map ChannelRow.settled = t'.channels[key]?.map ChannelRow.settled
  roster : t.roster = t'.roster
  messages : t.messages = t'.messages

variable {t t' : SessionTables}

/-- A channel is in both tables, with the same settled row, or in neither. -/
theorem Alike.channel_cases (h : Alike t t') (key : String) :
    (t.channels[key]? = none ∧ t'.channels[key]? = none) ∨
      ∃ row row', t.channels[key]? = some row ∧ t'.channels[key]? = some row' ∧
        row.settled = row'.settled := by
  have hkey := h.channels key
  cases hrow : t.channels[key]? with
  | none =>
    rw [hrow, Option.map_none, eq_comm, Option.map_eq_none_iff] at hkey
    exact Or.inl ⟨rfl, hkey⟩
  | some row =>
    rw [hrow, Option.map_some, eq_comm, Option.map_eq_some_iff] at hkey
    obtain ⟨row', hrow', hsettled⟩ := hkey
    exact Or.inr ⟨row, row', rfl, hrow', hsettled.symm⟩

theorem settled_closed {row row' : ChannelRow} (h : row.settled = row'.settled) :
    row.closedAt = none ↔ row'.closedAt = none := by
  have hclosed := congrArg ChannelRow.closedAt h
  simp only [ChannelRow.settled] at hclosed
  rw [← Option.map_eq_none_iff (f := fun _ => 0), hclosed, Option.map_eq_none_iff]

/-! ## Statements keep tables alike -/

theorem alike_channelTouch (h : Alike t t') (channel : WireChannel) (event : WireEvent) :
    Alike (t.channelTouch channel event) (t'.channelTouch channel event) where
  session := h.session
  roster := h.roster
  messages := h.messages
  channels key := by
    simp only [channelTouch, ExtTreeMap.getElem?_insert, Std.compare_eq_iff_eq]
    by_cases hkey : channel.key = key
    · rw [if_pos hkey, if_pos hkey]
      rcases h.channel_cases channel.key with ⟨hnone, hnone'⟩ | ⟨row, row', hrow, hrow', hsettled⟩
      · rw [hnone, hnone']
      · rw [hrow, hrow']
        simp only [ChannelRow.settled, ChannelRow.mk.injEq] at hsettled
        simp [ChannelRow.settled, hsettled]
    · rw [if_neg hkey, if_neg hkey]
      exact h.channels key

theorem alike_transcriptRow (h : Alike t t') (event : WireEvent) (key : String)
    (kind : MessageKind) (sender : Option WireUser) (body : String) :
    Alike (t.transcriptRow event key kind sender body)
      (t'.transcriptRow event key kind sender body) where
  session := h.session
  channels := h.channels
  roster := h.roster
  messages := by simp [transcriptRow, h.messages]

theorem alike_rosterBulkUpsert (h : Alike t t') (key : String) (users : List WireUser)
    (seq ts : Nat) :
    Alike (t.rosterBulkUpsert key users seq ts) (t'.rosterBulkUpsert key users seq ts) := by
  unfold rosterBulkUpsert
  rcases h.channel_cases key with ⟨hnone, hnone'⟩ | ⟨row, row', hrow, hrow', hsettled⟩
  · rw [hnone, hnone']
    exact h
  · rw [hrow, hrow']
    dsimp only
    by_cases hclosed : row.closedAt = none
    · rw [if_pos hclosed, if_pos ((settled_closed hsettled).1 hclosed), h.roster]
      exact ⟨h.session, h.channels, rfl, h.messages⟩
    · rw [if_neg hclosed, if_neg fun e => hclosed ((settled_closed hsettled).2 e)]
      exact h

theorem alike_leftStatements (h : Alike t t') (event : WireEvent) :
    Alike (t.leftStatements event) (t'.leftStatements event) := by
  unfold leftStatements
  cases event.channel with
  | none => exact h
  | some channel =>
    refine ⟨h.session, fun key => ?_, by simp [h.roster], h.messages⟩
    simp only [ExtTreeMap.getElem?_modify, Std.compare_eq_iff_eq]
    split_ifs with hkey
    · rcases h.channel_cases channel.key with ⟨hnone, hnone'⟩ | ⟨row, row', hrow, hrow', hsettled⟩
      · rw [hnone, hnone']
      · simp only [ChannelRow.settled, ChannelRow.mk.injEq] at hsettled
        simp [hrow, hrow', ChannelRow.settled, hsettled]
    · exact h.channels key

theorem alike_messageStatements (h : Alike t t') (event : WireEvent) :
    Alike (t.messageStatements event) (t'.messageStatements event) := by
  unfold messageStatements
  split
  · exact alike_transcriptRow h _ _ _ _ _
  · exact h

theorem alike_noticeStatements (h : Alike t t') (event : WireEvent) :
    Alike (t.noticeStatements event) (t'.noticeStatements event) := by
  unfold noticeStatements
  split
  · split_ifs
    · exact alike_transcriptRow h _ _ _ _ _
    · exact alike_transcriptRow h _ _ _ _ _
    · exact h
  · exact h

theorem alike_memberStatements (h : Alike t t') (event : WireEvent) :
    Alike (t.memberStatements event) (t'.memberStatements event) := by
  unfold memberStatements
  split
  · rename_i channel user _ _
    split_ifs
    · have hline := alike_transcriptRow h event channel.key .memberLeft (some user) ""
      exact ⟨hline.session, hline.channels, by simp [hline.roster], hline.messages⟩
    · exact alike_rosterBulkUpsert (alike_transcriptRow h _ _ _ _ _) _ _ _ _
  · exact h

theorem alike_rosterStatements (h : Alike t t') (event : WireEvent) :
    Alike (t.rosterStatements event) (t'.rosterStatements event) := by
  unfold rosterStatements
  split
  · rename_i channel users _ _ _
    have herase : Alike { t with roster := t.roster.erase channel.key }
        { t' with roster := t'.roster.erase channel.key } :=
      ⟨h.session, h.channels, by simp [h.roster], h.messages⟩
    dsimp only
    split_ifs
    · exact alike_rosterBulkUpsert herase _ _ _ _
    · exact herase
  · exact h

theorem alike_rosterDeltaStatements (h : Alike t t') (event : WireEvent) :
    Alike (t.rosterDeltaStatements event) (t'.rosterDeltaStatements event) := by
  unfold rosterDeltaStatements
  split
  · dsimp only
    split_ifs
    · exact h
    · exact alike_rosterBulkUpsert h _ _ _ _
  · exact h

/-- A session's row is in both tables, with the same outline, or in neither. -/
theorem Alike.session_cases (h : Alike t t') :
    (t.session = none ∧ t'.session = none) ∨
      ∃ row row', t.session = some row ∧ t'.session = some row' ∧ row.outline = row'.outline := by
  have hsession := h.session
  cases hrow : t.session with
  | none =>
    rw [hrow, Option.map_none, eq_comm, Option.map_eq_none_iff] at hsession
    exact Or.inl ⟨rfl, hsession⟩
  | some row =>
    rw [hrow, Option.map_some, eq_comm, Option.map_eq_some_iff] at hsession
    obtain ⟨row', hrow', houtline⟩ := hsession
    exact Or.inr ⟨row, row', rfl, hrow', houtline.symm⟩

/-- An update of the session's row that rows of one outline answer alike. -/
theorem alike_updateSession (h : Alike t t') {f f' : SessionRow → SessionRow}
    (hf : ∀ row row', t.session = some row → t'.session = some row' →
      row.outline = row'.outline → (f row).outline = (f' row').outline) :
    Alike (t.updateSession f) (t'.updateSession f') := by
  refine ⟨?_, h.channels, h.roster, h.messages⟩
  rcases h.session_cases with ⟨hnone, hnone'⟩ | ⟨row, row', hrow, hrow', houtline⟩
  · simp [updateSession, hnone, hnone']
  · simp [updateSession, hrow, hrow', hf row row' hrow hrow' houtline]

theorem ended_eq {row : SessionRow} (h : t.session = some row) :
    t.ended = true ↔ row.endedAt ≠ none := by
  simp [ended, h, Option.isSome_iff_ne_none]

/-- With the same mark on both sides, both rows or neither are marked. -/
theorem ended_none_iff {row row' : SessionRow} (hrow : t.session = some row)
    (hrow' : t'.session = some row') (hmark : t.ended = t'.ended) :
    row.endedAt = none ↔ row'.endedAt = none := by
  have h := ended_eq hrow
  rw [hmark, ended_eq hrow'] at h
  tauto

theorem alike_syncedStatements (h : Alike t t') (hmark : t.ended = t'.ended) (event : WireEvent)
    (receivedAt receivedAt' : Nat) :
    Alike (t.syncedStatements event receivedAt) (t'.syncedStatements event receivedAt') := by
  have hsync : (t.session.map (·.syncSeq)).getD 0 = (t'.session.map (·.syncSeq)).getD 0 := by
    rcases h.session_cases with ⟨hnone, hnone'⟩ | ⟨row, row', hrow, hrow', houtline⟩
    · rw [hnone, hnone']
    · simp only [SessionRow.outline, SessionRow.mk.injEq] at houtline
      simp [hrow, hrow', houtline]
  have hclosed : Alike
      { t with channels := t.channels.map fun _ row =>
          closeUntouched ((t.session.map (·.syncSeq)).getD 0) receivedAt row }
      { t' with channels := t'.channels.map fun _ row =>
          closeUntouched ((t'.session.map (·.syncSeq)).getD 0) receivedAt' row } := by
    refine ⟨h.session, fun key => ?_, h.roster, h.messages⟩
    simp only [ExtTreeMap.getElem?_map, ← hsync]
    rcases h.channel_cases key with ⟨hnone, hnone'⟩ | ⟨row, row', hrow, hrow', hsettled⟩
    · rw [hnone, hnone']
      rfl
    · have hopen := settled_closed hsettled
      simp only [ChannelRow.settled, ChannelRow.mk.injEq] at hsettled
      simp only [hrow, hrow', Option.map_some, closeUntouched, hopen, hsettled.2.2.2.2.2]
      split_ifs <;> simp [ChannelRow.settled, hsettled]
  refine alike_updateSession hclosed fun row row' hrow hrow' houtline => ?_
  have hended := ended_none_iff hrow hrow' hmark
  simp only [SessionRow.outline, SessionRow.mk.injEq] at houtline
  simp only [hended]
  split_ifs <;> simp [SessionRow.outline, houtline]

/-- The kinds whose statements look at the ended mark. -/
def isGuarded : WireKind → Bool
  | .syncStarted | .sessionSynced => true
  | _ => false

theorem alike_kindStatements (h : Alike t t') {event : WireEvent}
    (hmark : isGuarded event.kind → t.ended = t'.ended) (receivedAt receivedAt' : Nat) :
    Alike (t.kindStatements event receivedAt) (t'.kindStatements event receivedAt') := by
  unfold kindStatements
  cases hkind : event.kind with
  | sessionStarted =>
    refine alike_updateSession h fun row row' _ _ houtline => ?_
    simp only [SessionRow.outline, SessionRow.mk.injEq] at houtline
    simp [SessionRow.outline, houtline]
  | syncStarted =>
    have hmark := hmark (by simp [hkind, isGuarded])
    refine alike_updateSession h fun row row' hrow hrow' houtline => ?_
    have hended := ended_none_iff hrow hrow' hmark
    simp only [SessionRow.outline, SessionRow.mk.injEq] at houtline
    simp only [hended]
    split_ifs <;> simp [SessionRow.outline, houtline]
  | sessionSynced =>
    exact alike_syncedStatements h (hmark (by simp [hkind, isGuarded])) event _ _
  | left => exact alike_leftStatements h event
  | message => exact alike_messageStatements h event
  | notice => exact alike_noticeStatements h event
  | memberJoined => exact alike_memberStatements h event
  | memberLeft => exact alike_memberStatements h event
  | roster => exact alike_rosterStatements h event
  | rosterDelta => exact alike_rosterDeltaStatements h event
  | heartbeat => exact h
  | joined => exact h
  | sessionEnded => exact h
  | dropped => exact h

/-- Only the guarded statements look at what the upkeep writes ahead. -/
theorem alike_statementsFor (h : Alike t t') {event : WireEvent}
    (hmark : isGuarded event.kind → t.ended = t'.ended) (receivedAt receivedAt' : Nat) :
    Alike (t.statementsFor event receivedAt) (t'.statementsFor event receivedAt') := by
  unfold statementsFor
  cases event.channel with
  | none => exact alike_kindStatements h hmark _ _
  | some channel => exact alike_kindStatements (alike_channelTouch h channel event) hmark _ _

/-! ## The session's row -/

/-- What the statements of an event do to the session's row. -/
def sessionUpdate (event : WireEvent) (row : SessionRow) : SessionRow :=
  match event.kind with
  | .sessionStarted => { row with endedAt := none, syncedAt := none, syncSeq := 0 }
  | .syncStarted => if row.endedAt = none then { row with syncSeq := event.seq } else row
  | .sessionSynced => if row.endedAt = none then { row with syncedAt := some event.ts } else row
  | _ => row

@[simp] theorem session_channelTouch (channel : WireChannel) (event : WireEvent) :
    (t.channelTouch channel event).session = t.session := rfl

@[simp] theorem session_transcriptRow (event : WireEvent) (key : String) (kind : MessageKind)
    (sender : Option WireUser) (body : String) :
    (t.transcriptRow event key kind sender body).session = t.session := rfl

@[simp] theorem session_rosterBulkUpsert (key : String) (users : List WireUser) (seq ts : Nat) :
    (t.rosterBulkUpsert key users seq ts).session = t.session := by
  unfold rosterBulkUpsert
  split
  · rfl
  · split_ifs <;> rfl

theorem session_leftStatements (event : WireEvent) :
    (t.leftStatements event).session = t.session := by
  unfold leftStatements
  split <;> rfl

theorem session_messageStatements (event : WireEvent) :
    (t.messageStatements event).session = t.session := by
  unfold messageStatements
  split <;> rfl

theorem session_noticeStatements (event : WireEvent) :
    (t.noticeStatements event).session = t.session := by
  unfold noticeStatements
  split
  · split_ifs <;> rfl
  · rfl

theorem session_memberStatements (event : WireEvent) :
    (t.memberStatements event).session = t.session := by
  unfold memberStatements
  split
  · split_ifs <;> simp
  · rfl

theorem session_rosterStatements (event : WireEvent) :
    (t.rosterStatements event).session = t.session := by
  unfold rosterStatements
  split
  · dsimp only
    split_ifs <;> simp
  · rfl

theorem session_rosterDeltaStatements (event : WireEvent) :
    (t.rosterDeltaStatements event).session = t.session := by
  unfold rosterDeltaStatements
  split
  · dsimp only
    split_ifs <;> simp
  · rfl

theorem session_kindStatements (event : WireEvent) (receivedAt : Nat) :
    (t.kindStatements event receivedAt).session = t.session.map (sessionUpdate event) := by
  have hsame : ∀ s : Option SessionRow, s.map (fun row => row) = s := fun s => by
    cases s <;> rfl
  unfold kindStatements sessionUpdate
  cases event.kind <;> simp only [hsame]
  case left => exact session_leftStatements event
  case message => exact session_messageStatements event
  case notice => exact session_noticeStatements event
  case memberJoined => exact session_memberStatements event
  case memberLeft => exact session_memberStatements event
  case roster => exact session_rosterStatements event
  case rosterDelta => exact session_rosterDeltaStatements event
  all_goals rfl

theorem session_statementsFor (event : WireEvent) (receivedAt : Nat) :
    (t.statementsFor event receivedAt).session = t.session.map (sessionUpdate event) := by
  unfold statementsFor
  cases event.channel with
  | none => exact session_kindStatements event receivedAt
  | some channel => exact session_kindStatements event receivedAt

theorem sessionUpdate_lastSeq (event : WireEvent) (row : SessionRow) :
    (sessionUpdate event row).lastSeq = row.lastSeq := by
  unfold sessionUpdate
  split <;> (try split_ifs) <;> rfl

theorem sessionUpdate_product (event : WireEvent) (row : SessionRow) :
    (sessionUpdate event row).product = row.product := by
  unfold sessionUpdate
  split <;> (try split_ifs) <;> rfl

theorem sessionUpdate_endedAt (event : WireEvent) (row : SessionRow) :
    (sessionUpdate event row).endedAt =
      if event.kind = .sessionStarted then none else row.endedAt := by
  unfold sessionUpdate
  cases event.kind <;> simp only [if_true, reduceCtorEq, if_false] <;> split_ifs <;> rfl

/-! ## The ended mark -/

/-- The mark an event leaves, when its own upkeep has been done: `session_started` clears it. -/
def clearMark (mark : Bool) (kind : WireKind) : Bool := mark && kind != .sessionStarted

theorem ended_statementsFor (event : WireEvent) (receivedAt : Nat) :
    (t.statementsFor event receivedAt).ended = clearMark t.ended event.kind := by
  unfold ended
  rw [session_statementsFor]
  cases t.session with
  | none => rfl
  | some row =>
    simp only [Option.map_some, Option.bind_some, sessionUpdate_endedAt, clearMark]
    by_cases hkind : event.kind = .sessionStarted
    · simp [hkind]
    · simp [hkind]

/-- The mark written ahead of the events against the mark they give in their own order: they
agree at every guarded statement and at the end. -/
def MarksAgree : (ahead own : Bool) → List WireKind → Prop
  | ahead, own, [] => ahead = own
  | ahead, own, kind :: kinds =>
    let own := own || kind == .sessionEnded
    (isGuarded kind → ahead = own) ∧ MarksAgree (clearMark ahead kind) (clearMark own kind) kinds

instance decidableMarksAgree : (ahead own : Bool) → (kinds : List WireKind) →
    Decidable (MarksAgree ahead own kinds)
  | ahead, own, [] => inferInstanceAs (Decidable (ahead = own))
  | ahead, own, kind :: kinds =>
    have : Decidable (MarksAgree (clearMark ahead kind) (clearMark (own || kind == .sessionEnded)
      kind) kinds) := decidableMarksAgree _ _ kinds
    inferInstanceAs (Decidable ((isGuarded kind → ahead = (own || kind == .sessionEnded)) ∧
      MarksAgree (clearMark ahead kind) (clearMark (own || kind == .sessionEnded) kind) kinds))

/-- The mark the upkeep of an envelope writes ahead of the events. -/
def markAhead (t : SessionTables) (events : List WireEvent) : Bool :=
  match t.session, events.getLast? with
  | some _, some newest => t.ended || newest.kind == .sessionEnded
  | _, _ => t.ended

/-- The new events of an envelope keep the ended mark: the mark written ahead of them agrees with
the one they give, and they do not open the session with its end. -/
def MarksKept (t : SessionTables) (events : List WireEvent) : Prop :=
  MarksAgree (t.markAhead events) t.ended (events.map (·.kind)) ∧
    (t.session = none → (events.head?.map (·.kind)) ≠ some .sessionEnded)

instance (t : SessionTables) (events : List WireEvent) : Decidable (t.MarksKept events) :=
  inferInstanceAs (Decidable (_ ∧ _))

/-! ## One envelope against its events one by one -/

/-- Each event in an envelope of its own. -/
def storeEach (session : WireSession) (times : WireEvent → Nat) (t : SessionTables)
    (events : List WireEvent) : SessionTables :=
  events.foldl (fun t event => t.storeEnvelope ⟨session, [event]⟩ (times event)) t

/-- The events are in order and come after what is stored. -/
structure Follows (t : SessionTables) (events : List WireEvent) : Prop where
  above : ∀ row, t.session = some row → ∀ event ∈ events, row.lastSeq < event.seq
  ordered : events.Pairwise (·.seq < ·.seq)

theorem Follows.newEvents_eq {events : List WireEvent} (h : Follows t events) :
    t.newEvents events = events := by
  refine List.filter_eq_self.2 fun event hevent => ?_
  cases hrow : t.session with
  | none => rfl
  | some row => simpa using h.above row hrow event hevent

theorem storeEnvelope_of_newEvents {session : WireSession} {events : List WireEvent}
    {event : WireEvent} {rest : List WireEvent} (h : t.newEvents events = event :: rest)
    (receivedAt : Nat) :
    t.storeEnvelope ⟨session, events⟩ receivedAt =
      (event :: rest).foldl (fun t event => t.statementsFor event receivedAt)
        (t.sessionUpkeep session ((event :: rest).getLast (by simp)) receivedAt) := by
  simp only [storeEnvelope, h, List.getLast?_eq_some_getLast (List.cons_ne_nil event rest)]

theorem storeEach_cons {session : WireSession} {times : WireEvent → Nat} {event : WireEvent}
    {events : List WireEvent} (h : Follows t (event :: events)) :
    t.storeEach session times (event :: events) =
      ((t.sessionUpkeep session event (times event)).statementsFor event
        (times event)).storeEach session times events := by
  have hone : Follows t [event] :=
    ⟨fun row hrow e he => h.above row hrow e (by simp_all), List.pairwise_singleton _ _⟩
  show storeEach session times (t.storeEnvelope ⟨session, [event]⟩ (times event)) events = _
  rw [storeEnvelope_of_newEvents hone.newEvents_eq]
  rfl

/-- The row the upkeep leaves. -/
theorem session_sessionUpkeep (session : WireSession) (event : WireEvent) (time : Nat)
    (hseq : ∀ row, t.session = some row → row.lastSeq < event.seq) :
    ∃ row, (t.sessionUpkeep session event time).session = some row ∧ row.lastSeq = event.seq ∧
      row.product = session.product := by
  cases hrow : t.session with
  | none => exact ⟨_, by simp [sessionUpkeep, hrow]; rfl, rfl, rfl⟩
  | some row =>
    refine ⟨_, by simp [sessionUpkeep, hrow]; rfl, ?_, rfl⟩
    exact max_eq_right (hseq row hrow).le

/-- The mark the upkeep leaves on a row that is there. -/
theorem ended_sessionUpkeep {row : SessionRow} (hrow : t.session = some row)
    (session : WireSession) {event : WireEvent} (hseq : row.lastSeq < event.seq) (time : Nat) :
    (t.sessionUpkeep session event time).ended = (t.ended || event.kind == .sessionEnded) := by
  simp only [ended, sessionUpkeep, hrow, Option.bind_some, gt_iff_lt, hseq, true_and]
  by_cases hkind : event.kind = .sessionEnded <;> simp [hkind]

/-- The statements of a follow-up event, after its own upkeep, leave the tables ready for more. -/
theorem follows_of_cons {session : WireSession} {event : WireEvent} {events : List WireEvent}
    (h : Follows t (event :: events)) (time : Nat) :
    Follows ((t.sessionUpkeep session event time).statementsFor event time) events where
  above row hrow e he := by
    obtain ⟨row', hrow', hseq, -⟩ := session_sessionUpkeep (t := t) session event time
      fun row hrow => h.above row hrow event (by simp)
    rw [session_statementsFor, hrow', Option.map_some, Option.some.injEq] at hrow
    rw [← hrow, sessionUpdate_lastSeq, hseq]
    exact List.rel_of_pairwise_cons h.ordered he
  ordered := h.ordered.of_cons

/-- Walking through the events with the mark written ahead, and with each event's own upkeep. -/
theorem alike_walk {session : WireSession} (times : WireEvent → Nat) (receivedAt : Nat)
    {events : List WireEvent} {row : SessionRow} (h : Alike t t') (hrow : t'.session = some row)
    (hproduct : row.product = session.product) (hfollows : Follows t' events)
    (hmarks : MarksAgree t.ended t'.ended (events.map (·.kind))) :
    Alike (events.foldl (fun t event => t.statementsFor event receivedAt) t)
        (t'.storeEach session times events) ∧
      (events.foldl (fun t event => t.statementsFor event receivedAt) t).ended =
        (t'.storeEach session times events).ended := by
  induction events generalizing t t' row with
  | nil => exact ⟨h, hmarks⟩
  | cons event events ih =>
    have hseq := hfollows.above row hrow event (by simp)
    have hupkeep : Alike t (t'.sessionUpkeep session event (times event)) := by
      refine ⟨?_, h.channels, h.roster, h.messages⟩
      rw [h.session]
      simp [sessionUpkeep, hrow, SessionRow.outline, hproduct]
    have hended := ended_sessionUpkeep hrow session hseq (times event)
    obtain ⟨row', hrow', -, hproduct'⟩ := session_sessionUpkeep (t := t') session event
      (times event) fun row hrow => hfollows.above row hrow event (by simp)
    obtain ⟨hguard, hrest⟩ := hmarks
    rw [storeEach_cons hfollows, List.foldl_cons]
    have hrow'' := session_statementsFor (t := t'.sessionUpkeep session event (times event)) event
      (times event)
    rw [hrow', Option.map_some] at hrow''
    refine ih (alike_statementsFor hupkeep (fun hg => (hguard hg).trans hended.symm) _ _) hrow''
      ?_ (follows_of_cons hfollows _) ?_
    · rw [sessionUpdate_product, hproduct']
    · rwa [ended_statementsFor, ended_statementsFor, hended]

theorem lastSeq_foldl (events : List WireEvent) (receivedAt : Nat) :
    (events.foldl (fun t event => t.statementsFor event receivedAt) t).session.map (·.lastSeq) =
      t.session.map (·.lastSeq) := by
  induction events generalizing t with
  | nil => rfl
  | cons event events ih =>
    rw [List.foldl_cons, ih, session_statementsFor, Option.map_map]
    cases t.session <;> simp [sessionUpdate_lastSeq]

theorem lastSeq_storeEach (session : WireSession) (times : WireEvent → Nat)
    {event : WireEvent} {events : List WireEvent} (h : Follows t (event :: events)) :
    (t.storeEach session times (event :: events)).session.map (·.lastSeq) =
      some ((event :: events).getLast (by simp)).seq := by
  induction events generalizing t event with
  | nil =>
    obtain ⟨row, hrow, hseq, -⟩ := session_sessionUpkeep (t := t) session event (times event)
      fun row hrow => h.above row hrow event (by simp)
    rw [storeEach_cons h]
    show ((t.sessionUpkeep session event (times event)).statementsFor event
      (times event)).session.map (·.lastSeq) = some event.seq
    rw [session_statementsFor, hrow]
    simp [sessionUpdate_lastSeq, hseq]
  | cons next events ih =>
    rw [storeEach_cons h, ih (follows_of_cons h _)]
    exact congrArg (some ·.seq) (List.getLast_cons (List.cons_ne_nil next events)).symm

/-- Alike tables with one mark and one `last_seq` have the same rows. -/
theorem Alike.sameRows (h : Alike t t') (hmark : t.ended = t'.ended)
    (hseq : t.session.map (·.lastSeq) = t'.session.map (·.lastSeq)) : SameRows t t' := by
  refine ⟨?_, h.channels, h.roster, h.messages⟩
  rcases h.session_cases with ⟨hnone, hnone'⟩ | ⟨row, row', hrow, hrow', houtline⟩
  · rw [hnone, hnone']
  · have hended := ended_none_iff hrow hrow' hmark
    simp only [hrow, hrow', Option.map_some, Option.some.injEq] at hseq ⊢
    simp only [SessionRow.outline, SessionRow.mk.injEq] at houtline
    have hmap : row.endedAt.map (fun _ => 0) = row'.endedAt.map fun _ => 0 := by
      cases hr : row.endedAt with
      | none => rw [hended.1 hr]
      | some a =>
        cases hr' : row'.endedAt with
        | none => rw [hended.2 hr'] at hr; cases hr
        | some b => rfl
    simp [SessionRow.settled, houtline, hseq, hmap]

theorem SameRows.alike (h : SameRows t t') : Alike t t' where
  session := by
    have houtline : SessionRow.outline = SessionRow.outline ∘ SessionRow.settled := rfl
    rw [houtline, ← Option.map_map, ← Option.map_map, h.session]
  channels := h.channels
  roster := h.roster
  messages := h.messages

theorem SameRows.ended_eq (h : SameRows t t') : t.ended = t'.ended := by
  have hended : ∀ s : SessionTables, s.ended = ((s.session.map SessionRow.settled).bind
      (·.endedAt)).isSome := fun s => by
    cases hrow : s.session <;> simp [ended, hrow, SessionRow.settled]
  rw [hended, hended, h.session]

theorem SameRows.follows (h : SameRows t t') {events : List WireEvent} (hfollows : Follows t' events) :
    Follows t events where
  above row hrow event hevent := by
    have hsession := h.session
    rw [hrow, Option.map_some, eq_comm, Option.map_eq_some_iff] at hsession
    obtain ⟨row', hrow', hsettled⟩ := hsession
    have hseq := hfollows.above row' hrow' event hevent
    simp only [SessionRow.settled, SessionRow.mk.injEq] at hsettled
    rwa [hsettled.2.2.2.2.1] at hseq
  ordered := hfollows.ordered

/-- The mark that stands when the events of an envelope come to be stored. -/
theorem ended_upkeep_newest (session : WireSession) {event : WireEvent} {rest : List WireEvent}
    (h : Follows t (event :: rest)) (receivedAt : Nat) :
    (t.sessionUpkeep session ((event :: rest).getLast (by simp)) receivedAt).ended =
      t.markAhead (event :: rest) := by
  simp only [markAhead, List.getLast?_eq_some_getLast (List.cons_ne_nil event rest)]
  cases hrow : t.session with
  | none => simp [ended, sessionUpkeep, hrow]
  | some row => exact ended_sessionUpkeep hrow session (h.above row hrow _ (List.getLast_mem _)) _

/-- The mark that stands when the first event comes to be stored on its own. -/
theorem ended_upkeep_first (session : WireSession) {event : WireEvent} {rest : List WireEvent}
    (h : Follows t (event :: rest)) (hfirst : t.session = none → event.kind ≠ .sessionEnded)
    (time : Nat) :
    (t.sessionUpkeep session event time).ended = (t.ended || event.kind == .sessionEnded) := by
  cases hrow : t.session with
  | none => simp [ended, sessionUpkeep, hrow, hfirst hrow]
  | some row => exact ended_sessionUpkeep hrow session (h.above row hrow event (by simp)) _

theorem alike_sessionUpkeep (h : Alike t t') (session : WireSession) (newest event : WireEvent)
    (receivedAt time : Nat) :
    Alike (t.sessionUpkeep session newest receivedAt) (t'.sessionUpkeep session event time) := by
  refine ⟨?_, h.channels, h.roster, h.messages⟩
  rcases h.session_cases with ⟨hnone, hnone'⟩ | ⟨row, row', hrow, hrow', houtline⟩
  · simp [sessionUpkeep, hnone, hnone', SessionRow.outline]
  · simp only [SessionRow.outline, SessionRow.mk.injEq] at houtline
    simp [sessionUpkeep, hrow, hrow', SessionRow.outline, houtline]

/-- **One envelope.** Whatever stored events it repeats, an envelope that keeps the mark stores
its new events as envelopes of one event would. -/
theorem sameRows_storeEnvelope {session : WireSession} {times : WireEvent → Nat}
    {events new : List WireEvent} (h : SameRows t t') (hnew : t.newEvents events = new)
    (hfollows : Follows t' new) (hmarks : MarksKept t new) (receivedAt : Nat) :
    SameRows (t.storeEnvelope ⟨session, events⟩ receivedAt) (t'.storeEach session times new) := by
  cases new with
  | nil => simpa [storeEnvelope, hnew, storeEach] using h
  | cons event rest =>
    have hfollows₀ := h.follows hfollows
    obtain ⟨row, hrow, -, hproduct⟩ := session_sessionUpkeep (t := t') session event
      (times event) fun row hrow => hfollows.above row hrow event (by simp)
    have hnone : t'.session = none → t.session = none := fun hnone => by
      have hsession := h.session
      rwa [hnone, Option.map_none, Option.map_eq_none_iff] at hsession
    have hahead := ended_upkeep_newest session hfollows₀ receivedAt
    have hown := ended_upkeep_first session hfollows
      (fun hrow' => by simpa using hmarks.2 (hnone hrow')) (times event)
    rw [← h.ended_eq] at hown
    obtain ⟨hguard, hrest⟩ := hmarks.1
    rw [← hahead, ← hown] at hguard hrest
    have hfirst := alike_statementsFor (alike_sessionUpkeep h.alike session
      ((event :: rest).getLast (by simp)) event receivedAt (times event)) hguard receivedAt
      (times event)
    obtain ⟨halike, hended⟩ := alike_walk times receivedAt hfirst
      (by rw [session_statementsFor, hrow, Option.map_some])
      ((sessionUpdate_product event row).trans hproduct) (follows_of_cons hfollows _)
      (by rwa [ended_statementsFor, ended_statementsFor])
    rw [storeEnvelope_of_newEvents hnew]
    have hlast := lastSeq_storeEach session times hfollows
    obtain ⟨row₀, hrow₀, hseq₀, -⟩ := session_sessionUpkeep (t := t) session
      ((event :: rest).getLast (by simp)) receivedAt
      fun row hrow => hfollows₀.above row hrow _ (List.getLast_mem _)
    rw [← storeEach_cons hfollows] at halike hended
    refine halike.sameRows hended ?_
    rw [lastSeq_foldl, hlast, session_statementsFor, hrow₀]
    exact congrArg some ((sessionUpdate_lastSeq event row₀).trans hseq₀)

/-! ## The mark of single events -/

/-- The latest `session_started` or `session_ended` is the latter. -/
def EndsLast (kinds : List WireKind) : Prop :=
  (kinds.filter fun kind => kind = .sessionStarted ∨ kind = .sessionEnded).getLast? =
    some .sessionEnded

instance (kinds : List WireKind) : Decidable (EndsLast kinds) :=
  inferInstanceAs (Decidable (_ = _))

/-- The mark the events give in their own order. -/
def ownMark (mark : Bool) (kinds : List WireKind) : Bool :=
  kinds.foldl (fun mark kind => clearMark (mark || kind == .sessionEnded) kind) mark

theorem ownMark_iff (kinds : List WireKind) : ownMark false kinds = true ↔ EndsLast kinds := by
  induction kinds using List.reverseRecOn with
  | nil => simp [ownMark, EndsLast]
  | append_singleton kinds kind ih =>
    have hstep : ownMark false (kinds ++ [kind]) =
        clearMark (ownMark false kinds || kind == .sessionEnded) kind := by
      rw [ownMark, List.foldl_append]
      rfl
    rw [hstep]
    unfold EndsLast at ih ⊢
    rw [List.filter_append]
    by_cases hended : kind = .sessionEnded
    · simp [hended, clearMark]
    · by_cases hstarted : kind = .sessionStarted
      · simp [hstarted, clearMark]
      · rw [List.filter_cons_of_neg (by simp [hended, hstarted]), List.filter_nil,
          List.append_nil, ← ih]
        simp [clearMark, hended, hstarted]

/-- Storing the events one by one gives their own mark. -/
theorem ended_storeEach {session : WireSession} {times : WireEvent → Nat}
    {events : List WireEvent} (h : Follows t events)
    (hfirst : t.session = none → (events.head?.map (·.kind)) ≠ some .sessionEnded) :
    (t.storeEach session times events).ended = ownMark t.ended (events.map (·.kind)) := by
  induction events generalizing t with
  | nil => rfl
  | cons event events ih =>
    have hown := ended_upkeep_first session h (fun hrow => by simpa using hfirst hrow)
      (times event)
    obtain ⟨row, hrow, -, -⟩ := session_sessionUpkeep (t := t) session event (times event)
      fun row hrow => h.above row hrow event (by simp)
    rw [storeEach_cons h, ih (follows_of_cons h _), ended_statementsFor, hown]
    · rfl
    · intro hnone
      rw [session_statementsFor, hrow] at hnone
      cases hnone

end SessionTables

/-! ## Deliveries -/

/-- An envelope on its way: events sent before, then the next `fresh` ones. -/
structure Delivery where
  retried : List WireEvent
  fresh : Nat
  receivedAt : Nat

/-- How many events of the session have been stored, and its rows. -/
structure Delivered where
  count : Nat := 0
  tables : SessionTables := {}

/-- Stores an envelope that repeats `retried` and goes on with the next events of the session. -/
def deliver (session : WireSession) (log : List WireEvent) (s : Delivered) (d : Delivery) :
    Delivered where
  count := s.count + d.fresh
  tables := s.tables.storeEnvelope
    ⟨session, d.retried ++ (log.drop s.count).take d.fresh⟩ d.receivedAt

/-- The rows are those of the events stored so far, each stored once and on its own, and the
session is marked ended exactly when its latest start or end is an end. -/
structure StoredSingly (session : WireSession) (log : List WireEvent) (times : WireEvent → Nat)
    (s : Delivered) : Prop where
  rows : s.tables.SameRows (SessionTables.storeEach session times {} (log.take s.count))
  mark : s.tables.ended = true ↔ SessionTables.EndsLast ((log.take s.count).map (·.kind))

/-- Only stored events are sent again. -/
def Resends (log : List WireEvent) (s : Delivered) (d : Delivery) : Prop :=
  ∀ event ∈ d.retried, event ∈ log.take s.count

/-- The new events of the envelope keep the ended mark. -/
def KeepsMark (log : List WireEvent) (s : Delivered) (d : Delivery) : Prop :=
  s.tables.MarksKept ((log.drop s.count).take d.fresh)

instance (log : List WireEvent) (s : Delivered) (d : Delivery) : Decidable (KeepsMark log s d) :=
  inferInstanceAs (Decidable (SessionTables.MarksKept _ _))

namespace SessionTables

variable {session : WireSession} {log : List WireEvent} {times : WireEvent → Nat}

theorem follows_empty (hlog : log.Pairwise (·.seq < ·.seq)) (n : Nat) :
    Follows {} (log.take n) :=
  ⟨fun _ hrow => (nomatch hrow), hlog.sublist (List.take_sublist n log)⟩

/-- Storing the first events gives tables the later ones follow. -/
theorem follows_drop (hlog : log.Pairwise (·.seq < ·.seq)) (n k : Nat) :
    Follows (storeEach session times {} (log.take n)) ((log.drop n).take k) where
  above row hrow event hevent := by
    have hlater : ∀ e ∈ log.take n, e.seq < event.seq := fun e he => by
      have hsplit := hlog
      rw [← List.take_append_drop n log, List.pairwise_append] at hsplit
      exact hsplit.2.2 e he event (List.mem_of_mem_take hevent)
    cases hfirst : log.take n with
    | nil =>
      rw [hfirst] at hrow
      cases hrow
    | cons e rest =>
      have hlast := lastSeq_storeEach session times
        (hfirst ▸ follows_empty hlog n)
      rw [hfirst] at hrow hlater
      rw [hrow, Option.map_some, Option.some.injEq] at hlast
      rw [hlast]
      exact hlater _ (List.getLast_mem _)
  ordered := hlog.sublist ((List.take_sublist _ _).trans (List.drop_sublist _ _))

/-- A retried event is not above `last_seq`, so an envelope brings its fresh events only. -/
theorem newEvents_retried {t : SessionTables} (hlog : log.Pairwise (·.seq < ·.seq)) {n : Nat}
    (h : t.SameRows (storeEach session times {} (log.take n))) {retried : List WireEvent}
    (hretried : ∀ event ∈ retried, event ∈ log.take n) (k : Nat) :
    t.newEvents (retried ++ (log.drop n).take k) = (log.drop n).take k := by
  have hfresh := (h.follows (follows_drop hlog n k)).newEvents_eq
  have hold : t.newEvents retried = [] := by
    refine List.filter_eq_nil_iff.2 fun event hevent => ?_
    have hmem := hretried event hevent
    cases hfirst : log.take n with
    | nil =>
      rw [hfirst] at hmem
      cases hmem
    | cons e rest =>
      have hlast := lastSeq_storeEach session times
        (hfirst ▸ follows_empty hlog n)
      have hseq := congrArg (Option.map SessionRow.lastSeq) h.session
      have hsettled : SessionRow.lastSeq ∘ SessionRow.settled = SessionRow.lastSeq := rfl
      rw [hfirst, Option.map_map, Option.map_map, hsettled, hlast] at hseq
      obtain ⟨row, hrow, hrowSeq⟩ := Option.map_eq_some_iff.1 hseq
      have hordered := hlog.sublist (List.take_sublist n log)
      rw [hfirst] at hmem hordered
      have hle : event.seq ≤ ((e :: rest).getLast (by simp)).seq := by
        have hlt := (List.pairwise_append.1
          ((List.dropLast_append_getLast (List.cons_ne_nil e rest)).symm ▸ hordered)).2.2
        rw [← List.dropLast_append_getLast (List.cons_ne_nil e rest), List.mem_append,
          List.mem_singleton] at hmem
        rcases hmem with hmem | hmem
        · exact (hlt event hmem _ (by simp)).le
        · rw [hmem]
      simp [hrow, hrowSeq, hle]
  rw [newEvents, List.filter_append]
  exact (congrArg₂ (· ++ ·) hold hfresh).trans (List.nil_append _)

theorem storeEach_append (t : SessionTables) (first later : List WireEvent) :
    t.storeEach session times (first ++ later) =
      (t.storeEach session times first).storeEach session times later := by
  simp [storeEach]

/-- What the events stored so far have kept: the rows of single storing, and a first event that
is no end. -/
structure SinglyKept (session : WireSession) (log : List WireEvent) (times : WireEvent → Nat)
    (s : Delivered) : Prop where
  rows : s.tables.SameRows (storeEach session times {} (log.take s.count))
  opened : ((log.take s.count).head?.map (·.kind)) ≠ some .sessionEnded

theorem SinglyKept.storedSingly {s : Delivered} (hlog : log.Pairwise (·.seq < ·.seq))
    (h : SinglyKept session log times s) : StoredSingly session log times s where
  rows := h.rows
  mark := by
    rw [h.rows.ended_eq, ended_storeEach (follows_empty hlog s.count) fun _ => h.opened]
    exact ownMark_iff _

/-- A session whose events have been stored has a row. -/
theorem SinglyKept.session_none {s : Delivered}
    (h : SinglyKept session log times s) (hstored : log.take s.count = []) :
    s.tables.session = none := by
  have hsession := h.rows.session
  rw [hstored] at hsession
  simpa [storeEach] using hsession

theorem singlyKept_deliver (hlog : log.Pairwise (·.seq < ·.seq)) {s : Delivered} {d : Delivery}
    (h : SinglyKept session log times s) (hd : Resends log s d ∧ KeepsMark log s d) :
    SinglyKept session log times (deliver session log s d) := by
  have htake : log.take (s.count + d.fresh) =
      log.take s.count ++ (log.drop s.count).take d.fresh := List.take_add
  constructor
  · show SameRows (s.tables.storeEnvelope _ _) (storeEach session times {}
      (log.take (s.count + d.fresh)))
    rw [htake, storeEach_append]
    exact sameRows_storeEnvelope h.rows (newEvents_retried hlog h.rows hd.1 d.fresh)
      (follows_drop hlog s.count d.fresh) hd.2 d.receivedAt
  · show ((log.take (s.count + d.fresh)).head?.map (·.kind)) ≠ some .sessionEnded
    rw [htake]
    cases hstored : log.take s.count with
    | nil => exact hd.2.2 (h.session_none hstored)
    | cons event rest => simpa [hstored] using h.opened

end SessionTables

/-- **Batches and retries leave no trace.** When every envelope keeps the mark, the rows are at
every moment those of storing each event once and on its own, and the session is marked ended
exactly when its latest start or end is an end. -/
theorem stored_as_singly (session : WireSession) (times : WireEvent → Nat) {log : List WireEvent}
    (hlog : log.Pairwise (·.seq < ·.seq)) (deliveries : List Delivery)
    (hsteps : StepsMeet (deliver session log) (fun s d => Resends log s d ∧ KeepsMark log s d) {}
      deliveries) :
    StatesMeet (deliver session log) (StoredSingly session log times) {} deliveries := by
  refine statesMeet_of_stepsMeet (I := SessionTables.SinglyKept session log times)
    (fun s h => h.storedSingly hlog) (fun s d h hd => SessionTables.singlyKept_deliver hlog h hd)
    ?_ hsteps
  exact ⟨⟨rfl, fun _ => rfl, rfl, rfl⟩, by simp⟩

/-! ### A session that ended and one that did not -/

/-- An event of a kind that carries nothing. -/
def plainEvent (seq : Nat) (kind : WireKind) : WireEvent where
  seq := seq
  ts := seq
  kind := kind
  channel := none
  body := none
  subkind := none
  sender := none
  user := none
  users := none
  complete := none

def plainSession : WireSession where
  id := "00000000000000000000000000000000"
  product := .sc2
  clientVersion := "1"
  startedAt := 1

/-- A start, an end and a heartbeat after it. -/
def endedLog : List WireEvent :=
  [plainEvent 1 .sessionStarted, plainEvent 2 .sessionEnded, plainEvent 3 .heartbeat]

/-- The end comes last in its envelope, which repeats the start, and the heartbeat in one that
repeats both. -/
theorem stored_as_singly_ended :
    StatesMeet (deliver plainSession endedLog) (StoredSingly plainSession endedLog (·.ts)) {}
      [⟨[], 1, 5⟩, ⟨endedLog.take 1, 1, 6⟩, ⟨endedLog.take 2, 1, 7⟩] :=
  stored_as_singly plainSession (·.ts) (by decide)
    [⟨[], 1, 5⟩, ⟨endedLog.take 1, 1, 6⟩, ⟨endedLog.take 2, 1, 7⟩]
    ⟨⟨fun _ h => (nomatch h), by decide⟩, ⟨fun _ h => h, by decide⟩, ⟨fun _ h => h, by decide⟩,
      trivial⟩

/-- The heartbeat goes out with the end: the session stays open. -/
theorem heartbeat_hides_end :
    endedLog.Pairwise (·.seq < ·.seq) ∧ ¬ StoredSingly plainSession endedLog (·.ts)
      (run (deliver plainSession endedLog) {} [⟨[], 1, 5⟩, ⟨[], 2, 6⟩]) :=
  ⟨by decide, fun h => absurd (h.mark.2 (by decide)) (by decide)⟩

end Superiority
