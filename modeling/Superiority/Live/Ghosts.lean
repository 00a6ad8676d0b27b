import Superiority.Library.Run
import Superiority.Live.Accepted
import Superiority.Live.Sync

/-!
# Members of closed rooms

A roster row of a channel that is closed would be a ghost: it shows up again when the channel is
reopened. The statements of the store guard against it when they write rows, and `left` deletes
the rows of the channel it closes; `session_synced`, which closes the channels that the snapshot
did not touch, deletes none.

* **`NoGhosts`** – every roster row belongs to an open channel. Every event keeps it, except a
  `session_synced` that closes a channel with members.
* **`rooms_empty_iff`** – so it holds throughout the storing of any envelopes exactly when there
  is no such event.
-/

namespace Superiority

open Std

namespace SessionTables

variable {t : SessionTables}

/-- A roster row. -/
def member (t : SessionTables) (key : String) (handle : Nat) : Option RosterRow :=
  t.roster[key]?.bind fun members => members[handle]?

/-- There is a row of the channel, and it is not closed. -/
def IsOpen (t : SessionTables) (key : String) : Prop :=
  ∃ row, t.channels[key]? = some row ∧ row.closedAt = none

/-- Every roster row belongs to an open channel. -/
def NoGhosts (t : SessionTables) : Prop :=
  ∀ key handle, t.member key handle ≠ none → t.IsOpen key

/-- The event may write members of the channel. -/
def WritesMembers (event : WireEvent) (key : String) : Prop :=
  (event.kind = .memberJoined ∨ event.kind = .roster ∨ event.kind = .rosterDelta) ∧
    event.channel.map (·.key) = some key

/-- No closed room has members, and one that is reopened has none until members are written. -/
structure RoomsEmpty (t : SessionTables) : Prop where
  closed : t.NoGhosts
  reopened : ∀ key row, t.channels[key]? = some row → row.closedAt ≠ none →
    ∀ events : List (WireEvent × Nat), (∀ e ∈ events, ¬ WritesMembers e.1 key) →
      ∀ handle, (run (fun t e => t.statementsFor e.1 e.2) t events).member key handle = none

/-- The first statement for an event. -/
def touch (t : SessionTables) (event : WireEvent) : SessionTables :=
  match event.channel with
  | none => t
  | some channel => t.channelTouch channel event

theorem statementsFor_eq (event : WireEvent) (receivedAt : Nat) :
    t.statementsFor event receivedAt = (t.touch event).kindStatements event receivedAt := rfl

/-- The channels that `session_synced` closes have no members. -/
def ClosesEmpty (t : SessionTables) (event : WireEvent) : Prop :=
  event.kind = .sessionSynced → ∀ key row, (t.touch event).channels[key]? = some row →
    row.closedAt = none → row.lastSeq < (t.session.map (·.syncSeq)).getD 0 →
      ∀ handle, t.member key handle = none

/-! ## Single statements -/

/-- Statements that delete no channel, close none and write no member. -/
structure Keeps (t t' : SessionTables) : Prop where
  isOpen : ∀ key, t.IsOpen key → t'.IsOpen key
  member : ∀ key handle, t.member key handle = none → t'.member key handle = none

theorem Keeps.of_eq {t' : SessionTables} (hchannels : t'.channels = t.channels)
    (hroster : t'.roster = t.roster) : Keeps t t' where
  isOpen key h := by rwa [IsOpen, hchannels]
  member key handle h := by rwa [SessionTables.member, hroster]

theorem Keeps.noGhosts {t' : SessionTables} (h : Keeps t t') (ht : t.NoGhosts) : t'.NoGhosts :=
  fun key handle hmember => h.isOpen key (ht key handle (mt (h.member key handle) hmember))

theorem keeps_channelTouch (channel : WireChannel) (event : WireEvent) :
    Keeps t (t.channelTouch channel event) where
  isOpen key h := by
    obtain ⟨row, hrow, hopen⟩ := h
    unfold IsOpen channelTouch
    dsimp only
    by_cases hkey : channel.key = key
    · subst hkey
      simp [hrow]
    · rw [getElem?_insert_of_ne hkey]
      exact ⟨row, hrow, hopen⟩
  member _ _ h := h

theorem keeps_touch (event : WireEvent) : Keeps t (t.touch event) := by
  unfold touch
  cases event.channel with
  | none => exact Keeps.of_eq rfl rfl
  | some channel => exact keeps_channelTouch channel event

theorem keeps_transcriptRow (event : WireEvent) (key : String) (kind : MessageKind)
    (sender : Option WireUser) (body : String) :
    Keeps t (t.transcriptRow event key kind sender body) := Keeps.of_eq rfl rfl

/-- Deleting members deletes no channel. -/
theorem keeps_erase (key : String) : Keeps t { t with roster := t.roster.erase key } where
  isOpen _ h := h
  member other handle h := by
    unfold SessionTables.member at h ⊢
    simp only [ExtTreeMap.getElem?_erase]
    split_ifs
    · rfl
    · exact h

theorem member_rosterBulkUpsert_of_ne {key other : String} (hne : key ≠ other)
    (users : List WireUser) (seq ts handle : Nat) :
    (t.rosterBulkUpsert key users seq ts).member other handle = t.member other handle := by
  unfold rosterBulkUpsert
  split
  · rfl
  · split_ifs
    · rw [member, member, getElem?_insert_of_ne hne]
    · rfl

/-- Members are written into open channels only. -/
theorem noGhosts_rosterBulkUpsert (h : t.NoGhosts) (key : String) (users : List WireUser)
    (seq ts : Nat) : (t.rosterBulkUpsert key users seq ts).NoGhosts := by
  intro other handle hmember
  rw [IsOpen, channels_rosterBulkUpsert]
  by_cases hkey : key = other
  · subst hkey
    cases hrow : t.channels[key]? with
    | none =>
      simp only [rosterBulkUpsert, hrow] at hmember
      have hopen := h key handle hmember
      rwa [IsOpen, hrow] at hopen
    | some row =>
      by_cases hopen : row.closedAt = none
      · exact ⟨row, rfl, hopen⟩
      · simp only [rosterBulkUpsert, hrow, hopen, if_false] at hmember
        have hopen' := h key handle hmember
        rwa [IsOpen, hrow] at hopen'
  · rw [member_rosterBulkUpsert_of_ne hkey] at hmember
    exact h other handle hmember

theorem noGhosts_leftStatements (h : t.NoGhosts) (event : WireEvent) :
    (t.leftStatements event).NoGhosts := by
  unfold leftStatements
  cases event.channel with
  | none => exact h
  | some channel =>
    intro key handle hmember
    dsimp only [member] at hmember
    rw [ExtTreeMap.getElem?_erase] at hmember
    split_ifs at hmember with hkey
    · exact absurd rfl hmember
    · obtain ⟨row, hrow, hopen⟩ := h key handle hmember
      refine ⟨row, ?_, hopen⟩
      rw [ExtTreeMap.getElem?_modify, if_neg hkey]
      exact hrow

theorem keeps_memberErase (key : String) (handle : Nat) :
    Keeps t { t with roster := t.roster.modify key (·.erase handle) } where
  isOpen _ h := h
  member other other' h := by
    unfold SessionTables.member at h ⊢
    simp only [ExtTreeMap.getElem?_modify]
    split_ifs with hkey
    · rw [Std.compare_eq_iff_eq] at hkey
      subst hkey
      cases hmembers : t.roster[key]? with
      | none => rfl
      | some members =>
        rw [hmembers, Option.bind_some] at h
        simp [ExtTreeMap.getElem?_erase, h]
    · exact h

/-! ## Events -/

/-- The statements of `session_synced`, when the channels they close have no members. -/
theorem noGhosts_syncedStatements (h : t.NoGhosts) (event : WireEvent) (receivedAt : Nat)
    (hempty : ∀ key row, t.channels[key]? = some row → row.closedAt = none →
      row.lastSeq < (t.session.map (·.syncSeq)).getD 0 → ∀ handle, t.member key handle = none) :
    (t.syncedStatements event receivedAt).NoGhosts := by
  intro key handle hmember
  have hmember' : t.member key handle ≠ none := hmember
  obtain ⟨row, hrow, hopen⟩ := h key handle hmember'
  have hfresh : ¬ row.lastSeq < (t.session.map (·.syncSeq)).getD 0 := fun hstale =>
    hmember' (hempty key row hrow hopen hstale handle)
  refine ⟨row, ?_, hopen⟩
  simp only [syncedStatements, updateSession, ExtTreeMap.getElem?_map, hrow, Option.map_some]
  rw [closeUntouched, if_neg fun hclose => hfresh hclose.2]

theorem noGhosts_memberStatements (h : t.NoGhosts) (event : WireEvent) :
    (t.memberStatements event).NoGhosts := by
  unfold memberStatements
  split
  · rename_i channel user _ _
    by_cases hleft : event.kind = .memberLeft
    · rw [if_pos hleft]
      exact (keeps_memberErase channel.key user.handle).noGhosts
        ((keeps_transcriptRow event channel.key .memberLeft (some user) "").noGhosts h)
    · rw [if_neg hleft]
      exact noGhosts_rosterBulkUpsert
        ((keeps_transcriptRow event channel.key .memberJoined (some user) "").noGhosts h) _ _ _ _
  · exact h

theorem noGhosts_rosterStatements (h : t.NoGhosts) (event : WireEvent) :
    (t.rosterStatements event).NoGhosts := by
  unfold rosterStatements
  split
  · rename_i channel users _ _ _
    have hcleared := (keeps_erase channel.key).noGhosts h
    dsimp only
    split_ifs
    · exact noGhosts_rosterBulkUpsert hcleared _ _ _ _
    · exact hcleared
  · exact h

theorem noGhosts_rosterDeltaStatements (h : t.NoGhosts) (event : WireEvent) :
    (t.rosterDeltaStatements event).NoGhosts := by
  unfold rosterDeltaStatements
  split
  · dsimp only
    split_ifs
    · exact h
    · exact noGhosts_rosterBulkUpsert h _ _ _ _
  · exact h

/-- Lines of the transcript are no members. -/
theorem keeps_messageStatements (event : WireEvent) : Keeps t (t.messageStatements event) := by
  unfold messageStatements
  split <;> exact Keeps.of_eq rfl rfl

theorem keeps_noticeStatements (event : WireEvent) : Keeps t (t.noticeStatements event) := by
  unfold noticeStatements
  split
  · split_ifs <;> exact Keeps.of_eq rfl rfl
  · exact Keeps.of_eq rfl rfl

theorem session_touch (event : WireEvent) : (t.touch event).session = t.session := by
  unfold touch
  cases event.channel <;> rfl

theorem member_touch (event : WireEvent) (key : String) (handle : Nat) :
    (t.touch event).member key handle = t.member key handle := by
  unfold touch
  cases event.channel <;> rfl

/-- An event that closes no channel with members leaves no ghosts. -/
theorem noGhosts_statementsFor (h : t.NoGhosts) (event : WireEvent) (receivedAt : Nat)
    (hempty : t.ClosesEmpty event) : (t.statementsFor event receivedAt).NoGhosts := by
  have htouch := (keeps_touch event).noGhosts h
  rw [statementsFor_eq, kindStatements]
  cases hkind : event.kind with
  | sessionStarted => exact (Keeps.of_eq rfl rfl).noGhosts htouch
  | syncStarted => exact (Keeps.of_eq rfl rfl).noGhosts htouch
  | sessionSynced =>
    refine noGhosts_syncedStatements htouch event receivedAt fun key row hrow hopen hstale handle => ?_
    rw [session_touch] at hstale
    rw [member_touch]
    exact hempty hkind key row hrow hopen hstale handle
  | left => exact noGhosts_leftStatements htouch event
  | message => exact (keeps_messageStatements event).noGhosts htouch
  | notice => exact (keeps_noticeStatements event).noGhosts htouch
  | memberJoined => exact noGhosts_memberStatements htouch event
  | memberLeft => exact noGhosts_memberStatements htouch event
  | roster => exact noGhosts_rosterStatements htouch event
  | rosterDelta => exact noGhosts_rosterDeltaStatements htouch event
  | heartbeat => exact htouch
  | joined => exact htouch
  | sessionEnded => exact htouch
  | dropped => exact htouch

/-- A `session_synced` that closes a channel with members makes them ghosts. -/
theorem ghosts_of_not_closesEmpty {event : WireEvent} (receivedAt : Nat)
    (hghosts : ¬ t.ClosesEmpty event) : ¬ (t.statementsFor event receivedAt).NoGhosts := by
  unfold ClosesEmpty at hghosts
  push Not at hghosts
  obtain ⟨hkind, key, row, hrow, hopen, hstale, handle, hmember⟩ := hghosts
  intro h
  rw [statementsFor_eq, kindStatements, hkind] at h
  obtain ⟨closed, hclosed, hopen'⟩ := h key handle (by
    change (t.touch event).member key handle ≠ none
    rwa [member_touch])
  dsimp only [syncedStatements, updateSession] at hclosed
  rw [ExtTreeMap.getElem?_map, hrow, session_touch, Option.map_some, closeUntouched,
    if_pos ⟨hopen, hstale⟩, Option.some.injEq] at hclosed
  rw [← hclosed] at hopen'
  cases hopen'

/-! ## Reopened channels -/

/-- Statements that write no member of a channel without members leave it without. -/
theorem member_statementsFor_none {event : WireEvent} {key : String}
    (hwrites : ¬ WritesMembers event key) (receivedAt : Nat) {handle : Nat}
    (h : t.member key handle = none) :
    (t.statementsFor event receivedAt).member key handle = none := by
  have htouch : (t.touch event).member key handle = none := by rwa [member_touch]
  rw [statementsFor_eq, kindStatements]
  cases hkind : event.kind with
  | sessionStarted => exact htouch
  | syncStarted => exact htouch
  | sessionSynced => exact htouch
  | left =>
    dsimp only [leftStatements]
    cases event.channel with
    | none => exact htouch
    | some channel => exact (keeps_erase channel.key).member key handle htouch
  | message => exact (keeps_messageStatements event).member key handle htouch
  | notice => exact (keeps_noticeStatements event).member key handle htouch
  | memberJoined =>
    dsimp only [memberStatements]
    split
    · rename_i channel user hchannel _
      have hne : channel.key ≠ key := by
        rintro rfl
        exact hwrites ⟨.inl hkind, by rw [hchannel]; rfl⟩
      rw [hkind, if_neg (by decide), member_rosterBulkUpsert_of_ne hne]
      exact htouch
    · exact htouch
  | memberLeft =>
    dsimp only [memberStatements]
    split
    · rename_i channel user _ _
      rw [if_pos hkind]
      exact (keeps_memberErase channel.key user.handle).member key handle htouch
    · exact htouch
  | roster =>
    dsimp only [rosterStatements]
    split
    · rename_i channel users hchannel _ _
      have hne : channel.key ≠ key := by
        rintro rfl
        exact hwrites ⟨.inr (.inl hkind), by rw [hchannel]; rfl⟩
      have hcleared := (keeps_erase channel.key).member key handle htouch
      split_ifs
      · rw [member_rosterBulkUpsert_of_ne hne]
        exact hcleared
      · exact hcleared
    · exact htouch
  | rosterDelta =>
    dsimp only [rosterDeltaStatements]
    split
    · rename_i channel users hchannel _
      have hne : channel.key ≠ key := by
        rintro rfl
        exact hwrites ⟨.inr (.inr hkind), by rw [hchannel]; rfl⟩
      split_ifs
      · exact htouch
      · rw [member_rosterBulkUpsert_of_ne hne]
        exact htouch
    · exact htouch
  | heartbeat => exact htouch
  | joined => exact htouch
  | sessionEnded => exact htouch
  | dropped => exact htouch

theorem member_run_none {key : String} {events : List (WireEvent × Nat)}
    (hwrites : ∀ e ∈ events, ¬ WritesMembers e.1 key) {handle : Nat}
    (h : t.member key handle = none) :
    (run (fun t e => t.statementsFor e.1 e.2) t events).member key handle = none := by
  induction events generalizing t with
  | nil => exact h
  | cons e events ih =>
    exact ih (fun e' he' => hwrites e' (List.mem_cons_of_mem _ he'))
      (member_statementsFor_none (hwrites e List.mem_cons_self) e.2 h)

theorem roomsEmpty_iff : t.RoomsEmpty ↔ t.NoGhosts := by
  refine ⟨RoomsEmpty.closed, fun h => ⟨h, ?_⟩⟩
  intro key row hrow hclosed events hwrites handle
  refine member_run_none hwrites ?_
  by_contra hmember
  obtain ⟨row', hrow', hopen⟩ := h key handle hmember
  rw [hrow, Option.some.injEq] at hrow'
  exact hclosed (hrow' ▸ hopen)

/-! ## Envelopes -/

/-- One event and the time its envelope arrived at. -/
def storeEvent (t : SessionTables) (e : WireEvent × Nat) : SessionTables :=
  t.statementsFor e.1 e.2

/-- The tables that the statements for an envelope's events start from. -/
def opened (t : SessionTables) (envelope : WireEnvelope) (receivedAt : Nat) : SessionTables :=
  match (t.newEvents envelope.events).getLast? with
  | none => t
  | some newest => t.sessionUpkeep envelope.session newest receivedAt

/-- What is stored of an envelope. -/
def stored (t : SessionTables) (envelope : WireEnvelope) (receivedAt : Nat) :
    List (WireEvent × Nat) :=
  (t.newEvents envelope.events).map fun event => (event, receivedAt)

theorem storeEnvelope_eq (envelope : WireEnvelope) (receivedAt : Nat) :
    t.storeEnvelope envelope receivedAt =
      run storeEvent (t.opened envelope receivedAt) (t.stored envelope receivedAt) := by
  unfold storeEnvelope opened stored
  cases hnewest : (t.newEvents envelope.events).getLast? with
  | none =>
    rw [List.getLast?_eq_none_iff] at hnewest
    rw [hnewest]
    rfl
  | some newest =>
    simp only [hnewest, run, List.foldl_map]
    rfl

theorem noGhosts_opened (h : t.NoGhosts) (envelope : WireEnvelope) (receivedAt : Nat) :
    (t.opened envelope receivedAt).NoGhosts := by
  unfold opened
  split
  · exact h
  · exact (Keeps.of_eq rfl rfl).noGhosts h

end SessionTables

/-! ## The database -/

/-- A body that arrives at the ingest route of a feed. -/
structure IngestPost where
  feed : String
  data : Js
  receivedAt : Nat

/-- The tables of every session, by feed and session id. -/
abbrev Database := String × String → SessionTables

namespace Database

open SessionTables

/-- The row key of a session. -/
def sessionKey (p : IngestPost) (envelope : WireEnvelope) : String × String :=
  (p.feed, envelope.session.id)

/-- A body that passes its check is stored in the tables of its session. -/
def ingest (db : Database) (p : IngestPost) : Database :=
  match validateEnvelope p.data with
  | .error _ => db
  | .ok envelope =>
    let key := sessionKey p envelope
    Function.update db key ((db key).storeEnvelope envelope p.receivedAt)

/-- No session has members in a closed room. -/
def RoomsEmpty (db : Database) : Prop := ∀ key, (db key).RoomsEmpty

/-- While an envelope is stored, no closed room has members, not even between two events. -/
def RoomsEmptyThroughout (db : Database) (p : IngestPost) : Prop :=
  ∀ envelope, validateEnvelope p.data = .ok envelope →
    StatesMeet storeEvent SessionTables.RoomsEmpty
      ((db (sessionKey p envelope)).opened envelope p.receivedAt)
      ((db (sessionKey p envelope)).stored envelope p.receivedAt)

/-- No `session_synced` of the envelope closes a channel that has members. -/
def ClosesOnlyEmpty (db : Database) (p : IngestPost) : Prop :=
  ∀ envelope, validateEnvelope p.data = .ok envelope →
    StepsMeet storeEvent (fun t e => t.ClosesEmpty e.1)
      ((db (sessionKey p envelope)).opened envelope p.receivedAt)
      ((db (sessionKey p envelope)).stored envelope p.receivedAt)

variable {db : Database} {p : IngestPost}

theorem roomsEmptyThroughout_iff (h : ∀ key, (db key).NoGhosts) :
    db.RoomsEmptyThroughout p ↔ db.ClosesOnlyEmpty p := by
  refine forall₂_congr fun envelope _ => ?_
  exact statesMeet_iff_stepsMeet (I := NoGhosts) (fun _ h => roomsEmpty_iff.2 h)
    (fun _ e h hempty => noGhosts_statementsFor h e.1 e.2 hempty)
    (fun _ e _ hghosts h => ghosts_of_not_closesEmpty e.2 hghosts h.closed)
    (noGhosts_opened (h _) envelope p.receivedAt)

theorem noGhosts_ingest (h : ∀ key, (db key).NoGhosts) (hp : db.ClosesOnlyEmpty p) (key) :
    (db.ingest p key).NoGhosts := by
  unfold ingest
  cases henvelope : validateEnvelope p.data with
  | error _ => exact h key
  | ok envelope =>
    dsimp only
    by_cases hkey : key = sessionKey p envelope
    · subst hkey
      rw [Function.update_self, storeEnvelope_eq]
      exact run_invariant (I := NoGhosts)
        (fun _ e h hempty => noGhosts_statementsFor h e.1 e.2 hempty)
        (noGhosts_opened (h _) envelope p.receivedAt) (hp envelope henvelope)
    · rw [Function.update_of_ne hkey]
      exact h key

theorem noGhosts_empty : SessionTables.NoGhosts {} := by
  intro key handle hmember
  exact absurd rfl hmember

/-- **Closed rooms without members.** Whatever is posted to whatever feed, no closed room has
members at any time exactly when no `session_synced` closes a channel that has some. -/
theorem rooms_empty_iff (posts : List IngestPost) :
    (StepsMeet ingest RoomsEmptyThroughout (fun _ => {}) posts ↔
      StepsMeet ingest ClosesOnlyEmpty (fun _ => {}) posts) ∧
    (StepsMeet ingest ClosesOnlyEmpty (fun _ => {}) posts →
      StatesMeet ingest RoomsEmpty (fun _ => {}) posts) := by
  constructor
  · exact stepsMeet_congr (A := fun _ _ => True) (I := fun db => ∀ key, (db key).NoGhosts)
      (fun _ _ h _ => roomsEmptyThroughout_iff h) (fun _ _ h _ hp => noGhosts_ingest h hp)
      (fun _ => noGhosts_empty) (stepsMeet_true _ _ _)
  · exact statesMeet_of_stepsMeet (fun _ h key => roomsEmpty_iff.2 (h key))
      (fun _ _ h hp => noGhosts_ingest h hp) (fun _ => noGhosts_empty)

/-- A club with one member that the snapshot after a reconnection leaves out. -/
def omittedClub : List EventDto :=
  let club : ChannelRef := ⟨"club:5", some "Raynor's Raiders"⟩
  let member : UserRef := ⟨7, some "Kerrigan", none, none, none, none, none, none, none⟩
  [⟨1, 1, .joined club⟩, ⟨2, 2, .roster club true 1 [member]⟩, ⟨3, 3, .syncStarted⟩,
    ⟨4, 4, .sessionSynced⟩]

def omittedInfo : SessionMeta := ⟨"00000000000000000000000000000000", "sc2", "1", 1⟩

def omittedPost : IngestPost where
  feed := "feed"
  data := envelopeJs omittedInfo omittedClub
  receivedAt := 5

/-- What is stored of it. -/
def omittedTables : SessionTables :=
  SessionTables.storeEnvelope {} ⟨⟨omittedInfo.id, .sc2, omittedInfo.clientVersion,
    omittedInfo.startedAt⟩, omittedClub.map EventDto.wire⟩ 5

/-- The club is closed with its member in it. -/
theorem omittedPost_ghosts : ¬ StatesMeet ingest RoomsEmpty (fun _ => {}) [omittedPost] := by
  have hinfo : omittedInfo.Conforms := ⟨by decide, rfl, by decide, by decide⟩
  have hvalid := validateEnvelope_batch hinfo
    (show ∀ dto ∈ omittedClub, dto.Conforms by decide +kernel) (by decide) (by decide) (by decide)
  have hstored : run ingest (fun _ => {}) [omittedPost] ("feed", omittedInfo.id) =
      omittedTables := by
    rw [run_cons, run_nil, ingest, omittedPost, hvalid]
    exact Function.update_self _ _ _
  have hclosed : omittedTables.channels["club:5"]?.bind (·.closedAt) = some 5 := by
    decide +kernel
  intro h
  have hrooms := h.last ("feed", omittedInfo.id)
  rw [hstored] at hrooms
  obtain ⟨row, hrow, hopen⟩ := hrooms.closed "club:5" 7 (by decide +kernel)
  rw [hrow, Option.bind_some, hopen] at hclosed
  cases hclosed

end Database

end Superiority
