import Superiority.Live.Serialize
import Superiority.Live.StoreBatching

/-!
# Storing a reconciliation

The store closes what a reconciliation does not name and takes over every roster it brings. Wire
events are checked and stored one by one here, as they are emitted.

* **`Ready`** – the session is open and nothing stored is as new as the next event.
* **`Restored`** – how far a reconciliation has got: what it has touched is open and has the
  rosters it brought, everything else is older than its start.
* **`mirrors_of_reconciliation`** – after its `session_synced` the open channels are those it
  named, each with the users it brought.
-/

namespace Superiority

open Std

namespace SessionTables

/-! ## Storing wire events -/

/-- Checks and stores one event. -/
def storeDto (session : WireSession) (times : Nat → Nat) (t : SessionTables) (dto : EventDto) :
    SessionTables :=
  match validateEvent dto.toJs 0 with
  | .ok event => t.storeEnvelope ⟨session, [event]⟩ (times dto.seq)
  | .error _ => t

def storeDtos (session : WireSession) (times : Nat → Nat) (t : SessionTables)
    (dtos : List EventDto) : SessionTables :=
  dtos.foldl (storeDto session times) t

/-- The session is open and everything stored is older than the event with the given number. -/
structure Ready (t : SessionTables) (seq : Nat) : Prop where
  session : ∃ row, t.session = some row ∧ row.endedAt = none ∧ row.lastSeq < seq
  channels : ∀ (key : String) row, t.channels[key]? = some row → row.lastSeq < seq

variable {t : SessionTables} {session : WireSession} {times : Nat → Nat}

/-- A conforming event that is new is stored as it was sent. -/
theorem storeDto_eq {dto : EventDto} (hconforms : dto.Conforms)
    (hnew : ∀ row, t.session = some row → row.lastSeq < dto.seq) :
    t.storeDto session times dto =
      (t.sessionUpkeep session dto.wire (times dto.seq)).statementsFor dto.wire
        (times dto.seq) := by
  have hfollows : Follows t [dto.wire] := by
    refine ⟨fun row hrow event hevent => ?_, List.pairwise_singleton _ _⟩
    rw [List.mem_singleton.1 hevent]
    exact hnew row hrow
  rw [storeDto, validateEvent_iff.2 ⟨hconforms, rfl⟩]
  exact storeEnvelope_of_newEvents hfollows.newEvents_eq (times dto.seq)

/-! ## What statements do to channels -/

@[simp] theorem channels_transcriptRow (event : WireEvent) (key : String) (kind : MessageKind)
    (sender : Option WireUser) (body : String) :
    (t.transcriptRow event key kind sender body).channels = t.channels := rfl

@[simp] theorem channels_rosterBulkUpsert (key : String) (users : List WireUser) (seq ts : Nat) :
    (t.rosterBulkUpsert key users seq ts).channels = t.channels := by
  unfold rosterBulkUpsert
  split
  · rfl
  · split_ifs <;> rfl

theorem channels_messageStatements (event : WireEvent) :
    (t.messageStatements event).channels = t.channels := by
  unfold messageStatements
  split <;> rfl

theorem channels_noticeStatements (event : WireEvent) :
    (t.noticeStatements event).channels = t.channels := by
  unfold noticeStatements
  split
  · split_ifs <;> rfl
  · rfl

theorem channels_memberStatements (event : WireEvent) :
    (t.memberStatements event).channels = t.channels := by
  unfold memberStatements
  split
  · split_ifs <;> simp
  · rfl

theorem channels_rosterStatements (event : WireEvent) :
    (t.rosterStatements event).channels = t.channels := by
  unfold rosterStatements
  split
  · dsimp only
    split_ifs <;> simp
  · rfl

theorem channels_rosterDeltaStatements (event : WireEvent) :
    (t.rosterDeltaStatements event).channels = t.channels := by
  unfold rosterDeltaStatements
  split
  · dsimp only
    split_ifs <;> simp
  · rfl

/-- Every channel is older than the given number. -/
def ChannelsBelow (t : SessionTables) (seq : Nat) : Prop :=
  ∀ (key : String) row, t.channels[key]? = some row → row.lastSeq < seq

theorem channelsBelow_channelTouch {seq : Nat} (h : ChannelsBelow t seq) (channel : WireChannel)
    {event : WireEvent} (hevent : event.seq < seq) :
    ChannelsBelow (t.channelTouch channel event) seq := by
  intro key row hrow
  simp only [channelTouch, ExtTreeMap.getElem?_insert, Std.compare_eq_iff_eq] at hrow
  by_cases hkey : channel.key = key
  · rw [if_pos hkey] at hrow
    cases hold : t.channels[channel.key]? with
    | none =>
      rw [hold, Option.some.injEq] at hrow
      rw [← hrow]
      exact hevent
    | some old =>
      rw [hold, Option.some.injEq] at hrow
      rw [← hrow]
      exact max_lt (h _ old hold) hevent
  · rw [if_neg hkey] at hrow
    exact h key row hrow

theorem channelsBelow_leftStatements {seq : Nat} (h : ChannelsBelow t seq) {event : WireEvent}
    (hevent : event.seq < seq) : ChannelsBelow (t.leftStatements event) seq := by
  unfold leftStatements
  cases event.channel with
  | none => exact h
  | some channel =>
    intro key row hrow
    simp only [ExtTreeMap.getElem?_modify, Std.compare_eq_iff_eq] at hrow
    split_ifs at hrow
    · obtain ⟨old, -, hnew⟩ := Option.map_eq_some_iff.1 hrow
      rw [← hnew]
      exact hevent
    · exact h key row hrow

theorem lastSeq_closeUntouched (syncSeq receivedAt : Nat) (row : ChannelRow) :
    (closeUntouched syncSeq receivedAt row).lastSeq = row.lastSeq := by
  unfold closeUntouched
  split_ifs <;> rfl

theorem channelsBelow_syncedStatements {seq : Nat} (h : ChannelsBelow t seq) (event : WireEvent)
    (receivedAt : Nat) : ChannelsBelow (t.syncedStatements event receivedAt) seq := by
  intro key row hrow
  simp only [syncedStatements, updateSession, ExtTreeMap.getElem?_map] at hrow
  obtain ⟨old, hold, hnew⟩ := Option.map_eq_some_iff.1 hrow
  rw [← hnew, lastSeq_closeUntouched]
  exact h key old hold

theorem channelsBelow_kindStatements {seq : Nat} (h : ChannelsBelow t seq) {event : WireEvent}
    (hevent : event.seq < seq) (receivedAt : Nat) :
    ChannelsBelow (t.kindStatements event receivedAt) seq := by
  unfold kindStatements
  cases event.kind with
  | left => exact channelsBelow_leftStatements h hevent
  | message => rwa [ChannelsBelow, channels_messageStatements]
  | notice => rwa [ChannelsBelow, channels_noticeStatements]
  | memberJoined => rwa [ChannelsBelow, channels_memberStatements]
  | memberLeft => rwa [ChannelsBelow, channels_memberStatements]
  | roster => rwa [ChannelsBelow, channels_rosterStatements]
  | rosterDelta => rwa [ChannelsBelow, channels_rosterDeltaStatements]
  | sessionSynced => exact channelsBelow_syncedStatements h event receivedAt
  | _ => exact h

theorem channelsBelow_statementsFor {seq : Nat} (h : ChannelsBelow t seq) {event : WireEvent}
    (hevent : event.seq < seq) (receivedAt : Nat) :
    ChannelsBelow (t.statementsFor event receivedAt) seq := by
  unfold statementsFor
  cases event.channel with
  | none => exact channelsBelow_kindStatements h hevent receivedAt
  | some channel =>
    exact channelsBelow_kindStatements (channelsBelow_channelTouch h channel hevent) hevent
      receivedAt

/-- The upkeep of an event that is no end leaves an open session open. -/
theorem session_sessionUpkeep_open (session : WireSession) {row : SessionRow}
    (hrow : t.session = some row) (hended : row.endedAt = none) {event : WireEvent}
    (hkind : event.kind ≠ .sessionEnded)
    (time : Nat) :
    ∃ row', (t.sessionUpkeep session event time).session = some row' ∧ row'.endedAt = none ∧
      row'.lastSeq = max row.lastSeq event.seq ∧ row'.syncSeq = row.syncSeq := by
  have hnot : ¬ (event.seq > row.lastSeq ∧ event.kind = .sessionEnded) := fun h => hkind h.2
  have hsession : (t.sessionUpkeep session event time).session = some { row with
      product := session.product
      lastSeenAt := max row.lastSeenAt time
      lastSeq := max row.lastSeq event.seq
      endedAt := none } := by
    simp only [sessionUpkeep, hrow, if_neg hnot, hended]
  exact ⟨_, hsession, rfl, rfl, rfl⟩

theorem sessionUpdate_open {row : SessionRow} (hended : row.endedAt = none) (event : WireEvent) :
    (sessionUpdate event row).endedAt = none ∧
      (event.kind ≠ .sessionStarted → (sessionUpdate event row).syncSeq =
        if event.kind = .syncStarted then event.seq else row.syncSeq) := by
  constructor
  · rw [sessionUpdate_endedAt, hended, ite_self]
  · intro hstart
    unfold sessionUpdate
    cases hkind : event.kind with
    | sessionStarted => exact absurd hkind hstart
    | syncStarted => simp [hended]
    | sessionSynced => simp [hended]
    | _ => rfl

/-- The session's row after an event that does not end it. -/
theorem session_storeDto (session : WireSession) (times : Nat → Nat) {dto : EventDto}
    {row : SessionRow} (hconforms : dto.Conforms)
    (hrow : t.session = some row) (hended : row.endedAt = none) (hseq : row.lastSeq < dto.seq)
    (hkind : dto.kind.wireKind ≠ .sessionEnded) :
    ∃ row', (t.storeDto session times dto).session = some row' ∧ row'.endedAt = none ∧
      row'.lastSeq < dto.seq + 1 ∧
      (dto.kind.wireKind ≠ .sessionStarted → row'.syncSeq =
        if dto.kind.wireKind = .syncStarted then dto.seq else row.syncSeq) := by
  obtain ⟨kept, hkept, hopen, hlast, hsync⟩ := session_sessionUpkeep_open session hrow
    hended (show dto.wire.kind ≠ .sessionEnded from hkind) (times dto.seq)
  obtain ⟨hopen', hsync'⟩ := sessionUpdate_open hopen dto.wire
  rw [storeDto_eq hconforms fun row' hrow' => by
    obtain rfl := Option.some.inj (hrow.symm.trans hrow')
    exact hseq]
  refine ⟨_, by rw [session_statementsFor, hkept, Option.map_some], hopen', ?_, fun hstart => ?_⟩
  · rw [sessionUpdate_lastSeq, hlast]
    exact max_lt (Nat.lt_succ_of_lt hseq) (Nat.lt_succ_self dto.seq)
  · rw [hsync' hstart, hsync]
    rfl

theorem Ready.newer {seq : Nat} (h : Ready t seq) :
    ∀ row, t.session = some row → row.lastSeq < seq := by
  intro row' hrow'
  obtain ⟨row, hrow, -, hseq⟩ := h.session
  obtain rfl := Option.some.inj (hrow.symm.trans hrow')
  exact hseq

theorem channelsBelow_storeDto (session : WireSession) (times : Nat → Nat) {dto : EventDto}
    (h : Ready t dto.seq) (hconforms : dto.Conforms) :
    ChannelsBelow (t.storeDto session times dto) (dto.seq + 1) := by
  have hbelow : ChannelsBelow (t.sessionUpkeep session dto.wire (times dto.seq))
      (dto.seq + 1) := fun key row hrow => Nat.lt_succ_of_lt (h.channels key row hrow)
  have hseq : dto.wire.seq < dto.seq + 1 := Nat.lt_succ_self dto.seq
  rw [storeDto_eq hconforms h.newer]
  exact channelsBelow_statementsFor hbelow hseq (times dto.seq)

/-- Storing any event but an end keeps the store ready for the next one. -/
theorem ready_storeDto (session : WireSession) (times : Nat → Nat) {dto : EventDto}
    (h : Ready t dto.seq) (hconforms : dto.Conforms)
    (hkind : dto.kind.wireKind ≠ .sessionEnded) :
    Ready (t.storeDto session times dto) (dto.seq + 1) := by
  obtain ⟨row, hrow, hended, hseq⟩ := h.session
  obtain ⟨row', hrow', hended', hseq', -⟩ := session_storeDto session times
    hconforms hrow hended hseq hkind
  exact ⟨⟨row', hrow', hended', hseq'⟩, channelsBelow_storeDto session times h hconforms⟩

/-! ## Rosters -/

end SessionTables

/-- What is shown of a member: the columns that the client's mirror has too. -/
@[ext] structure RosterView where
  handle : Nat
  name : Option String
  clanTag : Option String
  presence : String
  isLocal : Bool
  joinedOrder : Option Nat
  deriving DecidableEq, Repr

/-- A stored member. -/
def RosterRow.view (handle : Nat) (row : RosterRow) : RosterView where
  handle := handle
  name := row.name
  clanTag := row.clanTag
  presence := row.presence
  isLocal := row.isLocal
  joinedOrder := row.joinedOrder

/-- A member as the client mirrors it. -/
def UserRef.view (user : UserRef) : RosterView where
  handle := user.handle.toNat
  name := user.name
  clanTag := user.clanTag
  presence := user.presence.getD ""
  isLocal := user.isLocal = some true
  joinedOrder := user.joinedOrder

/-- The members a channel has in the store. -/
def storedViews (members : Members) : Set RosterView :=
  {view | ∃ row, members[view.handle]? = some row ∧ row.view view.handle = view}

/-- The members a list of users shows. -/
def userViews (users : List UserRef) : Set RosterView := {view | ∃ user ∈ users, user.view = view}

namespace SessionTables

variable {t : SessionTables} {session : WireSession} {times : Nat → Nat}

theorem storedViews_empty : storedViews ∅ = ∅ := by
  ext view
  simp [storedViews]

theorem storedViews_insert {members : Members} {handle : Nat} (h : members[handle]? = none)
    (row : RosterRow) :
    storedViews (members.insert handle row) = insert (row.view handle) (storedViews members) := by
  ext view
  simp only [storedViews, Set.mem_ofPred_eq, Set.mem_insert_iff, ExtTreeMap.getElem?_insert,
    Std.compare_eq_iff_eq]
  by_cases hhandle : handle = view.handle
  · rw [if_pos hhandle, ← hhandle, h]
    simp [eq_comm]
  · rw [if_neg hhandle]
    have hne : view ≠ row.view handle := fun hview => hhandle (by rw [hview]; rfl)
    simp [hne]

/-- A new member gets the row of the user as it was sent. -/
theorem upsertMember_new {members : Members} {user : UserRef} (hpass : user.FieldsPass)
    (hnew : members[user.handle.toNat]? = none) (seq ts : Nat) :
    ∃ wire row, userField (some user.toJs) = some wire ∧
      upsertMember members wire seq ts = members.insert user.handle.toNat row ∧
      row.view user.handle.toNat = user.view := by
  obtain ⟨wire, hwire, hhandle, hname, hclanTag, hpresence, hisLocal, hjoinedOrder⟩ :=
    user.userField_toJs hpass
  refine ⟨wire, rosterRow wire seq ts, hwire, ?_, ?_⟩
  · simp only [upsertMember, hhandle, hnew]
  · simp only [RosterRow.view, rosterRow, UserRef.view, hname, hclanTag, hpresence, hisLocal,
      hjoinedOrder]

/-- Users with different handles, none of them stored yet, are all added. -/
theorem storedViews_upserts {users : List UserRef} {members : Members} (seq ts : Nat)
    (hpass : ∀ user ∈ users, user.FieldsPass)
    (hnodup : (users.map (·.handle)).Nodup)
    (hnew : ∀ user ∈ users, members[user.handle.toNat]? = none) :
    storedViews ((usersOf (users.map UserRef.toJs)).foldl
        (fun members user => upsertMember members user seq ts) members) =
      storedViews members ∪ userViews users := by
  induction users generalizing members with
  | nil => simp [usersOf, userViews]
  | cons user users ih =>
    obtain ⟨wire, row, hwire, hupsert, hview⟩ := upsertMember_new (hpass user (by simp))
      (hnew user (by simp)) seq ts
    rw [List.map_cons, List.nodup_cons] at hnodup
    have hstep : usersOf ((user :: users).map UserRef.toJs) =
        wire :: usersOf (users.map UserRef.toJs) := by
      simp [usersOf, hwire]
    rw [hstep, List.foldl_cons, hupsert, ih (fun u hu => hpass u (by simp [hu])) hnodup.2]
    · rw [storedViews_insert (hnew user (by simp)), hview]
      ext view
      simp only [userViews, Set.mem_union, Set.mem_insert_iff, Set.mem_ofPred_eq, List.mem_cons,
        exists_eq_or_imp]
      tauto
    · intro other hother
      rw [ExtTreeMap.getElem?_insert, if_neg, hnew other (by simp [hother])]
      rw [Std.compare_eq_iff_eq, UInt32.toNat_inj]
      intro heq
      exact hnodup.1 (heq ▸ List.mem_map_of_mem hother)

/-- A complete roster of an open channel replaces what the channel had. -/
theorem storedViews_rosterStatements {dto : EventDto} {channel : ChannelRef} {count : Nat}
    {users : List UserRef} (hkind : dto.kind = .roster channel true count users)
    (hopen : ∃ row, t.channels[channel.key]? = some row ∧ row.closedAt = none)
    (hpass : ∀ user ∈ users, user.FieldsPass) (hnodup : (users.map (·.handle)).Nodup) :
    storedViews ((t.rosterStatements dto.wire).roster[channel.key]?.getD ∅) = userViews users ∧
      ∀ key : String, key ≠ channel.key →
        (t.rosterStatements dto.wire).roster[key]? = t.roster[key]? := by
  obtain ⟨row, hrow, hclosed⟩ := hopen
  have hviews := @storedViews_upserts users ∅ dto.seq dto.ts hpass hnodup
    fun _ _ => ExtTreeMap.getElem?_empty
  rw [storedViews_empty, Set.empty_union] at hviews
  simp only [rosterStatements, EventDto.wire, hkind, EventKind.channel?, EventKind.users?,
    EventKind.complete?, Option.map_some]
  split_ifs with hlength
  · simp only [rosterBulkUpsert, hrow, hclosed, if_true]
    have hnone : (t.roster.erase channel.key)[channel.key]? = none :=
      ExtTreeMap.getElem?_erase_self
    rw [hnone]
    refine ⟨?_, fun key hkey => ?_⟩
    · rw [ExtTreeMap.getElem?_insert_self, Option.getD_some]
      exact hviews
    · rw [ExtTreeMap.getElem?_insert, if_neg (by simpa using Ne.symm hkey),
        ExtTreeMap.getElem?_erase, if_neg (by simpa using Ne.symm hkey)]
  · have hnil : usersOf (users.map UserRef.toJs) = [] := by
      simpa [List.length_pos_iff] using hlength
    rw [hnil] at hviews
    refine ⟨?_, fun key hkey => ?_⟩
    · rw [ExtTreeMap.getElem?_erase_self, Option.getD_none]
      exact hviews
    · rw [ExtTreeMap.getElem?_erase, if_neg (by simpa using Ne.symm hkey)]

/-! ## A reconciliation, event by event -/

/-- What the store holds in the middle of a reconciliation that began with number `start` and has
brought the rosters in `brought`. -/
structure Restored (t : SessionTables) (start next : Nat) (brought : List (String × List UserRef)) :
    Prop where
  session : ∃ row, t.session = some row ∧ row.endedAt = none ∧ row.lastSeq < next ∧
    row.syncSeq = start
  touched : ∀ key ∈ brought.map (·.1), ∃ row, t.channels[key]? = some row ∧
    row.closedAt = none ∧ start ≤ row.lastSeq
  untouched : ∀ key ∉ brought.map (·.1), ∀ row, t.channels[key]? = some row → row.lastSeq < start
  rosters : ∀ entry ∈ brought, storedViews (t.roster[entry.1]?.getD ∅) = userViews entry.2

theorem storeDto_syncStarted (session : WireSession) (times : Nat → Nat) {dto : EventDto}
    (h : Ready t dto.seq) (hconforms : dto.Conforms)
    (hkind : dto.kind = .syncStarted) :
    Restored (t.storeDto session times dto) dto.seq (dto.seq + 1) [] := by
  obtain ⟨row, hrow, hended, hseq⟩ := h.session
  obtain ⟨row', hrow', hended', hseq', hsync⟩ := session_storeDto session times
    hconforms hrow hended hseq (by rw [hkind]; nofun)
  refine ⟨⟨row', hrow', hended', hseq', ?_⟩, by simp, fun key _ row hrow => ?_, by simp⟩
  · rw [hsync (by rw [hkind]; nofun), hkind]
    rfl
  · rw [storeDto_eq hconforms h.newer, statementsFor, kindStatements] at hrow
    simp only [EventDto.wire, hkind, EventKind.channel?, EventKind.wireKind,
      Option.map_none] at hrow
    exact h.channels key row hrow

/-- In the middle of a reconciliation everything is older than the next event. -/
theorem Restored.newer {start next : Nat} {brought : List (String × List UserRef)}
    (h : Restored t start next brought) :
    ∀ row, t.session = some row → row.lastSeq < next := by
  intro row' hrow'
  obtain ⟨row, hrow, -, hseq, -⟩ := h.session
  obtain rfl := Option.some.inj (hrow.symm.trans hrow')
  exact hseq

theorem getElem?_channelTouch (channel : WireChannel) (event : WireEvent) :
    (∃ row, (t.channelTouch channel event).channels[channel.key]? = some row ∧
      row.closedAt = none ∧ event.seq ≤ row.lastSeq) ∧
    ∀ key : String, key ≠ channel.key →
      (t.channelTouch channel event).channels[key]? = t.channels[key]? := by
  constructor
  · refine ⟨_, by rw [channelTouch, ExtTreeMap.getElem?_insert_self], ?_, ?_⟩
    · cases t.channels[channel.key]? <;> rfl
    · cases t.channels[channel.key]? with
      | none => exact Nat.le_refl event.seq
      | some row => exact le_max_right row.lastSeq event.seq
  · intro key hkey
    rw [channelTouch, ExtTreeMap.getElem?_insert, if_neg (by simpa using Ne.symm hkey)]

/-- A roster of the reconciliation opens its channel and replaces its members. -/
theorem storeDto_roster (session : WireSession) (times : Nat → Nat) {dto : EventDto}
    {start : Nat} {brought : List (String × List UserRef)}
    {channel : ChannelRef} {count : Nat} {users : List UserRef}
    (h : Restored t start dto.seq brought) (hstart : start ≤ dto.seq) (hconforms : dto.Conforms)
    (hkind : dto.kind = .roster channel true count users)
    (hfresh : channel.key ∉ brought.map (·.1)) (hpass : ∀ user ∈ users, user.FieldsPass)
    (hnodup : (users.map (·.handle)).Nodup) :
    Restored (t.storeDto session times dto) start (dto.seq + 1)
      ((channel.key, users) :: brought) := by
  obtain ⟨row, hrow, hended, hseq, hsync⟩ := h.session
  obtain ⟨row', hrow', hended', hseq', hsync'⟩ := session_storeDto session times
    hconforms hrow hended hseq (by rw [hkind]; nofun)
  have hsynced : row'.syncSeq = start := by
    rw [hsync' (by rw [hkind]; nofun), hkind]
    exact hsync
  -- the roster is stored over the tables that the upkeep and the touch leave
  set touched := (t.sessionUpkeep session dto.wire (times dto.seq)).channelTouch
    ⟨channel.key, channel.name⟩ dto.wire with htouched
  have hstored : t.storeDto session times dto = touched.rosterStatements dto.wire := by
    rw [storeDto_eq hconforms h.newer, statementsFor, kindStatements]
    simp only [EventDto.wire, hkind, EventKind.channel?, EventKind.wireKind, Option.map_some,
      htouched]
  obtain ⟨⟨row₁, hrow₁, hclosed₁, hseq₁⟩, hothers⟩ := getElem?_channelTouch
    (t := t.sessionUpkeep session dto.wire (times dto.seq)) ⟨channel.key, channel.name⟩ dto.wire
  obtain ⟨hviews, hrosters⟩ := storedViews_rosterStatements (t := touched) hkind
    ⟨row₁, hrow₁, hclosed₁⟩ hpass hnodup
  have hchannels : (t.storeDto session times dto).channels = touched.channels := by
    rw [hstored, channels_rosterStatements]
  refine ⟨⟨row', hrow', hended', hseq', hsynced⟩, fun key hkey => ?_, fun key hkey row hrow => ?_,
    fun entry hentry => ?_⟩
  · rw [hchannels]
    rw [List.map_cons, List.mem_cons] at hkey
    rcases hkey with rfl | hkey
    · exact ⟨row₁, hrow₁, hclosed₁, hstart.trans hseq₁⟩
    · have hne : key ≠ channel.key := fun heq => hfresh (heq ▸ hkey)
      rw [hothers key hne]
      exact h.touched key hkey
  · rw [List.map_cons, List.mem_cons, not_or] at hkey
    rw [hchannels, hothers key hkey.1] at hrow
    exact h.untouched key hkey.2 row hrow
  · rw [hstored]
    rcases List.mem_cons.1 hentry with rfl | hentry
    · exact hviews
    · rw [hrosters entry.1 fun heq => hfresh (heq ▸ List.mem_map_of_mem hentry)]
      exact h.rosters entry hentry

/-- **A reconciliation restores the rosters.** When its `session_synced` is stored, the open
channels are those the reconciliation named, each with the users it brought. -/
theorem storeDto_sessionSynced (session : WireSession) (times : Nat → Nat) {dto : EventDto}
    {start : Nat} {brought : List (String × List UserRef)} (h : Restored t start dto.seq brought)
    (hconforms : dto.Conforms) (hkind : dto.kind = .sessionSynced) :
    (∀ key : String, (∃ row, (t.storeDto session times dto).channels[key]? = some row ∧
        row.closedAt = none) ↔ key ∈ brought.map (·.1)) ∧
      ∀ entry ∈ brought, storedViews ((t.storeDto session times dto).roster[entry.1]?.getD ∅) =
        userViews entry.2 := by
  obtain ⟨row, hrow, hended, -, hsync⟩ := h.session
  obtain ⟨kept, hkept, -, -, hkeptSync⟩ := session_sessionUpkeep_open session hrow
    hended (show dto.wire.kind ≠ .sessionEnded by simp [EventDto.wire, hkind, EventKind.wireKind])
    (times dto.seq)
  have hstored : t.storeDto session times dto =
      (t.sessionUpkeep session dto.wire (times dto.seq)).syncedStatements dto.wire
        (times dto.seq) := by
    rw [storeDto_eq hconforms h.newer, statementsFor, kindStatements]
    simp only [EventDto.wire, hkind, EventKind.channel?, EventKind.wireKind, Option.map_none]
  have hchannels : ∀ key : String, (t.storeDto session times dto).channels[key]? =
      t.channels[key]?.map (closeUntouched start (times dto.seq)) := by
    intro key
    rw [hstored, syncedStatements, hkept, Option.map_some, Option.getD_some, hkeptSync, hsync]
    simp only [updateSession, ExtTreeMap.getElem?_map]
    rfl
  have hroster : (t.storeDto session times dto).roster = t.roster := by
    rw [hstored]
    rfl
  refine ⟨fun key => ?_, fun entry hentry => by rw [hroster]; exact h.rosters entry hentry⟩
  rw [hchannels]
  constructor
  · rintro ⟨row', hrow', hopen⟩
    obtain ⟨old, hold, rfl⟩ := Option.map_eq_some_iff.1 hrow'
    by_contra hkey
    have hlt := h.untouched key hkey old hold
    by_cases hclose : old.closedAt = none ∧ old.lastSeq < start
    · rw [closeUntouched, if_pos hclose] at hopen
      cases hopen
    · rw [closeUntouched, if_neg hclose] at hopen
      exact hclose ⟨hopen, hlt⟩
  · intro hkey
    obtain ⟨old, hold, hopen, hle⟩ := h.touched key hkey
    refine ⟨_, by rw [hold, Option.map_some], ?_⟩
    rw [closeUntouched, if_neg fun hclose => absurd hclose.2 hle.not_gt]
    exact hopen

end SessionTables

end Superiority
