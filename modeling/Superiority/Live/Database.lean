import Superiority.Library.Map
import Superiority.Library.Rowid
import Superiority.Live.StoreBatching
import Superiority.Live.Read

/-!
# The database

All feeds together, as the migrations lay the tables out. The transcript is one table for all of
them: the rows of `messages` are numbered by their `INTEGER PRIMARY KEY`, "rowid alias: the poll
cursor", and kept apart by `UNIQUE (feed_id, session_id, seq)`. The other rows are those of the
sessions.

* `storeEnvelope` – one envelope of one feed;
* `prune` – the nightly retention of `live/worker/prune.ts`;
* `messages` – a read of one channel of a feed, `live/worker/read.ts`.

Main result: `agrees_storeEnvelope`, `agrees_prune` – the numbered transcript holds the rows that
the tables of the sessions hold.
-/

namespace Superiority

open Std

/-- `UNIQUE (feed_id, session_id, seq)`. -/
structure MessageKey where
  feedId : String
  sessionId : String
  seq : Nat
  deriving DecidableEq, Repr

abbrev MessageEntry := NumberedRow MessageKey MessageRow

structure D1Database where
  /-- `feeds.last_seen_at`. -/
  feeds : ExtTreeMap String Nat := ∅
  tables : ExtTreeMap String Feed := ∅
  messages : RowTable MessageKey MessageRow := .empty

/-! ## Transcript rows -/

/-- The columns of a transcript row. -/
def messageRow (event : WireEvent) (channelKey : String) (kind : MessageKind)
    (sender : Option WireUser) (body : String) : MessageRow where
  channelKey := channelKey
  ts := event.ts
  kind := kind
  senderHandle := (sender.map (·.handle)).getD 0
  senderName := sender.bind (·.name)
  senderClan := sender.bind (·.clanTag)
  body := body

/-- The row an event adds to the transcript. -/
def transcriptOf (event : WireEvent) : Option MessageRow :=
  match event.kind, event.channel with
  | .message, some channel => event.body.map
      (messageRow event channel.key (if isSubkind event.subkind ["emote"] then .emote else .talk)
        (userField event.sender))
  | .notice, some channel => event.body.bind fun body =>
      if isSubkind event.subkind ["broadcast"] then
        some (messageRow event channel.key .broadcast none body)
      else if isSubkind event.subkind ["information"] then
        some (messageRow event channel.key .information none body)
      else none
  | .memberJoined, some channel => (userField event.user).map fun user =>
      messageRow event channel.key .memberJoined (some user) ""
  | .memberLeft, some channel => (userField event.user).map fun user =>
      messageRow event channel.key .memberLeft (some user) ""
  | _, _ => none

namespace SessionTables

variable {t : SessionTables}

@[simp] theorem messages_channelTouch (channel : WireChannel) (event : WireEvent) :
    (t.channelTouch channel event).messages = t.messages := rfl

@[simp] theorem messages_sessionUpkeep (session : WireSession) (event : WireEvent) (time : Nat) :
    (t.sessionUpkeep session event time).messages = t.messages := rfl

@[simp] theorem messages_transcriptRow (event : WireEvent) (key : String) (kind : MessageKind)
    (sender : Option WireUser) (body : String) :
    (t.transcriptRow event key kind sender body).messages =
      t.messages.insertIfNew event.seq (messageRow event key kind sender body) := rfl

@[simp] theorem messages_rosterBulkUpsert (key : String) (users : List WireUser) (seq ts : Nat) :
    (t.rosterBulkUpsert key users seq ts).messages = t.messages := by
  unfold rosterBulkUpsert
  split
  · rfl
  · split_ifs <;> rfl

theorem messages_leftStatements (event : WireEvent) :
    (t.leftStatements event).messages = t.messages := by
  unfold leftStatements
  split <;> rfl

theorem messages_rosterStatements (event : WireEvent) :
    (t.rosterStatements event).messages = t.messages := by
  unfold rosterStatements
  split
  · dsimp only
    split_ifs <;> simp
  · rfl

theorem messages_rosterDeltaStatements (event : WireEvent) :
    (t.rosterDeltaStatements event).messages = t.messages := by
  unfold rosterDeltaStatements
  split
  · dsimp only
    split_ifs <;> simp
  · rfl

/-- What the statements of a kind do to the transcript of the session. -/
theorem messages_kindStatements (event : WireEvent) (receivedAt : Nat) :
    (t.kindStatements event receivedAt).messages = match transcriptOf event with
      | none => t.messages
      | some row => t.messages.insertIfNew event.seq row := by
  unfold kindStatements transcriptOf
  cases hkind : event.kind <;> dsimp only
  case left => exact messages_leftStatements event
  case roster => exact messages_rosterStatements event
  case rosterDelta => exact messages_rosterDeltaStatements event
  case message =>
    unfold messageStatements
    cases hchannel : event.channel <;> cases hbody : event.body <;> rfl
  case notice =>
    unfold noticeStatements
    cases hchannel : event.channel with
    | none => rfl
    | some channel =>
      cases hbody : event.body with
      | none => rfl
      | some body =>
        dsimp only [Option.bind_some]
        split_ifs <;> rfl
  case memberJoined =>
    unfold memberStatements
    cases hchannel : event.channel with
    | none => rfl
    | some channel =>
      cases huser : userField event.user with
      | none => rfl
      | some user => simp [hkind]
  case memberLeft =>
    unfold memberStatements
    cases hchannel : event.channel with
    | none => rfl
    | some channel =>
      cases huser : userField event.user with
      | none => rfl
      | some user => simp [hkind]
  all_goals rfl

theorem messages_statementsFor (event : WireEvent) (receivedAt : Nat) :
    (t.statementsFor event receivedAt).messages = match transcriptOf event with
      | none => t.messages
      | some row => t.messages.insertIfNew event.seq row := by
  unfold statementsFor
  cases event.channel <;> exact messages_kindStatements event receivedAt

end SessionTables

/-! ## Storing -/

namespace D1Database

/-- The rows of a session; none when the feed has no such session. -/
def tablesOf (db : D1Database) (feedId sessionId : String) : SessionTables :=
  ((db.tables[feedId]?.getD ∅)[sessionId]?).getD {}

/-- The rows that new events insert into `messages`, in the order of their statements. -/
def transcriptRows (feedId sessionId : String) (events : List WireEvent) :
    List (MessageKey × MessageRow) :=
  events.filterMap fun event => (transcriptOf event).map fun row =>
    (⟨feedId, sessionId, event.seq⟩, row)

/-- `storeEnvelope`: the statements on the rows of the session, `feedUpkeep`, and the insertions
into the transcript, unless no event is new. -/
def storeEnvelope (db : D1Database) (feedId : String) (envelope : WireEnvelope) (receivedAt : Nat) :
    D1Database :=
  let t := db.tablesOf feedId envelope.session.id
  let events := t.newEvents envelope.events
  if events = [] then db
  else {
    feeds := db.feeds.modify feedId (max · receivedAt)
    tables := db.tables.insert feedId ((db.tables[feedId]?.getD ∅).insert envelope.session.id
      (t.storeEnvelope envelope receivedAt))
    messages := db.messages.insertAll (transcriptRows feedId envelope.session.id events) }

/-! ## Pruning -/

def dayMs : Int := 86400000

/-- `parseRetention`, of a text that is a safe integer or is not. -/
def parseRetention (value : Option Int) : Int :=
  match value with
  | some parsed => if 1 ≤ parsed ∧ parsed ≤ 365 then parsed else 14
  | none => 14

/-- `COALESCE((SELECT id …), '')`. -/
def coalesceId (session : Option (String × SessionRow)) : String :=
  (session.map (·.1)).getD ""

/-- The sessions that are deleted: neither the latest of their feed nor its snapshot. -/
def expired (feed : Feed) (cutoff : Int) (id : String) (row : SessionRow) : Bool :=
  row.lastSeenAt < cutoff && id ≠ coalesceId (feed.latestSession none)
    && id ≠ coalesceId (feed.snapshotSession none)

/-- The first batch, on the rows of a feed. -/
def expire (cutoff : Int) (feed : Feed) : Feed :=
  feed.map fun id t => { t with
    session := t.session.filter fun row => !expired feed cutoff id row
    messages := t.messages.filter fun _ row => !decide (row.ts < cutoff) }

/-- The second batch, on the rows of a feed: the roster and the channels of sessions that are
gone, and all rows of a feed that is gone. -/
def sweep (known : Bool) (feed : Feed) : Feed :=
  feed.map fun _ t => { t with
    session := if known then t.session else none
    channels := if known && t.session.isSome then t.channels else ∅
    roster := if known && t.session.isSome then t.roster else ∅ }

/-- `prune`, with the value of `RETENTION_DAYS` and the time. -/
def prune (db : D1Database) (retention : Option Int) (now : Nat) : D1Database :=
  let cutoff := now - parseRetention retention * dayMs
  let feeds := db.feeds.filter fun _ (lastSeenAt : Nat) => !decide (lastSeenAt < cutoff)
  { feeds
    tables := db.tables.map fun feedId feed => sweep (feeds.contains feedId) (expire cutoff feed)
    messages := db.messages.deleteWhere fun entry => decide (entry.row.ts < cutoff) }

/-! ## One transcript, two layouts -/

/-- The numbered transcript holds the rows that the tables of the sessions hold. -/
def Agrees (db : D1Database) : Prop :=
  ∀ feedId sessionId seq,
    db.messages.get? ⟨feedId, sessionId, seq⟩ = (db.tablesOf feedId sessionId).messages[seq]?

theorem agrees_empty : Agrees {} := fun feedId sessionId seq => by
  simp [RowTable.get?, RowTable.empty, tablesOf]

/-- The rows of a session after an envelope. -/
theorem tablesOf_insert (db : D1Database) (feedId sessionId : String) (t : SessionTables)
    (feeds : ExtTreeMap String Nat) (messages : RowTable MessageKey MessageRow)
    (feedId' sessionId' : String) :
    tablesOf ⟨feeds, db.tables.insert feedId ((db.tables[feedId]?.getD ∅).insert sessionId t),
      messages⟩ feedId' sessionId' =
    if feedId' = feedId ∧ sessionId' = sessionId then t else db.tablesOf feedId' sessionId' := by
  by_cases hfeed : feedId' = feedId
  · subst hfeed
    by_cases hsession : sessionId' = sessionId
    · subst hsession
      simp [tablesOf]
    · rw [if_neg fun h => hsession h.2]
      simp [tablesOf, getElem?_insert_of_ne (Ne.symm hsession)]
  · rw [if_neg fun h => hfeed h.1]
    simp [tablesOf, getElem?_insert_of_ne (Ne.symm hfeed)]

/-- One event in both layouts. -/
theorem get?_insertAll_cons {messages : RowTable MessageKey MessageRow} {t : SessionTables}
    {feedId sessionId : String}
    (h : ∀ seq, messages.get? ⟨feedId, sessionId, seq⟩ = t.messages[seq]?) (event : WireEvent)
    (receivedAt seq : Nat) :
    (messages.insertAll (transcriptRows feedId sessionId [event])).get? ⟨feedId, sessionId, seq⟩ =
      (t.statementsFor event receivedAt).messages[seq]? := by
  rw [SessionTables.messages_statementsFor, transcriptRows, List.filterMap_cons]
  cases htranscript : transcriptOf event with
  | none => exact h seq
  | some row =>
    have hhas : messages.has ⟨feedId, sessionId, event.seq⟩ = true ↔ event.seq ∈ t.messages := by
      rw [RowTable.has_eq_isSome, h, ← ExtTreeMap.mem_iff_isSome_getElem?]
    simp only [Option.map_some, List.filterMap_nil, RowTable.insertAll, List.foldl_cons,
      List.foldl_nil, RowTable.get?_insertOrIgnore, MessageKey.mk.injEq, true_and, hhas, h,
      ExtTreeMap.getElem?_insertIfNew, Std.compare_eq_iff_eq]

theorem get?_insertAll_transcriptRows {messages : RowTable MessageKey MessageRow}
    {t : SessionTables} {feedId sessionId : String}
    (h : ∀ seq, messages.get? ⟨feedId, sessionId, seq⟩ = t.messages[seq]?)
    (events : List WireEvent) (receivedAt seq : Nat) :
    (messages.insertAll (transcriptRows feedId sessionId events)).get? ⟨feedId, sessionId, seq⟩ =
      (events.foldl (fun t event => t.statementsFor event receivedAt) t).messages[seq]? := by
  induction events generalizing messages t with
  | nil => exact h seq
  | cons event events ih =>
    have hstep := ih (get?_insertAll_cons h event receivedAt)
    rw [List.foldl_cons, ← hstep]
    simp only [RowTable.insertAll, ← List.foldl_append, transcriptRows, ← List.filterMap_append,
      List.singleton_append]

theorem agrees_storeEnvelope {db : D1Database} (h : db.Agrees) (feedId : String)
    (envelope : WireEnvelope) (receivedAt : Nat) :
    (db.storeEnvelope feedId envelope receivedAt).Agrees := by
  intro feedId' sessionId' seq
  rw [storeEnvelope]
  by_cases hevents : (db.tablesOf feedId envelope.session.id).newEvents envelope.events = []
  · rw [if_pos hevents]
    exact h feedId' sessionId' seq
  · rw [if_neg hevents, tablesOf_insert]
    by_cases hsame : feedId' = feedId ∧ sessionId' = envelope.session.id
    · obtain ⟨rfl, rfl⟩ := hsame
      rw [if_pos ⟨rfl, rfl⟩]
      obtain ⟨event, rest, hnew⟩ := List.exists_cons_of_ne_nil hevents
      rw [SessionTables.storeEnvelope_of_newEvents hnew receivedAt, hnew]
      exact get?_insertAll_transcriptRows
        (t := (db.tablesOf feedId' envelope.session.id).sessionUpkeep envelope.session
          ((event :: rest).getLast (by simp)) receivedAt)
        (h feedId' envelope.session.id) (event :: rest) receivedAt seq
    · rw [if_neg hsame, ← h feedId' sessionId' seq]
      refine RowTable.get?_insertAll_of_ne fun row hrow heq => hsame ?_
      obtain ⟨event, -, hevent⟩ := List.mem_filterMap.1 hrow
      obtain ⟨_, -, rfl⟩ := Option.map_eq_some_iff.1 hevent
      exact ⟨(congrArg MessageKey.feedId heq).symm, (congrArg MessageKey.sessionId heq).symm⟩

/-- The rows of a session after the nightly pruning. -/
theorem messages_prune (db : D1Database) (retention : Option Int) (now : Nat)
    (feedId sessionId : String) (seq : Nat) :
    ((db.prune retention now).tablesOf feedId sessionId).messages[seq]? =
      (db.tablesOf feedId sessionId).messages[seq]?.filter
        fun row => !decide (row.ts < now - parseRetention retention * dayMs) := by
  rw [tablesOf, tablesOf, prune, ExtTreeMap.getElem?_map]
  cases hfeed : db.tables[feedId]? with
  | none => simp
  | some feed =>
    simp only [Option.map_some, Option.getD_some, sweep, expire, ExtTreeMap.getElem?_map]
    cases hsession : feed[sessionId]? with
    | none => simp
    | some t => simp

theorem agrees_prune {db : D1Database} (h : db.Agrees) (retention : Option Int) (now : Nat) :
    (db.prune retention now).Agrees := by
  intro feedId sessionId seq
  rw [messages_prune, ← h feedId sessionId seq]
  exact db.messages.get?_deleteWhere
    (fun row => decide (row.ts < now - parseRetention retention * dayMs)) ⟨feedId, sessionId, seq⟩

/-! ## Reading -/

def maxSafeInteger : Nat := 2 ^ 53 - 1

/-- `parseAfter`, of the number a reader passes. -/
def parseAfter (value : Option Nat) : Option Nat := value.filter (· ≤ maxSafeInteger)

/-- `parseLimit`, of a text that is a safe integer or is not. -/
def parseLimit (value : Option Int) : Nat :=
  match value with
  | some parsed => if parsed < 1 then 100 else min parsed.toNat 500
  | none => 100

/-- `sessions.product`. -/
def productOf (db : D1Database) (feedId sessionId : String) : Option ProductSlug :=
  (db.tablesOf feedId sessionId).session.map (·.product)

/-- The `WHERE` clause of a read: the channel, and the sessions of the product if there is one. -/
def selects (db : D1Database) (feedId : String) (product : Option ProductSlug)
    (channelKey : String) (entry : MessageEntry) : Bool :=
  entry.key.feedId = feedId && entry.row.channelKey = channelKey
    && product.all fun product => db.productOf feedId entry.key.sessionId = some product

/-- The rows a read selects, before its cursor and its limit. -/
def shown (db : D1Database) (feedId : String) (product : Option ProductSlug)
    (channelKey : String) : List MessageEntry :=
  db.messages.rows.filter (db.selects feedId product channelKey)

/-- `messages`: a page and its cursor, or nothing for a feed that is not known. -/
def readMessages (db : D1Database) (feedId : String) (product : Option ProductSlug)
    (channelKey : String) (after : Option Nat) (limit : Nat) : Option (List MessageEntry × Nat) :=
  if feedId ∈ db.feeds then
    let rows := page (db.shown feedId product channelKey) after limit
    some (rows, cursorOf rows after)
  else none

end D1Database

end Superiority
