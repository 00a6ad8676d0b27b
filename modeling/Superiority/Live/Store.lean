import Std.Data.ExtTreeMap
import Superiority.Live.Events

/-!
# The ingest store

`live/worker/store.ts`: what an envelope does to the rows of its session. Every statement names
one feed and one session, so the tables here are the rows of one session, keyed by what is left
of their primary keys; `feeds.last_seen_at` is no row of a session and is left out. A batch is
atomic: its statements run one after another.
-/

namespace Superiority

open Std

/-! ## Rows -/

structure SessionRow where
  product : ProductSlug
  clientVersion : String
  startedAt : Nat
  lastSeenAt : Nat
  lastSeq : Nat
  endedAt : Option Nat := none
  syncedAt : Option Nat := none
  syncSeq : Nat := 0
  deriving DecidableEq, Repr

structure ChannelRow where
  kind : String
  name : String
  firstSeenAt : Nat
  lastEventAt : Nat
  closedAt : Option Nat
  lastSeq : Nat
  deriving DecidableEq, Repr

structure RosterRow where
  name : Option String
  clanTag : Option String
  presence : String
  lastSeq : Nat
  updatedAt : Nat
  portraitTable : Option Nat
  portraitOffset : Option Nat
  isLocal : Bool
  joinedOrder : Option Nat
  avatar : Option String
  isOperator : Bool
  deriving DecidableEq, Repr

/-- `MessageKind`. -/
inductive MessageKind where
  | talk | emote | broadcast | information | memberJoined | memberLeft
  deriving DecidableEq, Repr

structure MessageRow where
  channelKey : String
  ts : Nat
  kind : MessageKind
  senderHandle : Nat
  senderName : Option String
  senderClan : Option String
  body : String
  deriving DecidableEq, Repr

/-- The members of one channel, by handle. -/
abbrev Members := ExtTreeMap Nat RosterRow

/-- The rows of one session: `channels` by key, `roster` by channel key and handle, `messages`
by sequence number. -/
structure SessionTables where
  session : Option SessionRow := none
  channels : ExtTreeMap String ChannelRow := ∅
  roster : ExtTreeMap String Members := ∅
  messages : ExtTreeMap Nat MessageRow := ∅

namespace SessionTables

/-! ## Upkeep -/

/-- `sessionUpkeep`, run once for an envelope with its newest event. A new row is never marked
ended; an old one is when the newest event says so. -/
def sessionUpkeep (session : WireSession) (event : WireEvent) (lastSeenAt : Nat)
    (t : SessionTables) : SessionTables :=
  { t with session := some (match t.session with
    | none => {
        product := session.product
        clientVersion := session.clientVersion
        startedAt := session.startedAt
        lastSeenAt
        lastSeq := event.seq }
    | some row => { row with
        product := session.product
        lastSeenAt := max row.lastSeenAt lastSeenAt
        lastSeq := max row.lastSeq event.seq
        endedAt := if event.seq > row.lastSeq ∧ event.kind = .sessionEnded then some lastSeenAt
          else row.endedAt }) }

/-- `channelTouch`: the channel is open, and its name is the last one that is not empty. -/
def channelTouch (channel : WireChannel) (event : WireEvent) (t : SessionTables) :
    SessionTables :=
  let name := channel.name.getD ""
  { t with channels := t.channels.insert channel.key (match t.channels[channel.key]? with
    | none => {
        kind := channelKind channel.key
        name
        firstSeenAt := event.ts
        lastEventAt := event.ts
        closedAt := none
        lastSeq := event.seq }
    | some row => { row with
        name := if name ≠ "" then name else row.name
        lastEventAt := max row.lastEventAt event.ts
        closedAt := none
        lastSeq := max row.lastSeq event.seq }) }

/-- An `UPDATE sessions … WHERE …` on the session's row. -/
def updateSession (f : SessionRow → SessionRow) (t : SessionTables) : SessionTables :=
  { t with session := t.session.map f }

/-! ## Roster rows -/

/-- The columns an insertion gives a user. -/
def rosterRow (user : WireUser) (seq ts : Nat) : RosterRow where
  name := user.name
  clanTag := user.clanTag
  presence := user.presence.getD ""
  lastSeq := seq
  updatedAt := ts
  portraitTable := user.portrait.map (·.1)
  portraitOffset := user.portrait.map (·.2)
  isLocal := user.isLocal = some true
  joinedOrder := user.joinedOrder
  avatar := user.avatar
  isOperator := user.isOperator = some true

/-- `ON CONFLICT … DO UPDATE … WHERE excluded.last_seq > roster.last_seq`. -/
def rosterConflict (row excluded : RosterRow) : RosterRow :=
  if excluded.lastSeq > row.lastSeq then { excluded with
    portraitTable := excluded.portraitTable.or row.portraitTable
    portraitOffset := excluded.portraitOffset.or row.portraitOffset
    joinedOrder := row.joinedOrder.or excluded.joinedOrder
    avatar := excluded.avatar.or row.avatar }
  else row

def upsertMember (members : Members) (user : WireUser) (seq ts : Nat) : Members :=
  let excluded := rosterRow user seq ts
  members.insert user.handle (match members[user.handle]? with
    | none => excluded
    | some row => rosterConflict row excluded)

/-- `rosterUpsert` and `rosterBulkUpsert`: into an open channel only, one user after another. -/
def rosterBulkUpsert (channelKey : String) (users : List WireUser) (seq ts : Nat)
    (t : SessionTables) : SessionTables :=
  match t.channels[channelKey]? with
  | none => t
  | some channel =>
    if channel.closedAt = none then
      let members := users.foldl (fun members user => upsertMember members user seq ts)
        (t.roster[channelKey]?.getD ∅)
      { t with roster := t.roster.insert channelKey members }
    else t

/-! ## Events -/

/-- `transcriptRow`: `INSERT OR IGNORE`, one row for a sequence number. -/
def transcriptRow (event : WireEvent) (channelKey : String) (kind : MessageKind)
    (sender : Option WireUser) (body : String) (t : SessionTables) : SessionTables :=
  { t with messages := t.messages.insertIfNew event.seq {
      channelKey
      ts := event.ts
      kind
      senderHandle := (sender.map (·.handle)).getD 0
      senderName := sender.bind (·.name)
      senderClan := sender.bind (·.clanTag)
      body } }

def leftStatements (event : WireEvent) (t : SessionTables) : SessionTables :=
  match event.channel with
  | none => t
  | some channel => { t with
      roster := t.roster.erase channel.key
      channels := t.channels.modify channel.key fun row => { row with
        closedAt := some event.ts
        lastEventAt := max row.lastEventAt event.ts
        lastSeq := event.seq } }

def messageStatements (event : WireEvent) (t : SessionTables) : SessionTables :=
  match event.channel, event.body with
  | some channel, some body =>
    let kind := if isSubkind event.subkind ["emote"] then MessageKind.emote else .talk
    t.transcriptRow event channel.key kind (userField event.sender) body
  | _, _ => t

def noticeStatements (event : WireEvent) (t : SessionTables) : SessionTables :=
  match event.channel, event.body with
  | some channel, some body =>
    if isSubkind event.subkind ["broadcast"] then
      t.transcriptRow event channel.key .broadcast none body
    else if isSubkind event.subkind ["information"] then
      t.transcriptRow event channel.key .information none body
    else t
  | _, _ => t

def memberStatements (event : WireEvent) (t : SessionTables) : SessionTables :=
  match event.channel, userField event.user with
  | some channel, some user =>
    if event.kind = .memberLeft then
      let t := t.transcriptRow event channel.key .memberLeft (some user) ""
      { t with roster := t.roster.modify channel.key (·.erase user.handle) }
    else
      (t.transcriptRow event channel.key .memberJoined (some user) "").rosterBulkUpsert channel.key
        [user] event.seq event.ts
  | _, _ => t

/-- The users of an event that have a handle. -/
def usersOf (users : List Js) : List WireUser := users.filterMap fun user => userField (some user)

def rosterStatements (event : WireEvent) (t : SessionTables) : SessionTables :=
  match event.channel, event.users, event.complete with
  | some channel, some users, some (.bool true) =>
    let t := { t with roster := t.roster.erase channel.key }
    let users := usersOf users
    if users.length > 0 then t.rosterBulkUpsert channel.key users event.seq event.ts else t
  | _, _, _ => t

def rosterDeltaStatements (event : WireEvent) (t : SessionTables) : SessionTables :=
  match event.channel, event.users with
  | some channel, some users =>
    let users := usersOf users
    if users.length = 0 then t else t.rosterBulkUpsert channel.key users event.seq event.ts
  | _, _ => t

/-- `UPDATE channels SET closed_at …` of `session_synced`: a channel the snapshot did not touch. -/
def closeUntouched (syncSeq receivedAt : Nat) (row : ChannelRow) : ChannelRow :=
  if row.closedAt = none ∧ row.lastSeq < syncSeq then { row with closedAt := some receivedAt }
  else row

/-- The two statements of `session_synced`: channels that the snapshot did not touch are closed,
and the session is marked synced unless it has ended. -/
def syncedStatements (event : WireEvent) (receivedAt : Nat) (t : SessionTables) : SessionTables :=
  let syncSeq := (t.session.map (·.syncSeq)).getD 0
  let t := { t with channels := t.channels.map fun _ row => closeUntouched syncSeq receivedAt row }
  t.updateSession fun row => if row.endedAt = none then { row with syncedAt := some event.ts }
    else row

/-- The part of `statementsFor` that the kind decides. -/
def kindStatements (event : WireEvent) (receivedAt : Nat) (t : SessionTables) : SessionTables :=
  match event.kind with
  | .sessionStarted =>
    t.updateSession fun row => { row with endedAt := none, syncedAt := none, syncSeq := 0 }
  | .syncStarted =>
    t.updateSession fun row => if row.endedAt = none then { row with syncSeq := event.seq } else row
  | .sessionSynced => t.syncedStatements event receivedAt
  | .left => t.leftStatements event
  | .message => t.messageStatements event
  | .notice => t.noticeStatements event
  | .memberJoined | .memberLeft => t.memberStatements event
  | .roster => t.rosterStatements event
  | .rosterDelta => t.rosterDeltaStatements event
  | .heartbeat | .joined | .sessionEnded | .dropped => t

def statementsFor (event : WireEvent) (receivedAt : Nat) (t : SessionTables) : SessionTables :=
  kindStatements event receivedAt (match event.channel with
    | none => t
    | some channel => t.channelTouch channel event)

/-- The events of an envelope that are not stored yet. -/
def newEvents (t : SessionTables) (events : List WireEvent) : List WireEvent :=
  events.filter fun event => match t.session with
    | none => true
    | some row => row.lastSeq < event.seq

/-- `storeEnvelope`. -/
def storeEnvelope (t : SessionTables) (envelope : WireEnvelope) (receivedAt : Nat) :
    SessionTables :=
  let events := t.newEvents envelope.events
  match events.getLast? with
  | none => t
  | some newest =>
    events.foldl (fun t event => t.statementsFor event receivedAt)
      (t.sessionUpkeep envelope.session newest receivedAt)

end SessionTables

end Superiority
