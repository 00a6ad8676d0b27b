import Superiority.Live.Json

/-!
# The events the ingest Worker accepts

`live/worker/events.ts`. A checked event is a typed record, so the checks are a function from JSON
values to events or to the text of the first complaint: an event that was not accepted cannot
be handed to the store. Fields that the check leaves alone keep their JSON value.
-/

namespace Superiority

def maxEventsPerPost : Nat := 64
def maxEventJsonChars : Nat := 900000
def maxMessageChars : Nat := 4000
def maxRosterUsers : Nat := 4096

/-! ## Kinds -/

/-- `EVENT_KINDS`. -/
inductive WireKind where
  | sessionStarted | syncStarted | sessionSynced | heartbeat | sessionEnded | joined | left
  | message | notice | memberJoined | memberLeft | roster | rosterDelta | dropped
  deriving DecidableEq, Repr

namespace WireKind

def text : WireKind → String
  | sessionStarted => "session_started"
  | syncStarted => "sync_started"
  | sessionSynced => "session_synced"
  | heartbeat => "heartbeat"
  | sessionEnded => "session_ended"
  | joined => "joined"
  | left => "left"
  | message => "message"
  | notice => "notice"
  | memberJoined => "member_joined"
  | memberLeft => "member_left"
  | roster => "roster"
  | rosterDelta => "roster_delta"
  | dropped => "dropped"

def all : List WireKind :=
  [sessionStarted, syncStarted, sessionSynced, heartbeat, sessionEnded, joined, left, message,
    notice, memberJoined, memberLeft, roster, rosterDelta, dropped]

def ofText (s : String) : Option WireKind := all.find? fun kind => kind.text == s

@[simp] theorem ofText_text (kind : WireKind) : ofText kind.text = some kind := by
  cases kind <;> decide

end WireKind

/-- `ProductSlug`. -/
inductive ProductSlug where
  | sc2 | scr | wc3
  deriving DecidableEq, Repr

def ProductSlug.ofText : String → Option ProductSlug
  | "sc2" => some sc2
  | "scr" => some scr
  | "wc3" => some wc3
  | _ => none

/-! ## Records -/

/-- `WireChannel`; a name of `null` is as good as none. -/
structure WireChannel where
  key : String
  name : Option String
  deriving DecidableEq, Repr

/-- `WireUser`, as `userField` reads one. -/
structure WireUser where
  handle : Nat
  name : Option String
  clanTag : Option String
  presence : Option String
  portrait : Option (Nat × Nat)
  avatar : Option String
  isOperator : Option Bool
  isLocal : Option Bool
  joinedOrder : Option Nat
  deriving DecidableEq, Repr

/-- `WireEvent` after its check. -/
structure WireEvent where
  seq : Nat
  ts : Nat
  kind : WireKind
  channel : Option WireChannel
  body : Option String
  subkind : Option Js
  sender : Option Js
  user : Option Js
  users : Option (List Js)
  complete : Option Js

structure WireSession where
  id : String
  product : ProductSlug
  clientVersion : String
  startedAt : Nat
  deriving DecidableEq, Repr

/-- `Envelope` after its check. -/
structure WireEnvelope where
  session : WireSession
  events : List WireEvent

/-! ## Fields of users -/

/-- `portraitField`. -/
def portraitField (value : Option Js) : Option (Nat × Nat) := do
  let portrait ← value
  let t ← asNonNegativeInt (portrait.get? "t")
  let o ← asNonNegativeInt (portrait.get? "o")
  if t > 64 ∨ o > 255 then none else some (t, o)

/-- `userField`: a user with every field that does not pass its check set to `null`. -/
def userField (value : Option Js) : Option WireUser := do
  let user ← value
  let handle ← asNonNegativeInt (user.get? "handle")
  return {
    handle
    name := asString (user.get? "name") 128
    clanTag := asString (user.get? "clan_tag") 32
    presence := asString (user.get? "presence") 16
    portrait := portraitField (user.get? "portrait")
    avatar := asString (user.get? "avatar") 128
    isOperator := asBool (user.get? "is_operator")
    isLocal := asBool (user.get? "is_local")
    joinedOrder := asNonNegativeInt (user.get? "joined_order") }

/-! ## Channel keys -/

/-- The tail of `/^(?:public|club):\d{1,10}$/`. -/
def isNumericTail (tail : List Char) : Bool :=
  1 ≤ tail.length && tail.length ≤ 10 && tail.all fun c => '0' ≤ c && c ≤ '9'

/-- What follows the prefix, if the text starts with it. -/
def afterPrefix (front : String) (s : String) : Option (List Char) :=
  if front.toList.isPrefixOf s.toList then some (s.toList.drop front.toList.length) else none

def isValidChannelKey (key : String) : Bool :=
  ((afterPrefix "public:" key).any isNumericTail || (afterPrefix "club:" key).any isNumericTail)
    || ((afterPrefix "private:" key).isSome && decide (utf16Length "private:" < utf16Length key)
      && decide (utf16Length key ≤ 72))

/-- `channelKind`. -/
def channelKind (key : String) : String :=
  let front := key.toList.takeWhile (· ≠ ':')
  if 0 < front.length ∧ front.length < key.toList.length then String.ofList front else "unknown"

/-! ## Events -/

/-- `event.channel`, when it is there. -/
def validateChannel (at_ : String) (value : Option Js) : Except String (Option WireChannel) :=
  match value with
  | none => .ok none
  | some channel => do
    unless channel.isRecord do throw s!"{at_}.channel: not an object"
    let some (.str key) := channel.get? "key"
      | throw s!"{at_}.channel.key: not a channel identity"
    unless isValidChannelKey key do throw s!"{at_}.channel.key: not a channel identity"
    match channel.get? "name" with
    | none | some .null => return some { key, name := none }
    | some name =>
      let some name := asString (some name) 128
        | throw s!"{at_}.channel.name: not a string of <=128 chars"
      return some { key, name := some name }

/-- A `subkind` that is one of the given texts. -/
def isSubkind (value : Option Js) (texts : List String) : Bool :=
  match value with
  | some (.str s) => texts.contains s
  | _ => false

/-- `seq`, `ts` and `kind`, which every event has. -/
def validateStamp (at_ : String) (event : Js) : Except String (Nat × Nat × WireKind) :=
  match asNonNegativeInt (event.get? "seq") with
  | none => .error s!"{at_}.seq: not a non-negative integer"
  | some seq =>
    match asPositiveInt (event.get? "ts") with
    | none => .error s!"{at_}.ts: not a positive integer"
    | some ts =>
      match asNonEmptyString (event.get? "kind") 32 with
      | none => .error s!"{at_}.kind: not a string of 1..32 chars"
      | some kind =>
        match WireKind.ofText kind with
        | none => .error s!"{at_}.kind: unsupported event"
        | some kind => .ok (seq, ts, kind)

/-- `event.body`, when it is there. -/
def validateBody (at_ : String) (value : Option Js) : Except String (Option String) :=
  match value with
  | none => .ok none
  | some body =>
    match asString (some body) maxMessageChars with
    | some body => .ok (some body)
    | none => .error s!"{at_}.body: not a string of <={maxMessageChars} chars"

/-- What messages and notices need. -/
def validateLine (at_ : String) (kind : WireKind) (channel : Option WireChannel)
    (body : Option String) (subkind : Option Js) : Except String Unit :=
  if kind = .message then
    if body.isNone then .error s!"{at_}.body: required"
    else if subkind.isSome ∧ !isSubkind subkind ["talk", "emote"] then
      .error s!"{at_}.subkind: not 'talk' | 'emote'"
    else .ok ()
  else if kind = .notice then
    if channel.isNone then .error s!"{at_}.channel: required"
    else if body.isNone then .error s!"{at_}.body: required"
    else if !isSubkind subkind ["broadcast", "information"] then
      .error s!"{at_}.subkind: not 'broadcast' | 'information'"
    else .ok ()
  else .ok ()

/-- `event.users`, when it is there. -/
def validateUsers (at_ : String) (value : Option Js) : Except String (Option (List Js)) :=
  match value with
  | none => .ok none
  | some (.arr users) =>
    if users.length > maxRosterUsers then
      .error s!"{at_}.users: not an array of <={maxRosterUsers} entries"
    else .ok (some users)
  | some _ => .error s!"{at_}.users: not an array of <={maxRosterUsers} entries"

def validateEvent (event : Js) (index : Nat) : Except String WireEvent := do
  let at_ := s!"events[{index}]"
  unless event.isRecord do throw s!"{at_}: not an object"
  let (seq, ts, kind) ← validateStamp at_ event
  let channel ← validateChannel at_ (event.get? "channel")
  let body ← validateBody at_ (event.get? "body")
  let subkind := event.get? "subkind"
  validateLine at_ kind channel body subkind
  let users ← validateUsers at_ (event.get? "users")
  if stringifiedLength event > maxEventJsonChars then throw s!"{at_}: too large"
  return {
    seq, ts, kind, channel, body, subkind, users
    sender := event.get? "sender"
    user := event.get? "user"
    complete := event.get? "complete" }

/-- The loop over the events: each is checked, and each `seq` is above the one before. -/
def validateEvents : List Js → (index : Nat) → (previousSeq : Int) → Except String (List WireEvent)
  | [], _, _ => .ok []
  | event :: events, index, previousSeq => do
    let checked ← validateEvent event index
    if (checked.seq : Int) ≤ previousSeq then
      throw s!"events[{index}].seq: not strictly increasing"
    return checked :: (← validateEvents events (index + 1) checked.seq)

def validateSession (session : Option Js) : Except String WireSession := do
  let some session := session | throw "session: not an object"
  unless session.isRecord do throw "session: not an object"
  let some id := asNonEmptyString (session.get? "id") 64
    | throw "session.id: not a string of 1..64 chars"
  let product ← match session.get? "product" with
    | none => pure ProductSlug.sc2
    | some (.str s) =>
      match ProductSlug.ofText s with
      | some product => pure product
      | none => throw "session.product: unsupported product"
    | some _ => throw "session.product: unsupported product"
  let some clientVersion := asString (session.get? "client_version") 32
    | throw "session.client_version: not a string of <=32 chars"
  let some startedAt := asPositiveInt (session.get? "started_at")
    | throw "session.started_at: not a positive integer"
  return { id, product, clientVersion, startedAt }

def validateEnvelope (data : Js) : Except String WireEnvelope := do
  unless data.isRecord do throw "body: not an object"
  let some (.num (.int 1)) := data.get? "v" | throw "v: unsupported version"
  let session ← validateSession (data.get? "session")
  let some (.arr events) := data.get? "events" | throw "events: not an array"
  if events.length < 1 ∨ events.length > maxEventsPerPost then
    throw s!"events: expected 1..{maxEventsPerPost} entries"
  return { session, events := ← validateEvents events 0 (-1) }

end Superiority
