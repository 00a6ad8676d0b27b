import Std.Data.ExtTreeMap
import Superiority.Library.Keyed
import Superiority.Library.Stateful
import Superiority.Wc3.Messages

/-!
# The state of Warcraft III's chat

The channels that are joined, the friends, and what a queued callback does to them. A callback that
cannot be read ends the dispatch with an error; what it has changed before stays changed.
-/

namespace Superiority.Wc3

open Std Stateful
open Scr (bytesOf firstBytes)
open Wire (Field itemsOf)

structure JoinedChannel where
  id : UInt8
  channelId : List UInt8
  channel : ChatChannel
  announced : Bool

/-- A channel that is named and filled is announced. -/
def JoinedChannel.filled (joined : JoinedChannel) (parsed : ParsedChannel) : JoinedChannel :=
  { joined with
    channel := { joined.channel with name := parsed.name, members := parsed.members }
    announced := true }

structure ChatState where
  channels : List JoinedChannel
  focusedChannel : Option UInt8
  friends : ExtTreeMap UInt64 ChatFriend
  peerNames : ExtTreeMap UInt64 String
  friendsRevision : UInt64

abbrev Chat (α : Type) := Stateful ChatState Error α

namespace ChatState

def default_ : ChatState := ⟨[], none, ∅, ∅, 0⟩

/-! ## Channels -/

def allocateChannelId (chat : ChatState) : Except Error UInt8 :=
  orClassic (((List.range 256).map UInt8.ofNat).find? fun candidate =>
    chat.channels.all (·.id ≠ candidate)) "too many simultaneous WC3 chat channels"

def reserveChannel (channelId : List UInt8) (name : String) : Chat UInt8 := do
  let chat ← read
  match chat.channels.find? (·.channelId = channelId) with
  | some channel =>
    change fun chat => { chat with focusedChannel := some channel.id }
    return channel.id
  | none =>
    let id ← ofExcept chat.allocateChannelId
    change fun chat => { chat with
      channels := chat.channels ++ [⟨id, channelId, ⟨id, name, []⟩, false⟩]
      focusedChannel := some id }
    return id

/-- The channel is named and filled, and whether it is announced for the first time. -/
def applyChannel (parsed : ParsedChannel) : Chat (UInt8 × Bool) := do
  let chat ← read
  match chat.channels.find? (·.channelId = parsed.channelId) with
  | some channel =>
    change fun chat => { chat with
      channels := modifyFirst (·.channelId = parsed.channelId) (·.filled parsed) chat.channels }
    return (channel.id, !channel.announced)
  | none =>
    let id ← ofExcept chat.allocateChannelId
    change fun chat => { chat with
      channels := chat.channels ++ [⟨id, parsed.channelId, ⟨id, parsed.name, parsed.members⟩, true⟩]
      focusedChannel := chat.focusedChannel.or (some id) }
    return (id, true)

def channel (chat : ChatState) (id : UInt8) : Option JoinedChannel :=
  chat.channels.find? (·.id = id)

def callbackChannelId (chat : ChatState) (body : List UInt8) : Option UInt8 :=
  (firstBytes body 1).bind fun wireId =>
    (chat.channels.find? (·.channelId = wireId)).map (·.id)

def withoutFirst (id : UInt8) (channels : List JoinedChannel) : List JoinedChannel :=
  channels.eraseP (·.id = id)

/-- `remove_channel`, and the channel that was removed. -/
def removeChannel (chat : ChatState) (id : UInt8) : Option JoinedChannel × ChatState :=
  match chat.channel id with
  | none => (none, chat)
  | some removed =>
    let channels := withoutFirst id chat.channels
    (some removed, { chat with
      channels := channels
      focusedChannel := if chat.focusedChannel = some id then
        (channels.reverse.find? (·.announced)).map (·.id) else chat.focusedChannel })

def announcedChannels (chat : ChatState) : List ChatChannel :=
  (chat.channels.filter (·.announced)).map (·.channel)

/-- A change of the members of the channel of an id. -/
def withMembers (chat : ChatState) (id : UInt8) (f : List ChatMember → List ChatMember) :
    ChatState := { chat with
  channels := modifyFirst (·.id = id) (fun current => { current with
    channel := { current.channel with members := f current.channel.members } }) chat.channels }

end ChatState

/-! ## Presence -/

/-- What an update of presence does to the member it is about. -/
def updateMember (body : List UInt8) : Stateful ChatMember Error Unit := do
  match firstBytes body 4 with
  | some avatarId =>
    let avatarId ← ofExcept (parseAvatarId avatarId)
    change fun member => { member with avatarId := avatarId }
  | none => pure ()
  match firstBytes body 5 with
  | some clan =>
    let clan ← if clan = [] then pure none
      else ofExcept ((validatedText clan "clan abbreviation").map some)
    change fun member => { member with clanAbbreviation := clan }
  | none => pure ()
  match firstBytes body 9 with
  | some status =>
    let presence ← ofExcept (parsePresence status)
    change fun member => { member with presence := presence }
  | none => pure ()

/-- The first of the members with the identity is changed. -/
def modifyMember (identity : ChatMemberIdentity) (x : Stateful ChatMember Error Unit) :
    Stateful (List ChatMember) Error Unit := fun members =>
  match members.find? (·.identity = identity) with
  | none => (.ok (), members)
  | some member =>
    ((x member).1, modifyFirst (·.identity = identity) (fun _ => (x member).2) members)

def applyMemberPresence (body : List UInt8) : Stateful (List ChatMember) Error Unit := do
  if body = [] then return
  let identity ← ofExcept (orClassic (firstBytes body 2) "member presence has no toon identity")
  let identity ← ofExcept (parseMemberIdentity identity)
  modifyMember identity (updateMember body)

/-- The update goes through the channels until it fails. -/
def applyPresences (body : List UInt8) : Stateful (List JoinedChannel) Error Unit
  | [] => (.ok (), [])
  | current :: channels =>
    match applyMemberPresence body current.channel.members with
    | (.error error, members) =>
      (.error error, { current with channel := { current.channel with members := members } } ::
        channels)
    | (.ok (), members) =>
      let rest := applyPresences body channels
      (rest.1, { current with channel := { current.channel with members := members } } :: rest.2)

def onChannels (x : Stateful (List JoinedChannel) Error Unit) : Chat Unit :=
  within (·.channels) (fun channels chat => { chat with channels := channels }) x

/-! ## Callbacks -/

namespace ChatState

/-- The bytes of the repeated field of a batch; other fields are passed over. -/
def batchUpdate (item : Except Error Field) (message : String) :
    Except Error (Option (List UInt8)) := do
  let field ← item
  if field.number ≠ 1 then return none
  let update ← orClassic (bytesOf field) message
  return some update

def applyFriendUpdate (changed : Bool) : FriendUpdate → Chat Bool
  | .remove accountId => do
    let chat ← read
    change fun chat => { chat with friends := chat.friends.erase accountId }
    return changed || chat.friends.contains accountId
  | .upsert friend => do
    change fun chat => { chat with peerNames := chat.peerNames.insert friend.accountId friend.name }
    let chat ← read
    if chat.friends[friend.accountId]? ≠ some friend then
      change fun chat => { chat with friends := chat.friends.insert friend.accountId friend }
      return true
    return changed

/-- The loop over the updates of a batch, with whether one has changed something. -/
def applyFriendUpdates : Bool → List (Except Error Field) → Chat Bool
  | changed, [] => pure changed
  | changed, item :: items => do
    match ← ofExcept (batchUpdate item "BatchFriendUpdated contains a non-message update") with
    | none => applyFriendUpdates changed items
    | some update =>
      let update ← ofExcept (parseFriendUpdate update)
      let changed ← applyFriendUpdate changed update
      applyFriendUpdates changed items

def applyBatchFriendUpdated (body : List UInt8) : Chat Unit := do
  let changed ← applyFriendUpdates false (itemsOf body)
  if changed then
    change fun chat => { chat with friendsRevision := chat.friendsRevision + 1 }

def applyPresenceBatch (body : List UInt8) : Chat Unit :=
  each (fun item => do
    match ← ofExcept
      (batchUpdate item "BatchUpdateMemberPresence contains a non-message update") with
    | none => pure ()
    | some update => onChannels (applyPresences update)) (itemsOf body)

variable (casing : Casing)

def onChannelAdded (body : List UInt8) : Chat (Option ChatEvent) := do
  let parsed ← ofExcept (parseChannelAdded casing body)
  let applied ← applyChannel parsed
  return if applied.2 then some (.channelJoined applied.1 parsed.name parsed.members.length)
    else none

def onChannelRemoved (body : List UInt8) : Chat (Option ChatEvent) := do
  let chat ← read
  match chat.callbackChannelId body with
  | none => return none
  | some id =>
    let removed ← take fun chat => chat.removeChannel id
    return removed.map fun channel => .channelLeft channel.id

def onMemberAdded (body : List UInt8) : Chat (Option ChatEvent) := do
  let chat ← read
  match chat.callbackChannelId body with
  | none => return none
  | some id =>
    match ← ofExcept (findMemberInfo body) with
    | none => return none
    | some member =>
      change fun chat => chat.withMembers id fun members =>
        if members.any (·.identity = member.identity) then members
        else sortMembers casing (members ++ [member])
      return some (.memberJoined id member.name)

def onMemberRemoved (body : List UInt8) : Chat (Option ChatEvent) := do
  let chat ← read
  match chat.callbackChannelId body with
  | none => return none
  | some id =>
    let name ← ofExcept (findMemberName body)
    change fun chat => chat.withMembers id fun members =>
      match name with
      | none => members
      | some name => members.filter (·.name ≠ name)
    return some (.memberLeft id name)

def onMessageReceived (body : List UInt8) : Chat (Option ChatEvent) := do
  let chat ← read
  match chat.callbackChannelId body with
  | none => return none
  | some id =>
    let text ← ofExcept (parseChatMessage body)
    return some (.message id text)

def onWhisper (body : List UInt8) (outgoing : Bool) : Chat (Option ChatEvent) := do
  let whisper ← ofExcept (parseWhisper body outgoing)
  let chat ← read
  let peer := ((whisper.peer.or chat.peerNames[whisper.accountId]?).or
    (chat.friends[whisper.accountId]?.map (·.name))).getD
    (s!"Battle.net account {whisper.accountId}")
  change fun chat => { chat with peerNames := chat.peerNames.insert whisper.accountId peer }
  return some (.whisper whisper.accountId peer whisper.body outgoing)

/-- What a callback of the chat service does, and the event it gives. -/
def onChatCallback (methodId : UInt32) (body : List UInt8) : Chat (Option ChatEvent) :=
  if methodId = channelSubscriptionUpdated then
    pure (some (.notice "Channel service subscribed."))
  else if methodId = channelAdded then onChannelAdded casing body
  else if methodId = channelRemoved then onChannelRemoved body
  else if methodId = memberAdded then onMemberAdded casing body
  else if methodId = memberRemoved then onMemberRemoved body
  else if methodId = updateMemberPresence then do
    onChannels (applyPresences body)
    return none
  else if methodId = batchUpdateMemberPresence then do
    applyPresenceBatch body
    return none
  else if methodId = messageReceived then onMessageReceived body
  else if methodId = whisperReceived ∨ methodId = whisperEchoReceived then
    onWhisper body (methodId = whisperEchoReceived)
  else pure none

/-- What the dispatch leaves: the events it has gathered, which are lost when it has failed, the
state, and the callbacks that stay in the queue. -/
structure Dispatched where
  events : List ChatEvent
  failure : Option Error
  chat : ChatState
  callbacks : List Callback

def Dispatched.result (dispatched : Dispatched) : Except Error (List ChatEvent) :=
  match dispatched.failure with
  | some error => .error error
  | none => .ok dispatched.events

/-- The loop of the dispatch, with the events so far and the callbacks that are put aside. -/
def dispatchFrom (events : List ChatEvent) (deferred : List Callback) (chat : ChatState) :
    List Callback → Dispatched
  | [] => ⟨events, none, chat, deferred⟩
  | callback :: callbacks =>
    if callback.serviceId = auroraFriends then
      if callback.methodId = batchFriendUpdated then
        match applyBatchFriendUpdated callback.body chat with
        | (.error error, chat) => ⟨events, some error, chat, callbacks⟩
        | (.ok (), chat) => dispatchFrom events deferred chat callbacks
      else dispatchFrom events deferred chat callbacks
    else if callback.serviceId = auroraChat then
      match onChatCallback casing callback.methodId callback.body chat with
      | (.error error, chat) => ⟨events, some error, chat, callbacks⟩
      | (.ok event, chat) => dispatchFrom (events ++ event.toList) deferred chat callbacks
    else dispatchFrom events (deferred ++ [callback]) chat callbacks

def dispatch (chat : ChatState) (callbacks : List Callback) : Dispatched :=
  dispatchFrom casing [] [] chat callbacks

end ChatState

end Superiority.Wc3
