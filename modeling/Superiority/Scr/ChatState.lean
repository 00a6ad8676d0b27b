import Mathlib.Tactic
import Std.Data.ExtTreeMap
import Superiority.Library.Map
import Superiority.Scr.Messages

/-!
# What Remastered's chat keeps

`ChatState` of `chat.rs`: the channels with their rosters, the friends, and the lines that nobody
has taken yet. Three services push into it, and `ChatState.apply` takes their frames one at a time.

What a frame has to say to the chat state does not depend on the state: `callbackOf` reads it, and
**`apply_eq`** says that `apply` carries out just that.
-/

namespace Superiority.Scr

open Std Superiority.Wire

structure ChatState where
  channels : ExtTreeMap UInt32 ChatChannel := ∅
  friends : ExtTreeMap String ChatFriend := ∅
  auroraFriendKeys : ExtTreeMap UInt64 String := ∅
  events : List ChatEvent := []
  rosterRevision : UInt64 := 0
  friendsRevision : UInt64 := 0

/-- The channel answers to the name, whatever the case of its letters. -/
def ChatChannel.isNamed (channel : ChatChannel) (name : String) : Bool :=
  eqIgnoreAsciiCase channel.name name ||
    channel.displayName.any fun display => eqIgnoreAsciiCase display name

/-- An entry of `ChannelsUpdated`, or a callback about one channel. -/
inductive ChannelUpdate where
  | put (channel : ChatChannel)
  | removed (channelId : UInt32)
  deriving DecidableEq, Repr

def ChannelUpdate.channelId : ChannelUpdate → UInt32
  | put channel => channel.channelId
  | removed channelId => channelId

/-- The channels after an update. -/
def ChannelUpdate.perform (channels : ExtTreeMap UInt32 ChatChannel) :
    ChannelUpdate → ExtTreeMap UInt32 ChatChannel
  | put channel => channels.insert channel.channelId channel
  | removed channelId => channels.erase channelId

namespace ChatState

def findChannel (s : ChatState) (name : String) : Option ChatChannel :=
  (valuesOf s.channels).find? (·.isNamed name)

/-- `take_events`: the events, and the state without them. -/
def takeEvents (s : ChatState) : List ChatEvent × ChatState := (s.events, { s with events := [] })

def pushEvent (s : ChatState) (event : ChatEvent) : ChatState :=
  { s with events := s.events ++ [event] }

def adoptChannel (s : ChatState) (channel : ChatChannel) : ChatState :=
  { s with
    channels := s.channels.insert channel.channelId channel
    rosterRevision := s.rosterRevision + 1 }

def pushTalk (s : ChatState) (channelId : UInt32) (sender text : String) : ChatState :=
  s.pushEvent { kind := .talk, channelId := some channelId, sender := some sender, text := some text }

def pushInformation (s : ChatState) (text : String) : ChatState :=
  s.pushEvent { kind := .information, text := some text }

/-- The entry of a friend, with a new revision unless it is there already. -/
def keepFriend (s : ChatState) (key : String) (entry : ChatFriend) : ChatState :=
  if s.friends[key]? ≠ some entry then
    { s with
      friends := s.friends.insert key entry
      friendsRevision := s.friendsRevision + 1 }
  else s

/-- A notice about a friend: the entry keeps the account that AuroraFriends gave it. -/
def noticeFriend (s : ChatState) (entry : ChatFriend) (text : String) : ChatState :=
  let key := toAsciiLowercase entry.name
  let entry := { entry with accountId := s.friends[key]?.bind (·.accountId) }
  (s.keepFriend key entry).pushInformation text

/-- `apply_aurora_friend_updated`, of an update that is read. -/
def updateFriend (s : ChatState) (update : AuroraFriendUpdate) : ChatState :=
  let key := toAsciiLowercase update.battleTag
  let friends := match s.auroraFriendKeys[update.accountId]?.filter (· ≠ key) with
    | some previousKey => s.friends.erase previousKey
    | none => s.friends
  let s := { s with
    auroraFriendKeys := s.auroraFriendKeys.insert update.accountId key
    friends }
  s.keepFriend key {
    name := update.battleTag
    presence := if update.inProgram then .online else .offline
    game := none
    accountId := toU32 update.accountId }

def applyAuroraFriendUpdated (s : ChatState) (body : List UInt8) : Bool × ChatState :=
  match parseAuroraFriendUpdate body with
  | none => (false, s)
  | some update => if update.role ≠ 0 then (false, s) else (true, s.updateFriend update)

/-- The name an account's whisper is shown under. -/
def whisperSender (s : ChatState) (accountId : UInt32) : String :=
  match s.auroraFriendKeys[accountId.toUInt64]?.bind (s.friends[·]?) with
  | some entry => entry.name
  | none => s!"Battle.net account {accountId}"

def pushWhisper (s : ChatState) (whisper : AuroraWhisper) (message : String) : ChatState :=
  s.pushEvent {
    kind := .whisper
    sender := some (s.whisperSender whisper.accountId)
    text := some message
    auroraWhisper := some whisper }

def applyAuroraWhisper (s : ChatState) (methodId : UInt32) (body : List UInt8) :
    Bool × ChatState :=
  match firstFixed32 body 1, (firstBytes body 2).bind text with
  | some accountId, some message =>
    (true, s.pushWhisper ⟨accountId, methodId = Method.whisperEchoReceived⟩ message)
  | _, _ => (false, s)

def applyChannelsUpdated (channels : ExtTreeMap UInt32 ChatChannel) (body : List UInt8) :
    ExtTreeMap UInt32 ChatChannel :=
  (((fieldsOf body).filter fun field => field.number = 1).filterMap bytesOf).foldl
    (fun channels update =>
      match parseChannelUpdate update with
      | (_, none) => channels
      | (operation, some channel) =>
        if operation = 1 then channels.erase channel.channelId
        else channels.insert channel.channelId channel) channels

/-- `ChatState::apply`: whether the frame changed something, and the state it leaves. -/
def apply (s : ChatState) (frame : Frame) : Bool × ChatState :=
  let methodId := frame.header.methodId
  if frame.answers then (false, s)
  else if frame.header.serviceId = Service.auroraFriends then
    if methodId = Method.friendUpdated then s.applyAuroraFriendUpdated frame.body else (false, s)
  else if frame.header.serviceId = Service.auroraChat then
    if methodId = Method.whisperReceived ∨ methodId = Method.whisperEchoReceived then
      s.applyAuroraWhisper methodId frame.body
    else (false, s)
  else if frame.header.serviceId ≠ Service.legacyChat then (false, s)
  else if methodId = Method.channelsUpdated then
    (true, { s with
      channels := applyChannelsUpdated s.channels frame.body
      rosterRevision := s.rosterRevision + 1 })
  else if methodId = Method.leftChannel then
    match (firstVarint frame.body 1).bind toU32 with
    | some channelId =>
      (s.channels[channelId]?.isSome, { s with channels := s.channels.erase channelId })
    | none => (false, s)
  else if methodId = Method.forceJoinChannel then
    match parseForceJoinChannel frame.body with
    | some channel =>
      (true, { s with
        channels := s.channels.insert channel.channelId channel
        rosterRevision := s.rosterRevision + 1 })
    | none => (false, s)
  else if methodId = Method.chatFriendEnter ∨ methodId = Method.chatFriendExit ∨
      methodId = Method.chatFriendNotifyGame then
    match friendUpdate methodId frame.body with
    | some (entry, text) => (true, s.noticeFriend entry text)
    | none => (false, s)
  else
    match EventKind.fromMethodId methodId with
    | some kind => (true, s.pushEvent (parseEvent kind frame.body))
    | none => (false, s)

end ChatState

/-! ## What a frame has to say -/

/-- What a frame has to say to the chat state. -/
inductive Callback where
  | nothing
  /-- AuroraFriends has news of an account of the roster. -/
  | update (update : AuroraFriendUpdate)
  | whisper (whisper : AuroraWhisper) (message : String)
  | channels (updates : List ChannelUpdate)
  | left (channelId : UInt32)
  | forced (channel : ChatChannel)
  | notice (entry : ChatFriend) (text : String)
  | event (event : ChatEvent)
  deriving DecidableEq, Repr

/-- The updates of a `ChannelsUpdated`, in order. -/
def channelUpdates (body : List UInt8) : List ChannelUpdate :=
  (((fieldsOf body).filter fun field => field.number = 1).filterMap bytesOf).filterMap fun update =>
    match parseChannelUpdate update with
    | (_, none) => none
    | (operation, some channel) =>
      some (if operation = 1 then .removed channel.channelId else .put channel)

def legacyCallback (methodId : UInt32) (body : List UInt8) : Callback :=
  if methodId = Method.channelsUpdated then .channels (channelUpdates body)
  else if methodId = Method.leftChannel then
    match (firstVarint body 1).bind toU32 with
    | some channelId => .left channelId
    | none => .nothing
  else if methodId = Method.forceJoinChannel then
    match parseForceJoinChannel body with
    | some channel => .forced channel
    | none => .nothing
  else if methodId = Method.chatFriendEnter ∨ methodId = Method.chatFriendExit ∨
      methodId = Method.chatFriendNotifyGame then
    match friendUpdate methodId body with
    | some (entry, text) => .notice entry text
    | none => .nothing
  else
    match EventKind.fromMethodId methodId with
    | some kind => .event (parseEvent kind body)
    | none => .nothing

/-- What a frame has to say to the chat state. -/
def callbackOf (frame : Frame) : Callback :=
  let methodId := frame.header.methodId
  if frame.answers then .nothing
  else if frame.header.serviceId = Service.auroraFriends then
    match parseAuroraFriendUpdate frame.body with
    | some update =>
      if methodId = Method.friendUpdated ∧ update.role = 0 then .update update else .nothing
    | none => .nothing
  else if frame.header.serviceId = Service.auroraChat then
    match firstFixed32 frame.body 1, (firstBytes frame.body 2).bind text with
    | some accountId, some message =>
      if methodId = Method.whisperReceived ∨ methodId = Method.whisperEchoReceived then
        .whisper ⟨accountId, methodId = Method.whisperEchoReceived⟩ message
      else .nothing
    | _, _ => .nothing
  else if frame.header.serviceId = Service.legacyChat then legacyCallback methodId frame.body
  else .nothing

namespace ChatState

/-- The updates of channels, in order. -/
def updateChannels (s : ChatState) (updates : List ChannelUpdate) : ChatState :=
  { s with
    channels := updates.foldl ChannelUpdate.perform s.channels
    rosterRevision := s.rosterRevision + 1 }

/-- The state after a callback. -/
def perform (s : ChatState) : Callback → ChatState
  | .nothing => s
  | .update update => s.updateFriend update
  | .whisper whisper message => s.pushWhisper whisper message
  | .channels updates => s.updateChannels updates
  | .left channelId => { s with channels := s.channels.erase channelId }
  | .forced channel => s.adoptChannel channel
  | .notice entry text => s.noticeFriend entry text
  | .event event => s.pushEvent event

/-- What `apply` answers: that something changed. -/
def reports (s : ChatState) : Callback → Bool
  | .nothing => false
  | .left channelId => s.channels[channelId]?.isSome
  | _ => true

theorem applyChannelsUpdated_eq (channels : ExtTreeMap UInt32 ChatChannel) (body : List UInt8) :
    applyChannelsUpdated channels body = (channelUpdates body).foldl ChannelUpdate.perform channels := by
  rw [applyChannelsUpdated, channelUpdates]
  generalize ((fieldsOf body).filter fun field => field.number = 1).filterMap bytesOf = entries
  rw [List.foldl_filterMap]
  congr 1
  funext channels update
  rcases parseChannelUpdate update with ⟨operation, channel⟩
  cases channel with
  | none => rfl
  | some channel =>
    by_cases hoperation : operation = 1
    · simp [hoperation, ChannelUpdate.perform]
    · simp [hoperation, ChannelUpdate.perform]

theorem apply_legacy (s : ChatState) (frame : Frame) (hanswers : frame.answers = false)
    (hservice : frame.header.serviceId = Service.legacyChat) :
    s.apply frame =
      (s.reports (legacyCallback frame.header.methodId frame.body),
        s.perform (legacyCallback frame.header.methodId frame.body)) := by
  have hfriends : Service.legacyChat ≠ Service.auroraFriends := by decide
  have hchat : Service.legacyChat ≠ Service.auroraChat := by decide
  simp only [apply, hanswers, hservice, hfriends, hchat, ne_eq, not_true_eq_false, if_false,
    Bool.false_eq_true, legacyCallback]
  split_ifs
  · rw [applyChannelsUpdated_eq]
    rfl
  · cases (firstVarint frame.body 1).bind toU32 <;> rfl
  · cases parseForceJoinChannel frame.body <;> rfl
  · cases friendUpdate frame.header.methodId frame.body <;> rfl
  · cases EventKind.fromMethodId frame.header.methodId <;> rfl

/-- **A frame is applied as it is read.** -/
theorem apply_eq (s : ChatState) (frame : Frame) :
    s.apply frame = (s.reports (callbackOf frame), s.perform (callbackOf frame)) := by
  by_cases hanswers : frame.answers = true
  · simp [apply, callbackOf, hanswers, reports, perform]
  rw [Bool.not_eq_true] at hanswers
  by_cases hfriends : frame.header.serviceId = Service.auroraFriends
  · simp only [apply, callbackOf, hanswers, hfriends, Bool.false_eq_true, if_false, if_true,
      applyAuroraFriendUpdated]
    cases parseAuroraFriendUpdate frame.body with
    | none => split_ifs <;> rfl
    | some update =>
      by_cases hmethod : frame.header.methodId = Method.friendUpdated
      · by_cases hrole : update.role = 0
        · simp [hmethod, hrole, reports, perform]
        · simp [hmethod, hrole, reports, perform]
      · simp [hmethod, reports, perform]
  by_cases hchat : frame.header.serviceId = Service.auroraChat
  · have hne : Service.auroraChat ≠ Service.auroraFriends := by decide
    simp only [apply, callbackOf, hanswers, hchat, hne, Bool.false_eq_true, if_false, if_true,
      applyAuroraWhisper]
    split_ifs
    · cases firstFixed32 frame.body 1 <;> cases (firstBytes frame.body 2).bind text <;> rfl
    · cases firstFixed32 frame.body 1 <;> cases (firstBytes frame.body 2).bind text <;> rfl
  by_cases hlegacy : frame.header.serviceId = Service.legacyChat
  · have hcallback : callbackOf frame = legacyCallback frame.header.methodId frame.body := by
      unfold callbackOf
      rw [hanswers, if_neg Bool.false_ne_true, if_neg hfriends, if_neg hchat, if_pos hlegacy]
    rw [apply_legacy s frame hanswers hlegacy, hcallback]
  · simp [apply, callbackOf, hanswers, hfriends, hchat, hlegacy, reports, perform]

@[simp] theorem apply_state (s : ChatState) (frame : Frame) :
    (s.apply frame).2 = s.perform (callbackOf frame) := by
  rw [apply_eq]

@[simp] theorem apply_reports (s : ChatState) (frame : Frame) :
    (s.apply frame).1 = s.reports (callbackOf frame) := by
  rw [apply_eq]

end ChatState

end Superiority.Scr
