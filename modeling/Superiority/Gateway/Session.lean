import Superiority.Library.Map
import Superiority.Library.Run
import Superiority.Library.Stateful
import Superiority.Sc2.Model
import Superiority.Text

/-!
# The gateway's session

`gateway/src/sc2.rs`: what the gateway keeps of a StarCraft II session for a legacy client. A legacy
client is in one channel at most, the active one. It is told of it with the first complete roster,
and of no other channel.

The network worker takes every command that it is sent. `Call` is what happens to a session: an
event of the chat, a join that a client asks for, or its leaving.
-/

namespace Superiority.Gateway

open Std Stateful

structure User where
  handle : UInt32
  name : String
  deriving DecidableEq, Repr

structure ChannelSnapshot where
  index : UInt8
  label : String
  users : List User
  deriving DecidableEq, Repr

inductive FriendPresence where
  | available | away | busy | inGame | offline | unknown
  deriving DecidableEq, Repr

structure Friend where
  name : String
  presence : FriendPresence
  deriving DecidableEq, Repr

inductive Event where
  | joined (channelIndex : UInt8)
  | rosterChanged (channelIndex : UInt8)
  | memberJoined (channelIndex : UInt8) (user : User)
  | memberLeft (channelIndex : UInt8) (user : User)
  | message (channelIndex : UInt8) (sender : User) (body : String) (outgoing : Bool)
  | whisper (peer body : String) (outgoing : Bool)
  | friendsChanged
  | error (message : String)
  deriving DecidableEq, Repr

/-- The channel that an event is about, if a legacy client is told of it only while it is in it. -/
def Event.about : Event → Option UInt8
  | .rosterChanged index | .memberJoined index _ | .memberLeft index _ | .message index _ _ _ =>
    some index
  | _ => none

/-- `ClientCommand`: those that a legacy client can bring about. -/
inductive ClientCommand where
  | joinChannel (channel : ChatChannel)
  | leaveChannel (channelIndex : UInt8)
  | sendMessage (channelIndex : UInt8) (body : String)
  | sendWhisper (target : Sc2.WhisperTarget) (displayName body : String)
  deriving DecidableEq, Repr

/-! ## State -/

abbrev Users := ExtTreeMap UInt32 Sc2.ChatUser

structure ChannelState where
  channel : Option ChatChannel := none
  localMemberHandle : Option UInt32 := none
  users : Users := ∅

/-- `Session`, with the commands it has sent. Its events and its authentication are left out. -/
structure Session where
  sent : List ClientCommand := []
  publicChannels : List PublicChannel := []
  channels : ExtTreeMap UInt8 ChannelState := ∅
  activeChannelIndex : Option UInt8 := none
  pendingChannel : Option ChatChannel := none
  pendingAnnouncement : Option UInt8 := none
  toonName : String := ""
  friends : List Friend := []

/-- `user`. -/
def user (source : Sc2.ChatUser) : User where
  handle := source.handle
  name := source.name.elim ("User " ++ source.handle.toNat.repr) stripCharacterCode

/-- `legacy_user_name`. -/
def legacyUserName (source : Sc2.ChatUser) : Option String := source.name.map stripCharacterCode

/-- `same_legacy_roster`. -/
def sameLegacyRoster (left right : Users) : Bool :=
  left.size = right.size && left.toList.all fun entry =>
    right[entry.1]?.any fun rightUser => legacyUserName entry.2 = legacyUserName rightUser

/-- `friend_presence`. -/
def friendPresence : PresenceState → FriendPresence
  | .available => .available
  | .away => .away
  | .busy => .busy
  | .inGame => .inGame
  | .offline => .offline
  | .unknown => .unknown

/-- `str::parse` of a `u16`. -/
def parseU16 (s : String) : Option UInt16 :=
  (parseU64 s).toOption.bind fun value =>
    if value.toNat < 2 ^ 16 then some value.toUInt16 else none

/-- `DEFAULT_PUBLIC_CHANNEL`. -/
def defaultPublicChannel : UInt16 := generalPublicChannel

namespace Session

/-- `send`, of a command that the worker takes. -/
def send (command : ClientCommand) (s : Session) : Session := { s with sent := s.sent ++ [command] }

/-! ## What is shown -/

/-- `channel_label`. -/
def channelLabel (s : Session) (channel : ChatChannel) : String :=
  match channel with
  | .public_ identifier =>
    (s.publicChannels.find? fun candidate => candidate.identifier = identifier).elim
      (channelTitle channel) PublicChannel.name
  | _ => channelTitle channel

def channelSnapshot (s : Session) (index : UInt8) : Option ChannelSnapshot := do
  let state ← s.channels[index]?
  let channel ← state.channel
  some {
    index
    label := s.channelLabel channel
    users := (state.users.toList.map (·.2)).map user }

def activeChannel (s : Session) : Option ChannelSnapshot :=
  s.activeChannelIndex.bind s.channelSnapshot

/-- `channel_names`. -/
def channelNames (s : Session) : List String :=
  let names := s.publicChannels.map PublicChannel.name
  match s.activeChannel with
  | some active =>
    if names.any fun name => eqIgnoreAsciiCase name active.label then names
    else names ++ [active.label]
  | none => names

/-! ## What a legacy client asks -/

def sendMessage (body : String) : Stateful Session Error Unit := do
  let body := trim body
  if body = "" then pure ()
  else
    let s ← read
    let channelIndex ← orFail s.activeChannelIndex
      (.transport "the SC2 session has no active chat channel")
    change (send (.sendMessage channelIndex body))

def sendWhisper (target body : String) : Stateful Session Error Unit :=
  let target := trim target
  let body := trim body
  if target = "" ∨ body = "" then fail (.transport "whisper requires a target and message")
  else change (send (.sendWhisper (.name target) target body))

def resolveChannel (s : Session) (requested : String) : ChatChannel :=
  match parseU16 requested with
  | some identifier => .public_ identifier
  | none =>
    match s.publicChannels.find? fun channel => eqIgnoreAsciiCase channel.name requested with
    | some channel => .public_ channel.identifier
    | none => .private_ requested

def join (requested : String) : Stateful Session Error Unit := do
  let requested := trim requested
  if requested = "" then fail (.transport "channel name cannot be empty")
  else
    let s ← read
    if s.pendingChannel.isSome then fail (.transport "another SC2 channel join is already pending")
    else
      let channel := s.resolveChannel requested
      change (send (.joinChannel channel))
      change fun s => { s with pendingChannel := some channel }

def joinDefault : Stateful Session Error Unit := join defaultPublicChannel.toNat.repr

/-- `leave_active_channel`: whether there was one. -/
def leaveActiveChannel (s : Session) : Bool × Session :=
  match s.activeChannelIndex with
  | none => (false, s)
  | some channelIndex =>
    let s := send (.leaveChannel channelIndex) s
    (true, { s with
      activeChannelIndex := none
      pendingAnnouncement :=
        if s.pendingAnnouncement = some channelIndex then none else s.pendingAnnouncement
      channels := s.channels.erase channelIndex })

/-! ## Chat events -/

/-- `identify_toon`. -/
def identifyToon (channelIndex : UInt8) (s : Session) : Session :=
  if s.toonName ≠ "" then s
  else
    match (do
      let channel ← s.channels[channelIndex]?
      let handle ← channel.localMemberHandle
      let member ← channel.users[handle]?
      member.name) with
    | some name => { s with toonName := stripCharacterCode name }
    | none => s

/-- `self.channels.entry(channel_index).or_default()`. -/
def stateOf (s : Session) (channelIndex : UInt8) : ChannelState :=
  s.channels[channelIndex]?.getD {}

def setState (channelIndex : UInt8) (state : ChannelState) (s : Session) : Session :=
  { s with channels := s.channels.insert channelIndex state }

/-- `should_activate`. -/
def shouldActivate (s : Session) (channel : ChatChannel) : Bool :=
  s.activeChannelIndex.isNone || s.pendingChannel = some channel

/-- The second half of `apply_joined`. -/
def activate (channelIndex : UInt8) (s : Session) : Session :=
  let previous := s.activeChannelIndex
  let s := { s with
    activeChannelIndex := some channelIndex
    pendingChannel := none }
  let s := match previous with
    | some previous => if previous ≠ channelIndex then send (.leaveChannel previous) s else s
    | none => s
  { s with pendingAnnouncement := some channelIndex }

def applyJoined (channelIndex : UInt8) (channel : ChatChannel) (localMemberHandle : UInt32)
    (s : Session) : Session :=
  let state := { s.stateOf channelIndex with
    channel := some channel
    localMemberHandle := some localMemberHandle }
  let joined := identifyToon channelIndex (setState channelIndex state s)
  if s.shouldActivate channel then activate channelIndex joined else joined

def applyRoster (snapshot : Sc2.RosterSnapshot) (s : Session) : Option Event × Session :=
  let channelIndex := snapshot.channelIndex
  let state := s.stateOf channelIndex
  let users : Users := snapshot.users.foldl (fun users user => users.insert user.handle user) ∅
  let legacyChanged := !sameLegacyRoster state.users users
  let s := identifyToon channelIndex (setState channelIndex { state with users } s)
  if s.activeChannelIndex ≠ some channelIndex then (none, s)
  else if s.pendingAnnouncement = some channelIndex then
    if snapshot.initialComplete then
      (some (.joined channelIndex), { s with pendingAnnouncement := none })
    else (none, s)
  else (if legacyChanged then some (.rosterChanged channelIndex) else none, s)

def applyMemberJoined (channelIndex : UInt8) (joined : Sc2.ChatUser) (s : Session) :
    Option Event × Session :=
  let state := s.stateOf channelIndex
  let previous := state.users[joined.handle]?
  let s := identifyToon channelIndex
    (setState channelIndex { state with users := state.users.insert joined.handle joined } s)
  if s.activeChannelIndex = some channelIndex
      ∧ previous.all fun previous => legacyUserName previous ≠ legacyUserName joined then
    (some (.memberJoined channelIndex (user joined)), s)
  else (none, s)

def applyMemberLeft (channelIndex : UInt8) (left : Sc2.ChatUser) (s : Session) :
    Option Event × Session :=
  match s.channels[channelIndex]? with
  | none => (none, s)
  | some state =>
    let removed := state.users[left.handle]?
    let s := setState channelIndex { state with users := state.users.erase left.handle } s
    match removed with
    | some removed =>
      if s.activeChannelIndex = some channelIndex then
        (some (.memberLeft channelIndex (user removed)), s)
      else (none, s)
    | none => (none, s)

def removedText (reason : Option UInt16) : String :=
  match reason with
  | none => "Battle.net removed this session from the active channel"
  | some value =>
    "Battle.net removed this session from the active channel (reason " ++ value.toNat.repr ++ ")"

def applyRemoved (channelIndex : UInt8) (reason : Option UInt16) (s : Session) :
    Option Event × Session :=
  let s := { s with
    channels := s.channels.erase channelIndex
    pendingAnnouncement :=
      if s.pendingAnnouncement = some channelIndex then none else s.pendingAnnouncement }
  if s.activeChannelIndex ≠ some channelIndex then (none, s)
  else (some (.error (removedText reason)), { s with activeChannelIndex := none })

def rejectedText (channel : Option ChatChannel) (reason : Option UInt16) : String :=
  "Battle.net rejected " ++ channel.elim "requested channel" channelTitle ++
    reason.elim "" fun value => " (reason " ++ value.toNat.repr ++ ")"

def applyMessage (channelIndex : UInt8) (sender : Sc2.ChatUser) (body : String) (s : Session) :
    Option Event :=
  let outgoing := s.channels[channelIndex]?.bind (·.localMemberHandle) = some sender.handle
  if s.activeChannelIndex = some channelIndex then
    some (.message channelIndex (user sender) body outgoing)
  else none

def applyFriends (friends : List Sc2.ChatFriend) (s : Session) : Option Event × Session :=
  let friends := friends.map fun friend => ⟨friend.name, friendPresence friend.presence⟩
  if s.friends = friends then (none, s) else (some .friendsChanged, { s with friends })

/-- `apply_chat`. -/
def applyChat (event : Sc2.ChatEvent) (s : Session) : Option Event × Session :=
  match event with
  | .publicChannelCatalog publicChannels => (none, { s with publicChannels })
  | .joined channelIndex channel localMemberHandle _ =>
    (none, applyJoined channelIndex channel localMemberHandle s)
  | .joinRejected channel reason =>
    (some (.error (rejectedText channel reason)), { s with pendingChannel := none })
  | .roster snapshot => applyRoster snapshot s
  | .memberJoined channelIndex joined => applyMemberJoined channelIndex joined s
  | .memberLeft channelIndex left _ => applyMemberLeft channelIndex left s
  | .removed channelIndex reason => applyRemoved channelIndex reason s
  | .message channelIndex sender body => (applyMessage channelIndex sender body s, s)
  | .whisper peer body outgoing => (some (.whisper peer body outgoing), s)
  | .whisperFailed peer reason =>
    (some (.error ("Whisper to " ++ peer ++ " failed: " ++ reason)), s)
  | .friends friends => applyFriends friends s
  | .conferenceDescriptions _ _ | .conferenceMemberCounts _ _ | .blockedAccounts _ | .activity _
  | .groupInvitation _ | .partyInvitation _ _ | .groupSummary _ _ | .groupSearch _ => (none, s)

/-! ## Runs -/

/-- What happens to a session. -/
inductive Call where
  | chat (event : Sc2.ChatEvent)
  | join (requested : String)
  | leaveActiveChannel

/-- A call, with the event that it outputs. -/
def call (s : Session) : Call → Option Event × Session
  | .chat event => applyChat event s
  | .join requested => (none, (join requested s).2)
  | .leaveActiveChannel => (none, (leaveActiveChannel s).2)

def step (s : Session) (c : Call) : Session := (s.call c).2

def output (s : Session) (c : Call) : Option Event := (s.call c).1

end Session

end Superiority.Gateway
