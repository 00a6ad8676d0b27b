import Superiority.Sc2.Friends

/-!
# A connected chat session

`LiveChat` of `chat/session.rs`: what a StarCraft II session keeps once its first channel is
complete, and what its host can ask of it besides whispers.

A party is a channel too, but it is kept apart: in the records it has a wire index like any other
channel, to the host it is always channel 255.
-/

namespace Superiority.Sc2

open Std

def namedChannelType : UInt8 := 1
def partyChannelType : UInt8 := 3
def publicChannelType : UInt8 := 4
def clubChannelType : UInt8 := 5

/-- `PARTY_UI_CHANNEL_INDEX`. -/
def partyUiChannelIndex : UInt8 := 255

/-- `CLUB_LOOKUP_BATCH`. -/
def clubLookupBatch : Nat := 8

/-- `JOIN_ANSWER_WINDOW`. -/
def joinAnswerWindow : Nat := seconds 20

/-- `ECHO_WINDOW`. -/
def echoWindow : Nat := seconds 10

/-- The echoes that are kept at most. -/
def echoLimit : Nat := 32

/-! ## State -/

/-- `PartyChannelState`. -/
structure PartyChannelState where
  wireChannelIndex : UInt8
  state : ChannelState := {}
  announced : Bool := false

/-- `PendingLocalEcho`: a message of our own that the service is going to send back. -/
structure PendingLocalEcho where
  channelIndex : UInt8
  memberHandle : UInt32
  body : String
  sentAt : Nat
  deriving DecidableEq, Repr

/-- `PendingWhisperEcho`. -/
structure PendingWhisperEcho where
  peer : String
  body : String
  sentAt : Nat
  deriving DecidableEq, Repr

/-- `PendingWhisper`. -/
structure PendingWhisper where
  displayName : String
  body : String
  lookupName : Option String := none
  accountId : Option UInt32 := none
  profile : Option ProfileAddress := none
  toonName : Option ToonFullName := none
  toonHandle : Option ToonHandle := none
  queuedAt : Nat
  deriving DecidableEq, Repr

/-- `LiveChat`; of its session, the requests it has sent. The command probe, which sends nothing
unless an environment variable is set, and the correlation ids of the transport are left out. -/
structure LiveChat where
  sent : List Request := []
  channels : ExtTreeMap UInt8 ChannelState := ∅
  party : Option PartyChannelState := none
  pendingJoins : ExtTreeMap UInt32 (ChatChannel × Nat) := ∅
  defaultChannelIndex : UInt8
  pendingEvents : List ChatEvent := []
  pendingLocalEchoes : List PendingLocalEcho := []
  pendingWhisperEchoes : List PendingWhisperEcho := []
  pendingWhispers : List PendingWhisper := []
  pendingToonResolutions : ExtTreeSet ToonFullName := ∅
  pendingClubInfo : Option UInt32 := none
  pendingInvitations : ExtTreeMap UInt32 UInt32 := ∅
  partyInvitations : ExtTreeSet UInt8 := ∅
  pendingPartyAccepts : ExtTreeSet UInt8 := ∅
  partyOnlineChannels : ExtTreeSet UInt8 := ∅
  pendingClubSubscription : Option ToonHandle := none
  pendingClubLookups : List (List UInt32) := []
  announcedFriends : List ChatFriend := []
  localToon : Option ToonHandle := none
  requestedWhisperFriendAccounts : ExtTreeSet UInt32 := ∅
  requestedTemporaryPresences : ExtTreeSet ToonHandle := ∅
  profiles : ProfileResolver := {}
  friends : Friends := ∅
  blockedAccounts : ExtTreeMap UInt32 AccountBlockEntry := ∅

/-- What a computation of the session is. -/
abbrev Chat (α : Type) : Type := Stateful LiveChat Failure α

namespace LiveChat

open Stateful

/-- `protocol_error`. -/
def protocolError {α : Type} (message : String) : Chat α := fail (.native message)

/-- `self.session.records_mut().send(&self.protocol.…?)?`. -/
def send (m : Moment) (request : Request) : Chat Unit := fun s =>
  match m.transmit s.sent request with
  | .ok () => (.ok (), { s with sent := s.sent ++ [request] })
  | .error e => (.error e, s)

/-- The party, if it has the wire index. -/
def partyAt (s : LiveChat) (channelIndex : UInt8) : Option PartyChannelState :=
  s.party.filter fun party => party.wireChannelIndex = channelIndex

/-- The events go behind those that wait for the host. -/
def queueEvents (events : List ChatEvent) : Chat Unit :=
  change fun s => { s with pendingEvents := s.pendingEvents ++ events }

/-! ## Joining and leaving -/

/-- `expire_pending_joins`. -/
def expirePendingJoins (now : Nat) (s : LiveChat) : LiveChat :=
  { s with pendingJoins := s.pendingJoins.filter fun _ join => now - join.2 < joinAnswerWindow }

/-- `next_join_token`, with the numbers that are drawn. -/
def nextJoinToken (s : LiveChat) (draws : List UInt32) : Option UInt32 :=
  draws.find? fun token => !s.pendingJoins.contains token

/-- The request for a channel; nobody asks for a party. -/
def joinRequest (channel : ChatChannel) (token : UInt32) : Option Request :=
  match channel with
  | .public_ identifier => some (.chatJoinPublic identifier token)
  | .private_ name => some (.chatJoinPrivate name token)
  | .club clubId => some (.chatJoinClub clubId token)
  | .party => none

/-- `join_channel`, once a token has been drawn. -/
def joinChannelAs (m : Moment) (channel : ChatChannel) (token : UInt32) : Chat Unit := do
  let request ← orFail (joinRequest channel token)
    (.native "party channels are joined by invitation")
  send m request
  change (expirePendingJoins m.now)
  change fun s => { s with pendingJoins := s.pendingJoins.insert token (channel, m.now) }

/-- `join_channel`. The loop over the draws goes on until one is free. -/
def joinChannel (m : Moment) (draws : List UInt32) (channel : ChatChannel) : Chat Unit := do
  let s ← read
  match s.nextJoinToken draws with
  | some token => joinChannelAs m channel token
  | none => pure ()

/-- The first half of `leave_channel`: the party. -/
def leaveParty (m : Moment) : Chat Unit := do
  let s ← read
  let party ← orFail s.party (.native "party channel is not joined")
  change fun s => { s with party := none }
  send m (.chatLeave party.wireChannelIndex)
  change fun s => { s with
    partyInvitations := s.partyInvitations.erase party.wireChannelIndex
    pendingPartyAccepts := s.pendingPartyAccepts.erase party.wireChannelIndex
    partyOnlineChannels := s.partyOnlineChannels.erase party.wireChannelIndex }

/-- The second half of `leave_channel`: any other channel. -/
def leaveRoom (m : Moment) (channelIndex : UInt8) : Chat Unit := do
  let s ← read
  if s.channels.contains channelIndex then do
    send m (.chatLeave channelIndex)
    change fun s =>
      let channels := s.channels.erase channelIndex
      { s with
        channels
        pendingLocalEchoes := s.pendingLocalEchoes.filter (·.channelIndex ≠ channelIndex)
        defaultChannelIndex := if s.defaultChannelIndex = channelIndex then
          channels.minKey?.getD 0 else s.defaultChannelIndex }
  else protocolError "chat channel is not joined"

/-- `leave_channel`. -/
def leaveChannel (m : Moment) (channelIndex : UInt8) : Chat Unit :=
  if channelIndex = partyUiChannelIndex then leaveParty m else leaveRoom m channelIndex

/-! ## Messages -/

/-- The channel that the host means, with its wire index. -/
def messageChannel (s : LiveChat) (channelIndex : UInt8) : Except Failure (UInt8 × ChannelState) :=
  if channelIndex = partyUiChannelIndex then
    match s.party with
    | some party => .ok (party.wireChannelIndex, party.state)
    | none => .error (.native "party channel is not joined")
  else
    match s.channels[channelIndex]? with
    | some channel => .ok (channelIndex, channel)
    | none => .error (.native "chat channel is not joined")

/-- The handle a message is sent under. -/
def readyHandle (channel : ChannelState) : Except Failure UInt32 :=
  if !channel.initialRosterComplete then .error (.native "chat is not ready to send messages")
  else
    match channel.localMemberHandle with
    | some handle => .ok handle
    | none => .error (.native "chat channel omitted the local member")

/-- `pop_front` until the limit is kept. -/
def keepLast {α : Type} (limit : Nat) (items : List α) : List α :=
  items.drop (items.length - limit)

/-- `send_message`: the message is shown at once, and its echo is expected. -/
def sendMessage (m : Moment) (channelIndex : UInt8) (body : String) : Chat Unit := do
  let s ← read
  let (wireChannelIndex, channel) ← ofExcept (s.messageChannel channelIndex)
  let handle ← ofExcept (readyHandle channel)
  send m (.chatMessage wireChannelIndex body)
  queueEvents [.message channelIndex (userOf handle channel.roster[handle]?) body]
  change fun s => { s with
    pendingLocalEchoes := keepLast echoLimit (s.pendingLocalEchoes ++ [{
      channelIndex := wireChannelIndex
      memberHandle := handle
      body
      sentAt := m.now }]) }

/-! ## Parties -/

/-- The only member that is invited, if there is only one. -/
def onlyInvited (roster : Roster) : Option UInt32 :=
  match (roster.toList.filter fun entry => entry.2.partyStatus = some .invited).map (·.1) with
  | [handle] => some handle
  | _ => none

/-- `identify_invited_party_member`: in a party we are invited to, the one invited member is us. -/
def identifyInvitedPartyMember (channelIndex : UInt8) (s : LiveChat) : LiveChat :=
  if s.partyInvitations.contains channelIndex || s.pendingPartyAccepts.contains channelIndex then
    match s.partyAt channelIndex with
    | none => s
    | some party =>
      if party.state.localMemberHandle.isSome then s
      else { s with party := some { party with state := { party.state with
        localMemberHandle := onlyInvited party.state.roster } } }
  else s

/-- `publish_party_online_if_ready`. -/
def publishPartyOnlineIfReady (m : Moment) (channelIndex : UInt8) : Chat Unit := do
  let s ← read
  if !s.pendingPartyAccepts.contains channelIndex || s.partyOnlineChannels.contains channelIndex
  then pure ()
  else do
    change (identifyInvitedPartyMember channelIndex)
    let s ← read
    match (s.partyAt channelIndex).bind (·.state.localMemberHandle) with
    | none => pure ()
    | some handle => do
      send m (.chatPartyOnline channelIndex handle)
      change fun s => { s with
        partyOnlineChannels := s.partyOnlineChannels.insert channelIndex
        pendingPartyAccepts := s.pendingPartyAccepts.erase channelIndex
        partyInvitations := s.partyInvitations.erase channelIndex }

/-- `answer_party_invitation`. -/
def answerPartyInvitation (m : Moment) (channelIndex : UInt8) (accept : Bool) : Chat Unit := do
  send m (.chatInviteAnswer channelIndex accept)
  if accept then do
    change fun s => { s with pendingPartyAccepts := s.pendingPartyAccepts.insert channelIndex }
    publishPartyOnlineIfReady m channelIndex
  else
    change fun s => { s with
      partyInvitations := s.partyInvitations.erase channelIndex
      pendingPartyAccepts := s.pendingPartyAccepts.erase channelIndex
      partyOnlineChannels := s.partyOnlineChannels.erase channelIndex
      party := s.party.filter fun party => party.wireChannelIndex ≠ channelIndex }

/-! ## Groups -/

/-- `slice::chunks`. -/
def chunks {α : Type} (size : Nat) (items : List α) : List (List α) :=
  (List.range ((items.length + size - 1) / size)).map fun i => (items.drop (i * size)).take size

/-- `request_next_club_lookup`: the last batch is taken, and its request may fail unnoticed. -/
def requestNextClubLookup (m : Moment) : Chat Unit := do
  let s ← read
  match s.pendingClubLookups.getLast? with
  | none => pure ()
  | some batch => do
    change fun s => { s with pendingClubLookups := s.pendingClubLookups.dropLast }
    ignore (send m (.clubInfo 0 batch))

/-- `enqueue_club_lookups`: the batches are pushed in reverse, so the first of them is taken
first. -/
def enqueueClubLookups (m : Moment) (clubIds : List UInt32) : Chat Unit := do
  let s ← read
  if clubIds = [] then pure ()
  else do
    let idle := s.pendingClubLookups.isEmpty
    change fun s => { s with
      pendingClubLookups := s.pendingClubLookups ++ (chunks clubLookupBatch clubIds).reverse }
    if idle then requestNextClubLookup m else pure ()

/-- `search_groups`. -/
def searchGroups (m : Moment) (query : String) : Chat Unit := send m (.clubSearch query)

/-- `request_clubs`. -/
def requestClubs (m : Moment) (handle : ToonHandle) : Chat Unit := send m (.clubSubscribe handle)

/-- `request_clubs_when_idle`. -/
def requestClubsWhenIdle (m : Moment) : Chat Unit := do
  let s ← read
  if m.buffered then pure ()
  else
    match s.pendingClubSubscription with
    | none => pure ()
    | some handle => do
      change fun s => { s with pendingClubSubscription := none }
      requestClubs m handle

/-- After an invitation was accepted the groups are asked for again, now or later. -/
def subscribeAgain (m : Moment) : Chat Unit := fun s =>
  match s.localToon with
  | none => (.ok (), s)
  | some handle =>
    match requestClubs m handle s with
    | (.ok (), t) => (.ok (), t)
    | (.error _, t) => (.ok (), { t with pendingClubSubscription := some handle })

/-- `answer_group_invitation`. -/
def answerGroupInvitation (m : Moment) (clubId : UInt32) (accept : Bool) : Chat Unit := do
  let s ← read
  let program ← orFail s.pendingInvitations[clubId]?
    (.native "that group invitation is no longer pending")
  change fun s => { s with pendingInvitations := s.pendingInvitations.erase clubId }
  send m (.clubInviteAnswer program clubId accept)
  if accept then subscribeAgain m else pure ()

end LiveChat

end Superiority.Sc2
