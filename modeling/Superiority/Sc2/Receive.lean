import Superiority.Sc2.Whispers

/-!
# What a chat session makes of a record

`LiveChat::receive`: an event that waits is handed over; otherwise one record is read, the resolver
looks at it, the arm of its kind makes an event of it, and what follows from the record elsewhere
(whispers that can go out, rosters, lookups, the list of friends) comes after that.
-/

namespace Superiority.Sc2

open Std

namespace LiveChat

open Stateful

/-! ## Memberships -/

/-- `is_party`, of a membership record. -/
def isPartyMembership (s : LiveChat) (membership : ChatMembership) : Bool :=
  s.partyInvitations.contains membership.channelIndex
    || s.pendingPartyAccepts.contains membership.channelIndex
    || (s.partyAt membership.channelIndex).isSome
    || membership.changes.any (·.partyStatus.isSome)

/-- `party.get_or_insert_with(…)`: a party that is held stays, whatever its wire index. -/
def heldParty (s : LiveChat) (channelIndex : UInt8) : PartyChannelState :=
  s.party.getD { wireChannelIndex := channelIndex }

def applyPartyMembership (membership : ChatMembership) (s : LiveChat) :
    List ChatEvent × LiveChat :=
  let party := s.heldParty membership.channelIndex
  let (state, events) := applyMembership party.state partyUiChannelIndex membership
  (events, { s with party := some { party with state } })

def applyRoomMembership (membership : ChatMembership) (s : LiveChat) :
    List ChatEvent × LiveChat :=
  let (state, events) := applyMembership (s.channels[membership.channelIndex]?.getD {})
    membership.channelIndex membership
  (events, { s with channels := s.channels.insert membership.channelIndex state })

/-- The membership goes to the party or to the channel of its index. -/
def applyToRoster (isParty : Bool) (membership : ChatMembership) (s : LiveChat) :
    List ChatEvent × LiveChat :=
  if isParty then applyPartyMembership membership s else applyRoomMembership membership s

/-- The party is announced with its first membership after it was published. -/
def announceParty (channelIndex : UInt8) : Chat (List ChatEvent) := do
  let s ← read
  match s.party with
  | none => pure []
  | some party =>
    if s.partyOnlineChannels.contains channelIndex && !party.announced then do
      let handle ← orFail party.state.localMemberHandle
        (.native "party channel omitted the local member")
      change fun s => { s with party := some { party with announced := true } }
      pure [.joined partyUiChannelIndex .party handle none]
    else pure []

def announceIf (isParty : Bool) (channelIndex : UInt8) : Chat (List ChatEvent) :=
  if isParty then announceParty channelIndex else pure []

/-- The roster behind the events of a membership. -/
def membershipRoster (s : LiveChat) (isParty : Bool) (channelIndex : UInt8) : List ChatEvent :=
  if isParty then
    (s.party.map fun party => .roster (rosterSnapshot party.state partyUiChannelIndex)).toList
  else
    (s.channels[channelIndex]?.map fun channel =>
      .roster (rosterSnapshot channel channelIndex)).toList

/-- The first event is handed over, the others wait. -/
def firstEvent (events : List ChatEvent) : Chat ChatEvent :=
  match events with
  | [] => protocolError "membership produced no chat event"
  | event :: rest => do
    queueEvents rest
    pure event

/-- The arm of `ChatMembership`. -/
def receiveMembership (m : Moment) (membership : ChatMembership) : Chat ChatEvent := do
  let s ← read
  let isParty := s.isPartyMembership membership
  let events ← take (applyToRoster isParty membership)
  change (identifyInvitedPartyMember membership.channelIndex)
  publishPartyOnlineIfReady m membership.channelIndex
  let joined ← announceIf isParty membership.channelIndex
  let s ← read
  firstEvent (joined ++ events ++ s.membershipRoster isParty membership.channelIndex)

/-! ## Messages -/

/-- `message_event`. -/
def messageEvent (s : LiveChat) (message : ChatMessage) : ChatEvent :=
  match s.partyAt message.channelIndex with
  | some party => .message partyUiChannelIndex
      (userOf message.memberHandle party.state.roster[message.memberHandle]?) message.body
  | none => .message message.channelIndex
      (userOf message.memberHandle (s.channels[message.channelIndex]?.bind
        (·.roster[message.memberHandle]?))) message.body

/-- The message is one of our own that we have shown when we sent it. -/
def PendingLocalEcho.matches (echo : PendingLocalEcho) (message : ChatMessage) : Bool :=
  echo.channelIndex = message.channelIndex && echo.memberHandle = message.memberHandle
    && echo.body = message.body

/-- `consume_local_echo`. -/
def consumeLocalEcho (m : Moment) (message : ChatMessage) (s : LiveChat) : Bool × LiveChat :=
  let echoes := s.pendingLocalEchoes.dropWhile fun echo => echoWindow < m.now - echo.sentAt
  match echoes.findIdx? (PendingLocalEcho.matches · message) with
  | none => (false, { s with pendingLocalEchoes := echoes })
  | some index => (true, { s with pendingLocalEchoes := echoes.eraseIdx index })

/-- The arm of `ChatMessage`. -/
def receiveMessage (m : Moment) (route : Route) (message : ChatMessage) : Chat ChatEvent := do
  let own ← take (consumeLocalEcho m message)
  let s ← read
  pure (if own then .activity route else s.messageEvent message)

/-- The arm of `ChatWhisperEcho`. -/
def receiveWhisperEcho (m : Moment) (route : Route) (whisper : ChatWhisper) : Chat ChatEvent := do
  let own ← take (consumeWhisperEcho m whisper)
  pure (if own then .activity route
    else .whisper (stripCharacterCode whisper.peer.name) whisper.body true)

/-! ## Answers to joins -/

abbrev PendingJoins := ExtTreeMap UInt32 (ChatChannel × Nat)

/-- `join_result_matches_channel`. -/
def joinResultMatchesChannel (result : ChatJoin) : ChatChannel → Bool
  | .public_ identifier => result.channelType = some publicChannelType
      && (!result.success || result.channelNameId.all (· = identifier))
  | .private_ _ => result.channelType = some namedChannelType
  | .club _ => result.channelType = some clubChannelType
  | .party => result.channelType = some partyChannelType

/-- `take_requested_join`: without a token, the only request that the answer can be to. -/
def takeRequestedJoin (pending : PendingJoins) (result : ChatJoin) :
    Except Failure (Option ChatChannel × PendingJoins) :=
  match result.token with
  | some token => .ok (pending[token]?.map (·.1), pending.erase token)
  | none =>
    match (pending.toList.filter fun join =>
        joinResultMatchesChannel result join.2.1).map (·.1) with
    | [] => .ok (none, pending)
    | [token] => .ok (pending[token]?.map (·.1), pending.erase token)
    | _ => .error (.native "Battle.net omitted the join token for multiple matching requests")

/-- `validate_public_join`. -/
def validatePublicJoin (requested : ChatChannel) (result : ChatJoin) : Except Failure Unit :=
  match requested with
  | .public_ expected =>
    if !result.success then .ok ()
    else
      match result.channelNameId with
      | some actual =>
        if actual = expected then .ok ()
        else .error (.native
          s!"Battle.net joined public channel {actual.toNat} after {expected.toNat} was requested")
      | none => .ok ()
  | _ => .ok ()

/-- `accepted_join`. -/
def acceptedJoin (tables : Tables) (result : ChatJoin) : Except Failure (UInt8 × UInt32) :=
  if !result.success then
    let detail := (result.reason.map tables.description).getD "without an error code"
    .error (.server s!"Battle.net rejected the chat join: {detail}")
  else
    match result.channelIndex with
    | none => .error (.native "chat join omitted its channel index")
    | some channelIndex =>
      match result.memberHandle with
      | none => .error (.native "chat join omitted the local member")
      | some handle => .ok (channelIndex, handle)

/-- `rejoins_party`. -/
def rejoinsParty (s : LiveChat) (result : ChatJoin) : Bool :=
  result.success && result.channelNameId.isNone && result.token.isNone
    && s.party.any fun party => some party.wireChannelIndex = result.channelIndex

/-- What an arm ends with: most go on to what every record brings about. -/
inductive Handled where
  | done (event : ChatEvent)
  | more (event : ChatEvent)

def Handled.event : Handled → ChatEvent
  | done event | more event => event

/-- `accept_party_join`, of an answer that names a channel and a member. -/
def enterParty (channelIndex : UInt8) (localMemberHandle : UInt32) (s : LiveChat) : LiveChat :=
  let party := (s.partyAt channelIndex).getD { wireChannelIndex := channelIndex }
  { s with party := some { party with state := { party.state with
      channel := some .party
      localMemberHandle := some localMemberHandle } } }

/-- The arm of `ChatJoin` for a party. -/
def receivePartyJoin (tables : Tables) (m : Moment) (route : Route) (result : ChatJoin) :
    Chat ChatEvent := do
  let s ← read
  let wasAnnounced := s.party.any (·.announced)
  let (channelIndex, localMemberHandle) ← ofExcept (acceptedJoin tables result)
  change (enterParty channelIndex localMemberHandle)
  change fun s => { s with
    partyInvitations := s.partyInvitations.erase channelIndex
    pendingPartyAccepts := s.pendingPartyAccepts.insert channelIndex }
  publishPartyOnlineIfReady m channelIndex
  change fun s => { s with party := s.party.map fun party => { party with announced := true } }
  pure (if wasAnnounced then .activity route
    else .joined partyUiChannelIndex .party localMemberHandle none)

/-- The channel of an accepted join: what was requested, what the answer names, or what is known
under the index. -/
def joinedChannel (s : LiveChat) (requested : Option ChatChannel) (result : ChatJoin)
    (channelIndex : UInt8) : Option ChatChannel :=
  requested.or ((result.channelNameId.map .public_).or
    (s.channels[channelIndex]?.bind (·.channel)))

/-- The end of the arm of `ChatJoin`: the channel begins anew, or only its handle is set. -/
def enterChannel (route : Route) (requested : Option ChatChannel) (result : ChatJoin)
    (channelIndex : UInt8) (localMemberHandle : UInt32) : Chat ChatEvent := do
  let s ← read
  match s.joinedChannel requested result channelIndex with
  | some joined => do
    change fun s => { s with
      channels := s.channels.insert channelIndex (.beginJoin joined localMemberHandle) }
    pure (.joined channelIndex joined localMemberHandle result.channelShardIndex)
  | none => do
    change fun s => { s with
      channels := s.channels.insert channelIndex
        { s.channels[channelIndex]?.getD {} with localMemberHandle := some localMemberHandle } }
    pure (.activity route)

/-- The arm of `ChatJoin` for any other channel. -/
def receiveRoomJoin (tables : Tables) (route : Route) (result : ChatJoin) : Chat Handled := do
  let s ← read
  let (requested, pendingJoins) ← ofExcept (takeRequestedJoin s.pendingJoins result)
  change fun s => { s with pendingJoins }
  if !result.success then pure (.done (.joinRejected requested result.reason))
  else do
    ofExcept (requested.elim (.ok ()) fun requested => validatePublicJoin requested result)
    let (channelIndex, localMemberHandle) ← ofExcept (acceptedJoin tables result)
    let event ← enterChannel route requested result channelIndex localMemberHandle
    pure (.more event)

/-- The answer is about a party. -/
def joinsParty (s : LiveChat) (result : ChatJoin) : Bool :=
  result.success && (result.channelType = some partyChannelType || s.rejoinsParty result)

/-- The arm of `ChatJoin`. -/
def receiveJoin (tables : Tables) (m : Moment) (route : Route) (result : ChatJoin) :
    Chat Handled := do
  change (expirePendingJoins m.now)
  let s ← read
  if s.joinsParty result then do
    let event ← receivePartyJoin tables m route result
    pure (.more event)
  else receiveRoomJoin tables route result

/-! ## Invitations -/

/-- The rosters of all channels, that of the party last. -/
def channelStates (s : LiveChat) : List ChannelState :=
  valuesOf s.channels ++ (s.party.map (·.state)).toList

/-- The name of a member without its code, behind its clan tag. -/
def taggedName (member : RosterMember) (name : String) : String :=
  let base := stripCharacterCode name
  member.clanTag.elim base fun tag => s!"<{tag}> {base}"

/-- `resolve_presence_name`: a member's name, or else that of a friend. -/
def resolvePresenceName (s : LiveChat) (presenceId : UInt32) : Option String :=
  let rosterName := s.channelStates.findSome? fun channel =>
    (valuesOf channel.roster).findSome? fun member =>
      if member.presenceId = some presenceId then member.name.map (taggedName member) else none
  rosterName.or ((valuesOf s.friends).findSome? fun friend =>
    (friendPresenceId friend s.profiles).bind fun friendPresence =>
      if s.profiles.presence.canonicalPresenceId friendPresence
          = s.profiles.presence.canonicalPresenceId presenceId then
        ((friend.displayName.or friend.fullName).or (friend.toonName.map (·.name))).map
          stripCharacterCode
      else none)

/-- `party_inviter_name`. -/
def partyInviterName (s : LiveChat) (presenceId : UInt32) (channelIndex : UInt8) :
    Option String :=
  (s.resolvePresenceName presenceId).or ((s.partyAt channelIndex).bind fun party =>
    (party.state.roster.toList.find? fun entry =>
      party.state.localMemberHandle ≠ some entry.1 && entry.2.partyStatus ≠ some .invited).bind
        fun entry => entry.2.name.map (taggedName entry.2))

/-- The arm of `ChatInvite`. -/
def receiveInvite (invite : ChatInvite) : Chat ChatEvent := do
  change fun s => { s with
    party := some (s.heldParty invite.channelIndex)
    partyInvitations := s.partyInvitations.insert invite.channelIndex
    partyOnlineChannels := s.partyOnlineChannels.erase invite.channelIndex }
  change (identifyInvitedPartyMember invite.channelIndex)
  let s ← read
  pure (.partyInvitation (s.partyInviterName invite.inviterPresence invite.channelIndex)
    invite.channelIndex)

/-- The arm of `ClubInviteAction`. -/
def receiveClubInvite (m : Moment) (action : ClubInviteAction) : Chat ChatEvent := do
  change fun s => { s with
    pendingClubInfo := some action.clubId
    pendingInvitations := s.pendingInvitations.insert action.clubId action.program }
  ignore (send m (.clubInfo action.clubId [action.clubId]))
  pure (.groupInvitation action.clubId)

/-! ## Groups -/

/-- One event a group; the first is handed over, the others wait. -/
def firstSummary (route : Route) (clubs : List Native.ClubSummary) (member : Bool) :
    Chat ChatEvent :=
  match clubs with
  | [] => pure (.activity route)
  | club :: rest => do
    queueEvents (rest.map fun club => .groupSummary club member)
    pure (.groupSummary club member)

/-- The arm of `ClubSummaries`. -/
def receiveClubSummaries (m : Moment) (route : Route) (clubs : List Native.ClubSummary) :
    Chat ChatEvent := do
  enqueueClubLookups m (clubs.map (·.clubId))
  firstSummary route clubs true

/-- The arm of `ClubSearch`. -/
def receiveClubSearch (m : Moment) (clubIds : List UInt32) : Chat ChatEvent := do
  enqueueClubLookups m clubIds
  pure (.groupSearch clubIds)

/-- The arm of `ClubInfo`. -/
def receiveClubInfo (m : Moment) (route : Route) (clubs : List Native.ClubSummary) :
    Chat ChatEvent := do
  change fun s => { s with pendingClubInfo := none }
  requestNextClubLookup m
  firstSummary route clubs false

/-! ## Friends -/

/-- `friends_event`. -/
def friendsEvent (tables : Tables) (s : LiveChat) : ChatEvent × LiveChat :=
  let snapshot := friendSnapshot tables s.friends s.profiles
  (.friends snapshot, { s with announcedFriends := snapshot })

/-- The arms of `Friends` and `FriendToons`. -/
def receiveFriends (tables : Tables) (f : Friends → Friends) : Chat ChatEvent := do
  change fun s => { s with friends := f s.friends }
  take (friendsEvent tables)

/-- The arm of `AccountBlocks`. -/
def receiveAccountBlocks (tables : Tables) (entries : List AccountBlockEntry) :
    Chat ChatEvent := do
  change fun s => { s with
    blockedAccounts := entries.foldl (fun blocks entry => blocks.insert entry.accountId entry)
      s.blockedAccounts }
  let s ← read
  pure (.blockedAccounts (blockSnapshot tables s.blockedAccounts))

/-! ## Every record -/

/-- The arms of `receive` that go on. -/
def handleRecord (tables : Tables) (m : Moment) (record : Record) : Chat ChatEvent :=
  match record.value with
  | .chatMembership membership => receiveMembership m membership
  | .chatMessage message => receiveMessage m record.route message
  | .chatWhisper whisper =>
    pure (.whisper (stripCharacterCode whisper.peer.name) whisper.body false)
  | .chatWhisperEcho whisper => receiveWhisperEcho m record.route whisper
  | .chatInvite invite => receiveInvite invite
  | .clubInviteAction action => receiveClubInvite m action
  | .clubSummaries clubs => receiveClubSummaries m record.route clubs
  | .clubSearch clubIds => receiveClubSearch m clubIds
  | .clubInfo clubs => receiveClubInfo m record.route clubs
  | .conferenceDescriptions entries isLast => pure (.conferenceDescriptions entries isLast)
  | .conferenceMemberCounts entries isLast => pure (.conferenceMemberCounts entries isLast)
  | .friends updates => receiveFriends tables (applyFriendPage · updates)
  | .friendToons entries => receiveFriends tables (applyFriendToons · entries)
  | .accountBlocks entries => receiveAccountBlocks tables entries
  | _ => pure (.activity record.route)

/-- The `match` of `receive`. -/
def handle (tables : Tables) (m : Moment) (record : Record) : Chat Handled :=
  match record.value with
  | .chatJoin result => receiveJoin tables m record.route result
  | _ => do
    let event ← handleRecord tables m record
    pure (.more event)

/-- What `synchronize_channel` makes of a member: what presence says of it now. -/
def synchronizeMember (profiles : ProfileResolver) (member : RosterMember) : RosterMember :=
  match member.presenceId with
  | none => member
  | some presenceId =>
    let identity := profiles.presence.identity presenceId
    { member with
      presenceId := some (profiles.presence.localPresenceId presenceId)
      avatar := identity.avatar.or (identity.profile.bind profiles.avatarOf)
      presence := identity.state
      clanTag := identity.clanTag }

/-- `synchronize_channel`. -/
def synchronizeChannel (profiles : ProfileResolver) (channel : ChannelState) : ChannelState :=
  { channel with roster := channel.roster.map fun _ member => synchronizeMember profiles member }

/-- What `synchronize_channel` returns. -/
def outOfDate (profiles : ProfileResolver) (channel : ChannelState) : Bool :=
  (valuesOf channel.roster).any fun member => synchronizeMember profiles member ≠ member

/-- The rosters are brought up to date, and shown where that changed them. -/
def synchronizeRosters (s : LiveChat) : LiveChat :=
  let channels := s.channels.map fun _ channel => synchronizeChannel s.profiles channel
  let changed := s.channels.toList.filter fun entry => outOfDate s.profiles entry.2
  { s with
    channels
    party := s.party.map fun party =>
      { party with state := synchronizeChannel s.profiles party.state }
    pendingEvents := s.pendingEvents
      ++ (changed.map fun entry =>
        .roster (rosterSnapshot (synchronizeChannel s.profiles entry.2) entry.1))
      ++ ((s.party.filter fun party => outOfDate s.profiles party.state).map fun party =>
        .roster (rosterSnapshot (synchronizeChannel s.profiles party.state)
          partyUiChannelIndex)).toList }

def enqueueMissing (s : LiveChat) : LiveChat :=
  { s with profiles := s.profiles.enqueueMissing s.channelStates s.friends }

/-- `pump`, on the resolver and the session of the chat. -/
def pump (m : Moment) : Chat Unit :=
  within (fun s => { sent := s.sent, profiles := s.profiles })
    (fun (t : Resolving) s => { s with sent := t.sent, profiles := t.profiles }) (Resolving.pump m)

/-- The list of friends is shown again when the record was flagged and the list has changed. -/
def refreshFriends (tables : Tables) (observed : Observed) (event : ChatEvent) :
    Chat ChatEvent := do
  let s ← read
  let snapshot := friendSnapshot tables s.friends s.profiles
  if (observed.identity || observed.presence) && !s.friends.isEmpty
      && snapshot ≠ s.announcedFriends then do
    change fun s => { s with announcedFriends := snapshot }
    match event with
    | .activity _ => pure (.friends snapshot)
    | _ => do
      queueEvents [.friends snapshot]
      pure event
  else pure event

/-- `self.profiles.observe(&record.value)`. -/
def observe (tables : Tables) (payload : Payload) (s : LiveChat) : Observed × LiveChat :=
  let (profiles, observed) := s.profiles.observe tables payload
  (observed, { s with profiles })

/-- What follows from a record apart from its event. -/
def settle (tables : Tables) (m : Moment) (payload : Payload) : Chat Unit := do
  advancePendingWhispers tables m payload
  change synchronizeRosters
  change enqueueMissing
  pump m

/-- The end of `receive`, where an arm has not returned. -/
def finish (tables : Tables) (m : Moment) (payload : Payload) (observed : Observed) :
    Handled → Chat ChatEvent
  | .done event => pure event
  | .more event => do
    settle tables m payload
    refreshFriends tables observed event

/-- What `receive` does with a record. -/
def receiveRecord (tables : Tables) (m : Moment) (record : Record) : Chat ChatEvent := do
  let observed ← take (observe tables record.value)
  let handled ← handle tables m record
  finish tables m record.value observed handled

/-- `receive`, with what the socket has to offer: a record or a failure. -/
def receive (tables : Tables) (m : Moment) (arrived : Except Failure Record) :
    Chat ChatEvent := do
  let s ← read
  match s.pendingEvents with
  | event :: rest => do
    change fun s => { s with pendingEvents := rest }
    pure event
  | [] => do
    requestClubsWhenIdle m
    let record ← ofExcept arrived
    receiveRecord tables m record

/-! ## What a host can ask -/

/-- A call of the host. -/
inductive Call where
  | join (draws : List UInt32) (channel : ChatChannel)
  | leave (channelIndex : UInt8)
  | message (channelIndex : UInt8) (body : String)
  | whisper (target : WhisperTarget) (displayName body : String)
  | answerParty (channelIndex : UInt8) (accept : Bool)
  | answerGroup (clubId : UInt32) (accept : Bool)
  | search (query : String)
  | receive (arrived : Except Failure Record)

/-- A call, and the event that it returns if it is `receive`. -/
def call (tables : Tables) (m : Moment) : Call → Chat (Option ChatEvent)
  | .join draws channel => do joinChannel m draws channel; pure none
  | .leave channelIndex => do leaveChannel m channelIndex; pure none
  | .message channelIndex body => do sendMessage m channelIndex body; pure none
  | .whisper target displayName body => do sendWhisper m target displayName body; pure none
  | .answerParty channelIndex accept => do answerPartyInvitation m channelIndex accept; pure none
  | .answerGroup clubId accept => do answerGroupInvitation m clubId accept; pure none
  | .search query => do searchGroups m query; pure none
  | .receive arrived => do
    let event ← receive tables m arrived
    pure (some event)

/-- An event that waits is handed over, and nothing else happens. -/
theorem receive_of_waiting {tables : Tables} {m : Moment} {s : LiveChat} {event : ChatEvent}
    {rest : List ChatEvent} (h : s.pendingEvents = event :: rest)
    (arrived : Except Failure Record) :
    receive tables m arrived s = (.ok event, { s with pendingEvents := rest }) := by
  unfold receive
  rw [bind_of_ok (read_apply s), h]
  rfl

/-- The record that a call reads, and the state in which it is read. -/
def readBy (m : Moment) (s : LiveChat) : Call → Option (Record × LiveChat)
  | .receive (.ok record) =>
    if s.pendingEvents = [] then
      match requestClubsWhenIdle m s with
      | (.ok _, t) => some (record, t)
      | (.error _, _) => none
    else none
  | _ => none

theorem readBy_eq_some {m : Moment} {s t : LiveChat} {c : Call} {record : Record} :
    readBy m s c = some (record, t) ↔ c = .receive (.ok record) ∧ s.pendingEvents = []
      ∧ requestClubsWhenIdle m s = (.ok (), t) := by
  constructor
  · intro h
    unfold readBy at h
    split at h
    · next arrived =>
      split at h
      · next hevents =>
        split at h
        · next u hidle =>
          cases h
          exact ⟨rfl, hevents, hidle⟩
        · cases h
      · cases h
    · cases h
  · intro ⟨hcall, hevents, hidle⟩
    rw [hcall]
    simp [readBy, hevents, hidle]

/-- What `receive` does when it reads a record. -/
theorem receive_of_readBy {tables : Tables} {m : Moment} {s t : LiveChat} {record : Record}
    (h : readBy m s (.receive (.ok record)) = some (record, t)) :
    receive tables m (.ok record) s = receiveRecord tables m record t := by
  obtain ⟨-, hevents, hidle⟩ := readBy_eq_some.1 h
  unfold receive
  rw [bind_of_ok (read_apply s), hevents]
  dsimp only
  rw [bind_of_ok hidle, bind_of_ok (ofExcept_apply (.ok record) t)]

/-- What a call does that reads a record. -/
theorem call_of_readBy {tables : Tables} {m : Moment} {s t : LiveChat} {c : Call}
    {record : Record} (h : readBy m s c = some (record, t)) :
    (call tables m c s).2 = (receiveRecord tables m record t).2 := by
  obtain ⟨rfl, -, -⟩ := readBy_eq_some.1 h
  show ((receive tables m (.ok record) >>= fun event => pure (some event)) s).2 = _
  rw [bind_apply, receive_of_readBy h]
  rcases receiveRecord tables m record t with ⟨e | event, u⟩ <;> rfl

/-- What `receive` does when nothing waits and no record is read. -/
theorem receive_of_readBy_eq_none {tables : Tables} {m : Moment} {s : LiveChat}
    {arrived : Except Failure Record} (h : readBy m s (.receive arrived) = none)
    (hevents : s.pendingEvents = []) :
    ∃ e, receive tables m arrived s = (.error e, (requestClubsWhenIdle m s).2) := by
  unfold receive
  rw [bind_of_ok (read_apply s), hevents]
  dsimp only
  rcases hidle : requestClubsWhenIdle m s with ⟨e | _, t⟩
  · exact ⟨e, bind_of_error hidle⟩
  · rw [bind_of_ok hidle]
    cases arrived with
    | error e => exact ⟨e, rfl⟩
    | ok record => simp [readBy, hevents, hidle] at h

/-- The event of a `receive` that has succeeded. -/
def eventOf (result : Except Failure ChatEvent) : List ChatEvent :=
  match result with
  | .ok event => [event]
  | .error _ => []

/-- The events that a call brings up: the one that `receive` makes of a record, and those that are
queued. An event that has waited is no new one. -/
def told (tables : Tables) (s : LiveChat) (i : Moment × Call) : List ChatEvent :=
  match readBy i.1 s i.2 with
  | some (record, t) =>
    eventOf (receiveRecord tables i.1 record t).1
      ++ (receiveRecord tables i.1 record t).2.pendingEvents
  | none => (call tables i.1 i.2 s).2.pendingEvents.drop s.pendingEvents.length

/-- What a call that reads a record tells. -/
theorem told_of_readBy {tables : Tables} {i : Moment × Call} {s t : LiveChat} {record : Record}
    (h : readBy i.1 s i.2 = some (record, t)) :
    told tables s i = eventOf (receiveRecord tables i.1 record t).1
      ++ (receiveRecord tables i.1 record t).2.pendingEvents := by
  rw [told, h]

/-! ## Surroundings for runs on fixed records -/

/-- A time at which everything can be sent. -/
def calm : Moment where
  now := 0
  transmit := fun _ _ => .ok ()

/-- A record that is read at such a time. -/
def heard (value : Payload) : Moment × Call :=
  (calm, .receive (.ok { route := (some 0, 0), value }))

def noTables : Tables where
  lowercase := id
  description := fun _ => ""
  imageForUnlockable := fun _ => none

end LiveChat

end Superiority.Sc2
