import Superiority.Live.Chat
import Superiority.Native.Clubs

/-!
# What a chat session reads and tells

`native/model.rs` and `chat/session.rs`: the records of a StarCraft II session that its chat looks
into, the requests it sends, and the events it hands to its host, with all their fields. An
observer of Live sharing reads less of an event; `ChatEvent.observed` says what.
-/

namespace Superiority

open Std Native

namespace Sc2

/-! ## Names and friends -/

/-- `ToonFullName`. -/
@[ext] structure ToonFullName where
  region : UInt8
  programId : UInt32
  realm : UInt32
  name : String
  deriving DecidableEq, Repr

namespace ToonFullName

instance : Ord ToonFullName :=
  ⟨compareLex (compareOn region) (compareLex (compareOn programId)
    (compareLex (compareOn realm) (compareOn name)))⟩

instance : TransOrd ToonFullName :=
  inferInstanceAs (TransCmp (compareLex (compareOn region) (compareLex (compareOn programId)
    (compareLex (compareOn realm) (compareOn name)))))

instance : LawfulEqOrd ToonFullName where
  eq_of_compare {a b} h := by
    have h : (compare a.region b.region).then ((compare a.programId b.programId).then
      ((compare a.realm b.realm).then (compare a.name b.name))) = .eq := h
    obtain ⟨hregion, h⟩ := Ordering.then_eq_eq.1 h
    obtain ⟨hprogram, h⟩ := Ordering.then_eq_eq.1 h
    obtain ⟨hrealm, hname⟩ := Ordering.then_eq_eq.1 h
    exact ToonFullName.ext (LawfulEqOrd.eq_of_compare hregion) (LawfulEqOrd.eq_of_compare hprogram)
      (LawfulEqOrd.eq_of_compare hrealm) (LawfulEqOrd.eq_of_compare hname)

end ToonFullName

/-- `FriendIdentity`. -/
inductive FriendIdentity where
  | account (id : UInt32)
  | character (programId region realm : UInt32) (id : UInt64)
  deriving DecidableEq, Repr

namespace FriendIdentity

/-- The fields in the order `derive(Ord)` compares them, accounts before characters. -/
def rank : FriendIdentity → Nat × Nat × Nat × Nat × Nat
  | account id => (0, id.toNat, 0, 0, 0)
  | character programId region realm id =>
    (1, programId.toNat, region.toNat, realm.toNat, id.toNat)

theorem rank_injective {a b : FriendIdentity} (h : a.rank = b.rank) : a = b := by
  cases a <;> cases b <;> simp_all [rank, UInt32.toNat_inj, UInt64.toNat_inj]

instance : Ord FriendIdentity :=
  ⟨compareLex (compareOn fun a => a.rank.1) (compareLex (compareOn fun a => a.rank.2.1)
    (compareLex (compareOn fun a => a.rank.2.2.1) (compareLex (compareOn fun a => a.rank.2.2.2.1)
      (compareOn fun a => a.rank.2.2.2.2))))⟩

instance : TransOrd FriendIdentity :=
  inferInstanceAs (TransCmp (compareLex (compareOn fun a : FriendIdentity => a.rank.1)
    (compareLex (compareOn fun a => a.rank.2.1) (compareLex (compareOn fun a => a.rank.2.2.1)
      (compareLex (compareOn fun a => a.rank.2.2.2.1) (compareOn fun a => a.rank.2.2.2.2))))))

instance : LawfulEqOrd FriendIdentity where
  eq_of_compare {a b} h := by
    have h : (compare a.rank.1 b.rank.1).then ((compare a.rank.2.1 b.rank.2.1).then
      ((compare a.rank.2.2.1 b.rank.2.2.1).then ((compare a.rank.2.2.2.1 b.rank.2.2.2.1).then
        (compare a.rank.2.2.2.2 b.rank.2.2.2.2)))) = .eq := h
    obtain ⟨h1, h⟩ := Ordering.then_eq_eq.1 h
    obtain ⟨h2, h⟩ := Ordering.then_eq_eq.1 h
    obtain ⟨h3, h⟩ := Ordering.then_eq_eq.1 h
    obtain ⟨h4, h5⟩ := Ordering.then_eq_eq.1 h
    exact rank_injective (Prod.ext (LawfulEqOrd.eq_of_compare h1)
      (Prod.ext (LawfulEqOrd.eq_of_compare h2) (Prod.ext (LawfulEqOrd.eq_of_compare h3)
        (Prod.ext (LawfulEqOrd.eq_of_compare h4) (LawfulEqOrd.eq_of_compare h5)))))

end FriendIdentity

/-- `SocialOperation`. -/
inductive SocialOperation where
  | add | remove | modify
  deriving DecidableEq, Repr

/-- `FriendEntry`. -/
structure FriendEntry where
  identity : FriendIdentity
  displayName : Option String := none
  fullName : Option String := none
  note : Option String := none
  profile : Option ProfileAddress := none
  toonName : Option ToonFullName := none
  deriving DecidableEq, Repr

/-- `FriendUpdate`. -/
structure FriendUpdate where
  operation : SocialOperation
  entry : FriendEntry
  deriving DecidableEq, Repr

/-- `FriendToon`. -/
structure FriendToon where
  accountId : UInt32
  programId : UInt32
  profile : Option ProfileAddress
  toonName : ToonFullName
  deriving DecidableEq, Repr

/-- `AccountBlockEntry`; nothing reads the role. -/
structure AccountBlockEntry where
  accountId : UInt32
  nickname : Option String
  fullName : Option String
  deriving DecidableEq, Repr

/-- `WhisperTarget`. -/
inductive WhisperTarget where
  | presence (id : UInt32)
  | account (id : UInt32)
  | warcraftAccount (id : UInt64)
  | toonHandle (handle : ToonHandle)
  | toonName (name : ToonFullName)
  | name (name : String)
  deriving DecidableEq, Repr

/-! ## Channels -/

/-- `ChatJoin`: the answer to a join. -/
structure ChatJoin where
  success : Bool
  channelIndex : Option UInt8
  memberHandle : Option UInt32
  channelType : Option UInt8
  channelNameId : Option UInt16
  channelShardIndex : Option UInt16
  reason : Option UInt16
  token : Option UInt32
  deriving DecidableEq, Repr

/-- `MembershipKind`. -/
inductive MembershipKind where
  | join | leave | status
  deriving DecidableEq, Repr

/-- `PartyMemberStatus`. -/
inductive PartyMemberStatus where
  | invalid | online | offline | invited
  deriving DecidableEq, Repr

/-- `MembershipChange`. -/
structure MembershipChange where
  kind : MembershipKind
  memberHandle : UInt32
  presenceId : Option UInt32 := none
  displayName : Option String := none
  toonName : Option ToonFullName := none
  partyStatus : Option PartyMemberStatus := none
  reason : Option UInt16 := none
  deriving DecidableEq, Repr

/-- `ChatMembership`. -/
structure ChatMembership where
  channelIndex : UInt8
  endOfInitial : Bool
  changes : List MembershipChange
  deriving DecidableEq, Repr

/-- `ChatMessage`. -/
structure ChatMessage where
  channelIndex : UInt8
  memberHandle : UInt32
  body : String
  deriving DecidableEq, Repr

/-- `ChatWhisper`. -/
structure ChatWhisper where
  peer : ToonFullName
  body : String
  deriving DecidableEq, Repr

/-- `ChatInvite`. -/
structure ChatInvite where
  channelType : UInt8
  channelIndex : UInt8
  inviterPresence : UInt32
  deriving DecidableEq, Repr

/-- `ClubInviteAction`; nothing reads who is invited. -/
structure ClubInviteAction where
  clubId : UInt32
  program : UInt32
  deriving DecidableEq, Repr

/-- `ConferenceDescription`. -/
structure ConferenceDescription where
  conferenceId : UInt32
  locale : UInt32
  channelNameId : UInt16
  shard : UInt16
  sortOrder : UInt16
  maxMembers : UInt16
  targetProportionBits : UInt32
  deriving DecidableEq, Repr

/-- `ConferenceMemberCount`. -/
structure ConferenceMemberCount where
  conferenceId : UInt32
  members : UInt16
  full : Bool
  deriving DecidableEq, Repr

/-! ## Profiles -/

/-- `ProfileReadResult`. -/
inductive ProfileReadResult where
  | start (packetCount : UInt32)
  | block (bytes : List UInt8)
  | failure (code : UInt16)
  | cache
  deriving DecidableEq, Repr

/-- `ProfileReadResponse`. -/
structure ProfileReadResponse where
  requestId : UInt32
  result : ProfileReadResult
  deriving DecidableEq, Repr

/-- `ToonNameResolved`. -/
structure ToonNameResolved where
  name : ToonFullName
  result : UInt16
  handle : Option ToonHandle
  deriving DecidableEq, Repr

/-! ## Records -/

/-- `Payload`: the kinds a chat session looks into, and all others as one. -/
inductive Payload where
  | commandResponse (commandId : UInt8) (result : UInt16)
  | chatInvite (invite : ChatInvite)
  | clubInviteAction (action : ClubInviteAction)
  | clubSearch (clubIds : List UInt32)
  | clubInfo (clubs : List ClubSummary)
  | clubSummaries (clubs : List ClubSummary)
  | conferenceDescriptions (entries : List ConferenceDescription) (isLast : Bool)
  | conferenceMemberCounts (entries : List ConferenceMemberCount) (isLast : Bool)
  | chatJoin (result : ChatJoin)
  | chatMembership (membership : ChatMembership)
  | chatMessage (message : ChatMessage)
  | chatWhisper (whisper : ChatWhisper)
  | chatWhisperEcho (whisper : ChatWhisper)
  | presenceFields (fields : PresenceFields)
  | presenceUpdate (update : PresenceUpdate)
  | toonNameResolved (resolved : ToonNameResolved)
  | profileRead (response : ProfileReadResponse)
  | friends (updates : List FriendUpdate)
  | friendToons (entries : List FriendToon)
  | accountBlocks (entries : List AccountBlockEntry)
  | other

/-- `record_route`: the service slot and the command of a record. -/
abbrev Route := Option UInt8 × UInt8

/-- `Record`. -/
structure Record where
  route : Route
  value : Payload

/-! ## Requests -/

/-- What a chat session sends, by the function of `Protocol` that builds it. -/
inductive Request where
  | chatJoinPublic (channelNameId : UInt16) (token : UInt32)
  | chatJoinPrivate (name : String) (token : UInt32)
  | chatJoinClub (clubId token : UInt32)
  | chatLeave (channelIndex : UInt8)
  | chatMessage (channelIndex : UInt8) (body : String)
  | chatWhisper (presenceId : UInt32) (body : String)
  | chatInviteAnswer (channelIndex : UInt8) (accept : Bool)
  | chatPartyOnline (channelIndex : UInt8) (memberHandle : UInt32)
  | clubInfo (token : UInt32) (clubIds : List UInt32)
  | clubSearch (query : String)
  | clubInviteAnswer (program clubId : UInt32) (accept : Bool)
  | clubSubscribe (handle : ToonHandle)
  | friendToons (accountId : UInt32)
  | resolveToonName (name : ToonFullName)
  | temporaryPresence (handle : ToonHandle)
  | profileRead (requestId : UInt32) (address : ProfileAddress)
  deriving DecidableEq, Repr

/-! ## Events -/

/-- `ChatUser`. -/
structure ChatUser where
  handle : UInt32
  presenceId : Option UInt32
  name : Option String
  clanTag : Option String
  avatar : Option ImageTableEntry
  presence : PresenceState
  deriving DecidableEq, Repr

/-- `RosterSnapshot`. -/
structure RosterSnapshot where
  channelIndex : UInt8
  initialComplete : Bool
  users : List ChatUser
  deriving DecidableEq, Repr

/-- `ChatFriend`. -/
structure ChatFriend where
  name : String
  fullName : Option String
  note : Option String
  avatar : Option ImageTableEntry
  presence : PresenceState
  target : WhisperTarget
  deriving DecidableEq, Repr

/-- `BlockedAccount`. -/
structure BlockedAccount where
  accountId : UInt32
  name : String
  fullName : Option String
  deriving DecidableEq, Repr

/-- `ChatEvent`. -/
inductive ChatEvent where
  | publicChannelCatalog (channels : List PublicChannel)
  | conferenceDescriptions (conferences : List ConferenceDescription) (complete : Bool)
  | conferenceMemberCounts (counts : List ConferenceMemberCount) (complete : Bool)
  | joined (channelIndex : UInt8) (channel : ChatChannel) (localMemberHandle : UInt32)
      (shardIndex : Option UInt16)
  | joinRejected (channel : Option ChatChannel) (reason : Option UInt16)
  | roster (snapshot : RosterSnapshot)
  | memberJoined (channelIndex : UInt8) (user : ChatUser)
  | memberLeft (channelIndex : UInt8) (user : ChatUser) (reason : Option UInt16)
  | removed (channelIndex : UInt8) (reason : Option UInt16)
  | message (channelIndex : UInt8) (sender : ChatUser) (body : String)
  | whisper (peer : String) (body : String) (outgoing : Bool)
  | friends (friends : List ChatFriend)
  | blockedAccounts (accounts : List BlockedAccount)
  | activity (route : Route)
  | whisperFailed (peer : String) (reason : String)
  | groupInvitation (clubId : UInt32)
  | partyInvitation (inviter : Option String) (channelIndex : UInt8)
  | groupSummary (club : ClubSummary) (member : Bool)
  | groupSearch (clubIds : List UInt32)
  deriving DecidableEq, Repr

def ChatUser.observed (user : ChatUser) : Superiority.ChatUser where
  handle := user.handle
  name := user.name
  clanTag := user.clanTag
  avatar := user.avatar
  presence := user.presence

/-- What an observer of Live sharing reads of an event. -/
def ChatEvent.observed : ChatEvent → Superiority.ChatEvent
  | publicChannelCatalog channels => .publicChannelCatalog channels
  | conferenceDescriptions _ _ => .conferenceDescriptions
  | conferenceMemberCounts _ _ => .conferenceMemberCounts
  | joined channelIndex channel handle _ => .joined channelIndex channel handle
  | joinRejected _ _ => .joinRejected
  | roster snapshot => .roster {
      channelIndex := snapshot.channelIndex
      initialComplete := snapshot.initialComplete
      users := snapshot.users.map ChatUser.observed }
  | memberJoined channelIndex user => .memberJoined channelIndex user.observed
  | memberLeft channelIndex user _ => .memberLeft channelIndex user.observed
  | removed channelIndex _ => .removed channelIndex
  | message channelIndex sender body => .message channelIndex sender.observed body
  | whisper _ _ _ => .whisper
  | friends _ => .friends
  | blockedAccounts _ => .blockedAccounts
  | activity _ => .activity
  | whisperFailed _ _ => .whisperFailed
  | groupInvitation _ => .groupInvitation
  | partyInvitation _ _ => .partyInvitation
  | groupSummary club _ => .groupSummary club.clubId club.name
  | groupSearch _ => .groupSearch

/-- The errors a chat session returns. -/
inductive Failure where
  | native (message : String)
  | server (message : String)
  | io (message : String)
  deriving DecidableEq, Repr

end Sc2

end Superiority
