import Std.Data.ExtTreeSet
import Superiority.Live.Chat

/-!
# Projection to wire events

`uplink/model.rs`: the wire events and the `Projector`, which turns chat events into them. It
follows the open channels by index, and keeps for each a mirror of the roster that the viewer has
been told, so that repeated snapshots go out as what changed.
-/

namespace Superiority

open Std

/-- `MAX_BODY_CHARS`. -/
def maxBodyChars : Nat := 4000

/-! ## Wire events -/

/-- `ChannelRef`. -/
structure ChannelRef where
  key : String
  name : Option String
  deriving DecidableEq, Repr

/-- `PortraitRef`. -/
structure PortraitRef where
  t : UInt16
  o : UInt16
  deriving DecidableEq, Repr

/-- `UserRef`. -/
structure UserRef where
  handle : UInt32
  name : Option String
  clanTag : Option String
  presence : Option String
  portrait : Option PortraitRef
  isLocal : Option Bool
  joinedOrder : Option Nat
  avatar : Option String
  isOperator : Option Bool
  deriving DecidableEq, Repr

/-- `MessageSubkind`. -/
inductive MessageSubkind where
  | talk | emote
  deriving DecidableEq, Repr

/-- `NoticeSubkind`. -/
inductive NoticeSubkind where
  | broadcast | information
  deriving DecidableEq, Repr

/-- `EventKind`. -/
inductive EventKind where
  | sessionStarted
  | syncStarted
  | sessionSynced
  | joined (channel : ChannelRef)
  | left (channel : ChannelRef)
  | roster (channel : ChannelRef) (complete : Bool) (count : Nat) (users : List UserRef)
  | memberJoined (channel : ChannelRef) (user : UserRef)
  | memberLeft (channel : ChannelRef) (user : UserRef)
  | rosterDelta (channel : ChannelRef) (users : List UserRef)
  | message (channel : ChannelRef) (subkind : Option MessageSubkind) (sender : Option UserRef)
      (body : String)
  | notice (channel : ChannelRef) (subkind : NoticeSubkind) (body : String)
  | dropped (count : Nat)
  | heartbeat
  | sessionEnded
  deriving DecidableEq, Repr

/-- `EventDto`. -/
structure EventDto where
  seq : Nat
  ts : Nat
  kind : EventKind
  deriving DecidableEq, Repr

/-- `SessionMeta`. -/
structure SessionMeta where
  id : String
  product : String
  clientVersion : String
  startedAt : Nat
  deriving DecidableEq, Repr

/-! ## References -/

/-- `channel_identity`. -/
def channelIdentity : ChatChannel → String
  | .public_ identifier => "public:" ++ toString identifier.toNat
  | .private_ name => "private:" ++ name
  | .club clubId => "club:" ++ toString clubId.toNat
  | .party => "party"

/-- Group names, by club. -/
abbrev ClubNames := ExtTreeMap UInt32 String

/-- Names of public channels, by identifier. -/
abbrev PublicNames := ExtTreeMap UInt16 String

/-- `channel_ref`. -/
def channelRef (channel : ChatChannel) (clubNames : ClubNames) (publicNames : PublicNames) :
    ChannelRef where
  key := channelIdentity channel
  name := match channel with
    | .club clubId => clubNames[clubId]?
    | .public_ identifier => some (publicNames[identifier]?.getD (channelTitle channel))
    | .private_ _ | .party => some (channelTitle channel)

/-- `presence_str`. -/
def presenceStr : PresenceState → String
  | .available => "available"
  | .away => "away"
  | .busy => "busy"
  | .inGame => "in_game"
  | .offline => "offline"
  | .unknown => "unknown"

/-- `user_ref`. -/
def userRef (user : ChatUser) (withPresence : Bool) (isLocal : Option Bool)
    (joinedOrder : Option Nat) : UserRef where
  handle := user.handle
  name := user.name.map stripCharacterCode
  clanTag := user.clanTag
  presence := if withPresence then some (presenceStr user.presence) else none
  portrait := user.avatar.map fun entry => ⟨entry.tableId, entry.offset⟩
  isLocal := isLocal
  joinedOrder := joinedOrder
  avatar := none
  isOperator := none

def truncated (body : String) : String :=
  if body.toList.length ≤ maxBodyChars then body else String.ofList (body.toList.take maxBodyChars)

/-! ## The projector -/

/-- What the viewer knows of one channel's members. -/
abbrev RosterMirror := ExtTreeMap UInt32 UserRef

/-- `Projector`. -/
structure Projector where
  channels : ExtTreeMap UInt8 ChatChannel := ∅
  localHandles : ExtTreeMap UInt8 UInt32 := ∅
  rosterSent : ExtTreeSet UInt8 := ∅
  rosterState : ExtTreeMap UInt8 RosterMirror := ∅
  rosterOrder : ExtTreeMap UInt8 (ExtTreeMap UInt32 Nat) := ∅
  nextRosterOrder : ExtTreeMap UInt8 Nat := ∅
  clubNames : ClubNames := ∅
  publicNames : PublicNames := ∅

namespace Projector

/-- `with_club_names`. -/
def withClubNames (clubNames : ClubNames) : Projector := { clubNames }

/-- The place of a member in the order of joining, which a new member gets at the end. -/
def joinedOrder (p : Projector) (channelIndex : UInt8) (handle : UInt32) : Nat × Projector :=
  match p.rosterOrder[channelIndex]?.bind (·[handle]?) with
  | some joinedOrder => (joinedOrder, p)
  | none =>
    let next := p.nextRosterOrder[channelIndex]?.getD 0
    (next, { p with
      nextRosterOrder := p.nextRosterOrder.insert channelIndex (min (next + 1) (2 ^ 64 - 1))
      rosterOrder := p.rosterOrder.insert channelIndex
        ((p.rosterOrder[channelIndex]?.getD ∅).insert handle next) })

/-- `roster_user_ref`. -/
def rosterUserRef (p : Projector) (channelIndex : UInt8) (user : ChatUser) : UserRef × Projector :=
  let (joinedOrder, p) := p.joinedOrder channelIndex user.handle
  (userRef user true (some (p.localHandles[channelIndex]? = some user.handle)) (some joinedOrder),
    p)

/-- The users of a snapshot, by handle. -/
def mirrorOf (channelIndex : UInt8) :
    List ChatUser → RosterMirror → Projector → RosterMirror × Projector
  | [], mirror, p => (mirror, p)
  | user :: users, mirror, p =>
    let (projected, p) := p.rosterUserRef channelIndex user
    mirrorOf channelIndex users (mirror.insert user.handle projected) p

/-- `shared_channel_ref`. -/
def sharedChannelRef (p : Projector) (channel : ChatChannel) (shared : Option (ExtTreeSet String)) :
    Option ChannelRef :=
  match shared with
  | none => some (channelRef channel p.clubNames p.publicNames)
  | some selection =>
    if selection.contains (channelIdentity channel) then
      some (channelRef channel p.clubNames p.publicNames)
    else none

/-- `shared_index`. -/
def sharedIndex (p : Projector) (index : UInt8) (shared : Option (ExtTreeSet String)) :
    Option ChannelRef :=
  p.channels[index]?.bind fun channel => p.sharedChannelRef channel shared

/-- Forgets what is kept of the index besides its channel. -/
def forgetRoster (p : Projector) (index : UInt8) : Projector :=
  { p with
    rosterSent := p.rosterSent.erase index
    rosterState := p.rosterState.erase index
    rosterOrder := p.rosterOrder.erase index
    nextRosterOrder := p.nextRosterOrder.erase index }

/-- `leave`. -/
def leave (p : Projector) (index : UInt8) (enabled : Bool) (shared : Option (ExtTreeSet String)) :
    Option ChannelRef × Projector :=
  let announced := if enabled then p.sharedIndex index shared else none
  (announced, { p.forgetRoster index with
    channels := p.channels.erase index
    localHandles := p.localHandles.erase index })

/-- The bookkeeping of `project` that runs whether sharing is on or off. -/
def learn (p : Projector) : ChatEvent → Projector
  | .joined channelIndex channel localMemberHandle =>
    { p.forgetRoster channelIndex with
      channels := p.channels.insert channelIndex channel
      localHandles := p.localHandles.insert channelIndex localMemberHandle }
  | .groupSummary clubId (some name) => { p with clubNames := p.clubNames.insert clubId name }
  | .publicChannelCatalog channels =>
    { p with
      publicNames := channels.foldl
        (fun names channel => names.insert channel.identifier channel.name) ∅ }
  | _ => p

/-- `u32::try_from(count).unwrap_or(u32::MAX)`. -/
def saturatedCount (count : Nat) : Nat := min count (2 ^ 32 - 1)

/-- The arm of `project` for a roster snapshot: what changed, or all of the first one. -/
def projectRoster (p : Projector) (snapshot : RosterSnapshot)
    (shared : Option (ExtTreeSet String)) : Option EventKind × Projector :=
  if snapshot.initialComplete then
    let index := snapshot.channelIndex
    match p.sharedIndex index shared with
    | none => (none, p)
    | some channel =>
      let (mirror, p) := mirrorOf index snapshot.users ∅ p
      if p.rosterSent.contains index then
        let known := p.rosterState[index]?.getD ∅
        let users := (mirror.toList.map (·.2)).filter fun user => known[user.handle]? ≠ some user
        let p := { p with rosterState := p.rosterState.insert index mirror }
        (if users = [] then none else some (.rosterDelta channel users), p)
      else
        let users := mirror.toList.map (·.2)
        (some (.roster channel true (saturatedCount snapshot.users.length) users),
          { p with
            rosterSent := p.rosterSent.insert index
            rosterState := p.rosterState.insert index mirror })
  else (none, p)

/-- The arm for a member that joined. -/
def projectMemberJoined (p : Projector) (channelIndex : UInt8) (user : ChatUser)
    (shared : Option (ExtTreeSet String)) : Option EventKind × Projector :=
  let (projected, p) := p.rosterUserRef channelIndex user
  let p := { p with
    rosterState := p.rosterState.insert channelIndex
      ((p.rosterState[channelIndex]?.getD ∅).insert user.handle projected) }
  ((p.sharedIndex channelIndex shared).map fun channel => .memberJoined channel projected, p)

/-- The arm for a member that left, who is named as the mirror knew it. -/
def projectMemberLeft (p : Projector) (channelIndex : UInt8) (user : ChatUser)
    (shared : Option (ExtTreeSet String)) : Option EventKind × Projector :=
  let (projected, p) := match p.rosterState[channelIndex]?.bind (·[user.handle]?) with
    | some known => (known, p)
    | none => p.rosterUserRef channelIndex user
  let p := { p with
    rosterState := p.rosterState.insert channelIndex
      ((p.rosterState[channelIndex]?.getD ∅).erase user.handle)
    rosterOrder := p.rosterOrder.insert channelIndex
      ((p.rosterOrder[channelIndex]?.getD ∅).erase user.handle) }
  ((p.sharedIndex channelIndex shared).map fun channel => .memberLeft channel projected, p)

/-- The open club channel a group summary names, if it is shared. -/
def namedClub (p : Projector) (clubId : UInt32) (shared : Option (ExtTreeSet String)) :
    Option ChannelRef :=
  (p.channels.toList.map (·.2)).find? (· = .club clubId) |>.bind fun named =>
    p.sharedChannelRef named shared

/-- `project`. -/
def project (p : Projector) (event : ChatEvent) (enabled : Bool)
    (shared : Option (ExtTreeSet String)) : Option EventKind × Projector :=
  let p := p.learn event
  if enabled then
    match event with
    | .joined _ channel _ => ((p.sharedChannelRef channel shared).map .joined, p)
    | .roster snapshot => p.projectRoster snapshot shared
    | .memberJoined channelIndex user => p.projectMemberJoined channelIndex user shared
    | .memberLeft channelIndex user => p.projectMemberLeft channelIndex user shared
    | .removed channelIndex =>
      let (channel, p) := p.leave channelIndex enabled shared
      (channel.map .left, p)
    | .groupSummary clubId (some _) => ((p.namedClub clubId shared).map .joined, p)
    | .message channelIndex sender body =>
      ((p.sharedIndex channelIndex shared).map fun channel =>
        .message channel none (some (userRef sender false none none)) (truncated body), p)
    | _ => (none, p)
  else (none, p)

/-- The roster of one open channel, if it has been sent. -/
def reconciliationEvent (p : Projector) (shared : Option (ExtTreeSet String)) (index : UInt8)
    (channel : ChatChannel) : Option EventKind :=
  if p.rosterSent.contains index then do
    let channel ← p.sharedChannelRef channel shared
    let users := (← p.rosterState[index]?).toList.map (·.2)
    return .roster channel true (saturatedCount users.length) users
  else none

/-- `reconciliation_events`. -/
def reconciliationEvents (p : Projector) (shared : Option (ExtTreeSet String)) : List EventKind :=
  p.channels.toList.filterMap fun (index, channel) => p.reconciliationEvent shared index channel

end Projector

end Superiority
