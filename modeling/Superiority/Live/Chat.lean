import Std.Data.ExtTreeMap
import Superiority.Native.Presence

/-!
# Chat events

`chat/session.rs`: what a connected client tells its observers. An event keeps the fields that an
observer of Live sharing reads; the kinds it never looks into carry nothing.
-/

namespace Superiority

/-- `ChatChannel`. -/
inductive ChatChannel where
  | public_ (identifier : UInt16)
  | private_ (name : String)
  | club (clubId : UInt32)
  | party
  deriving DecidableEq, Repr

/-- `ChatUser`. -/
structure ChatUser where
  handle : UInt32
  name : Option String
  clanTag : Option String
  avatar : Option ImageTableEntry
  presence : PresenceState
  deriving DecidableEq, Repr

/-- `RosterSnapshot`. -/
structure RosterSnapshot where
  channelIndex : UInt8
  initialComplete : Bool
  users : List ChatUser
  deriving DecidableEq, Repr

/-- `PublicChannel`. -/
structure PublicChannel where
  identifier : UInt16
  name : String
  deriving DecidableEq, Repr

/-- `ChatEvent`. -/
inductive ChatEvent where
  | publicChannelCatalog (channels : List PublicChannel)
  | conferenceDescriptions
  | conferenceMemberCounts
  | joined (channelIndex : UInt8) (channel : ChatChannel) (localMemberHandle : UInt32)
  | joinRejected
  | roster (snapshot : RosterSnapshot)
  | memberJoined (channelIndex : UInt8) (user : ChatUser)
  | memberLeft (channelIndex : UInt8) (user : ChatUser)
  | removed (channelIndex : UInt8)
  | message (channelIndex : UInt8) (sender : ChatUser) (body : String)
  | whisper
  | friends
  | blockedAccounts
  | activity
  | whisperFailed
  | groupInvitation
  | partyInvitation
  | groupSummary (clubId : UInt32) (name : Option String)
  | groupSearch
  deriving DecidableEq, Repr

/-- `GENERAL_PUBLIC_CHANNEL`. -/
def generalPublicChannel : UInt16 := 1028

/-- `channel_title`. -/
def channelTitle : ChatChannel → String
  | .public_ identifier =>
    if identifier = generalPublicChannel then "General" else "Public " ++ toString identifier.toNat
  | .private_ name => name
  | .club clubId => "Group " ++ toString clubId.toNat
  | .party => "Party"

/-- `str::rsplit_once`: the text around the last occurrence of a character. -/
def rsplitOnce (c : Char) (text : List Char) : Option (List Char × List Char) :=
  match text.reverse.dropWhile (· ≠ c) with
  | [] => none
  | _ :: front => some (front.reverse, (text.reverse.takeWhile (· ≠ c)).reverse)

/-- `strip_character_code`: a name without its `#` and number. -/
def stripCharacterCode (name : String) : String :=
  match rsplitOnce '#' name.toList with
  | none => name
  | some (base, code) =>
    if base ≠ [] ∧ code ≠ [] ∧ code.all fun c => '0' ≤ c ∧ c ≤ '9' then String.ofList base
    else name

end Superiority
