import Superiority.Native.PresenceFolds
import Superiority.Sc2.Profiles

/-!
# Friends

The functions of `chat/session.rs` on the friends of the account: how a page of updates changes
them, how a name finds one, and the list that is shown. The list is a function of the friends and
of the resolver, whose presence directory says who is online.
-/

namespace Superiority

open Std

/-! ## The directory's indexes -/

namespace PresenceDirectory

def presenceForProfile (d : PresenceDirectory) (profile : ProfileAddress) : Option UInt32 :=
  d.profilePresence[profile]?

def presenceForToonHandle (d : PresenceDirectory) (handle : ToonHandle) : Option UInt32 :=
  d.toonPresence[handle]?

def localPresenceId (d : PresenceDirectory) (presenceId : UInt32) : UInt32 :=
  d.localPresence[d.canonicalPresenceId presenceId]?.getD presenceId

end PresenceDirectory

namespace Sc2

/-- `fourcc("S2")`. -/
def programS2 : UInt32 := 0x5332

/-! ## Pages -/

/-- A modification of a friend: what it does not name stays. -/
def modifyFriend (existing entry : FriendEntry) : FriendEntry :=
  { existing with
    displayName := entry.displayName.or existing.displayName
    fullName := entry.fullName.or existing.fullName
    note := entry.note.or existing.note
    profile := entry.profile.or existing.profile
    toonName := entry.toonName.or existing.toonName }

/-- `apply_friend_page`. -/
def applyFriendPage (friends : Friends) (updates : List FriendUpdate) : Friends :=
  updates.foldl (fun friends update =>
    match update.operation with
    | .remove => friends.erase update.entry.identity
    | .add | .modify => friends.insert update.entry.identity
        (match friends[update.entry.identity]? with
          | some existing => modifyFriend existing update.entry
          | none => update.entry)) friends

/-- `apply_friend_toons`: the StarCraft II characters of friends that are known. -/
def applyFriendToons (friends : Friends) (entries : List FriendToon) : Friends :=
  entries.foldl (fun friends toon =>
    if toon.programId ≠ programS2 then friends
    else friends.modify (.account toon.accountId) fun friend => { friend with
      profile := toon.profile.or friend.profile
      toonName := some toon.toonName }) friends

/-! ## Names -/

/-- `str::split_whitespace().next()`. -/
def firstWord (s : String) : Option String :=
  let word := (s.toList.dropWhile isWhitespace).takeWhile fun c => !isWhitespace c
  if word.isEmpty then none else some (String.ofList word)

/-- `friend_matches_name`: the whole name, the name without its code, or its first word. -/
def friendMatchesName (friend : FriendEntry) (query : String) : Bool :=
  ([friend.displayName, friend.fullName].filterMap id).any fun name =>
    let name := trim name
    eqIgnoreAsciiCase name query || eqIgnoreAsciiCase (stripCharacterCode name) query
      || (firstWord name).any fun first => eqIgnoreAsciiCase first query

/-- The handle of a friend who is a character; a region that is no byte counts as 1. -/
def characterHandle (programId region realm : UInt32) (id : UInt64) : ToonHandle where
  region := if region.toNat < 256 then region.toUInt8 else 1
  programId := programId
  realm := realm
  id := id

/-- `friend_whisper_target`. -/
def friendWhisperTarget (friend : FriendEntry) : WhisperTarget :=
  match friend.identity with
  | .account accountId => .account accountId
  | .character programId region realm id => .toonHandle (characterHandle programId region realm id)

/-! ## The list -/

/-- `friend_presence_id`. -/
def friendPresenceId (friend : FriendEntry) (profiles : ProfileResolver) : Option UInt32 :=
  let identityPresence := match friend.identity with
    | .account accountId => profiles.presence.presenceForAccount accountId
    | .character programId region realm id =>
      profiles.presence.presenceForToonHandle (characterHandle programId region realm id)
  identityPresence.or (friend.profile.bind profiles.presence.presenceForProfile)

/-- The name a friend is listed under. -/
def listedName (friend : FriendEntry) : Option String :=
  ((friend.displayName.or friend.fullName).map trim).filter fun name => name ≠ ""

def isAway (presence : PresenceState) : Bool := presence = .offline || presence = .unknown

/-- The entry a friend is listed with. -/
def chatFriend (friend : FriendEntry) (profiles : ProfileResolver) (name : String) : ChatFriend :=
  let presenceId := friendPresenceId friend profiles
  { name
    fullName := friend.fullName
    note := friend.note
    avatar := friend.profile.bind profiles.avatarOf
    presence := presenceId.elim .offline fun id => (profiles.presence.identity id).state
    target := match presenceId with
      | some id => .presence id
      | none => match friend.toonName with
        | some name => .toonName name
        | none => friendWhisperTarget friend }

/-- Two friends of one name are one entry: the first, with an avatar and a presence if one of them
has any. -/
def mergeFriend (existing friend : ChatFriend) : ChatFriend :=
  let existing := { existing with avatar := existing.avatar.or friend.avatar }
  if isAway existing.presence && !isAway friend.presence then
    { existing with
      presence := friend.presence
      target := friend.target }
  else existing

/-- `friend_snapshot`. -/
def friendSnapshot (tables : Tables) (friends : Friends) (profiles : ProfileResolver) :
    List ChatFriend :=
  valuesOf ((valuesOf friends).foldl (fun (unique : ExtTreeMap String ChatFriend) friend =>
    match listedName friend with
    | none => unique
    | some name =>
      let key := tables.lowercase name
      let listed := chatFriend friend profiles name
      unique.insert key (unique[key]?.elim listed fun existing =>
        mergeFriend existing listed)) ∅)

/-- `block_snapshot`: the blocked accounts by name. -/
def blockSnapshot (tables : Tables) (blocks : ExtTreeMap UInt32 AccountBlockEntry) :
    List BlockedAccount :=
  ((valuesOf blocks).map fun entry => {
    accountId := entry.accountId
    name := (entry.nickname.or entry.fullName).getD s!"Account #{entry.accountId.toNat}"
    fullName := entry.fullName : BlockedAccount }).mergeSort
      fun a b => tables.lowercase a.name ≤ tables.lowercase b.name

end Sc2

end Superiority
