import Superiority.Casing
import Superiority.Scr.Messages

/-!
# Warcraft III's chat messages

The bodies of the callbacks of the Aurora chat and friends services, and what is read out of them.
A message is walked field by field; a field that cannot be read ends the walk with its error.
-/

namespace Superiority.Wc3

open Wire (Field itemsOf)
open Scr (bytesOf firstBytes firstVarint toU32)

def classicError (message : String) : Error := .classicWire ("WC3: " ++ message)

/-! ## Services and methods -/

def auroraChat : UInt32 := 0x924CCFDA
def auroraFriends : UInt32 := 0xAA4E1E00

def channelAdded : UInt32 := 0x4ADEAA27
def channelRemoved : UInt32 := 0xAD995A17
def memberAdded : UInt32 := 0x55F573C2
def memberRemoved : UInt32 := 0x8CA0DB7A
def updateMemberPresence : UInt32 := 0x061DFC04
def batchUpdateMemberPresence : UInt32 := 0xF898F80E
def messageReceived : UInt32 := 0x1D6B1DC2
def whisperReceived : UInt32 := 0x7255E575
def whisperEchoReceived : UInt32 := 0x82B844A8
def channelSubscriptionUpdated : UInt32 := 0xF90D37BF
def whisperSubscriptionUpdated : UInt32 := 0x8ECE5580
def batchFriendUpdated : UInt32 := 0x412F3DBB

def maxMembers : Nat := 4096
def maxNameBytes : Nat := 256
def maxChatBytes : Nat := 4 * 1024

/-- `QueuedCallback`. -/
structure Callback where
  serviceId : UInt32
  methodId : UInt32
  body : List UInt8
  deriving DecidableEq

/-! ## What is kept -/

inductive ChatPresence where
  | offline
  | online
  | away
  | busy
  deriving DecidableEq

structure ChatMemberIdentity where
  accountId : UInt64
  titleId : UInt32
  region : UInt32
  deriving DecidableEq

structure ChatMember where
  handle : UInt64
  name : String
  presence : ChatPresence
  avatarId : Option String
  clanAbbreviation : Option String
  identity : ChatMemberIdentity
  deriving DecidableEq

structure ChatChannel where
  id : UInt8
  name : String
  members : List ChatMember
  deriving DecidableEq

inductive ChatEvent where
  | channelJoined (channelId : UInt8) (name : String) (memberCount : Nat)
  | channelLeft (channelId : UInt8)
  | memberJoined (channelId : UInt8) (name : String)
  | memberLeft (channelId : UInt8) (name : Option String)
  | message (channelId : UInt8) (body : String)
  | whisper (accountId : UInt64) (peer body : String) (outgoing : Bool)
  | notice (text : String)
  deriving DecidableEq

inductive FriendPresence where
  | online
  | offline
  deriving DecidableEq

structure ChatFriend where
  accountId : UInt64
  name : String
  presence : FriendPresence
  deriving DecidableEq

structure ParsedChannel where
  channelId : List UInt8
  name : String
  members : List ChatMember

structure ParsedWhisper where
  accountId : UInt64
  peer : Option String
  body : String

inductive FriendUpdate where
  | upsert (friend : ChatFriend)
  | remove (accountId : UInt64)

/-! ## Fields -/

/-- `value.ok_or_else(|| classic_error(message))`. -/
def orClassic {α : Type} (value : Option α) (message : String) : Except Error α :=
  match value with
  | some a => .ok a
  | none => .error (classicError message)

def validatedText (value : List UInt8) (role : String) : Except Error String :=
  if value = [] ∨ value.length > max maxNameBytes maxChatBytes then
    .error (classicError (role ++ " has an invalid length"))
  else match fromUtf8 value with
  | none => .error (classicError (role ++ " is not UTF-8"))
  | some text =>
    if text.toList.any isControl then
      .error (classicError (role ++ " contains control characters"))
    else .ok text

def protobufBool (body : List UInt8) (number : UInt32) : Except Error Bool :=
  match (firstVarint body number).getD 0 with
  | 0 => .ok false
  | 1 => .ok true
  | _ => .error (classicError "OnlineStatusV3 contains a non-boolean value")

/-! ## Members and channels -/

def parseMemberIdentity (body : List UInt8) : Except Error ChatMemberIdentity := do
  let accountId ← orClassic (firstVarint body 1) "toon identity has no account id"
  let titleId ← orClassic ((firstVarint body 2).bind toU32) "toon identity has no valid title id"
  let region ← orClassic ((firstVarint body 3).bind toU32) "toon identity has no valid region"
  return ⟨accountId, titleId, region⟩

def parseMemberInfo (body : List UInt8) : Except Error ChatMember := do
  let name ← orClassic (firstBytes body 2) "channel member has no name"
  let name ← validatedText name "member name"
  let handle ← orClassic (firstVarint body 6) "channel member has no handle"
  let identity ← orClassic (firstBytes body 7) "channel member has no toon identity"
  let identity ← parseMemberIdentity identity
  return ⟨handle, name, .online, none, none, identity⟩

section Sorting

variable (casing : Casing)

/-- `sort_unstable_by_key`: members of one key may come in any order, and come as they were. -/
def sortMembers (members : List ChatMember) : List ChatMember :=
  members.mergeSort fun left right =>
    (compare (casing.toLowercase left.name.toList) (casing.toLowercase right.name.toList)).isLE

/-- One round of the loop over the fields of a channel. -/
def readMember (members : List ChatMember) (item : Except Error Field) :
    Except Error (List ChatMember) := do
  let field ← item
  if field.number ≠ 5 then return members
  let member ← orClassic (bytesOf field) "channel member is not bytes"
  if members.length = maxMembers then
    throw (classicError "channel roster exceeds the safety limit")
  let member ← parseMemberInfo member
  return if members.any (·.identity = member.identity) then members else members ++ [member]

def parseChannelAdded (body : List UInt8) : Except Error ParsedChannel := do
  let info ← orClassic (firstBytes body 1) "ChannelAdded has no channel info"
  let channelId ← orClassic ((firstBytes info 1).filter (· ≠ [])) "channel has no id"
  let name ← orClassic (firstBytes info 2) "channel has no name"
  let name ← validatedText name "channel name"
  let members ← (itemsOf info).foldlM readMember []
  return ⟨channelId, name, sortMembers casing members⟩

end Sorting

/-- Whether a field holds what a member's info holds, and the member. -/
def memberIn (candidate : List UInt8) : Option ChatMember :=
  if (firstVarint candidate 4).isSome ∧ (firstVarint candidate 6).isSome ∧
      (firstBytes candidate 7).isSome then (parseMemberInfo candidate).toOption
  else none

/-- The first thing that is found in a field of bytes, unless an earlier field cannot be read. -/
def findInFields {α : Type} (find : List UInt8 → Option α) :
    List (Except Error Field) → Except Error (Option α)
  | [] => .ok none
  | .error error :: _ => .error error
  | .ok field :: items =>
    match (bytesOf field).bind find with
    | some found => .ok (some found)
    | none => findInFields find items

def findMemberInfo (body : List UInt8) : Except Error (Option ChatMember) :=
  findInFields memberIn (itemsOf body)

def nameIn (candidate : List UInt8) : Option String :=
  if (firstVarint candidate 4).isSome then
    (firstBytes candidate 2).bind fun name => (validatedText name "member name").toOption
  else none

def findMemberName (body : List UInt8) : Except Error (Option String) := do
  match ← findMemberInfo body with
  | some member => return some member.name
  | none => findInFields nameIn (itemsOf body)

/-! ## Presence -/

def parseAvatarId (value : List UInt8) : Except Error (Option String) := do
  if value = [] then return none
  let value ← validatedText value "avatar id"
  match value.toList with
  | 'p' :: digits =>
    if digits.length = 3 ∧ digits.all Char.isDigit then return some value
    else throw (classicError "member presence has an invalid avatar id")
  | _ => throw (classicError "member presence has an invalid avatar id")

def parsePresence (status : List UInt8) : Except Error ChatPresence := do
  let online ← protobufBool status 1
  let busy ← protobufBool status 3
  let away ← protobufBool status 4
  return if !online then .offline else if away then .away else if busy then .busy else .online

/-! ## Messages and friends -/

def parseChatMessage (body : List UInt8) : Except Error String := do
  let message ← orClassic (firstBytes body 2) "chat callback has no message"
  let text ← orClassic (firstBytes message 1) "chat message has no text"
  validatedText text "chat message"

def parseWhisper (body : List UInt8) (outgoing : Bool) : Except Error ParsedWhisper := do
  let accountId ← orClassic ((firstVarint body 1).filter (· ≠ 0))
    "whisper callback has no account id"
  let message ← orClassic (firstBytes body 2) "whisper callback has no message"
  let peer ← match firstBytes body 3 with
    | none => pure none
    | some value => (validatedText value "whisper peer").map some
  if !outgoing ∧ peer = none then
    throw (classicError "received whisper has no sender BattleTag")
  let body ← validatedText message "whisper message"
  return ⟨accountId, peer, body⟩

def parseFriendUpdate (body : List UInt8) : Except Error FriendUpdate := do
  let friend ← orClassic (firstBytes body 1) "friend update has no FriendInfo"
  let accountId ← orClassic ((firstVarint friend 1).filter (· ≠ 0)) "FriendInfo has no account id"
  match (firstVarint body 2).getD 0 with
  | 1 => return .remove accountId
  | 0 =>
    let name ← orClassic (firstBytes friend 2) "FriendInfo has no BattleTag"
    let name ← validatedText name "friend BattleTag"
    let inProgram ← protobufBool friend 5
    return .upsert ⟨accountId, name, if inProgram then .online else .offline⟩
  | _ => throw (classicError "friend update has an unknown FriendRole")

end Superiority.Wc3
