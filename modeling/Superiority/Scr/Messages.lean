import Superiority.Text
import Superiority.Wire.Raw

/-!
# The messages of Remastered's chat

Callbacks of the classic channel, as `chat.rs` reads them. A field that cannot be read ends a message
without an error, and records that make no sense are passed over.
-/

namespace Superiority.Scr

open Superiority.Wire

/-! ## Frames -/

-- the service and method numbers of the catalogue that the chat state knows

namespace Service

def auroraUser : UInt32 := 0x9BFB8BFC
def auroraChat : UInt32 := 0x924CCFDA
def auroraFriends : UInt32 := 0xAA4E1E00
def legacyChat : UInt32 := 0xF4E11A78

end Service

namespace Method

def playerStatusUpdated : UInt32 := 0x4D8FE65A
def friendUpdated : UInt32 := 0xEC7E2FD1
def whisperReceived : UInt32 := 0x7255E575
def whisperEchoReceived : UInt32 := 0x82B844A8
def channelsUpdated : UInt32 := 0xC04DAC29
def leftChannel : UInt32 := 0xB07FD98A
def chatWhisperMessage : UInt32 := 0xFA88D3E1
def chatTalkMessage : UInt32 := 0x850B6EE3
def chatBroadcastMessage : UInt32 := 0xAA6957AA
def chatInformationMessage : UInt32 := 0x1580B7A1
def chatErrorMessage : UInt32 := 0xD52809ED
def chatEmoteMessage : UInt32 := 0x632D6CFD
def forceJoinChannel : UInt32 := 0xC583300A
def commandWhitelistUpdate : UInt32 := 0x6CAE9859
def commandBlacklistUpdate : UInt32 := 0x78EB08D1
def chatFriendEnter : UInt32 := 0x57AE7DBC
def chatFriendExit : UInt32 := 0x4A610CB4
def chatFriendNotifyGame : UInt32 := 0xAA25AF75

end Method

structure Header where
  serviceId : UInt32
  methodId : UInt32
  isResponse : Option Bool := none
  deriving DecidableEq, Repr

structure Frame where
  header : Header
  body : List UInt8
  deriving DecidableEq, Repr

/-- `Header::is_response`. -/
def Frame.answers (frame : Frame) : Bool := frame.header.isResponse.getD false

/-! ## Fields -/

/-- The fields from an offset on, no more than given, up to the first that cannot be read. -/
def fieldsFrom (data : List UInt8) : (limit offset : Nat) → List Field
  | 0, _ => []
  | limit + 1, offset =>
    if data.length ≤ offset then []
    else match readField data offset with
    | (.ok field, offset) => field :: fieldsFrom data limit offset
    | (.error _, _) => []

/-- `protobuf::fields(data).flatten()`. -/
def fieldsOf (data : List UInt8) : List Field := fieldsFrom data data.length 0

/-- The fields are the items of the iterator that are no errors. -/
theorem fieldsFrom_eq_items (data : Slice) {limit offset : Nat}
    (hlimit : data.bytes.length ≤ offset + limit) :
    fieldsFrom data.bytes limit offset =
      (Fields.items ⟨data, offset, false⟩).filterMap Except.toOption := by
  rw [← itemsFrom_eq_items data hlimit]
  clear hlimit
  induction limit generalizing offset with
  | zero => rfl
  | succ limit ih =>
    rw [fieldsFrom, itemsFrom]
    by_cases hend : data.bytes.length ≤ offset
    · rw [if_pos hend, if_pos hend]
      rfl
    rw [if_neg hend, if_neg hend]
    rcases readField data.bytes offset with ⟨error | field, behind⟩
    · rfl
    · exact congrArg (field :: ·) ih

/-- **What is read of a message.** The items that its iterator gives, without the errors. -/
theorem fieldsOf_eq_items (data : Slice) :
    fieldsOf data.bytes = (fields data).items.filterMap Except.toOption :=
  fieldsFrom_eq_items data (Nat.le_add_left _ 0)

/-- `Field::varint`. -/
def varintOf (field : Field) : Option UInt64 :=
  match field.value with
  | .varint value => some value
  | _ => none

/-- `Field::bytes`. -/
def bytesOf (field : Field) : Option (List UInt8) :=
  match field.value with
  | .bytes value => some value
  | _ => none

/-- `Field::fixed32`. -/
def fixed32Of (field : Field) : Option UInt32 :=
  match field.value with
  | .fixed32 value => some value
  | _ => none

/-- The first field of a number. -/
def firstField (data : List UInt8) (number : UInt32) : Option Field :=
  (fieldsOf data).find? fun field => field.number = number

/-- `protobuf::first_bytes`. -/
def firstBytes (data : List UInt8) (number : UInt32) : Option (List UInt8) :=
  (firstField data number).bind bytesOf

/-- `protobuf::first_varint`. -/
def firstVarint (data : List UInt8) (number : UInt32) : Option UInt64 :=
  (firstField data number).bind varintOf

/-- `protobuf::first_fixed32`. -/
def firstFixed32 (data : List UInt8) (number : UInt32) : Option UInt32 :=
  (firstField data number).bind fixed32Of

/-- `u32::try_from` of a `u64`. -/
def toU32 (value : UInt64) : Option UInt32 :=
  if value.toNat < 2 ^ 32 then some value.toUInt32 else none

/-- `is_some_and(|value| value != 0)`. -/
def isSet (value : Option UInt64) : Bool := value.any (· ≠ 0)

/-! ## Texts -/

/-- `str::to_ascii_lowercase`. -/
def toAsciiLowercase (s : String) : String := String.ofList (s.toList.map Char.toLower)

def printableText (value : List UInt8) : Option String :=
  (fromUtf8 value).filter fun decoded => decoded.toList.all fun character =>
    character = '\r' || character = '\n' || character = '\t' || !isControl character

def text (value : List UInt8) : Option String :=
  (printableText value).filter fun decoded => decoded ≠ ""

/-! ## Channels -/

/-- `profile::Avatar`. -/
structure Avatar where
  imageUrl : Option String
  id : Option String
  deriving DecidableEq, Repr

structure ChatAttribute where
  name : String
  value : String
  deriving DecidableEq, Repr

structure ChatUser where
  name : String
  flags : Option UInt64 := none
  isOperator : Bool := false
  avatar : Option Avatar := none
  attributes : List ChatAttribute := []
  deriving DecidableEq, Repr

structure ChatChannel where
  channelId : UInt32
  name : String
  displayName : Option String
  isPublic : Bool
  users : List ChatUser
  deriving DecidableEq, Repr

/-- `ChatUser::attribute`. -/
def ChatUser.attribute (user : ChatUser) (name : String) : Option String :=
  (user.attributes.find? fun entry => eqIgnoreAsciiCase entry.name name).map (·.value)

/-- `ChatUser::battle_tag`. -/
def ChatUser.battleTag (user : ChatUser) : Option String := user.attribute "battle_tag"

def parseAttribute (data : List UInt8) : Option ChatAttribute :=
  let read := (fieldsOf data).foldl (fun (read : String × Option String) field =>
    if field.number = 1 then (((bytesOf field).bind text).getD "", read.2)
    else if field.number = 2 then (read.1, (bytesOf field).bind printableText)
    else read) ("", none)
  if read.1 = "" then none else read.2.map fun value => ⟨read.1, value⟩

def parseUser (data : List UInt8) : Option ChatUser :=
  let user := (fieldsOf data).foldl (fun (user : ChatUser) field =>
    if field.number = 1 then { user with name := ((bytesOf field).bind text).getD "" }
    else if field.number = 2 then { user with flags := varintOf field }
    else if field.number = 3 then
      { user with attributes := user.attributes ++
        ((bytesOf field).bind parseAttribute).toList }
    else if field.number = 4 then { user with isOperator := isSet (varintOf field) }
    else user) { name := "" }
  if user.name = "" then none else some user

/-- The fields of a channel as they are read. -/
structure ReadChannel where
  channelId : Option UInt32 := none
  name : String := ""
  displayName : Option String := none
  isPublic : Bool := false
  users : List ChatUser := []

def parseChannel (data : List UInt8) : Option ChatChannel :=
  let read := (fieldsOf data).foldl (fun (read : ReadChannel) field =>
    if field.number = 1 then { read with channelId := (varintOf field).bind toU32 }
    else if field.number = 2 then { read with name := ((bytesOf field).bind text).getD "" }
    else if field.number = 3 then
      { read with users := read.users ++ ((bytesOf field).bind parseUser).toList }
    else if field.number = 4 then { read with isPublic := isSet (varintOf field) }
    else if field.number = 5 then { read with displayName := (bytesOf field).bind text }
    else read) {}
  match read.channelId with
  | none => none
  | some channelId =>
    if read.name = "" then none
    else some ⟨channelId, read.name, read.displayName, read.isPublic, read.users⟩

def parseJoinedChannelResponse (body : List UInt8) : Option ChatChannel :=
  ((firstBytes body 1).bind parseChannel).or (parseChannel body)

def parseForceJoinChannel (body : List UInt8) : Option ChatChannel :=
  (firstBytes body 2).bind parseChannel

/-- An update of `ChannelsUpdated`: what is done, and the channel it is done to. -/
def parseChannelUpdate (update : List UInt8) : UInt64 × Option ChatChannel :=
  (fieldsOf update).foldl (fun (read : UInt64 × Option ChatChannel) field =>
    if field.number = 1 then ((varintOf field).getD 0, read.2)
    else if field.number = 2 then (read.1, (bytesOf field).bind parseChannel)
    else read) (0, none)

/-! ## Events -/

inductive EventKind where
  | whisper
  | talk
  | broadcast
  | information
  | error
  | emote
  deriving DecidableEq, Repr

/-- `EventKind::from_method_id`. -/
def EventKind.fromMethodId (methodId : UInt32) : Option EventKind :=
  if methodId = Method.chatWhisperMessage then some .whisper
  else if methodId = Method.chatTalkMessage then some .talk
  else if methodId = Method.chatBroadcastMessage then some .broadcast
  else if methodId = Method.chatInformationMessage then some .information
  else if methodId = Method.chatErrorMessage then some .error
  else if methodId = Method.chatEmoteMessage then some .emote
  else none

structure AuroraWhisper where
  accountId : UInt32
  outgoing : Bool
  deriving DecidableEq, Repr

structure ChatEvent where
  kind : EventKind
  channelId : Option UInt32 := none
  sender : Option String := none
  text : Option String := none
  auroraWhisper : Option AuroraWhisper := none
  deriving DecidableEq, Repr

/-- `printable_strings`, with this many levels of messages in messages left. -/
def printableStrings : (levels : Nat) → List UInt8 → List String
  | levels, data => (fieldsOf data).flatMap fun field =>
    match bytesOf field with
    | none => []
    | some bytes =>
      match text bytes with
      | some value => [value]
      | none =>
        match levels with
        | 0 => []
        | levels + 1 => printableStrings levels bytes

def parseEvent (kind : EventKind) (body : List UInt8) : ChatEvent :=
  let strings := printableStrings 2 body
  { kind
    channelId := (firstVarint body 1).bind toU32
    sender := strings.dropLast.head?
    text := strings.getLast? }

/-! ## Friends -/

inductive FriendPresence where
  | online
  | inGame
  | offline
  deriving DecidableEq, Repr

structure ChatFriend where
  name : String
  presence : FriendPresence
  game : Option String
  accountId : Option UInt32
  deriving DecidableEq, Repr

/-- `friend_update`, for one of the three methods. -/
def friendUpdate (methodId : UInt32) (body : List UInt8) : Option (ChatFriend × String) :=
  match (fieldsOf body).filterMap fun field => (bytesOf field).bind text with
  | [] => none
  | name :: others =>
    if methodId = Method.chatFriendEnter then
      some (⟨name, .online, none, none⟩, s!"Your friend {name} has entered StarCraft.")
    else if methodId = Method.chatFriendExit then
      some (⟨name, .offline, none, none⟩, s!"Your friend {name} has exited StarCraft.")
    else if methodId = Method.chatFriendNotifyGame then
      some (⟨name, .inGame, others.head?, none⟩, match others.head? with
        | none => s!"Your friend {name} has entered a game."
        | some game => s!"Your friend {name} has entered a game called {game}.")
    else none

structure AuroraFriendUpdate where
  accountId : UInt64
  battleTag : String
  inProgram : Bool
  role : UInt64
  deriving DecidableEq, Repr

/-- The fields of a friend as they are read. -/
structure ReadFriend where
  accountId : Option UInt64 := none
  battleTag : Option String := none
  inProgram : Bool := false

def parseAuroraFriendUpdate (body : List UInt8) : Option AuroraFriendUpdate := do
  let friend ← firstBytes body 1
  let read := (fieldsOf friend).foldl (fun (read : ReadFriend) field =>
    if field.number = 1 then { read with accountId := varintOf field }
    else if field.number = 2 then { read with battleTag := (bytesOf field).bind text }
    else if field.number = 5 then { read with inProgram := isSet (varintOf field) }
    else read) {}
  return ⟨← read.accountId, ← read.battleTag, read.inProgram, ← firstVarint body 2⟩

end Superiority.Scr
