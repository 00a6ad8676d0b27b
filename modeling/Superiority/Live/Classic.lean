import Superiority.Text
import Superiority.Live.Tap

/-!
# The classic taps

`uplink/classic.rs`, `scr.rs` and `wc3.rs`. A classic edge describes a channel whole and sends it
again whenever something about it moves; the projectors diff successive snapshots against the
roster the viewer was last told. `ClassicSessionTap` carries one of the two projectors and sends
through the same functions as the StarCraft II tap.

`str::to_lowercase` maps all of Unicode; it is a parameter here (`lowercase`).
-/

namespace Superiority

open Std

/-! ## What the classic sessions observe -/

/-- `scr::profile::Avatar`. -/
structure ScrAvatar where
  imageUrl : Option String
  id : Option String
  deriving DecidableEq, Repr

/-- `scr::chat::ChatUser`; `attributes` are pairs of a name and a value. -/
structure ScrUser where
  name : String
  isOperator : Bool
  avatar : Option ScrAvatar
  attributes : List (String × String)
  deriving DecidableEq, Repr

/-- `scr::chat::MemberPresence`. -/
inductive MemberPresence where
  | online | away | busy | inGame | inLobby
  deriving DecidableEq, Repr

def MemberPresence.slug : MemberPresence → String
  | online => "available"
  | away => "away"
  | busy => "busy"
  | inGame => "in_game"
  | inLobby => "in_lobby"

namespace ScrUser

def attribute_ (user : ScrUser) (name : String) : Option String :=
  (user.attributes.find? fun entry => eqIgnoreAsciiCase entry.1 name).map (·.2)

def battleTag (user : ScrUser) : Option String := user.attribute_ "battle_tag"

def presence (user : ScrUser) : MemberPresence :=
  let status := (((user.attribute_ "presence").or (user.attribute_ "status")).map trim).getD ""
  if eqIgnoreAsciiCase status "away" then .away
  else if eqIgnoreAsciiCase status "busy" || eqIgnoreAsciiCase status "dnd"
      || eqIgnoreAsciiCase status "do_not_disturb" then .busy
  else if (user.attribute_ "game_info").any fun value => trim value ≠ "" then .inGame
  else if (user.attribute_ "lobby_info").any fun value => trim value ≠ "" then .inLobby
  else .online

end ScrUser

/-- `scr::chat::ChatChannel`. -/
structure ScrChannel where
  channelId : UInt32
  name : String
  displayName : Option String
  isPublic : Bool
  users : List ScrUser
  deriving DecidableEq, Repr

def ScrChannel.label (channel : ScrChannel) : String := channel.displayName.getD channel.name

/-- `scr::chat::EventKind`. -/
inductive ScrEventKind where
  | talk | emote | whisper | broadcast | information | error
  deriving DecidableEq, Repr

/-- `scr::chat::ChatEvent`. -/
structure ScrEvent where
  kind : ScrEventKind
  sender : Option String
  text : Option String
  deriving DecidableEq, Repr

/-- `wc3::ChatPresence`. -/
inductive Wc3Presence where
  | offline | online | away | busy
  deriving DecidableEq, Repr

/-- `wc3::ChatMember`. -/
structure Wc3Member where
  handle : UInt64
  name : String
  presence : Wc3Presence
  avatarId : Option String
  clanAbbreviation : Option String
  deriving DecidableEq, Repr

/-- `wc3::ChatChannel`. -/
structure Wc3Channel where
  id : UInt8
  name : String
  members : List Wc3Member
  deriving DecidableEq, Repr

/-- `wc3::ChatEvent`. -/
inductive Wc3Event where
  | channelJoined (channelId : UInt8)
  | channelLeft (channelId : UInt8)
  | memberJoined (channelId : UInt8) (name : String)
  | memberLeft (channelId : UInt8) (name : Option String)
  | message (channelId : UInt8) (body : String)
  | whisper
  | notice
  deriving DecidableEq, Repr

/-! ## What the projectors share -/

/-- `fnv1a32`. -/
def fnv1a32 (bytes : List UInt8) : UInt32 :=
  bytes.foldl (fun hash byte => (hash ^^^ byte.toUInt32) * 0x01000193) 0x811c9dc5

/-- `u64::to_le_bytes`. -/
def toLeBytes (n : UInt64) : List UInt8 :=
  (List.range 8).map fun i => (n >>> (8 * UInt64.ofNat i)).toUInt8

/-- `roster_events`: the events, and the roster and flag as they are left. -/
def rosterEvents (channel : ChannelRef) (members state : RosterMirror) (sent : Bool) :
    List EventKind × RosterMirror × Bool :=
  let membershipChanged := members.size ≠ state.size ∨ members.keys.any (!state.contains ·)
  if !sent ∨ membershipChanged then
    let users := members.toList.map (·.2)
    ([.roster channel true (Projector.saturatedCount users.length) users], members, true)
  else
    let changed := (members.toList.map (·.2)).filter fun user => state[user.handle]? ≠ some user
    (if changed = [] then [] else [.rosterDelta channel changed], members, sent)

/-! ## Remastered -/

/-- `ScrProjector`. -/
structure ScrProjector where
  localIdentity : Option String
  channel : Option (UInt32 × String) := none
  roster : RosterMirror := ∅
  rosterSent : Bool := false

/-- `scr::channel_key`. -/
def ScrChannel.key (channel : ScrChannel) : String :=
  if channel.isPublic then "public:" ++ toString channel.channelId.toNat
  else "private:" ++ channel.name

/-- `normalize_avatar_id`. -/
def normalizeAvatarId (value : String) : String :=
  let value := trim value
  if "http://".toList.isPrefixOf value.toList || "https://".toList.isPrefixOf value.toList then
    value
  else
    let id := value.toList.takeWhile (· ≠ '?')
    String.ofList (if ".jpg".toList.isSuffixOf id || ".png".toList.isSuffixOf id then
      id.take (id.length - 4) else id)

/-- `avatar_id`. -/
def avatarId (user : ScrUser) : Option String :=
  ((user.avatar.bind fun avatar => avatar.id.or avatar.imageUrl).or
    (["avatar_url", "avatar_id", "avatar", "profile_avatar", "toon_profile_avatar"].findSome?
      user.attribute_)).map normalizeAvatarId

namespace ScrProjector

variable (lowercase : String → String)

def new (localIdentity : Option String) : ScrProjector where
  localIdentity := localIdentity.map fun tag => lowercase (trim tag)

/-- The handle a member's name is given. -/
def handleOf (name : String) : UInt32 := fnv1a32 (lowercase name).toUTF8.data.toList

def userRef (p : ScrProjector) (user : ScrUser) : UserRef where
  handle := handleOf lowercase user.name
  name := some user.name
  clanTag := none
  presence := some user.presence.slug
  portrait := none
  isLocal := some (p.localIdentity.any fun identity =>
    user.battleTag.any fun tag => lowercase (trim tag) == identity)
  joinedOrder := none
  avatar := avatarId user
  isOperator := some user.isOperator

/-- The members of a snapshot, by handle; of two with one handle the later one stays. -/
def members (p : ScrProjector) (channel : ScrChannel) : RosterMirror :=
  channel.users.foldl (fun members user =>
    members.insert (p.userRef lowercase user).handle (p.userRef lowercase user)) ∅

def channelEvents (channel : ScrChannel) (p : ScrProjector) : List EventKind × ScrProjector :=
  let key := channel.key
  let name := channel.label
  let (events, p) :=
    if p.channel.map (·.1) ≠ some channel.channelId then
      ((p.channel.map fun previous => EventKind.left ⟨previous.2, none⟩).toList
          ++ [.joined ⟨key, some name⟩],
        { p with channel := some (channel.channelId, key), roster := ∅, rosterSent := false })
    else ([], p)
  let (rosters, roster, rosterSent) :=
    rosterEvents ⟨key, some name⟩ (p.members lowercase channel) p.roster p.rosterSent
  (events ++ rosters, { p with roster, rosterSent })

/-- `message_event`. -/
def messageEvent (p : ScrProjector) (event : ScrEvent) : Option EventKind := do
  let (_, key) ← p.channel
  let channel : ChannelRef := ⟨key, none⟩
  let body := truncated (event.text.getD "")
  match event.kind with
  | .talk | .emote =>
    let senderName ← event.sender
    return .message channel (if event.kind = .emote then some .emote else none)
      (some {
        handle := handleOf lowercase senderName
        name := some senderName
        clanTag := none, presence := none, portrait := none, isLocal := none
        joinedOrder := none, avatar := none, isOperator := none })
      body
  | .broadcast => return .notice channel .broadcast body
  | .information => return .notice channel .information body
  | .whisper | .error => none

def resend (p : ScrProjector) : List EventKind :=
  match p.channel with
  | none => []
  | some (_, key) =>
    if !p.rosterSent then []
    else
      let users := p.roster.toList.map (·.2)
      [.roster ⟨key, none⟩ true (Projector.saturatedCount users.length) users]

def resetRoster (p : ScrProjector) : ScrProjector := { p with rosterSent := false }

end ScrProjector

/-! ## Warcraft III -/

/-- `ProjectedChannel`. -/
structure ProjectedChannel where
  key : String
  roster : RosterMirror := ∅
  rosterSent : Bool := false

/-- `Wc3Projector`. -/
structure Wc3Projector where
  channels : ExtTreeMap UInt8 ProjectedChannel := ∅

/-- `wc3::channel_key`. -/
def Wc3Channel.key (channel : Wc3Channel) : String := "private:" ++ channel.name

def Wc3Presence.text : Wc3Presence → String
  | offline => "offline"
  | online => "available"
  | away => "away"
  | busy => "busy"

/-- `wc3::user_ref`. -/
def Wc3Member.userRef (member : Wc3Member) : UserRef where
  handle := fnv1a32 (toLeBytes member.handle)
  name := some (stripCharacterCode member.name)
  clanTag := member.clanAbbreviation
  presence := some member.presence.text
  portrait := none
  isLocal := none
  joinedOrder := none
  avatar := member.avatarId
  isOperator := none

namespace Wc3Projector

def members (channel : Wc3Channel) : RosterMirror :=
  channel.members.foldl (fun members member =>
    members.insert member.userRef.handle member.userRef) ∅

def channelEvents (channel : Wc3Channel) (p : Wc3Projector) : List EventKind × Wc3Projector :=
  let key := channel.key
  let (events, projected) : List EventKind × ProjectedChannel :=
    match p.channels[channel.id]? with
    | none => ([.joined ⟨key, some channel.name⟩], { key })
    | some projected => ([], { projected with key })
  let (rosters, roster, rosterSent) :=
    rosterEvents ⟨key, some channel.name⟩ (members channel) projected.roster
      projected.rosterSent
  (events ++ rosters,
    { p with channels := p.channels.insert channel.id { projected with roster, rosterSent } })

def channelRef (p : Wc3Projector) (channelId : UInt8) : Option ChannelRef :=
  p.channels[channelId]?.map fun channel => ⟨channel.key, none⟩

def notice (p : Wc3Projector) (channelId : UInt8) (body : String) : List EventKind :=
  ((p.channelRef channelId).map fun channel => EventKind.notice channel .information body).toList

def eventKinds (event : Wc3Event) (p : Wc3Projector) : List EventKind × Wc3Projector :=
  match event with
  | .channelLeft channelId =>
    match p.channels[channelId]? with
    | none => ([], p)
    | some channel =>
      ([.left ⟨channel.key, none⟩], { p with channels := p.channels.erase channelId })
  | .channelJoined _ => ([], p)
  | .message channelId body =>
    (((p.channelRef channelId).map fun channel =>
      EventKind.message channel none none (truncated body)).toList, p)
  | .whisper => ([], p)
  | .notice => ([], p)
  | .memberJoined channelId name =>
    (p.notice channelId (stripCharacterCode name ++ " entered the channel."), p)
  | .memberLeft channelId name =>
    (p.notice channelId (match name with
      | none => "A player left the channel."
      | some name => stripCharacterCode name ++ " left the channel."), p)

def resend (p : Wc3Projector) : List EventKind :=
  ((p.channels.toList.map (·.2)).filter (·.rosterSent)).map fun channel =>
    let users := channel.roster.toList.map (·.2)
    .roster ⟨channel.key, none⟩ true (Projector.saturatedCount users.length) users

def resetRoster (p : Wc3Projector) : Wc3Projector :=
  { p with channels := p.channels.map fun _ channel => { channel with rosterSent := false } }

end Wc3Projector

/-! ## The tap -/

/-- `Product`. -/
inductive Product where
  | starCraft2 | remastered | warcraft3
  deriving DecidableEq, Repr

def Product.slug : Product → String
  | starCraft2 => "sc2"
  | remastered => "scr"
  | warcraft3 => "wc3"

/-- `ClassicProjector`. -/
inductive ClassicProjector where
  | scr (projector : ScrProjector)
  | wc3 (projector : Wc3Projector)

namespace ClassicProjector

def resend : ClassicProjector → List EventKind
  | scr projector => projector.resend
  | wc3 projector => projector.resend

def resetRoster : ClassicProjector → ClassicProjector
  | scr projector => scr projector.resetRoster
  | wc3 projector => wc3 projector.resetRoster

end ClassicProjector

/-- `ClassicSessionTap`. Both taps hand the same fields to `emit_event` and `announce_session`;
they are kept in the other tap's record, `sends`, of which nothing else is used here. -/
structure ClassicSessionTap where
  sends : SessionTap
  projector : ClassicProjector

/-- A classic tap together with what it shares. -/
abbrev ClassicTapped := ClassicSessionTap × Uplink

namespace ClassicSessionTap

variable (lowercase : String → String)

/-- `ClassicSessionTap::new`, given the id it draws and the time. -/
def new (id clientVersion : String) (startedAt : Nat) (product : Product)
    (localIdentity : Option String) : ClassicSessionTap where
  sends := { info := { id, product := product.slug, clientVersion, startedAt } }
  projector := match product with
    | .remastered => .scr (.new lowercase localIdentity)
    | .warcraft3 => .wc3 {}
    -- the StarCraft II path has its own tap
    | .starCraft2 => .wc3 {}

-- The time of every event, by sequence number.
variable (clock : Nat → Nat)

/-- A function of the sending fields, on the whole tap. -/
def onSends (f : Tapped → Tapped) (s : ClassicTapped) : ClassicTapped :=
  let (sends, u) := f (s.1.sends, s.2)
  ({ s.1 with sends }, u)

def emit (kind : EventKind) : ClassicTapped → ClassicTapped :=
  onSends (SessionTap.emit clock kind)

def announceAndEmit (kind : EventKind) : ClassicTapped → ClassicTapped :=
  onSends (SessionTap.announceAndEmit clock kind)

def emitAll (events : List EventKind) (s : ClassicTapped) : ClassicTapped :=
  events.foldl (fun s kind => announceAndEmit clock kind s) s

/-- `end`, and `end_session`. -/
def end_ : ClassicTapped → ClassicTapped := onSends (SessionTap.endSession clock)

def heartbeat (s : ClassicTapped) : ClassicTapped :=
  let (tap, u) := s
  if !u.config.enabled then end_ clock s
  else if tap.sends.ended then
    let projector := tap.projector.resetRoster
    let sends := { tap.sends with ended := false }
    emitAll clock projector.resend (emit clock .sessionStarted ({ sends, projector }, u))
  else if tap.sends.announced then emit clock .heartbeat s
  else s

/-- `observe_classic`. -/
def observeClassic (event : ScrEvent) (s : ClassicTapped) : ClassicTapped :=
  let (tap, u) := s
  if !u.config.enabled then s
  else
    match tap.projector with
    | .scr projector => emitAll clock (projector.messageEvent lowercase event).toList s
    | .wc3 _ => s

/-- `observe_classic_channel`. -/
def observeClassicChannel (channel : ScrChannel) (s : ClassicTapped) : ClassicTapped :=
  let (tap, u) := s
  if !u.config.enabled then s
  else
    match tap.projector with
    | .scr projector =>
      let (events, projector) := projector.channelEvents lowercase channel
      emitAll clock events ({ tap with projector := .scr projector }, u)
    | .wc3 _ => s

/-- `observe_warcraft`. -/
def observeWarcraft (event : Wc3Event) (s : ClassicTapped) : ClassicTapped :=
  let (tap, u) := s
  if !u.config.enabled then s
  else
    match tap.projector with
    | .wc3 projector =>
      let (events, projector) := projector.eventKinds event
      emitAll clock events ({ tap with projector := .wc3 projector }, u)
    | .scr _ => s

/-- `observe_warcraft_channel`. -/
def observeWarcraftChannel (channel : Wc3Channel) (s : ClassicTapped) : ClassicTapped :=
  let (tap, u) := s
  if !u.config.enabled then s
  else
    match tap.projector with
    | .wc3 projector =>
      let (events, projector) := projector.channelEvents channel
      emitAll clock events ({ tap with projector := .wc3 projector }, u)
    | .scr _ => s

/-- What the network thread may do with a classic tap. -/
inductive Op where
  | heartbeat
  | observeClassic (event : ScrEvent)
  | observeClassicChannel (channel : ScrChannel)
  | observeWarcraft (event : Wc3Event)
  | observeWarcraftChannel (channel : Wc3Channel)
  | endSession
  deriving DecidableEq

def perform : Op → ClassicTapped → ClassicTapped
  | .heartbeat => heartbeat clock
  | .observeClassic event => observeClassic lowercase clock event
  | .observeClassicChannel channel => observeClassicChannel lowercase clock channel
  | .observeWarcraft event => observeWarcraft clock event
  | .observeWarcraftChannel channel => observeWarcraftChannel clock channel
  | .endSession => end_ clock

end ClassicSessionTap

end Superiority
