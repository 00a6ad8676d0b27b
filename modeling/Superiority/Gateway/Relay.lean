import Superiority.Desktop.Population
import Superiority.Gateway.Peer
import Superiority.Gateway.Session
import Superiority.Scr.Messages

/-!
# The relay between a legacy client and the session

`gateway/src/server.rs`: the actions of a legacy client are carried out on the session, and the
events of the session are relayed to it. `client_loop` takes packets while there are any and polls
the session in between. Here packets and polls come in any order; an error ends the connection.

What is reported to the console of the gateway is left out.
-/

namespace Superiority.Gateway

open Std Stateful
open Desktop (ConnectionStage)
open Scr (toAsciiLowercase)

/-! ## State -/

structure UserView where
  name : String
  deriving DecidableEq, Repr

structure ChannelView where
  index : UInt8
  label : String
  users : ExtTreeMap UInt32 UserView

structure ClientState where
  toonName : String
  enteredChat : Bool := false
  channelView : Option ChannelView := none
  friendView : Option (List FriendEntry) := none

/-- What `client_loop` works on. -/
structure Connection where
  session : Session
  peer : LegacyPeer
  state : ClientState

inductive ServeError where
  | client (error : IoError)
  | upstream (error : Error)
  deriving DecidableEq, Repr

abbrev Serving (α : Type) : Type := Stateful Connection ServeError α

/-- A call on the peer: its errors are the client's. -/
def onPeer {α : Type} (x : Peering α) : Serving α := fun c =>
  ((x c.peer).1.mapError .client, { c with peer := (x c.peer).2 })

/-- A call on the session whose error is looked at. -/
def attemptSession {α : Type} (x : Stateful Session Error α) : Serving (Except Error α) := fun c =>
  (.ok (x c.session).1, { c with session := (x c.session).2 })

def setView (view : Option ChannelView) : Serving Unit :=
  change fun c => { c with state := { c.state with channelView := view } }

/-! ## What is sent -/

def defaultStats : String := "RATS"

def eidShowUser : UInt32 := 0x01
def eidWhisper : UInt32 := 0x04
def eidTalk : UInt32 := 0x05
def eidChannel : UInt32 := 0x07
def eidWhisperSent : UInt32 := 0x0A
def eidChannelDoesNotExist : UInt32 := 0x0E
def eidInfo : UInt32 := 0x12
def eidError : UInt32 := 0x13

namespace LegacyPeer

def chatEvent (eventId : UInt32) (username text : String) : Peering Unit :=
  onWriter (sendChatEvent eventId username text 0 0)

def sendError (message : String) : Peering Unit := chatEvent eidError "SC2 Gateway" message

end LegacyPeer

open LegacyPeer (chatEvent sendError)

/-- `{:08X}`. -/
def hexDword (value : UInt32) : String :=
  String.join ((toLittleEndian 4 value.toNat).reverse.map hexByte)

/-- `Display` of an error. -/
def displayError : Error → String
  | .bgsWire message => "bgs protocol error: " ++ message
  | .bsnWire message => "bsn protocol error: " ++ message
  | .classicWire message => "classic protocol error: " ++ message
  | .metadata message => "metadata error: " ++ message
  | .authentication message => "authentication error: " ++ message
  | .native message => "native protocol error: " ++ message
  | .unmappedNativeRoute slot command =>
    s!"unsupported native record route slot={slot} command={command}"
  | .nativeResumeRejected errorCode wait =>
    s!"native Battle.net resume was rejected (error={errorCode} wait={wait})"
  | .incompleteFrame message => "incomplete frame: " ++ message
  | .server message => "server rejected the request: " ++ message
  | .transport message => "transport error: " ++ message
  | .io message => message
  | .protobufDecode message => message
  | .url message => message

/-- `channel_view`. -/
def channelView (channel : ChannelSnapshot) : ChannelView where
  index := channel.index
  label := channel.label
  users := channel.users.foldl (fun users user => users.insert user.handle ⟨user.name⟩) ∅

/-- `send_channel_snapshot`. -/
def sendChannelSnapshot (toonName : String) : Serving Unit := do
  let c ← read
  match c.session.activeChannel.map channelView with
  | none => onPeer (sendError "The SC2 session has no active channel.")
  | some current =>
    onPeer (chatEvent eidChannel toonName current.label)
    each (fun user => onPeer (chatEvent eidShowUser user.name defaultStats))
      (current.users.toList.map Prod.snd)
    setView (some current)

/-! ## Friends -/

def friendStatusMutual : UInt8 := 0x01
def friendStatusDnd : UInt8 := 0x02
def friendStatusAway : UInt8 := 0x04
def friendLocationOffline : UInt8 := 0x00
def friendLocationNotInChat : UInt8 := 0x01
def friendLocationPublicGame : UInt8 := 0x03
def productStar : UInt32 := 0x53544152

def legacyFriend (friend : Friend) : FriendEntry :=
  let (status, location, product, locationName) := match friend.presence with
    | .available => (friendStatusMutual, friendLocationNotInChat, productStar, "Battle.net")
    | .away => (friendStatusMutual ||| friendStatusAway, friendLocationNotInChat, productStar,
        "Battle.net (Away)")
    | .busy => (friendStatusMutual ||| friendStatusDnd, friendLocationNotInChat, productStar,
        "Battle.net (Busy)")
    | .inGame => (friendStatusMutual, friendLocationPublicGame, productStar, "StarCraft II")
    | .offline | .unknown => (friendStatusMutual, friendLocationOffline, 0, "")
  { name := friend.name, status, location, product, locationName }

def legacyFriends (session : Session) : List FriendEntry :=
  (session.friends.take 255).map legacyFriend

def sendFriendsSnapshot : Serving Unit := do
  let c ← read
  let friends := legacyFriends c.session
  onPeer (LegacyPeer.onWriter (sendFriendsList friends))
  change fun c => { c with state := { c.state with friendView := some friends } }

/-! ## Joining -/

def normalizeChannelName (channel : String) : Except String String :=
  let channel := channel.toList.take 31
  if channel.any isControl then .error "Channel names cannot contain control characters."
  else .ok (String.ofList channel)

/-- A join that the session refuses is told to the client. -/
def joinOrTell (join : Stateful Session Error Unit) (text : String) : Serving Unit := do
  match ← attemptSession join with
  | .error error => onPeer (sendError (text ++ displayError error))
  | .ok () => pure ()

def handleJoinRequest (toonName : String) (flags : UInt32) (channel : String) : Serving Unit :=
  match normalizeChannelName channel with
  | .error message => onPeer (sendError message)
  | .ok channel => do
    let c ← read
    if flags = 0 then
      -- a probe must not create a channel
      if c.state.channelView.any fun current => eqIgnoreAsciiCase current.label channel then
        sendChannelSnapshot toonName
      else onPeer (chatEvent eidChannelDoesNotExist "Battle.net" channel)
    else if flags = 1 ∨ flags = 5 then
      if c.session.activeChannel.isSome then sendChannelSnapshot toonName
      else joinOrTell Session.joinDefault "Could not join the default channel: "
    else if flags = 2 then joinOrTell (Session.join channel) "Could not join channel: "
    else onPeer (sendError s!"Unsupported SID_JOINCHANNEL flags 0x{hexDword flags}.")

def handleJoinCommand (requested : String) : Serving Unit :=
  match normalizeChannelName requested with
  | .error message => onPeer (sendError message)
  | .ok channel => joinOrTell (Session.join channel) "Could not join channel: "

/-! ## Chat commands -/

/-- `split_command`: `split_once(char::is_whitespace)`, and the rest trimmed. -/
def splitCommand (command : String) : String × String :=
  match command.toList.span fun c => !isWhitespace c with
  | (_, []) => (command, "")
  | (name, _ :: argument) => (String.ofList name, trim (String.ofList argument))

def whoamiMessage (toonName : String) : String :=
  "You are " ++ toonName ++ ", using StarCraft SC2"

/-- Text that is sent to the channel, or told to be refused. -/
def sendOrTell (body text : String) : Serving Unit := do
  match ← attemptSession (Session.sendMessage body) with
  | .error error => onPeer (sendError (text ++ displayError error))
  | .ok () => pure ()

def handleWhisper (argument : String) : Serving Unit := do
  let (target, body) := splitCommand argument
  match ← attemptSession (Session.sendWhisper target body) with
  | .error error => onPeer (sendError ("Whisper was not sent: " ++ displayError error))
  | .ok () => pure ()

def handleWho : Serving Unit := do
  let c ← read
  if c.state.channelView.isNone then onPeer (sendError "Join a channel first.")
  else
    let names := c.session.activeChannel.elim "" fun channel =>
      ", ".intercalate (channel.users.map User.name)
    onPeer (chatEvent eidInfo "SC2 Gateway" names)

def handleEmote (toonName argument : String) : Serving Unit := do
  let c ← read
  if c.state.channelView.isNone then
    onPeer (sendError "Join a channel before sending an emote.")
  else if argument = "" then onPeer (sendError "Emote text cannot be empty.")
  else sendOrTell ("* " ++ toonName ++ " " ++ argument ++ " *") "Emote was not sent: "

def handleRejoin (toonName : String) : Serving Unit := do
  let c ← read
  if c.state.channelView.isSome then sendChannelSnapshot toonName
  else onPeer (sendError "Join a channel first.")

/-- A command behind its slash. -/
def handleSlashCommand (toonName command : String) : Serving Unit :=
  let (name, argument) := splitCommand command
  let name := toAsciiLowercase name
  if name ∈ ["join", "j", "channel"] then handleJoinCommand argument
  else if name = "rejoin" then handleRejoin toonName
  else if name ∈ ["who", "users"] then handleWho
  else if name ∈ ["whoami", "where", "whereis"] then
    onPeer (chatEvent eidInfo "Battle.net" (whoamiMessage toonName))
  else if name ∈ ["w", "whisper", "msg"] then handleWhisper argument
  else if name ∈ ["me", "emote"] then handleEmote toonName argument
  else if name = "help" then
    onPeer (chatEvent eidInfo "SC2 Gateway" "Supported: /join, /rejoin, /who, /whisper, /me")
  else onPeer (sendError "That slash command is not supported by the SC2 gateway.")

def handleChatCommand (toonName command : String) : Serving Unit :=
  match (trim command).toList with
  | '/' :: command => handleSlashCommand toonName (String.ofList command)
  | _ => do
    let c ← read
    if c.state.channelView.isNone then
      onPeer (sendError "Join a channel before sending a message.")
    else sendOrTell (trim command) "Message was not sent: "

/-! ## Actions -/

/-- `handle_action`. -/
def handleAction (action : Action) : Serving Unit := do
  let c ← read
  match action with
  | .enterChat _ => do
    onPeer (LegacyPeer.onWriter (sendEnterChat c.state.toonName defaultStats))
    change fun c => { c with state := { c.state with enteredChat := true } }
  | .requestChannelList =>
    onPeer (LegacyPeer.onWriter (sendChannelList c.session.channelNames))
  | .joinChannel flags channel =>
    if c.state.enteredChat then handleJoinRequest c.state.toonName flags channel
    else onPeer (sendError "Enter chat before joining a channel.")
  | .leaveChat => do
    change fun c => { c with session := (Session.leaveActiveChannel c.session).2 }
    setView none
  | .chatCommand command =>
    if c.state.enteredChat then handleChatCommand c.state.toonName command
    else onPeer (sendError "Log in as the selected SC2 toon before entering chat.")
  | .requestFriendsList => sendFriendsSnapshot
  | .pong _ => pure ()
  | .udpCapability _ => pure ()

/-! ## Events -/

/-- `ClientEvent`. The events that the gateway does nothing with are one. -/
inductive ClientEvent where
  | stage (stage : ConnectionStage)
  | chat (event : Sc2.ChatEvent)
  | commandError (message : String)
  | error (message : String)
  | other

/-- `handle_client_event`. -/
def Session.handleClientEvent (event : ClientEvent) : Stateful Session Error (Option Event) :=
  match event with
  | .stage .disconnected => fail (.transport "SC2 session disconnected")
  | .stage _ => pure none
  | .chat event => take (Session.applyChat event)
  | .commandError message => pure (some (.error message))
  | .error message => fail (.transport message)
  | .other => pure none

/-- `poll`, of the events that are there. -/
def Session.poll : List ClientEvent → Stateful Session Error (List Event)
  | [] => pure []
  | event :: events => do
    let output ← Session.handleClientEvent event
    let outputs ← Session.poll events
    return output.toList ++ outputs

def relayEvent (toonName : String) (event : Event) : Serving Unit :=
  match event with
  | .joined _ => sendChannelSnapshot toonName
  | .rosterChanged _ | .memberJoined _ _ | .memberLeft _ _ | .friendsChanged => pure ()
  | .message channelIndex sender body outgoing => do
    let c ← read
    if outgoing then pure ()
    else if c.state.channelView.any fun channel => channel.index = channelIndex then
      onPeer (chatEvent eidTalk sender.name body)
    else pure ()
  | .whisper whisperPeer body outgoing =>
    onPeer (chatEvent (if outgoing then eidWhisperSent else eidWhisper) whisperPeer body)
  | .error message => onPeer (sendError message)

/-! ## The loop -/

/-- A packet of the client. -/
def servePacket (m : Moment) (p : Packet) : Serving Unit := do
  let actions ← onPeer (LegacyPeer.handle m p)
  each handleAction actions

/-- A client that has not entered chat is not told of any event. -/
def relayEvents (outputs : List Event) : Serving Unit := do
  let c ← read
  if c.state.enteredChat then each (relayEvent c.state.toonName) outputs else pure ()

def keepalive (m : Moment) : Serving Unit := do
  let _ ← onPeer (LegacyPeer.serviceKeepalive m)
  pure ()

/-- A poll of the session, and the keep-alive behind it. -/
def servePoll (m : Moment) (events : List ClientEvent) : Serving Unit := do
  match ← attemptSession (Session.poll events) with
  | .error error => fail (.upstream error)
  | .ok outputs => do
    relayEvents outputs
    keepalive m

/-- What a round of the loop finds. -/
inductive Input where
  | packet (m : Moment) (p : Packet)
  | poll (m : Moment) (events : List ClientEvent)

def serve : Input → Serving Unit
  | .packet m p => servePacket m p
  | .poll m events => servePoll m events

/-- A client as it is served, until an error. -/
structure Client where
  connection : Connection
  ended : Option ServeError := none

namespace Client

/-- `run_client_session`, when the session has been connected. -/
def start (session : Session) (now : Nat) : Client where
  connection := {
    session
    peer := LegacyPeer.new now session.toonName
    state := { toonName := session.toonName } }

def step (client : Client) (input : Input) : Client :=
  if client.ended.isSome then client
  else
    match serve input client.connection with
    | (.ok (), connection) => { connection }
    | (.error error, connection) => { connection, ended := some error }

end Client

end Superiority.Gateway
