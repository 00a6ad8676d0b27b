import Superiority.Sc2.Model
import Superiority.Wc3.Announced
import Superiority.Wc3.Halls

/-!
# A live Warcraft III session

The worker's loop and the desktop it reports to. The worker drains the commands, publishes the halls
whose snapshots have changed, polls the connection and publishes again; the desktop applies every
report in its order. Between any two steps of the worker the user may close, choose or move a tab or
ask for something, and nothing is known of how the service answers.

Beside the state the machine keeps three things that no code reads: whether the worker has done
nothing since it last published, the halls that events have opened since, and the leave that was
answered in the latest step.
-/

namespace Superiority.Wc3

/-- `ClientCommand`, as far as this loop tells the commands apart. -/
inductive LiveCommand where
  | disconnect
  | signOut
  | installCredential
  | quit
  | joinWarcraft (channel : String)
  | sendMessage (channelIndex : UInt8) (body : String)
  | leaveChannel (channelIndex : UInt8)
  | sendWhisper (target : Sc2.WhisperTarget) (body : String)
  | other

/-- Where the worker stands. -/
inductive Stage where
  /-- Before the session is handed to the loop. -/
  | connecting
  | draining
  | publishing
  | polling
  | republishing
  | ended
  deriving DecidableEq

structure LiveSession where
  session : ClassicSession
  /-- The events of the start, not reported yet. -/
  initialEvents : List ChatEvent
  lastChannels : List ChatChannel
  commands : List LiveCommand
  ui : Wc3SessionUi
  stage : Stage
  published : Bool
  opened : List (UInt8 × String)
  /-- The hall of the leave, whether it was announced before it, and whether it was accepted. -/
  answered : Option (UInt8 × Bool × Bool)

/-- What the worker meets in a step, and what the user does. -/
inductive Action where
  | close (index : Nat)
  | select (index : Nat)
  | reorder (start stop : Nat)
  /-- Any command but a leave, which only closing a tab sends. -/
  | send (command : LiveCommand)
  | dispatchQueued (refreshed : List Callback)
  | joinFirst (reply : Reply)
  /-- The next command, or the end of the commands; what comes of it if it asks for anything. -/
  | take (reply : Reply) (stored : Except Error Unit) (time : String)
  | publish (time : String)
  | poll (arrival : Arrival) (time : String)

namespace LiveSession

def initial (publicChannels : List (List UInt8)) (callbacks : List Callback) : LiveSession where
  session := .established publicChannels callbacks
  initialEvents := []
  lastChannels := []
  commands := []
  ui := .new
  stage := .connecting
  published := false
  opened := []
  answered := none

/-- The halls whose closing waits for the worker. -/
def closing (m : LiveSession) : List UInt8 := m.commands.filterMap fun command =>
  match command with
  | .leaveChannel id => some id
  | _ => none

/-! ## Reports -/

/-- The halls that are opened, with the names of their events. -/
def noteOpened (opened : List (UInt8 × String)) : ChatEvent → List (UInt8 × String)
  | .channelJoined id name _ => (id, name) :: opened.filter (·.1 ≠ id)
  | .channelLeft id => opened.filter (·.1 ≠ id)
  | _ => opened

/-- `emit_warcraft_events`, and the desktop that applies them. -/
def emitEvents (m : LiveSession) (events : List ChatEvent) (time : String) : LiveSession :=
  { m with
    ui := events.foldl (·.appendEvent · time) m.ui
    opened := events.foldl noteOpened m.opened }

def commandError (m : LiveSession) (reason : Error ⊕ String) (time : String) : LiveSession :=
  { m with ui := m.ui.appendError time reason }

/-- Whether a snapshot is not the one published before under its id. -/
def changed (m : LiveSession) (channel : ChatChannel) : Bool :=
  !m.lastChannels.any fun prior => prior.id = channel.id ∧ prior = channel

/-- `publish_warcraft_channels`, and the desktop that applies the snapshots. -/
def publish (m : LiveSession) (time : String) : LiveSession :=
  let current := m.session.chat.announcedChannels
  { m with
    ui := (current.filter m.changed).foldl (·.applyChannel · time) m.ui
    lastChannels := current
    published := true
    opened := [] }

/-! ## The worker -/

variable (casing : Casing)

/-- The events of a request are reported, or its error. -/
def report (m : LiveSession) (outcome : Except Error (List ChatEvent) × ClassicSession)
    (time : String) : LiveSession :=
  let m := { m with session := outcome.2 }
  match outcome.1 with
  | .ok activity => m.emitEvents activity time
  | .error error => m.commandError (.inl error) time

def leaveChannel (m : LiveSession) (id : UInt8) (reply : Reply) (time : String) : LiveSession :=
  let outcome := m.session.leave casing id reply
  let m := { m with answered := some (id, id ∈ m.session.chat.openIds, outcome.1.toOption.isSome) }
  match outcome.1 with
  | .ok _ => m.report outcome time
  | .error _ =>
    let m := { m with lastChannels := m.lastChannels.filter (·.id ≠ id) }
    m.report outcome time

/-- One round of the inner loop. -/
def take (m : LiveSession) (reply : Reply) (stored : Except Error Unit) (time : String) :
    LiveSession :=
  match m.commands with
  | [] => { m with stage := .publishing }
  | command :: commands =>
    let m := { m with commands := commands, published := false }
    match command with
    | .disconnect | .signOut | .quit => { m with stage := .ended }
    | .installCredential =>
      match stored with
      | .ok () => m
      | .error _ => { m with stage := .ended }
    | .joinWarcraft channel => m.report (m.session.joinNamed casing channel reply) time
    | .sendMessage id body => m.report (m.session.sendMessageTo casing id body reply) time
    | .leaveChannel id => m.leaveChannel casing id reply time
    | .sendWhisper (.warcraftAccount accountId) body =>
      m.report (m.session.sendWhisper casing accountId body reply) time
    | .sendWhisper _ _ => m.commandError
        (.inr "WC3 whisper target has no AuroraFriends account identity") time
    | .other => { m with stage := .publishing }

/-- What is heard while the session starts is reported when it has started. -/
def gather (m : LiveSession) (outcome : Except Error (List ChatEvent) × ClassicSession) :
    LiveSession :=
  let m := { m with session := outcome.2 }
  match outcome.1 with
  | .ok events => { m with initialEvents := m.initialEvents ++ events }
  | .error _ => { m with stage := .ended }

def pollStarting (m : LiveSession) (arrival : Arrival) : LiveSession :=
  let outcome := m.session.poll casing arrival
  if arrival.failure.isSome ∧ arrival.idle then { m with session := outcome.2 }
  else m.gather outcome

def pollLive (m : LiveSession) (arrival : Arrival) (time : String) : LiveSession :=
  let outcome := m.session.pollStoring casing arrival
  let m := { m with session := outcome.2, published := false }
  match outcome.1 with
  | .ok activity => { m.emitEvents activity time with stage := .republishing }
  | .error _ =>
    { m with stage := if arrival.failure.isSome ∧ arrival.idle then .draining else .ended }

/-- The start is reported, and the session is handed to the loop. -/
def start (m : LiveSession) (time : String) : LiveSession :=
  let m := { m.emitEvents m.initialEvents time with initialEvents := [] }
  { m.publish time with stage := .draining }

/-! ## The user -/

def closeTab (m : LiveSession) (index : Nat) : LiveSession :=
  match m.ui.removeChannel index with
  | (none, _) => m
  | (some id, ui) => { m with ui := ui, commands := m.commands ++ [.leaveChannel id] }

/-! ## Runs -/

def act (m : LiveSession) : Action → LiveSession
  | .close index => m.closeTab index
  | .select index => { m with ui := m.ui.selectChannel index }
  | .reorder start stop => { m with ui := m.ui.reorder start stop }
  | .send command =>
    match command with
    | .leaveChannel _ => m
    | command => { m with commands := m.commands ++ [command] }
  | .dispatchQueued refreshed =>
    if m.stage = .connecting then m.gather (m.session.dispatchQueued casing refreshed) else m
  | .joinFirst reply =>
    if m.stage = .connecting then m.gather (m.session.join casing 0 reply) else m
  | .take reply stored time =>
    if m.stage = .draining then m.take casing reply stored time else m
  | .publish time =>
    match m.stage with
    | .connecting => m.start time
    | .publishing => { m.publish time with stage := .polling }
    | .republishing => { m.publish time with stage := .draining }
    | _ => m
  | .poll arrival time =>
    match m.stage with
    | .connecting => m.pollStarting casing arrival
    | .polling => m.pollLive casing arrival time
    | _ => m

/-- An action, after which only its own leave counts as answered. -/
def step (m : LiveSession) (action : Action) : LiveSession :=
  { m with answered := none }.act casing action

end LiveSession

end Superiority.Wc3
