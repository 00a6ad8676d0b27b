import Superiority.Error

/-!
# A client of the native binding

The host calls the client; the client's worker connects, and when it is challenged it queues an
event for the host and waits for an answer on a channel of its own. The end of the channel that
answers is in the event, and the host's poll parks it in the client's slot.

A session is a StarCraft II session. Attempts to connect are numbered by the calls that asked for
them, and a command that ends a session carries the number of connections asked for before it; the
numbers tell the attempts apart and nothing is decided by them. A reply channel is named by its
attempt, since an attempt that is challenged twice fails.
-/

namespace Superiority.Stimpak

def ok : Int := 0
def errInvalidArgument : Int := -1
def errDisconnected : Int := -2
def errNoSuchAuth : Int := -3

def applicationClosed : Error := .transport "application closed"

def authCancelled (detail : String) : Error := .authentication detail

/-- `SecretBytes::new`. -/
def secretBytes (value : List UInt8) : Except Error (List UInt8) :=
  if value = [] then .error (.bgsWire "secret byte string cannot be empty") else .ok value

abbrev Answer := Except Error (List UInt8)

inductive Command where
  | connect (attempt : Nat)
  | disconnect (asked : Nat)
  | signOut (asked : Nat)
  | quit
  | other
  deriving DecidableEq

inductive Event where
  | authentication (attempt : Nat)
  | error (error : Error)
  | disconnected
  | other
  deriving DecidableEq

inductive Worker where
  | idle
  | connecting (attempt : Nat) (challenged : Bool)
  /-- Blocked on the reply channel, with what is in it. -/
  | awaiting (attempt : Nat) (reply : Option Answer)
  | live (attempt : Nat)
  | finished

structure Client where
  commands : List Command
  events : List Event
  /-- The parked reply, under its id. -/
  pending : Option (Nat × Nat)
  nextAuth : Nat
  worker : Worker
  /-- How many connections were asked for. -/
  asked : Nat
  closed : Bool

namespace Client

def open_ : Client where
  commands := []
  events := []
  pending := none
  nextAuth := 1
  worker := .idle
  asked := 0
  closed := false

/-! ## The worker -/

/-- An event that nobody can receive any more is dropped. -/
def emit (client : Client) (event : Event) : Client :=
  if client.closed then client else { client with events := client.events ++ [event] }

def fail (client : Client) (error : Error) : Client :=
  ({ client with worker := .idle }.emit (.error error)).emit .disconnected

/-- Somebody can still answer the attempt. -/
def hasSender (client : Client) (attempt : Nat) : Bool :=
  client.events.contains (.authentication attempt) ||
    client.pending.any fun parked => parked.2 == attempt

inductive WorkerStep where
  /-- The worker reads its next command, if it is where it reads one. -/
  | next
  | challenge
  | resume
  | signedIn
  | fails (error : Error)

/-- A command that `run_worker` reads. -/
def takeIdle (client : Client) : Command → Client
  | .connect attempt => { client with worker := .connecting attempt false }
  | .signOut _ => client.emit .disconnected
  | .quit => { client with worker := .finished }
  | .disconnect _ | .other => client

/-- A command that `run_live` reads. -/
def takeLive (client : Client) : Command → Client
  | .disconnect _ | .signOut _ => { client with worker := .idle }.emit .disconnected
  | .quit => client.fail applicationClosed
  | .connect _ | .other => client

def next (client : Client) : Client :=
  match client.worker, client.commands with
  | .idle, [] => if client.closed then { client with worker := .finished } else client
  | .idle, command :: rest => { client with commands := rest }.takeIdle command
  | .live _, [] => if client.closed then client.fail applicationClosed else client
  | .live _, command :: rest => { client with commands := rest }.takeLive command
  | _, _ => client

/-- The browser closure up to the wait, and the second challenge that a sign-in refuses. -/
def challenge (client : Client) : Client :=
  match client.worker with
  | .connecting attempt false =>
    if client.closed then client.fail applicationClosed else
      { client with worker := .awaiting attempt none }.emit (.authentication attempt)
  | .connecting _ true =>
    client.fail (.server "Battle.net issued more than one web challenge")
  | _ => client

def resume (client : Client) : Client :=
  match client.worker with
  | .awaiting attempt (some (.ok _)) => { client with worker := .connecting attempt true }
  | .awaiting _ (some (.error error)) => client.fail error
  | .awaiting attempt none =>
    if client.hasSender attempt then client else client.fail applicationClosed
  | _ => client

def work (client : Client) : WorkerStep → Client
  | .next => client.next
  | .challenge => client.challenge
  | .resume => client.resume
  | .signedIn =>
    match client.worker with
    | .connecting attempt _ => { client with worker := .live attempt }
    | _ => client
  | .fails error =>
    match client.worker with
    | .connecting _ _ | .live _ => client.fail error
    | _ => client

/-! ## The host's calls -/

def send (client : Client) (command : Command) : Int × Client :=
  match client.worker with
  | .finished => (errDisconnected, client)
  | _ => (ok, { client with commands := client.commands ++ [command] })

/-- `reply.send`: the worker reads the first answer. -/
def reply (client : Client) (attempt : Nat) (answer : Answer) : Int × Client :=
  match client.worker with
  | .awaiting waiting none =>
    if waiting = attempt then (ok, { client with worker := .awaiting waiting (some answer) })
    else (errDisconnected, client)
  | .awaiting waiting (some _) => (if waiting = attempt then ok else errDisconnected, client)
  | _ => (errDisconnected, client)

/-- The parked reply that a call with the id takes; without an id, whichever is parked. -/
def parked (client : Client) (id : Option Nat) : Option (Nat × Nat) :=
  client.pending.filter fun waiting => id.all (waiting.1 == ·)

def answerParked (client : Client) (id : Option Nat) (answer : Answer) : Int × Client :=
  match client.parked id with
  | none => (errNoSuchAuth, client)
  | some waiting => { client with pending := none }.reply waiting.2 answer

def cancelPendingAuth (client : Client) (detail : String) : Int × Client :=
  client.answerParked none (.error (authCancelled detail))

def connect (client : Client) : Int × Client :=
  { client with asked := client.asked + 1 }.send (.connect (client.asked + 1))

inductive Stop where
  | disconnect
  | signOut
  deriving DecidableEq

def Stop.detail : Stop → String
  | disconnect => "connection cancelled"
  | signOut => "sign-in cancelled by sign-out"

def Stop.command (asked : Nat) : Stop → Command
  | disconnect => .disconnect asked
  | signOut => .signOut asked

/-- `stimpak_client_disconnect` and `stimpak_client_sign_out`. The worker goes on between the
cancellation and the command. -/
def stop (client : Client) (kind : Stop) (meanwhile : List WorkerStep) : Int × Client :=
  (meanwhile.foldl work (client.cancelPendingAuth kind.detail).2).send (kind.command client.asked)

/-- A token that is null or no text is refused. -/
def submitAuth (client : Client) (id : Nat) (token : Option (List UInt8)) : Int × Client :=
  match token with
  | none => (errInvalidArgument, client)
  | some token => client.answerParked (some id) (secretBytes token)

def cancelAuth (client : Client) (id : Nat) : Int × Client :=
  client.answerParked (some id) (.error (authCancelled "sign-in cancelled by host"))

/-- The event that is reported, with its auth id; an event without one has 0. -/
def poll (client : Client) : Option (Event × Nat) × Client :=
  match client.events with
  | [] => (none, client)
  | .authentication attempt :: rest =>
    (some (.authentication attempt, client.nextAuth), { client with
      events := rest
      pending := some (client.nextAuth, attempt)
      nextAuth := client.nextAuth + 1 })
  | event :: rest => (some (event, 0), { client with events := rest })

/-- The client is gone after it; its queues stay for the worker. -/
def close (client : Client) : Client :=
  let answered := (client.cancelPendingAuth "client closed during sign-in").2
  { (answered.send .quit).2 with events := [], closed := true }

end Client

end Superiority.Stimpak
