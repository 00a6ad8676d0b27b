import Superiority.Live.Tap

/-!
# The uplink worker

`uplink/mod.rs`, the side of the worker thread: the sinks of the sessions, and what the loop does
with them. One round of the loop takes a message, flushes every sink and prunes; the parts are
separate steps here, since the other threads run in between.
-/

namespace Superiority

open Std

/-! ## The world outside -/

/-- The environment variables and the URL check of `validate_endpoint`. -/
structure Environment where
  endpoint : Option String := none
  token : Option String := none
  validateEndpoint : String → Except String Unit

/-- `DEFAULT_ENDPOINT_BASE`. -/
def defaultEndpointBase : String := "https://live.superioritybot.com"

/-- `trim_end_matches('/')`. -/
def trimEndSlashes (s : String) : String :=
  String.ofList (s.toList.reverse.dropWhile (· = '/')).reverse

/-- `endpoint_base`. -/
def UplinkConfig.base (c : UplinkConfig) (env : Environment) : String :=
  trimEndSlashes (env.endpoint.getD (c.endpointBase.getD defaultEndpointBase))

/-- `effective_token`. -/
def UplinkConfig.effectiveToken (c : UplinkConfig) (env : Environment) : Option String :=
  match env.token with
  | some value => if value ≠ "" then some value else c.token
  | none => c.token

/-- The result of `post_json`: accepted, or a `PostError`. -/
inductive PostAnswer where
  | accepted
  | retryable (message : String)
  | rejected (message : String)
  | fatal (message : String)
  | unauthorized
  deriving DecidableEq, Repr

/-- What a flush is given from outside: the instants it reads, the answer to its POST and the
jitter of its backoff. -/
structure Attempt where
  now : Nat
  takenAt : Nat
  restoredAt : Nat
  answer : PostAnswer
  jittered : Nat → Nat := id

/-! ## Sinks -/

/-- `SessionSink`. -/
structure SessionSink where
  info : SessionMeta
  batcher : Batcher := {}
  ended : Bool := false
  deriving DecidableEq, Repr

/-- The state of the worker's loop. -/
structure Worker where
  sessions : ExtTreeMap String SessionSink := ∅
  backoff : Backoff := {}
  nextAttempt : Nat := 0

/-- `FlushOutcome`. -/
inductive FlushOutcome where
  | nothingDue | sent | deferred | dropped
  deriving DecidableEq, Repr

/-- The worker together with what it shares. -/
abbrev Working := Worker × Uplink

namespace Worker

/-- `Ok(TapMessage::Session(meta))`. -/
def receiveSession (info : SessionMeta) (w : Worker) : Worker :=
  { w with
    sessions := w.sessions.insert info.id (match w.sessions[info.id]? with
      | some sink => { sink with info }
      | none => { info }) }

/-- `Ok(TapMessage::Event { session, dto })`: an event of an unknown session goes nowhere. -/
def receiveEvent (session : String) (dto : EventDto) (now : Nat) (s : Working) : Working :=
  let (w, u) := s
  match w.sessions[session]? with
  | none => s
  | some sink =>
    let pushed := sink.batcher.push dto now
    ({ w with
        sessions := w.sessions.insert session
          { sink with ended := sink.ended || dto.kind = .sessionEnded, batcher := pushed.2 } },
      { u.noteDropped pushed.1 with
        trace := { u.trace with
          discarded := u.trace.discarded ++
            (sink.batcher.pending.take pushed.1).map (session, ·) } })

/-- Takes the next message off the channel. -/
def receive (now : Nat) (s : Working) : Working :=
  match s.2.channel with
  | [] => s
  | .session info :: channel => (receiveSession info s.1, { s.2 with channel })
  | .event session dto :: channel => receiveEvent session dto now (s.1, { s.2 with channel })

/-- `note_batch_dropped`. -/
def noteBatchDropped (session : String) (batch : List EventDto) (u : Uplink) : Uplink :=
  { u.noteDropped batch.length with
    trace := { u.trace with discarded := u.trace.discarded ++ batch.map (session, ·) } }

/-- An accepted batch, which `note_sent` counts. -/
def noteSent (session : String) (batch : List EventDto) (u : Uplink) : Uplink :=
  { u with
    stats := { u.stats with sent := u.stats.sent + batch.length, lastError := none }
    trace := { u.trace with delivered := u.trace.delivered ++ batch.map (session, ·) } }

def setLastError (error : String) (u : Uplink) : Uplink :=
  { u with stats := { u.stats with lastError := some error } }

/-- The feed's token was refused: a new identity will be registered. -/
def forgetIdentity (u : Uplink) : Uplink :=
  { u with
    config := u.config.forgetIdentity
    stats := { u.stats with
      feedUrl := none
      lastError := some "The previous Live link expired. Generating a new link…" } }

variable (env : Environment)

/-- What `flush` does with the batch it took: it goes out, back into the batcher, or down. -/
def post (a : Attempt) (session : String) (batch : List EventDto) (batcher : Batcher)
    (s : Working) : FlushOutcome × Batcher × Working :=
  let (w, u) := s
  let restored := batcher.restore batch a.restoredAt
  if !u.config.enabled then (.dropped, batcher, w, noteBatchDropped session batch u)
  else if (u.config.effectiveToken env).isNone then
    (.deferred, restored, { w with nextAttempt := a.now + 1000 }, u)
  else match env.validateEndpoint (u.config.base env) with
    | .error error =>
      (.dropped, batcher, w, noteBatchDropped session batch (setLastError error u))
    | .ok () =>
      match a.answer with
      | .accepted =>
        (.sent, batcher, { w with backoff := w.backoff.reset, nextAttempt := a.now },
          noteSent session batch u)
      | .retryable message =>
        let backoff := w.backoff.noteFailure
        (.deferred, restored,
          { w with backoff, nextAttempt := a.now + a.jittered backoff.delay },
          setLastError message u)
      | .rejected message | .fatal message =>
        (.dropped, batcher, w, noteBatchDropped session batch (setLastError message u))
      | .unauthorized =>
        (.deferred, restored,
          { w with backoff := w.backoff.reset, nextAttempt := a.now + 1000 }, forgetIdentity u)

/-- The batch `flush` takes, if one is due. -/
def takeDue (a : Attempt) (force : Bool) (w : Worker) (b : Batcher) :
    Option (List EventDto) × Batcher :=
  if force then
    let (batch, b) := b.takeNow a.takenAt
    (if batch = [] then none else some batch, b)
  else if a.now < w.nextAttempt then (none, b)
  else match b.takeBatch a.now a.takenAt with
    | none => (none, b)
    | some (batch, b) => (some batch, b)

/-- `flush`, for the sink of one session. -/
def flush (a : Attempt) (force : Bool) (session : String) (s : Working) :
    FlushOutcome × Working :=
  match s.1.sessions[session]? with
  | none => (.nothingDue, s)
  | some sink =>
    let (batch, batcher) := takeDue a force s.1 sink.batcher
    let (outcome, batcher, w, u) := match batch with
      | none => (FlushOutcome.nothingDue, batcher, s)
      | some batch => post env a session batch batcher s
    (outcome, { w with sessions := w.sessions.insert session { sink with batcher } }, u)

/-- `sessions.retain(…)`. -/
def prune (w : Worker) : Worker :=
  { w with sessions := w.sessions.filter fun _ sink => !(sink.ended && sink.batcher.isEmpty) }

/-- The loop of `shutdown_flush_all` for one sink: it flushes until the deadline or until
something does not go out. -/
def flushUntil (session : String) : List Attempt → Working → Working
  | [], s => s
  | a :: attempts, s =>
    let (outcome, s) := flush env a true session s
    if outcome = .sent then flushUntil session attempts s else s

/-- `drain_as_dropped`. -/
def drainAsDropped (session : String) (s : Working) : Working :=
  match s.1.sessions[session]? with
  | none => s
  | some sink =>
    ({ s.1 with sessions := s.1.sessions.insert session { sink with batcher := {} } },
      noteBatchDropped session sink.batcher.pending s.2)

/-- `shutdown_flush_all`, with the attempts that the deadline leaves for each session. -/
def shutdown (attempts : String → List Attempt) (s : Working) : Working :=
  s.1.sessions.keys.foldl
    (fun s session => drainAsDropped session (flushUntil env session (attempts session) s)) s

end Worker

/-! ## The whole uplink -/

/-- The taps of the connections, what the threads share, and the worker. -/
structure UplinkSystem where
  taps : List SessionTap := []
  uplink : Uplink := {}
  worker : Worker := {}
  running : Bool := true

/-- A step of some thread. A step of a tap brings the times of its events and the room its sends
will find. -/
inductive UplinkAct where
  | beginSession (id clientVersion : String) (startedAt : Nat) (channels : List ChatChannel)
      (clock : Nat → Nat) (room : List Bool)
  | tap (i : Nat) (op : SessionTap.Op) (clock : Nat → Nat) (room : List Bool)
  | dropTap (i : Nat) (clock : Nat → Nat) (room : List Bool)
  | setConfig (config : UplinkConfig)
  | receive (now : Nat)
  | flush (session : String) (a : Attempt)
  | prune
  | shutdown (attempts : String → List Attempt)

namespace UplinkSystem

def working (s : UplinkSystem) : Working := (s.worker, s.uplink)

def withWorking (s : UplinkSystem) (w : Working) : UplinkSystem :=
  { s with worker := w.1, uplink := w.2 }

/-- Lets a tap act. -/
def act (s : UplinkSystem) (i : Nat) (room : List Bool) (f : Tapped → Tapped) : UplinkSystem :=
  match s.taps[i]? with
  | none => s
  | some tap =>
    let (tap, u) := f (tap, { s.uplink with room })
    { s with taps := s.taps.set i tap, uplink := u }

variable (env : Environment)

/-- A step while the worker runs. It shuts down when no tap is left and the channel is empty. -/
def stepRunning (s : UplinkSystem) : UplinkAct → UplinkSystem
  | .beginSession id clientVersion startedAt channels clock room =>
    let (tap, u) := SessionTap.beginSession clock id clientVersion startedAt channels
      { s.uplink with room }
    { s with taps := s.taps ++ [tap], uplink := u }
  | .tap i op clock room => s.act i room (SessionTap.perform clock op)
  | .dropTap i clock room =>
    let s := s.act i room (SessionTap.endSession clock)
    { s with taps := s.taps.eraseIdx i }
  | .setConfig config => { s with uplink := { s.uplink with config } }
  | .receive now => s.withWorking (Worker.receive now s.working)
  | .flush session a => s.withWorking (Worker.flush env a false session s.working).2
  | .prune => { s with worker := s.worker.prune }
  | .shutdown attempts =>
    if s.taps = [] ∧ s.uplink.channel = [] then
      { s.withWorking (Worker.shutdown env attempts s.working) with running := false }
    else s

def step (s : UplinkSystem) (a : UplinkAct) : UplinkSystem :=
  if s.running then s.stepRunning env a else s

end UplinkSystem

end Superiority
