import Superiority.Live.Batcher

/-!
# The tap

`uplink/mod.rs`, the side of the network thread: `SessionTap` projects chat events and puts them
on the bounded channel to the uplink worker without ever blocking. What a tap shares with the
other threads is one record, `Uplink`; a function of the tap takes the tap and that record and
gives both back.

Whether the channel has room at the next sends depends on how far the worker has come, so it is
an input here (`room`). The record also traces what becomes of every event; no code reads the
trace.
-/

namespace Superiority

open Std

/-! ## What the threads share -/

/-- `TapMessage`. -/
inductive TapMessage where
  | session (info : SessionMeta)
  | event (session : String) (dto : EventDto)
  deriving DecidableEq, Repr

/-- The event a message carries, with its session. -/
def TapMessage.carried : TapMessage → Option (String × EventDto)
  | session _ => none
  | event id dto => some (id, dto)

/-- `UplinkConfig`. -/
structure UplinkConfig where
  enabled : Bool := false
  endpointBase : Option String := none
  token : Option String := none
  feedId : Option String := none
  deriving DecidableEq, Repr

/-- `forget_identity`. -/
def UplinkConfig.forgetIdentity (c : UplinkConfig) : UplinkConfig :=
  { c with token := none, feedId := none }

/-- `UplinkStats`. -/
structure UplinkStats where
  sent : Nat := 0
  dropped : Nat := 0
  lastError : Option String := none
  feedUrl : Option String := none
  deriving DecidableEq, Repr

/-- What has become of the events: put on the channel, refused by it, part of an accepted POST,
given up by the worker. -/
structure Trace where
  placed : List (String × EventDto) := []
  refused : Nat := 0
  delivered : List (String × EventDto) := []
  discarded : List (String × EventDto) := []

/-- What taps, worker and user interface share. -/
structure Uplink where
  config : UplinkConfig := {}
  stats : UplinkStats := {}
  clubNames : ClubNames := ∅
  channel : List TapMessage := []
  room : List Bool := []
  trace : Trace := {}

namespace Uplink

/-- `note_dropped`. -/
def noteDropped (u : Uplink) (count : Nat) : Uplink :=
  { u with stats := { u.stats with dropped := u.stats.dropped + count } }

/-- `try_send`: whether the message was taken. -/
def trySend (u : Uplink) (message : TapMessage) : Bool × Uplink :=
  if u.room.head?.getD true then
    (true, { u with
      channel := u.channel ++ [message]
      room := u.room.tail
      trace := { u.trace with placed := u.trace.placed ++ message.carried.toList } })
  else
    (false, { u with
      room := u.room.tail
      trace := { u.trace with refused := u.trace.refused + 1 } })

end Uplink

/-! ## Sessions -/

/-- `SessionTap`. -/
structure SessionTap where
  info : SessionMeta
  projector : Projector := {}
  announced : Bool := false
  nextSeq : Nat := 1
  pendingDropped : Nat := 0
  expectedChannels : ExtTreeSet String := ∅
  pendingChannels : ExtTreeSet String := ∅
  resolvedChannels : ExtTreeSet String := ∅
  initialSyncComplete : Bool := false
  ended : Bool := false

/-- A tap together with what it shares. -/
abbrev Tapped := SessionTap × Uplink

namespace SessionTap

-- The time of every event, by sequence number.
variable (clock : Nat → Nat)

/-- Numbers an event and sends it; one that does not fit is counted. -/
def place (kind : EventKind) (s : Tapped) : Bool × Tapped :=
  let (tap, u) := s
  let dto : EventDto := { seq := tap.nextSeq, ts := clock tap.nextSeq, kind }
  let (sent, u) := u.trySend (.event tap.info.id dto)
  let tap := { tap with nextSeq := tap.nextSeq + 1 }
  if sent then (true, tap, u)
  else (false, { tap with pendingDropped := tap.pendingDropped + 1 }, u.noteDropped 1)

/-- `emit_event`: what was lost before is reported first. -/
def emit (kind : EventKind) (s : Tapped) : Tapped :=
  let s :=
    if s.1.pendingDropped > 0 then
      let (sent, s) := place clock (.dropped s.1.pendingDropped) s
      if sent then ({ s.1 with pendingDropped := 0 }, s.2) else s
    else s
  (place clock kind s).2

/-- What `emit` does when nothing was lost before and the channel takes everything. -/
theorem emit_accepted {tap : SessionTap} {u : Uplink} (hpending : tap.pendingDropped = 0)
    (hroom : u.room = []) (kind : EventKind) :
    emit clock kind (tap, u) = ({ tap with nextSeq := tap.nextSeq + 1 }, { u with
      channel := u.channel ++ [.event tap.info.id ⟨tap.nextSeq, clock tap.nextSeq, kind⟩]
      room := []
      trace := { u.trace with
        placed := u.trace.placed ++ [(tap.info.id, ⟨tap.nextSeq, clock tap.nextSeq, kind⟩)] } }) := by
  simp [emit, place, Uplink.trySend, hpending, hroom, TapMessage.carried]

/-- `announce_session`: whether the tap may go on to emit. -/
def announce (s : Tapped) : Bool × Tapped :=
  let (tap, u) := s
  if tap.announced then (true, s)
  else
    let (sent, u) := u.trySend (.session tap.info)
    if sent then (true, emit clock .sessionStarted ({ tap with announced := true }, u))
    else (false, tap, u.noteDropped 1)

/-- `announce_and_emit`. -/
def announceAndEmit (kind : EventKind) (s : Tapped) : Tapped :=
  let (announced, s) := announce clock s
  if announced then emit clock kind s else s

/-- `reconcile`. -/
def reconcile (s : Tapped) : Tapped :=
  let events := s.1.projector.reconciliationEvents none
  if events = [] then s
  else
    let s := announceAndEmit clock .syncStarted s
    let s := events.foldl (fun s kind => emit clock kind s) s
    emit clock .sessionSynced s

/-- Every expected channel has been resolved. -/
def isResolved (tap : SessionTap) : Bool :=
  tap.expectedChannels.toList.all fun identity => tap.resolvedChannels.contains identity

/-- A channel no longer waits for its roster. -/
def resolve (identity : String) (tap : SessionTap) : SessionTap :=
  { tap with
    pendingChannels := tap.pendingChannels.erase identity
    resolvedChannels := tap.resolvedChannels.insert identity }

/-- Reconciles, which completes the initial sync. -/
def completeSync (s : Tapped) : Tapped :=
  let s := reconcile clock s
  ({ s.1 with initialSyncComplete := true }, s.2)

/-- A group name is learned for the sessions to come as well. -/
def shareClubName (event : ChatEvent) (u : Uplink) : Uplink :=
  match event with
  | .groupSummary clubId (some name) => { u with clubNames := u.clubNames.insert clubId name }
  | _ => u

/-- `SessionTap::observe`. -/
def observe (event : ChatEvent) (s : Tapped) : Tapped :=
  let (tap, u) := s
  let u := shareClubName event u
  let (kind, projector) := tap.projector.project event u.config.enabled none
  let tap := { tap with projector }
  match kind with
  | none => (tap, u)
  | some (.roster channel true _ _) =>
    let tap := tap.resolve channel.key
    if tap.initialSyncComplete || tap.isResolved then completeSync clock (tap, u) else (tap, u)
  | some kind => announceAndEmit clock kind (tap, u)

/-- `end_session`. -/
def endSession (s : Tapped) : Tapped :=
  if s.1.announced && !s.1.ended then
    let s := emit clock .sessionEnded s
    ({ s.1 with ended := true }, s.2)
  else s

/-- `heartbeat`. -/
def heartbeat (s : Tapped) : Tapped :=
  let (tap, u) := s
  if !u.config.enabled then endSession clock s
  else if tap.ended then
    reconcile clock (emit clock .sessionStarted ({ tap with ended := false }, u))
  else if tap.announced then emit clock .heartbeat s
  else s

/-- `observe_left`. -/
def observeLeft (channelIndex : UInt8) (s : Tapped) : Tapped :=
  let (tap, u) := s
  let (channel, projector) := tap.projector.leave channelIndex u.config.enabled none
  let tap := { tap with projector }
  match channel with
  | none => (tap, u)
  | some channel => announceAndEmit clock (.left channel) (tap, u)

/-- `reject_channel`. -/
def rejectChannel (channel : ChatChannel) (s : Tapped) : Tapped :=
  let (tap, u) := s
  let tap := tap.resolve (channelIdentity channel)
  if !tap.initialSyncComplete && tap.isResolved then completeSync clock (tap, u) else (tap, u)

/-- `resolve_pending_channels`. -/
def resolvePendingChannels (s : Tapped) : Tapped :=
  let (tap, u) := s
  if tap.initialSyncComplete || tap.pendingChannels.isEmpty then s
  else
    completeSync clock ({ tap with
      resolvedChannels := tap.resolvedChannels ∪ tap.pendingChannels
      pendingChannels := ∅ }, u)

/-- `SessionObserver::reconcile`: the projector takes in the snapshots silently. -/
def reconcileSnapshots (snapshots : List ChatEvent) (s : Tapped) : Tapped :=
  let (tap, u) := s
  if !u.config.enabled || snapshots = [] then s
  else
    let projector := snapshots.foldl (fun p snapshot => (p.project snapshot true none).2)
      tap.projector
    reconcile clock ({ tap with projector }, u)

/-- `Publisher::begin_session`, given the id it draws and the time. -/
def beginSession (id clientVersion : String) (startedAt : Nat) (channels : List ChatChannel)
    (u : Uplink) : Tapped :=
  let expectedChannels := ExtTreeSet.ofList (channels.map channelIdentity)
  let clubNames : ClubNames := channels.foldl (fun names channel => match channel with
    | .club clubId => match u.clubNames[clubId]? with
      | some name => names.insert clubId name
      | none => names
    | _ => names) ∅
  let tap : SessionTap := {
    info := { id, product := "sc2", clientVersion, startedAt }
    projector := .withClubNames clubNames
    expectedChannels
    pendingChannels := expectedChannels }
  if u.config.enabled then (announce clock (tap, u)).2 else (tap, u)

/-- What the network thread may do with its tap. -/
inductive Op where
  | observe (event : ChatEvent)
  | heartbeat
  | observeLeft (channelIndex : UInt8)
  | rejectChannel (channel : ChatChannel)
  | resolvePendingChannels
  | reconcileSnapshots (snapshots : List ChatEvent)
  | endSession
  deriving DecidableEq

def perform : Op → Tapped → Tapped
  | .observe event => observe clock event
  | .heartbeat => heartbeat clock
  | .observeLeft channelIndex => observeLeft clock channelIndex
  | .rejectChannel channel => rejectChannel clock channel
  | .resolvePendingChannels => resolvePendingChannels clock
  | .reconcileSnapshots snapshots => reconcileSnapshots clock snapshots
  | .endSession => endSession clock

end SessionTap

end Superiority
