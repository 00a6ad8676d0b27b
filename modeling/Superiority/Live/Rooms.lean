import Superiority.Library.Run
import Superiority.Live.Mirror
import Superiority.Live.Viewer

/-!
# What a viewer sees of a classic session

A run of a classic session: its tap observes snapshots, chat lines, departures and heartbeats while
sharing is switched on and off. Beside the tap the state remembers the rooms the client is in that
have been snapshotted while sharing was on, each by its latest such snapshot; no code reads that.

* **`WatchedTap.mirrors_rooms`** – the viewer of a run of admissible steps shows those rooms;
* `WatchedTap.Admissible` is what goes wrong otherwise: a session announced again sends no
  roster, a room that changes its key leaves the old one behind, a departure seen while
  sharing is off is lost, and two members may be given one handle.
-/

namespace Superiority

open Std

/-! ## Rooms and snapshots -/

/-- A channel of a classic session, by the id its product gives it. -/
inductive RoomId where
  | scr (channelId : UInt32)
  | wc3 (id : UInt8)
  deriving DecidableEq, Repr

/-- A whole-channel snapshot of either product. -/
inductive Snapshot where
  | scr (channel : ScrChannel)
  | wc3 (channel : Wc3Channel)
  deriving DecidableEq, Repr

namespace Snapshot

def room : Snapshot → RoomId
  | scr channel => .scr channel.channelId
  | wc3 channel => .wc3 channel.id

def key : Snapshot → String
  | scr channel => channel.key
  | wc3 channel => channel.key

def op : Snapshot → ClassicSessionTap.Op
  | scr channel => .observeClassicChannel channel
  | wc3 channel => .observeWarcraftChannel channel

variable (lowercase : String → String)

/-- The members as the wire has them. -/
def userRefs (localIdentity : Option String) : Snapshot → List UserRef
  | scr channel => channel.users.map (ScrProjector.userRef lowercase { localIdentity })
  | wc3 channel => channel.members.map Wc3Member.userRef

/-- No two members of the room are given the same handle. -/
def MembersApart : Snapshot → Prop
  | scr channel => ∀ user ∈ channel.users, ∀ other ∈ channel.users,
    ScrProjector.handleOf lowercase user.name = ScrProjector.handleOf lowercase other.name →
      user = other
  | wc3 channel => ∀ member ∈ channel.members, ∀ other ∈ channel.members,
    member.userRef.handle = other.userRef.handle → member = other

instance (snapshot : Snapshot) : Decidable (snapshot.MembersApart lowercase) := by
  cases snapshot <;> unfold MembersApart <;> infer_instance

variable {lowercase}

theorem apart_userRefs {snapshot : Snapshot} (h : snapshot.MembersApart lowercase)
    (localIdentity : Option String) : Apart (snapshot.userRefs lowercase localIdentity) := by
  cases snapshot with
  | scr channel =>
    rintro _ huser _ hother heq
    obtain ⟨user, hmem, rfl⟩ := List.mem_map.1 huser
    obtain ⟨other, hmem', rfl⟩ := List.mem_map.1 hother
    rw [h user hmem other hmem' heq]
  | wc3 channel =>
    rintro _ huser _ hother heq
    obtain ⟨member, hmem, rfl⟩ := List.mem_map.1 huser
    obtain ⟨other, hmem', rfl⟩ := List.mem_map.1 hother
    rw [h member hmem other hmem' heq]

theorem classicRoster_userRefs (snapshot : Snapshot) (localIdentity : Option String) :
    ClassicRoster (rosterOf (snapshot.userRefs lowercase localIdentity)) := by
  apply classicRoster_rosterOf
  intro user huser
  cases snapshot with
  | scr channel =>
    obtain ⟨user, -, rfl⟩ := List.mem_map.1 huser
    exact ⟨rfl, rfl⟩
  | wc3 channel =>
    obtain ⟨member, -, rfl⟩ := List.mem_map.1 huser
    exact ⟨rfl, rfl⟩

end Snapshot

/-! ## What a projector holds -/

namespace ClassicProjector

/-- The entry for a room. A Remastered session is in one at a time. -/
def held : ClassicProjector → RoomId → Option ProjectedChannel
  | scr p, .scr id => p.channel.bind fun (current, key) =>
    if current = id then some { key, roster := p.roster, rosterSent := p.rosterSent } else none
  | wc3 p, .wc3 id => p.channels[id]?
  | _, _ => none

/-- Snapshots of the session's own product. -/
def sees : ClassicProjector → Snapshot → Bool
  | scr _, .scr _ => true
  | wc3 _, .wc3 _ => true
  | _, _ => false

def localIdentity : ClassicProjector → Option String
  | scr p => p.localIdentity
  | wc3 _ => none

theorem held_scr {p : ScrProjector} {id : UInt32} {channel : ProjectedChannel} :
    (scr p).held (.scr id) = some channel ↔ ∃ key, p.channel = some (id, key) ∧
      channel = { key, roster := p.roster, rosterSent := p.rosterSent } := by
  cases hchannel : p.channel with
  | none => simp [held, hchannel]
  | some entry =>
    obtain ⟨current, key⟩ := entry
    by_cases hid : current = id
    · simp [held, hchannel, hid, eq_comm]
    · simp [held, hchannel, hid]

/-- `reset_roster` keeps the entries and marks every roster as not sent. -/
theorem held_resetRoster (p : ClassicProjector) (id : RoomId) :
    p.resetRoster.held id =
      (p.held id).map fun channel => { channel with rosterSent := false } := by
  cases p with
  | scr p =>
    cases id with
    | wc3 id => rfl
    | scr id =>
      cases hchannel : p.channel with
      | none => simp [held, resetRoster, ScrProjector.resetRoster, hchannel]
      | some entry =>
        by_cases hid : entry.1 = id
        · simp [held, resetRoster, ScrProjector.resetRoster, hchannel, hid]
        · simp [held, resetRoster, ScrProjector.resetRoster, hchannel, hid]
  | wc3 p =>
    cases id with
    | scr id => rfl
    | wc3 id => exact ExtTreeMap.getElem?_map

/-- The slip: what a session announced again sends of its rosters is nothing, since they have
just been marked as not sent. -/
theorem resend_resetRoster (p : ClassicProjector) : p.resetRoster.resend = [] := by
  cases p with
  | scr p =>
    show ScrProjector.resend (p.resetRoster) = []
    rw [ScrProjector.resend, ScrProjector.resetRoster]
    cases p.channel <;> rfl
  | wc3 p =>
    show Wc3Projector.resend (p.resetRoster) = []
    rw [Wc3Projector.resend, List.map_eq_nil_iff, List.filter_eq_nil_iff]
    intro channel hchannel
    obtain ⟨⟨id, value⟩, hentry, rfl⟩ := List.mem_map.1 hchannel
    have hlookup := ExtTreeMap.mem_toList_iff_getElem?_eq_some.1 hentry
    rw [Wc3Projector.resetRoster, ExtTreeMap.getElem?_map] at hlookup
    obtain ⟨before, -, rfl⟩ := Option.map_eq_some_iff.1 hlookup
    exact Bool.false_ne_true

theorem localIdentity_resetRoster (p : ClassicProjector) :
    p.resetRoster.localIdentity = p.localIdentity := by
  cases p <;> rfl

end ClassicProjector

/-! ## What the viewer is told -/

/-- The viewer after all that has been put on the channel. -/
def Uplink.viewer (u : Uplink) : Viewer := Viewer.applyAll ∅ (u.emitted.map (·.kind))

namespace ClassicSessionTap

variable (clock : Nat → Nat) {s s' s'' : ClassicTapped}

/-- All that was sent has been taken, and the channel takes everything. -/
structure Accepted (s : ClassicTapped) : Prop where
  pendingDropped : s.1.sends.pendingDropped = 0
  room : s.2.room = []

/-- From `s` to `s'` the viewer has been told the events, and nothing but the counters and the
announcement has moved. -/
structure Tells (s s' : ClassicTapped) (kinds : List EventKind) : Prop where
  accepted : Accepted s'
  projector : s'.1.projector = s.1.projector
  ended : s'.1.sends.ended = s.1.sends.ended
  config : s'.2.config = s.2.config
  viewer : s'.2.viewer = s.2.viewer.applyAll kinds

theorem Tells.trans {kinds kinds' : List EventKind} (h : Tells s s' kinds)
    (h' : Tells s' s'' kinds') : Tells s s'' (kinds ++ kinds') where
  accepted := h'.accepted
  projector := h'.projector.trans h.projector
  ended := h'.ended.trans h.ended
  config := h'.config.trans h.config
  viewer := by rw [h'.viewer, h.viewer, Viewer.applyAll_append]

theorem tells_emit (h : Accepted s) (kind : EventKind) :
    Tells s (emit clock kind s) [kind] ∧
      (emit clock kind s).1.sends.announced = s.1.sends.announced := by
  obtain ⟨tap, u⟩ := s
  rw [emit, onSends, SessionTap.emit_accepted clock h.pendingDropped h.room]
  refine ⟨⟨⟨h.pendingDropped, rfl⟩, rfl, rfl, rfl, ?_⟩, rfl⟩
  simp [Uplink.viewer, Uplink.emitted, TapMessage.carried, Viewer.applyAll]

/-- Before the announcement the viewer knows of nothing. -/
def Quiet (s : ClassicTapped) : Prop := s.1.sends.announced = false → s.2.viewer = ∅

theorem tells_announceAndEmit (h : Accepted s) (hquiet : Quiet s) (kind : EventKind) :
    Tells s (announceAndEmit clock kind s) [kind] ∧
      (announceAndEmit clock kind s).1.sends.announced = true := by
  cases hannounced : s.1.sends.announced with
  | true =>
    have heq : announceAndEmit clock kind s = emit clock kind s := by
      simp [announceAndEmit, emit, onSends, SessionTap.announceAndEmit, SessionTap.announce,
        hannounced]
    rw [heq, ← hannounced]
    exact tells_emit clock h kind
  | false =>
    -- the announcement starts the session, of which the viewer had seen nothing
    have hempty := hquiet hannounced
    obtain ⟨tap, u⟩ := s
    have hroom : u.room = [] := h.room
    have hannounced : tap.sends.announced = false := hannounced
    have heq : announceAndEmit clock kind (tap, u) = emit clock kind (emit clock .sessionStarted
        ({ tap with sends := { tap.sends with announced := true } }, { u with
          channel := u.channel ++ [.session tap.sends.info] })) := by
      simp [announceAndEmit, emit, onSends, SessionTap.announceAndEmit, SessionTap.announce,
        hannounced, Uplink.trySend, hroom, TapMessage.carried]
    obtain ⟨hstarted, hannounced'⟩ := tells_emit clock
      (⟨h.pendingDropped, hroom⟩ : Accepted
        ({ tap with sends := { tap.sends with announced := true } }, { u with
          channel := u.channel ++ [.session tap.sends.info] })) .sessionStarted
    obtain ⟨htold, hannounced''⟩ := tells_emit clock hstarted.accepted kind
    rw [heq]
    refine ⟨⟨htold.accepted, htold.projector.trans hstarted.projector,
      htold.ended.trans hstarted.ended, htold.config.trans hstarted.config, ?_⟩,
      hannounced''.trans hannounced'⟩
    rw [htold.viewer, hstarted.viewer]
    show Viewer.applyAll ∅ [kind] = Viewer.applyAll (Uplink.viewer u) [kind]
    rw [hempty]

theorem tells_emitAll (h : Accepted s) (hquiet : Quiet s) (kinds : List EventKind) :
    Tells s (emitAll clock kinds s) kinds ∧ (emitAll clock kinds s).1.sends.announced =
      (s.1.sends.announced || !kinds.isEmpty) := by
  induction kinds generalizing s with
  | nil => exact ⟨⟨h, rfl, rfl, rfl, rfl⟩, (Bool.or_false _).symm⟩
  | cons kind kinds ih =>
    obtain ⟨hfirst, hannounced⟩ := tells_announceAndEmit clock h hquiet kind
    have hquiet' : Quiet (announceAndEmit clock kind s) := by
      intro hnot
      rw [hannounced] at hnot
      cases hnot
    obtain ⟨hrest, hannounced'⟩ := ih hfirst.accepted hquiet'
    refine ⟨hfirst.trans hrest, ?_⟩
    rw [hannounced, Bool.true_or] at hannounced'
    rw [emitAll, List.foldl_cons, ← emitAll, hannounced']
    simp

end ClassicSessionTap

/-! ## Runs -/

/-- A classic tap with the rooms it shares. -/
structure WatchedTap where
  tap : ClassicSessionTap
  uplink : Uplink
  rooms : RoomId → Option Snapshot := fun _ => none
  observed : Bool := false

namespace WatchedTap

/-- What can happen to it. -/
inductive Input where
  | toggle (enabled : Bool)
  | heartbeat
  | snapshot (channel : Snapshot)
  | chat (event : ScrEvent)
  | warcraft (event : Wc3Event)
  deriving DecidableEq

variable (lowercase : String → String) (clock : Nat → Nat)

def enabled (s : WatchedTap) : Bool := s.uplink.config.enabled

def held (s : WatchedTap) : RoomId → Option ProjectedChannel := s.tap.projector.held

def userRefs (s : WatchedTap) (channel : Snapshot) : List UserRef :=
  channel.userRefs lowercase s.tap.projector.localIdentity

def perform (op : ClassicSessionTap.Op) (s : WatchedTap) : WatchedTap :=
  let (tap, uplink) := ClassicSessionTap.perform lowercase clock op (s.tap, s.uplink)
  { s with tap, uplink }

/-- The shared rooms after a snapshot: entering another room leaves the one before in a
Remastered session, and a stay is shared from its first snapshot while sharing is on. -/
def entered (s : WatchedTap) (channel : Snapshot) (id : RoomId) : Option Snapshot :=
  match channel with
  | .scr _ => if id = channel.room then (if s.enabled then some channel else s.rooms id) else none
  | .wc3 _ => if id = channel.room ∧ s.enabled then some channel else s.rooms id

/-- The shared rooms after an event of a Warcraft III session. -/
def left (s : WatchedTap) (event : Wc3Event) (id : RoomId) : Option Snapshot :=
  match event with
  | .channelLeft channelId => if id = .wc3 channelId then none else s.rooms id
  | _ => s.rooms id

def step (s : WatchedTap) : Input → WatchedTap
  | .toggle enabled => { s with
      uplink := { s.uplink with config := { s.uplink.config with enabled } }
      observed := s.observed && !(enabled && !s.enabled) }
  | .heartbeat => { s.perform lowercase clock .heartbeat with observed := s.observed || s.enabled }
  | .snapshot channel =>
    if s.tap.projector.sees channel then
      { s.perform lowercase clock channel.op with
        rooms := s.entered channel
        observed := s.observed || s.enabled }
    else s
  | .chat event => s.perform lowercase clock (.observeClassic event)
  | .warcraft event =>
    { s.perform lowercase clock (.observeWarcraft event) with rooms := s.left event }

/-- A session that begins, over what the taps share; the channel takes everything. -/
def start (id clientVersion : String) (startedAt : Nat) (product : Product)
    (localIdentity : Option String) (config : UplinkConfig) : WatchedTap where
  tap := .new lowercase id clientVersion startedAt product localIdentity
  uplink := { config }

/-- The viewer shows exactly the rooms, each under the key and with the members of its latest
snapshot, and no two rooms and no two members of one share an entry. -/
structure Mirrors (s : WatchedTap) : Prop where
  channels : ∀ key : String, key ∈ s.uplink.viewer ↔
    ∃ (id : RoomId) (channel : Snapshot), s.rooms id = some channel ∧ channel.key = key
  distinct : ∀ (id id' : RoomId) (channel channel' : Snapshot), s.rooms id = some channel →
    s.rooms id' = some channel' → channel.key = channel'.key → id = id'
  members : ∀ (id : RoomId) (channel : Snapshot), s.rooms id = some channel →
    channel.MembersApart lowercase ∧
    ∃ members : RosterMirror, s.uplink.viewer[channel.key]? = some members ∧
      ∀ (handle : UInt32) (user : UserRef), members[handle]? = some user ↔
        user ∈ s.userRefs lowercase channel ∧ user.handle = handle

/-- Sharing is on, and a heartbeat or snapshot has come since it was last switched on: then the
viewer mirrors the rooms. -/
def MirrorsWhenShared (s : WatchedTap) : Prop :=
  s.enabled = true → s.observed = true → s.Mirrors lowercase

/-! ## The condition -/

/-- A room the viewer is still shown although the client has left it. -/
def Stale (s : WatchedTap) (id : RoomId) : Prop :=
  ∃ channel, s.held id = some channel ∧ channel.rosterSent = true ∧ s.rooms id = none

/-- The hall a line of a Warcraft III session is filed under. -/
def lineOf : Wc3Event → Option UInt8
  | .message id _ | .memberJoined id _ | .memberLeft id _ => some id
  | .channelJoined _ | .channelLeft _ | .whisper | .notice => none

/-- What a step must not run into while sharing is on. -/
def Admissible (s : WatchedTap) (i : Input) : Prop :=
  s.enabled = true → match i with
  | .toggle _ => True
  -- a session announced again has no room to resend; otherwise no departure was missed
  | .heartbeat =>
    if s.tap.sends.ended then ∀ id, s.rooms id = none else ∀ id, ¬ s.Stale id
  | .snapshot (.scr channel) => (Snapshot.scr channel).MembersApart lowercase ∧
    ∀ entry, s.held (.scr channel.channelId) = some entry → entry.key = channel.key ∧
      (entry.rosterSent = true →
        SameMembers (rosterOf (s.userRefs lowercase (.scr channel))) entry.roster →
        KeepsAvatars (rosterOf (s.userRefs lowercase (.scr channel))) entry.roster)
  | .snapshot (.wc3 channel) => (Snapshot.wc3 channel).MembersApart lowercase ∧
    (∀ entry, s.held (.wc3 channel.id) = some entry → entry.rosterSent = true →
      entry.key = channel.key ∧
      (SameMembers (rosterOf (s.userRefs lowercase (.wc3 channel))) entry.roster →
        KeepsAvatars (rosterOf (s.userRefs lowercase (.wc3 channel))) entry.roster)) ∧
    ∀ id ≠ .wc3 channel.id, ¬ s.Stale id ∧
      ∀ other, s.rooms id = some other → other.key ≠ channel.key
  -- a line is filed under a room the client is in
  | .chat event => ∀ (p : ScrProjector) (id : UInt32) (key : String),
    s.tap.projector = .scr p → p.channel = some (id, key) → p.messageEvent lowercase event ≠ none →
      (s.rooms (.scr id)).isSome
  | .warcraft (.channelLeft id) => ∀ entry, s.held (.wc3 id) = some entry →
    (s.rooms (.wc3 id)).isSome ∨ ∀ id' ≠ .wc3 id, ∀ other, s.held id' = some other →
      other.rosterSent = true → other.key ≠ entry.key
  | .warcraft event => ∀ id ∈ lineOf event, (s.held (.wc3 id)).isSome → (s.rooms (.wc3 id)).isSome

/-! ## What a snapshot does -/

section Snapshots

variable {lowercase}

/-- The viewer has the rosters that count as sent, under their keys. -/
def Told (v : Viewer) (held : RoomId → Option ProjectedChannel) : Prop :=
  ∀ (key : String) (members : RosterMirror), v[key]? = some members ↔
    ∃ (id : RoomId) (channel : ProjectedChannel), held id = some channel ∧
      channel.rosterSent = true ∧ channel.key = key ∧ channel.roster = members

theorem members_eq_rosterOf (p : ScrProjector) (channel : ScrChannel) :
    p.members lowercase channel =
      rosterOf ((Snapshot.scr channel).userRefs lowercase p.localIdentity) := by
  rw [Snapshot.userRefs, rosterOf, List.foldl_map]
  rfl

variable (lowercase) in
theorem wc3_members_eq_rosterOf (channel : Wc3Channel) (localIdentity : Option String) :
    Wc3Projector.members channel =
      rosterOf ((Snapshot.wc3 channel).userRefs lowercase localIdentity) := by
  rw [Snapshot.userRefs, rosterOf, List.foldl_map]
  rfl

/-- Told a roster that had not been sent, the viewer has it, whatever it had before. -/
private theorem first_roster (v : Viewer) (channel : ChannelRef) {members : RosterMirror}
    (hmembers : ClassicRoster members) {state : RosterMirror} (hstate : ClassicRoster state)
    (key : String) :
    (v.applyAll (.joined channel :: (rosterEvents channel members state false).1))[key]? =
      if channel.key = key then some members else v[key]? := by
  show ((v.touch channel).applyAll (rosterEvents channel members state false).1)[key]? = _
  rw [rosterEvents_shown hmembers hstate (fun h => absurd h Bool.false_ne_true)
    fun h => absurd h Bool.false_ne_true]
  by_cases hkey : channel.key = key
  · rw [if_pos hkey, if_pos hkey]
  · have hother : ¬ (compare channel.key key = .eq ∧ channel.key ∉ v) :=
      fun h => hkey (Std.compare_eq_iff_eq.1 h.1)
    rw [if_neg hkey, if_neg hkey, Viewer.touch, ExtTreeMap.getElem?_insertIfNew, if_neg hother]

theorem classicRoster_empty : ClassicRoster ∅ := by
  intro handle user huser
  rw [ExtTreeMap.getElem?_empty] at huser
  cases huser

/-- A snapshot of another room than the one before. -/
theorem scr_channelEvents_new {p : ScrProjector} {channel : ScrChannel}
    (hnew : p.channel.map (·.1) ≠ some channel.channelId) :
    p.channelEvents lowercase channel = ((p.channel.map fun previous =>
        EventKind.left ⟨previous.2, none⟩).toList ++ .joined ⟨channel.key, some channel.label⟩ ::
          (rosterEvents ⟨channel.key, some channel.label⟩ (p.members lowercase channel) ∅ false).1,
      { p with
        channel := some (channel.channelId, channel.key)
        roster := p.members lowercase channel
        rosterSent := true }) := by
  have hstate := rosterEvents_state ⟨channel.key, some channel.label⟩
    (p.members lowercase channel) ∅ false
  rcases hevents : rosterEvents ⟨channel.key, some channel.label⟩
    (p.members lowercase channel) ∅ false with ⟨rosters, roster, rosterSent⟩
  rw [hevents] at hstate
  obtain ⟨rfl, rfl⟩ := Prod.mk.inj hstate
  have hmembers (q : ScrProjector) (hq : q.localIdentity = p.localIdentity) :
      q.members lowercase channel = p.members lowercase channel := by
    rw [members_eq_rosterOf, members_eq_rosterOf, hq]
  simp [ScrProjector.channelEvents, hnew, hmembers, hevents]

/-- A snapshot of the room the session is in. -/
theorem scr_channelEvents_same {p : ScrProjector} {channel : ScrChannel}
    (hsame : p.channel.map (·.1) = some channel.channelId) :
    p.channelEvents lowercase channel =
      ((rosterEvents ⟨channel.key, some channel.label⟩ (p.members lowercase channel) p.roster
        p.rosterSent).1,
      { p with roster := p.members lowercase channel, rosterSent := true }) := by
  have hstate := rosterEvents_state ⟨channel.key, some channel.label⟩
    (p.members lowercase channel) p.roster p.rosterSent
  rcases hevents : rosterEvents ⟨channel.key, some channel.label⟩
    (p.members lowercase channel) p.roster p.rosterSent with ⟨rosters, roster, rosterSent⟩
  rw [hevents] at hstate
  obtain ⟨rfl, rfl⟩ := Prod.mk.inj hstate
  simp [ScrProjector.channelEvents, hsame, hevents]

/-- A snapshot of a hall, held before or not. -/
theorem wc3_channelEvents_eq (p : Wc3Projector) (channel : Wc3Channel) :
    p.channelEvents channel = ((match p.channels[channel.id]? with
      | none => .joined ⟨channel.key, some channel.name⟩ ::
        (rosterEvents ⟨channel.key, some channel.name⟩ (Wc3Projector.members channel) ∅ false).1
      | some entry => (rosterEvents ⟨channel.key, some channel.name⟩
        (Wc3Projector.members channel) entry.roster entry.rosterSent).1),
      { channels := p.channels.insert channel.id {
        key := channel.key
        roster := Wc3Projector.members channel
        rosterSent := true } }) := by
  have hstate := rosterEvents_state ⟨channel.key, some channel.name⟩
    (Wc3Projector.members channel)
  cases hheld : p.channels[channel.id]? with
  | none =>
    specialize hstate ∅ false
    rcases hevents : rosterEvents ⟨channel.key, some channel.name⟩
      (Wc3Projector.members channel) ∅ false with ⟨rosters, roster, rosterSent⟩
    rw [hevents] at hstate
    obtain ⟨rfl, rfl⟩ := Prod.mk.inj hstate
    simp [Wc3Projector.channelEvents, hheld, hevents]
  | some entry =>
    specialize hstate entry.roster entry.rosterSent
    rcases hevents : rosterEvents ⟨channel.key, some channel.name⟩
      (Wc3Projector.members channel) entry.roster entry.rosterSent with ⟨rosters, roster, rosterSent⟩
    rw [hevents] at hstate
    obtain ⟨rfl, rfl⟩ := Prod.mk.inj hstate
    simp [Wc3Projector.channelEvents, hheld, hevents]

variable (lowercase) in
/-- A Remastered snapshot: afterwards the viewer has the room, and only it. -/
theorem scr_channelEvents {p : ScrProjector} {channel : ScrChannel} {v : Viewer}
    (hrosters : ∀ entry, (ClassicProjector.scr p).held (.scr channel.channelId) = some entry →
      ClassicRoster entry.roster)
    (htold : Told v (ClassicProjector.scr p).held)
    (hentry : ∀ entry, (ClassicProjector.scr p).held (.scr channel.channelId) = some entry →
      entry.key = channel.key ∧ (entry.rosterSent = true →
        SameMembers (p.members lowercase channel) entry.roster →
        KeepsAvatars (p.members lowercase channel) entry.roster)) :
    (p.channelEvents lowercase channel).2 = { p with
      channel := some (channel.channelId, channel.key)
      roster := p.members lowercase channel
      rosterSent := true } ∧
    ∀ key, (v.applyAll (p.channelEvents lowercase channel).1)[key]? =
      if channel.key = key then some (p.members lowercase channel) else none := by
  have hmembers : ClassicRoster (p.members lowercase channel) := by
    rw [members_eq_rosterOf]
    exact Snapshot.classicRoster_userRefs _ _
  by_cases hnew : p.channel.map (·.1) ≠ some channel.channelId
  · -- another room: the one before is closed, and nothing else was open
    have hclosed : ∀ key : String, (v.applyAll (p.channel.map fun previous =>
        EventKind.left ⟨previous.2, none⟩).toList)[key]? = none := by
      intro key
      cases hlookup : (v.applyAll (p.channel.map fun previous =>
          EventKind.left ⟨previous.2, none⟩).toList)[key]? with
      | none => rfl
      | some members =>
        exfalso
        cases hchannel : p.channel with
        | none =>
          rw [hchannel] at hlookup
          obtain ⟨id, entry, hheld, -⟩ := (htold key members).1 hlookup
          cases id with
          | wc3 id => cases hheld
          | scr id =>
            obtain ⟨current, hcurrent, -⟩ := ClassicProjector.held_scr.1 hheld
            rw [hchannel] at hcurrent
            cases hcurrent
        | some previous =>
          rw [hchannel] at hlookup
          replace hlookup : (v.erase previous.2)[key]? = some members := hlookup
          by_cases hkey : previous.2 = key
          · rw [hkey, ExtTreeMap.getElem?_erase_self] at hlookup
            cases hlookup
          · rw [getElem?_erase_of_ne hkey] at hlookup
            obtain ⟨id, entry, hheld, -, hentryKey, -⟩ := (htold key members).1 hlookup
            cases id with
            | wc3 id => cases hheld
            | scr id =>
              obtain ⟨current, hcurrent, rfl⟩ := ClassicProjector.held_scr.1 hheld
              rw [hchannel, Option.some.injEq] at hcurrent
              rw [hcurrent] at hkey
              exact hkey hentryKey
    rw [scr_channelEvents_new hnew]
    refine ⟨rfl, fun key => ?_⟩
    rw [Viewer.applyAll_append, first_roster _ _ hmembers classicRoster_empty, hclosed]
  · -- the same room: the diff against what the viewer has
    obtain ⟨⟨id, key₀⟩, hchannel, hid⟩ := Option.map_eq_some_iff.1 (not_not.1 hnew)
    obtain rfl : id = channel.channelId := hid
    have hheld := ClassicProjector.held_scr.2 ⟨key₀, hchannel, rfl⟩
    obtain ⟨hkey₀, hkeeps⟩ := hentry _ hheld
    have hroster : ClassicRoster p.roster := hrosters _ hheld
    obtain rfl : key₀ = channel.key := hkey₀
    rw [scr_channelEvents_same (not_not.1 hnew)]
    refine ⟨by rw [hchannel], fun key => ?_⟩
    rw [rosterEvents_shown hmembers hroster _ hkeeps]
    · by_cases hkey : channel.key = key
      · rw [if_pos hkey, if_pos hkey]
      · rw [if_neg hkey, if_neg hkey]
        cases hlookup : v[key]? with
        | none => rfl
        | some members =>
          obtain ⟨id, entry, hheld, -, hentryKey, -⟩ := (htold key members).1 hlookup
          cases id with
          | wc3 id => cases hheld
          | scr id =>
            obtain ⟨current, hcurrent, rfl⟩ := ClassicProjector.held_scr.1 hheld
            rw [hchannel, Option.some.injEq, Prod.mk.injEq] at hcurrent
            exact absurd (hcurrent.2.trans hentryKey) hkey
    · intro hsent
      exact (htold _ _).2 ⟨_, _, ClassicProjector.held_scr.2 ⟨_, hchannel, rfl⟩, hsent, rfl, rfl⟩

/-- A Warcraft III snapshot: afterwards the viewer has the hall beside the others. -/
theorem wc3_channelEvents {p : Wc3Projector} {channel : Wc3Channel} {v : Viewer}
    (hrosters : ∀ entry, p.channels[channel.id]? = some entry → ClassicRoster entry.roster)
    (htold : Told v (ClassicProjector.wc3 p).held)
    (hentry : ∀ entry, p.channels[channel.id]? = some entry → entry.rosterSent = true →
      entry.key = channel.key ∧ (SameMembers (Wc3Projector.members channel) entry.roster →
        KeepsAvatars (Wc3Projector.members channel) entry.roster)) :
    (p.channelEvents channel).2 = { channels := p.channels.insert channel.id {
      key := channel.key
      roster := Wc3Projector.members channel
      rosterSent := true } } ∧
    ∀ key, (v.applyAll (p.channelEvents channel).1)[key]? =
      if channel.key = key then some (Wc3Projector.members channel) else v[key]? := by
  have hmembers : ClassicRoster (Wc3Projector.members channel) := by
    rw [wc3_members_eq_rosterOf id channel none]
    exact Snapshot.classicRoster_userRefs _ _
  rw [wc3_channelEvents_eq]
  refine ⟨rfl, fun key => ?_⟩
  cases hheld : p.channels[channel.id]? with
  | none => exact first_roster v _ hmembers classicRoster_empty key
  | some entry =>
    refine rosterEvents_shown hmembers (hrosters entry hheld) ?_ ?_ key
    · intro hsent
      obtain ⟨hkey, -⟩ := hentry entry hheld hsent
      exact (htold _ _).2 ⟨.wc3 channel.id, entry, hheld, hsent, hkey, rfl⟩
    · intro hsent
      exact (hentry entry hheld hsent).2

end Snapshots

/-! ## The invariant -/

/-- What every admissible step keeps. -/
structure Inv (s : WatchedTap) : Prop where
  accepted : ClassicSessionTap.Accepted (s.tap, s.uplink)
  quiet : ClassicSessionTap.Quiet (s.tap, s.uplink)
  ended : s.tap.sends.ended = true → s.tap.sends.announced = true
  rosters : ∀ (id : RoomId) (entry : ProjectedChannel), s.held id = some entry →
    ClassicRoster entry.roster
  told : Told s.uplink.viewer s.held
  distinct : ∀ (id id' : RoomId) (entry entry' : ProjectedChannel), s.held id = some entry →
    s.held id' = some entry' → entry.rosterSent = true → entry'.rosterSent = true →
      entry.key = entry'.key → id = id'
  rooms : ∀ (id : RoomId) (channel : Snapshot), s.rooms id = some channel →
    channel.MembersApart lowercase ∧ s.held id = some {
      key := channel.key
      roster := rosterOf (s.userRefs lowercase channel)
      rosterSent := true }
  fresh : s.enabled = true → s.observed = true → ∀ id, ¬ s.Stale id

section Steps

variable {lowercase clock} {s : WatchedTap}

/-- The invariant gives the claimed correspondence. -/
theorem Inv.mirrors (h : Inv lowercase s) : s.MirrorsWhenShared lowercase := by
  intro henabled hobserved
  have hfresh := h.fresh henabled hobserved
  refine ⟨fun key => ⟨fun hkey => ?_, ?_⟩, ?_, ?_⟩
  · obtain ⟨members, hmembers⟩ :=
      Option.isSome_iff_exists.1 (ExtTreeMap.mem_iff_isSome_getElem?.1 hkey)
    obtain ⟨id, entry, hheld, hsent, hentryKey, -⟩ := (h.told key members).1 hmembers
    cases hroom : s.rooms id with
    | none => exact absurd ⟨entry, hheld, hsent, hroom⟩ (hfresh id)
    | some channel =>
      refine ⟨id, channel, hroom, ?_⟩
      have hroomHeld := (h.rooms id channel hroom).2
      rw [hheld] at hroomHeld
      rw [← hentryKey, Option.some.inj hroomHeld]
  · rintro ⟨id, channel, hroom, rfl⟩
    have hlookup := (h.told channel.key _).2 ⟨id, _, (h.rooms id channel hroom).2, rfl, rfl, rfl⟩
    exact ExtTreeMap.mem_iff_isSome_getElem?.2 (by rw [hlookup]; rfl)
  · intro id id' channel channel' hroom hroom' hkey
    exact h.distinct id id' _ _ (h.rooms id channel hroom).2 (h.rooms id' channel' hroom').2 rfl rfl
      hkey
  · intro id channel hroom
    obtain ⟨hmembers, hheld⟩ := h.rooms id channel hroom
    refine ⟨hmembers, _, (h.told channel.key _).2 ⟨id, _, hheld, rfl, rfl, rfl⟩, ?_⟩
    intro handle user
    exact getElem?_rosterOf (Snapshot.apart_userRefs hmembers _)

/-- A step that leaves the tap as it is, and forgets rooms at most. -/
theorem Inv.forget (h : Inv lowercase s) {rooms : RoomId → Option Snapshot} (observed : Bool)
    (hrooms : ∀ id channel, rooms id = some channel → s.rooms id = some channel)
    (hfresh : s.enabled = true → observed = true → ∀ id, ¬ Stale { s with rooms } id) :
    Inv lowercase { s with rooms, observed } where
  accepted := h.accepted
  quiet := h.quiet
  ended := h.ended
  rosters := h.rosters
  told := h.told
  distinct := h.distinct
  rooms := fun id channel hroom => h.rooms id channel (hrooms id channel hroom)
  fresh := hfresh

theorem inv_toggle (h : Inv lowercase s) (enabled : Bool) :
    Inv lowercase (s.step lowercase clock (.toggle enabled)) where
  accepted := ⟨h.accepted.pendingDropped, h.accepted.room⟩
  quiet := h.quiet
  ended := h.ended
  rosters := h.rosters
  told := h.told
  distinct := h.distinct
  rooms := h.rooms
  fresh := by
    intro henabled hobserved
    replace henabled : enabled = true := henabled
    replace hobserved : (s.observed && !(enabled && !s.enabled)) = true := hobserved
    rw [henabled, Bool.true_and, Bool.not_not, Bool.and_eq_true] at hobserved
    exact h.fresh hobserved.2 hobserved.1

/-- A step that tells the viewer something but leaves the projector alone. -/
theorem Inv.tells (h : Inv lowercase s) {tap : ClassicSessionTap} {uplink : Uplink}
    {kinds : List EventKind} (htells : ClassicSessionTap.Tells (s.tap, s.uplink) (tap, uplink) kinds)
    (hannounced : s.tap.sends.announced = true → tap.sends.announced = true)
    (hviewer : s.uplink.viewer.applyAll kinds = s.uplink.viewer) :
    Inv lowercase { s with tap, uplink } := by
  have hprojector : tap.projector = s.tap.projector := htells.projector
  have hheld : ∀ id, held { s with tap, uplink } id = s.held id := by
    intro id
    rw [held, held, hprojector]
  have htold : uplink.viewer = s.uplink.viewer := htells.viewer.trans hviewer
  have hconfig : uplink.config = s.uplink.config := htells.config
  refine ⟨htells.accepted, ?_, ?_, ?_, ?_, ?_, ?_, ?_⟩
  · intro hnot
    show uplink.viewer = ∅
    rw [htold]
    apply h.quiet
    cases hbefore : s.tap.sends.announced with
    | false => rfl
    | true =>
      replace hnot : tap.sends.announced = false := hnot
      rw [hannounced hbefore] at hnot
      cases hnot
  · intro hended
    have hended' : tap.sends.ended = s.tap.sends.ended := htells.ended
    exact hannounced (h.ended (hended'.symm.trans hended))
  · intro id entry hentry
    rw [hheld] at hentry
    exact h.rosters id entry hentry
  · intro key members
    simp only [hheld]
    show uplink.viewer[key]? = _ ↔ _
    rw [htold]
    exact h.told key members
  · intro id id' entry entry' hentry hentry'
    rw [hheld] at hentry hentry'
    exact h.distinct id id' entry entry' hentry hentry'
  · intro id channel hroom
    rw [hheld, userRefs, hprojector]
    exact h.rooms id channel hroom
  · intro henabled hobserved id hstale
    have henabled' : s.enabled = true := by
      rw [enabled, ← hconfig]
      exact henabled
    obtain ⟨entry, hentry, hsent, hroom⟩ := hstale
    rw [hheld] at hentry
    exact h.fresh henabled' hobserved id ⟨entry, hentry, hsent, hroom⟩

variable (clock) in
/-- Sharing switched off ends the session, of which the viewer takes no notice. -/
theorem inv_end (h : Inv lowercase s) : Inv lowercase { s with
    tap := (ClassicSessionTap.end_ clock (s.tap, s.uplink)).1
    uplink := (ClassicSessionTap.end_ clock (s.tap, s.uplink)).2 } := by
  by_cases hopen : s.tap.sends.announced = true ∧ s.tap.sends.ended = false
  · obtain ⟨htells, hannounced⟩ :=
      ClassicSessionTap.tells_emit clock h.accepted .sessionEnded
    have hend : ClassicSessionTap.end_ clock (s.tap, s.uplink) =
        ({ (ClassicSessionTap.emit clock .sessionEnded (s.tap, s.uplink)).1 with
          sends := { (ClassicSessionTap.emit clock .sessionEnded (s.tap, s.uplink)).1.sends with
            ended := true } },
          (ClassicSessionTap.emit clock .sessionEnded (s.tap, s.uplink)).2) := by
      simp [ClassicSessionTap.end_, ClassicSessionTap.emit, ClassicSessionTap.onSends,
        SessionTap.endSession, hopen]
    have hemitted := h.tells htells (fun _ => hannounced.trans hopen.1) rfl
    rw [hend]
    exact ⟨⟨hemitted.accepted.pendingDropped, hemitted.accepted.room⟩, hemitted.quiet,
      fun _ => hannounced.trans hopen.1, hemitted.rosters, hemitted.told, hemitted.distinct,
      hemitted.rooms, hemitted.fresh⟩
  · have hend : ClassicSessionTap.end_ clock (s.tap, s.uplink) = (s.tap, s.uplink) := by
      have hclosed : (s.tap.sends.announced && !s.tap.sends.ended) = false := by
        cases hannounced : s.tap.sends.announced <;> cases hended : s.tap.sends.ended <;>
          simp_all
      simp [ClassicSessionTap.end_, ClassicSessionTap.onSends, SessionTap.endSession, hclosed]
    rw [hend]
    exact h

/-- A session announced again shows nothing, so there must be nothing to show. -/
theorem inv_resume (h : Inv lowercase s) (hended : s.tap.sends.ended = true)
    (hnone : ∀ id, s.rooms id = none) {s' : ClassicTapped} (hs' : s' =
      ClassicSessionTap.emit clock .sessionStarted ({
        sends := { s.tap.sends with ended := false }
        projector := s.tap.projector.resetRoster }, s.uplink)) (observed : Bool) :
    Inv lowercase { s with tap := s'.1, uplink := s'.2, observed } := by
  obtain ⟨htells, hannounced⟩ := ClassicSessionTap.tells_emit clock
    (⟨h.accepted.pendingDropped, h.accepted.room⟩ : ClassicSessionTap.Accepted ({
      sends := { s.tap.sends with ended := false }
      projector := s.tap.projector.resetRoster }, s.uplink)) .sessionStarted
  rw [← hs'] at htells hannounced
  have hannounced' : s'.1.sends.announced = true := hannounced.trans (h.ended hended)
  have hviewer : s'.2.viewer = ∅ := htells.viewer
  have hprojector : s'.1.projector = s.tap.projector.resetRoster := htells.projector
  have hunsent : ∀ id entry, s'.1.projector.held id = some entry → entry.rosterSent = false := by
    intro id entry hentry
    rw [hprojector, ClassicProjector.held_resetRoster] at hentry
    obtain ⟨before, -, rfl⟩ := Option.map_eq_some_iff.1 hentry
    rfl
  refine ⟨htells.accepted, fun _ => hviewer, fun _ => hannounced', ?_, ?_, ?_, ?_, ?_⟩
  · intro id entry hentry
    replace hentry : s'.1.projector.held id = some entry := hentry
    rw [hprojector, ClassicProjector.held_resetRoster] at hentry
    obtain ⟨before, hbefore, rfl⟩ := Option.map_eq_some_iff.1 hentry
    exact h.rosters id before hbefore
  · intro key members
    show s'.2.viewer[key]? = _ ↔ _
    rw [hviewer, ExtTreeMap.getElem?_empty]
    constructor
    · intro hlookup
      cases hlookup
    · rintro ⟨id, entry, hentry, hsent, -⟩
      rw [hunsent id entry hentry] at hsent
      cases hsent
  · intro id id' entry entry' hentry _ hsent
    rw [hunsent id entry hentry] at hsent
    cases hsent
  · intro id channel hroom
    replace hroom : s.rooms id = some channel := hroom
    rw [hnone] at hroom
    cases hroom
  · rintro - - id ⟨entry, hentry, hsent, -⟩
    rw [hunsent id entry hentry] at hsent
    cases hsent

theorem inv_heartbeat (h : Inv lowercase s) (hadmissible : s.Admissible lowercase .heartbeat) :
    Inv lowercase (s.step lowercase clock .heartbeat) := by
  cases henabled : s.enabled with
  | false =>
    have hperform : ClassicSessionTap.heartbeat clock (s.tap, s.uplink) =
        ClassicSessionTap.end_ clock (s.tap, s.uplink) := by
      rw [enabled] at henabled
      simp [ClassicSessionTap.heartbeat, henabled]
    have hend : Inv lowercase _ := inv_end clock h
    rw [← hperform] at hend
    have hstep : s.step lowercase clock .heartbeat =
        s.perform lowercase clock .heartbeat := by
      rw [step, henabled, Bool.or_false]
      rfl
    rw [hstep]
    exact hend
  | true =>
    have hadmissible := hadmissible henabled
    have hconfig : s.uplink.config.enabled = true := henabled
    dsimp only at hadmissible
    cases hended : s.tap.sends.ended with
    | true =>
      rw [if_pos hended] at hadmissible
      have hresume : ClassicSessionTap.heartbeat clock (s.tap, s.uplink) =
          ClassicSessionTap.emit clock .sessionStarted ({
            sends := { s.tap.sends with ended := false }
            projector := s.tap.projector.resetRoster }, s.uplink) := by
        simp [ClassicSessionTap.heartbeat, hconfig, hended, ClassicProjector.resend_resetRoster,
          ClassicSessionTap.emitAll]
      exact inv_resume h hended hadmissible hresume _
    | false =>
      rw [if_neg (by rw [hended]; exact Bool.false_ne_true)] at hadmissible
      have hquiet : Inv lowercase { s with observed := s.observed || s.enabled } :=
        h.forget _ (fun _ _ hroom => hroom) fun _ _ => hadmissible
      cases hannounced : s.tap.sends.announced with
      | true =>
        have hbeat : ClassicSessionTap.heartbeat clock (s.tap, s.uplink) =
            ClassicSessionTap.emit clock .heartbeat (s.tap, s.uplink) := by
          simp [ClassicSessionTap.heartbeat, hconfig, hended, hannounced]
        obtain ⟨htells, hannounced'⟩ :=
          ClassicSessionTap.tells_emit clock h.accepted .heartbeat
        rw [← hbeat] at htells hannounced'
        exact hquiet.tells htells (fun _ => hannounced'.trans hannounced) rfl
      | false =>
        have hsilent : ClassicSessionTap.heartbeat clock (s.tap, s.uplink) = (s.tap, s.uplink) := by
          simp [ClassicSessionTap.heartbeat, hconfig, hended, hannounced]
        rw [step, perform, ClassicSessionTap.perform, hsilent]
        exact hquiet

variable (lowercase) in
/-- What a snapshot leaves: the room under its key with its members, told to the viewer; the other
rooms stay as they are in a session that can be in several (`stay`), and are gone otherwise. -/
structure Snapped (stay : Prop) (channel : Snapshot) (s : WatchedTap) (s' : ClassicTapped) :
    Prop where
  localIdentity : s'.1.projector.localIdentity = s.tap.projector.localIdentity
  held : ∀ (id : RoomId) (entry : ProjectedChannel), s'.1.projector.held id = some entry ↔
    (id = channel.room ∧ entry = {
      key := channel.key
      roster := rosterOf (s.userRefs lowercase channel)
      rosterSent := true }) ∨ (stay ∧ id ≠ channel.room ∧ s.held id = some entry)
  viewer : ∀ (key : String) (members : RosterMirror), s'.2.viewer[key]? = some members ↔
    (channel.key = key ∧ rosterOf (s.userRefs lowercase channel) = members) ∨
      (stay ∧ channel.key ≠ key ∧ s.uplink.viewer[key]? = some members)
  rooms : ∀ (id : RoomId) (room : Snapshot), s.entered channel id = some room ↔
    (id = channel.room ∧ room = channel) ∨ (stay ∧ id ≠ channel.room ∧ s.rooms id = some room)

theorem Inv.snapped (h : Inv lowercase s) {stay : Prop} {channel : Snapshot} {s' : ClassicTapped}
    (hsnapped : Snapped lowercase stay channel s s')
    (hmembers : channel.MembersApart lowercase)
    (hkey : ∀ entry, s.held channel.room = some entry → entry.rosterSent = true →
      entry.key = channel.key)
    (hothers : stay → ∀ id ≠ channel.room, ¬ s.Stale id ∧
      ∀ other, s.rooms id = some other → other.key ≠ channel.key)
    (haccepted : ClassicSessionTap.Accepted s') (hquiet : ClassicSessionTap.Quiet s')
    (hended : s'.1.sends.ended = true → s'.1.sends.announced = true) :
    Inv lowercase { s with
      tap := s'.1
      uplink := s'.2
      rooms := s.entered channel
      observed := s.observed || s.enabled } := by
  -- a roster that stays is that of a room, and its key is not the new one
  have hstays : ∀ id entry, stay → id ≠ channel.room → s.held id = some entry →
      entry.rosterSent = true → entry.key ≠ channel.key := by
    intro id entry hstay hid hentry hsent
    obtain ⟨hfresh, hother⟩ := hothers hstay id hid
    cases hroom : s.rooms id with
    | none => exact absurd ⟨entry, hentry, hsent, hroom⟩ hfresh
    | some other =>
      have hheld := (h.rooms id other hroom).2
      rw [hentry] at hheld
      rw [Option.some.inj hheld]
      exact hother other hroom
  refine ⟨haccepted, hquiet, hended, ?_, ?_, ?_, ?_, ?_⟩
  · intro id entry hentry
    rcases (hsnapped.held id entry).1 hentry with ⟨-, rfl⟩ | ⟨-, -, hentry⟩
    · exact Snapshot.classicRoster_userRefs _ _
    · exact h.rosters id entry hentry
  · intro key members
    refine (hsnapped.viewer key members).trans ⟨?_, ?_⟩
    · rintro (⟨rfl, rfl⟩ | ⟨hstay, hne, hlookup⟩)
      · exact ⟨_, _, (hsnapped.held _ _).2 (.inl ⟨rfl, rfl⟩), rfl, rfl, rfl⟩
      · obtain ⟨id, entry, hentry, hsent, hentryKey, hroster⟩ := (h.told key members).1 hlookup
        have hid : id ≠ channel.room := by
          rintro rfl
          exact hne ((hkey entry hentry hsent).symm.trans hentryKey)
        exact ⟨id, entry, (hsnapped.held _ _).2 (.inr ⟨hstay, hid, hentry⟩), hsent, hentryKey,
          hroster⟩
    · rintro ⟨id, entry, hentry, hsent, rfl, rfl⟩
      rcases (hsnapped.held id entry).1 hentry with ⟨-, rfl⟩ | ⟨hstay, hid, hentry⟩
      · exact .inl ⟨rfl, rfl⟩
      · exact .inr ⟨hstay, Ne.symm (hstays id entry hstay hid hentry hsent),
          (h.told _ _).2 ⟨id, entry, hentry, hsent, rfl, rfl⟩⟩
  · intro id id' entry entry' hentry hentry' hsent hsent' hsame
    rcases (hsnapped.held id entry).1 hentry with ⟨rfl, rfl⟩ | ⟨hstay, hid, hentry⟩
    · rcases (hsnapped.held id' entry').1 hentry' with ⟨rfl, -⟩ | ⟨hstay, hid', hentry'⟩
      · rfl
      · exact absurd hsame.symm (hstays id' entry' hstay hid' hentry' hsent')
    · rcases (hsnapped.held id' entry').1 hentry' with ⟨rfl, rfl⟩ | ⟨-, -, hentry'⟩
      · exact absurd hsame (hstays id entry hstay hid hentry hsent)
      · exact h.distinct id id' entry entry' hentry hentry' hsent hsent' hsame
  · intro id room hroom
    have hrefs : ∀ channel : Snapshot, channel.userRefs lowercase s'.1.projector.localIdentity =
        s.userRefs lowercase channel := by
      intro channel
      rw [userRefs, hsnapped.localIdentity]
    show _ ∧ s'.1.projector.held id = some {
      key := room.key
      roster := rosterOf (room.userRefs lowercase s'.1.projector.localIdentity)
      rosterSent := true }
    rw [hrefs]
    rcases (hsnapped.rooms id room).1 hroom with ⟨rfl, rfl⟩ | ⟨hstay, hid, hroom⟩
    · exact ⟨hmembers, (hsnapped.held _ _).2 (.inl ⟨rfl, rfl⟩)⟩
    · obtain ⟨happart, hheld⟩ := h.rooms id room hroom
      exact ⟨happart, (hsnapped.held _ _).2 (.inr ⟨hstay, hid, hheld⟩)⟩
  · rintro - - id ⟨entry, hentry, hsent, hroom⟩
    replace hroom : s.entered channel id = none := hroom
    rcases (hsnapped.held id entry).1 hentry with ⟨rfl, -⟩ | ⟨hstay, hid, hentry⟩
    · rw [(hsnapped.rooms _ channel).2 (.inl ⟨rfl, rfl⟩)] at hroom
      cases hroom
    · cases hbefore : s.rooms id with
      | none => exact (hothers hstay id hid).1 ⟨entry, hentry, hsent, hbefore⟩
      | some room =>
        rw [(hsnapped.rooms id room).2 (.inr ⟨hstay, hid, hbefore⟩)] at hroom
        cases hroom

variable (clock) in
/-- The tap after a snapshot, when it has emitted what the projector gave. -/
theorem Inv.emitAll (h : Inv lowercase s) (projector : ClassicProjector) (kinds : List EventKind)
    {s' : ClassicTapped} (hs' : s' = ClassicSessionTap.emitAll clock kinds
      ({ s.tap with projector }, s.uplink)) :
    ClassicSessionTap.Accepted s' ∧ ClassicSessionTap.Quiet s' ∧
      (s'.1.sends.ended = true → s'.1.sends.announced = true) ∧
      s'.1.projector = projector ∧ s'.2.config = s.uplink.config ∧
      s'.2.viewer = s.uplink.viewer.applyAll kinds := by
  obtain ⟨htells, hannounced⟩ := ClassicSessionTap.tells_emitAll clock
    (⟨h.accepted.pendingDropped, h.accepted.room⟩ :
      ClassicSessionTap.Accepted ({ s.tap with projector }, s.uplink)) h.quiet kinds
  rw [← hs'] at htells hannounced
  refine ⟨htells.accepted, ?_, ?_, htells.projector, htells.config, htells.viewer⟩
  · intro hnot
    -- nothing emitted means nothing moved
    rw [hannounced, Bool.or_eq_false_iff] at hnot
    have hnil : kinds = [] := by simpa using hnot.2
    rw [htells.viewer, hnil]
    exact h.quiet hnot.1
  · intro hended
    rw [hannounced, h.ended (htells.ended.symm.trans hended), Bool.true_or]

theorem inv_scr_snapshot (h : Inv lowercase s) {p : ScrProjector} {channel : ScrChannel}
    (hp : s.tap.projector = .scr p) (henabled : s.enabled = true)
    (hadmissible : s.Admissible lowercase (.snapshot (.scr channel))) :
    Inv lowercase (s.step lowercase clock (.snapshot (.scr channel))) := by
  obtain ⟨hmembers, hentry⟩ := hadmissible henabled
  have hidentity : s.tap.projector.localIdentity = p.localIdentity := by rw [hp]; rfl
  have hrefs : rosterOf (s.userRefs lowercase (.scr channel)) = p.members lowercase channel := by
    rw [userRefs, hidentity, ← members_eq_rosterOf]
  have hheld : s.held = (ClassicProjector.scr p).held := by rw [held, hp]
  obtain ⟨hnext, hviewer⟩ := scr_channelEvents lowercase (fun entry hentry => h.rosters _ entry (hheld ▸ hentry))
    (hheld ▸ h.told) (by rw [hheld, hrefs] at hentry; exact hentry)
  have hconfig : s.uplink.config.enabled = true := henabled
  have hperform : ClassicSessionTap.observeClassicChannel lowercase clock channel (s.tap, s.uplink) =
      ClassicSessionTap.emitAll clock (p.channelEvents lowercase channel).1
        ({ s.tap with projector := .scr (p.channelEvents lowercase channel).2 }, s.uplink) := by
    simp [ClassicSessionTap.observeClassicChannel, hp, hconfig]
  obtain ⟨haccepted, hquiet, hended, hprojector, -, htold⟩ := h.emitAll clock
    (.scr (p.channelEvents lowercase channel).2) (p.channelEvents lowercase channel).1 hperform
  rw [hnext] at hprojector
  rw [step, hp, ClassicProjector.sees, if_pos rfl]
  have hsnapped : Snapped lowercase False (.scr channel) s
      (ClassicSessionTap.observeClassicChannel lowercase clock channel (s.tap, s.uplink)) := by
    refine ⟨?_, ?_, ?_, ?_⟩
    · rw [hprojector, hidentity]
      rfl
    · intro id entry
      rw [hprojector, hrefs]
      simp only [false_and, or_false]
      cases id with
      | wc3 id => simp [ClassicProjector.held, Snapshot.room]
      | scr id =>
        rw [ClassicProjector.held_scr]
        simp only [Option.some.injEq, Prod.mk.injEq, Snapshot.room, RoomId.scr.injEq, Snapshot.key]
        constructor
        · rintro ⟨key, ⟨rfl, rfl⟩, rfl⟩
          exact ⟨rfl, rfl⟩
        · rintro ⟨rfl, rfl⟩
          exact ⟨_, ⟨rfl, rfl⟩, rfl⟩
    · intro key members
      rw [htold, hviewer, hrefs]
      simp only [false_and, or_false, Snapshot.key]
      split
      · next hkey => simp [hkey]
      · next hkey => simp [hkey]
    · intro id room
      simp only [entered, henabled, if_true, false_and, or_false]
      split
      · next hid => simp [hid, eq_comm]
      · next hid => simp [hid]
  exact h.snapped hsnapped hmembers (fun entry hheld _ => (hentry entry hheld).1)
    (fun hstay => hstay.elim) haccepted hquiet hended

theorem inv_wc3_snapshot (h : Inv lowercase s) {p : Wc3Projector} {channel : Wc3Channel}
    (hp : s.tap.projector = .wc3 p) (henabled : s.enabled = true)
    (hadmissible : s.Admissible lowercase (.snapshot (.wc3 channel))) :
    Inv lowercase (s.step lowercase clock (.snapshot (.wc3 channel))) := by
  obtain ⟨hmembers, hentry, hothers⟩ := hadmissible henabled
  have hrefs : rosterOf (s.userRefs lowercase (.wc3 channel)) = Wc3Projector.members channel := by
    rw [userRefs, ← wc3_members_eq_rosterOf]
  have hheld : s.held = (ClassicProjector.wc3 p).held := by rw [held, hp]
  obtain ⟨hnext, hviewer⟩ := wc3_channelEvents (fun entry hentry => h.rosters (.wc3 channel.id) entry (hheld ▸ hentry))
    (hheld ▸ h.told) (by rw [hheld, hrefs] at hentry; exact hentry)
  have hconfig : s.uplink.config.enabled = true := henabled
  have hperform : ClassicSessionTap.observeWarcraftChannel clock channel (s.tap, s.uplink) =
      ClassicSessionTap.emitAll clock (p.channelEvents channel).1
        ({ s.tap with projector := .wc3 (p.channelEvents channel).2 }, s.uplink) := by
    simp [ClassicSessionTap.observeWarcraftChannel, hp, hconfig]
  obtain ⟨haccepted, hquiet, hended, hprojector, -, htold⟩ := h.emitAll clock
    (.wc3 (p.channelEvents channel).2) (p.channelEvents channel).1 hperform
  rw [hnext] at hprojector
  rw [step, hp, ClassicProjector.sees, if_pos rfl]
  have hsnapped : Snapped lowercase True (.wc3 channel) s
      (ClassicSessionTap.observeWarcraftChannel clock channel (s.tap, s.uplink)) := by
    refine ⟨?_, ?_, ?_, ?_⟩
    · rw [hprojector, hp]
      rfl
    · intro id entry
      rw [hprojector, hrefs, hheld]
      simp only [true_and, Snapshot.room, Snapshot.key]
      cases id with
      | scr id => simp [ClassicProjector.held]
      | wc3 id =>
        show (p.channels.insert channel.id _)[id]? = some entry ↔ _
        by_cases hid : channel.id = id
        · subst hid
          simp [eq_comm]
        · rw [getElem?_insert_of_ne hid]
          simp [ClassicProjector.held, Ne.symm hid]
    · intro key members
      rw [htold, hviewer, hrefs]
      simp only [true_and, Snapshot.key]
      split
      · next hkey => simp [hkey]
      · next hkey => simp [hkey]
    · intro id room
      simp only [entered, henabled, and_true, true_and]
      split
      · next hid => simp [hid, eq_comm]
      · next hid => simp [hid]
  exact h.snapped hsnapped hmembers (fun entry hheld hsent => (hentry entry hheld hsent).1)
    (fun _ => hothers) haccepted hquiet hended

/-- A line filed under a room that is shown opens nothing. -/
theorem touch_room (h : Inv lowercase s) {id : RoomId} {entry : ProjectedChannel}
    (hentry : s.held id = some entry) (hroom : (s.rooms id).isSome) :
    s.uplink.viewer.touch ⟨entry.key, none⟩ = s.uplink.viewer := by
  obtain ⟨channel, hchannel⟩ := Option.isSome_iff_exists.1 hroom
  have hheld := (h.rooms id channel hchannel).2
  rw [hentry] at hheld
  apply Viewer.touch_of_mem
  have hlookup := (h.told entry.key _).2 ⟨id, entry, hentry, by rw [Option.some.inj hheld], rfl, rfl⟩
  exact ExtTreeMap.mem_iff_isSome_getElem?.2 (by rw [hlookup]; rfl)

/-- A Remastered chat line goes under the room the projector is in. -/
theorem apply_messageEvent {p : ScrProjector} {event : ScrEvent} {kind : EventKind}
    (hkind : p.messageEvent lowercase event = some kind) :
    ∃ (id : UInt32) (key : String), p.channel = some (id, key) ∧
      ∀ v : Viewer, v.apply kind = v.touch ⟨key, none⟩ := by
  cases hchannel : p.channel with
  | none =>
    rw [ScrProjector.messageEvent, hchannel] at hkind
    cases hkind
  | some entry =>
    obtain ⟨id, key⟩ := entry
    refine ⟨id, key, rfl, fun v => ?_⟩
    simp only [ScrProjector.messageEvent, hchannel, Option.bind_eq_bind, Option.bind_some] at hkind
    obtain ⟨eventKind, sender, text⟩ := event
    cases eventKind <;> cases sender <;> cases hkind <;> rfl

theorem inv_chat (h : Inv lowercase s) (event : ScrEvent)
    (hadmissible : s.Admissible lowercase (.chat event)) :
    Inv lowercase (s.step lowercase clock (.chat event)) := by
  by_cases henabled : s.enabled = true
  · have hconfig : s.uplink.config.enabled = true := henabled
    cases hp : s.tap.projector with
    | wc3 p =>
      have hnothing : ClassicSessionTap.observeClassic lowercase clock event (s.tap, s.uplink) =
          (s.tap, s.uplink) := by
        simp [ClassicSessionTap.observeClassic, hconfig, hp]
      rw [step, perform, ClassicSessionTap.perform, hnothing]
      exact h
    | scr p =>
      have hline : ClassicSessionTap.observeClassic lowercase clock event (s.tap, s.uplink) =
          ClassicSessionTap.emitAll clock (p.messageEvent lowercase event).toList
            (s.tap, s.uplink) := by
        simp [ClassicSessionTap.observeClassic, hconfig, hp]
      obtain ⟨htells, hannounced⟩ := ClassicSessionTap.tells_emitAll clock h.accepted h.quiet
        (p.messageEvent lowercase event).toList
      rw [← hline] at htells hannounced
      have hviewer : s.uplink.viewer.applyAll (p.messageEvent lowercase event).toList =
          s.uplink.viewer := by
        cases hkind : p.messageEvent lowercase event with
        | none => rfl
        | some kind =>
          obtain ⟨id, key, hchannel, happly⟩ := apply_messageEvent hkind
          have hroom := hadmissible henabled p id key hp hchannel (by rw [hkind]; exact nofun)
          have hheld : s.held (.scr id) = some {
              key, roster := p.roster, rosterSent := p.rosterSent } := by
            rw [held, hp]
            exact ClassicProjector.held_scr.2 ⟨key, hchannel, rfl⟩
          exact (happly _).trans (touch_room h hheld hroom)
      exact h.tells htells (fun hbefore => hannounced.trans (by rw [hbefore, Bool.true_or])) hviewer
  · have hnothing : ClassicSessionTap.observeClassic lowercase clock event (s.tap, s.uplink) =
        (s.tap, s.uplink) := by
      simp [ClassicSessionTap.observeClassic, show s.uplink.config.enabled = false from
        Bool.eq_false_iff.2 henabled]
    rw [step, perform, ClassicSessionTap.perform, hnothing]
    exact h

/-- A Warcraft III event that is no departure keeps the projector, and opens only the hall its
line is filed under. -/
theorem eventKinds_line (p : Wc3Projector) {event : Wc3Event}
    (hevent : ∀ id, event ≠ .channelLeft id) :
    (p.eventKinds event).2 = p ∧ ((p.eventKinds event).1 = [] ∨
      ∃ (id : UInt8) (entry : ProjectedChannel), lineOf event = some id ∧
        p.channels[id]? = some entry ∧
        ∀ v : Viewer, v.applyAll (p.eventKinds event).1 = v.touch ⟨entry.key, none⟩) := by
  have hnotice (id : UInt8) (body : String) : p.notice id body = [] ∨
      ∃ entry : ProjectedChannel, p.channels[id]? = some entry ∧
        ∀ v : Viewer, v.applyAll (p.notice id body) = v.touch ⟨entry.key, none⟩ := by
    rw [Wc3Projector.notice, Wc3Projector.channelRef]
    cases p.channels[id]? with
    | none => exact .inl rfl
    | some entry => exact .inr ⟨entry, rfl, fun _ => rfl⟩
  cases event with
  | channelLeft id => exact absurd rfl (hevent id)
  | channelJoined id => exact ⟨rfl, .inl rfl⟩
  | whisper => exact ⟨rfl, .inl rfl⟩
  | notice => exact ⟨rfl, .inl rfl⟩
  | message id body =>
    refine ⟨rfl, ?_⟩
    rw [Wc3Projector.eventKinds, Wc3Projector.channelRef]
    cases hentry : p.channels[id]? with
    | none => exact .inl rfl
    | some entry => exact .inr ⟨id, entry, rfl, hentry, fun _ => rfl⟩
  | memberJoined id name =>
    refine ⟨rfl, (hnotice id _).imp_right ?_⟩
    rintro ⟨entry, hentry, happly⟩
    exact ⟨id, entry, rfl, hentry, happly⟩
  | memberLeft id name =>
    refine ⟨rfl, (hnotice id _).imp_right ?_⟩
    rintro ⟨entry, hentry, happly⟩
    exact ⟨id, entry, rfl, hentry, happly⟩

theorem left_of_ne {event : Wc3Event} (hevent : ∀ id, event ≠ .channelLeft id) :
    s.left event = s.rooms := by
  funext id
  cases event with
  | channelLeft id => exact absurd rfl (hevent id)
  | _ => rfl

theorem rooms_of_left (event : Wc3Event) (id : RoomId) (channel : Snapshot)
    (hroom : s.left event id = some channel) : s.rooms id = some channel := by
  cases event with
  | channelLeft gone =>
    simp only [left] at hroom
    split at hroom
    · cases hroom
    · exact hroom
  | _ => exact hroom

/-- A hall that is left while sharing is on, and that the projector holds. -/
theorem inv_leave (h : Inv lowercase s) {p : Wc3Projector} (hp : s.tap.projector = .wc3 p)
    {id : UInt8} {entry : ProjectedChannel} (hentry : s.held (.wc3 id) = some entry)
    (hapart : (s.rooms (.wc3 id)).isSome ∨ ∀ id' ≠ .wc3 id, ∀ other, s.held id' = some other →
      other.rosterSent = true → other.key ≠ entry.key)
    {s' : ClassicTapped} (hs' : s' = ClassicSessionTap.emitAll clock [.left ⟨entry.key, none⟩]
      ({ s.tap with projector := .wc3 { p with channels := p.channels.erase id } }, s.uplink)) :
    Inv lowercase { s with tap := s'.1, uplink := s'.2, rooms := s.left (.channelLeft id) } := by
  obtain ⟨haccepted, hquiet, hended, hprojector, hconfig, hviewer⟩ := h.emitAll clock _ _ hs'
  -- no other roster that the viewer has is under the key of the hall
  have hothers : ∀ id' other, id' ≠ .wc3 id → s.held id' = some other → other.rosterSent = true →
      entry.key ≠ other.key := by
    intro id' other hid hother hsent heq
    rcases hapart with hroom | hapart
    · obtain ⟨channel, hchannel⟩ := Option.isSome_iff_exists.1 hroom
      have hheld := (h.rooms _ channel hchannel).2
      rw [hentry] at hheld
      have hentrySent : entry.rosterSent = true := by rw [Option.some.inj hheld]
      exact hid (h.distinct _ _ other entry hother hentry hsent hentrySent heq.symm)
    · exact hapart id' hid other hother hsent heq.symm
  have hheld : ∀ id' other, s'.1.projector.held id' = some other ↔
      id' ≠ .wc3 id ∧ s.held id' = some other := by
    intro id' other
    rw [hprojector, held, hp]
    cases id' with
    | scr id' => simp [ClassicProjector.held]
    | wc3 id' =>
      show (p.channels.erase id)[id']? = some other ↔ _
      by_cases hid : id = id'
      · subst hid
        simp
      · rw [getElem?_erase_of_ne hid]
        simp [ClassicProjector.held, Ne.symm hid]
  have hlookup : ∀ (key : String) (members : RosterMirror), s'.2.viewer[key]? = some members ↔
      entry.key ≠ key ∧ s.uplink.viewer[key]? = some members := by
    intro key members
    rw [hviewer]
    show (s.uplink.viewer.erase entry.key)[key]? = some members ↔ _
    by_cases hkey : entry.key = key
    · subst hkey
      simp
    · rw [getElem?_erase_of_ne hkey]
      simp [hkey]
  refine ⟨haccepted, hquiet, hended, ?_, ?_, ?_, ?_, ?_⟩
  · intro id' other hother
    exact h.rosters id' other ((hheld id' other).1 hother).2
  · intro key members
    refine (hlookup key members).trans ⟨?_, ?_⟩
    · rintro ⟨hkey, hmembers⟩
      obtain ⟨id', other, hother, hsent, hotherKey, hroster⟩ := (h.told key members).1 hmembers
      have hid : id' ≠ .wc3 id := by
        rintro rfl
        rw [hentry] at hother
        exact hkey (Option.some.inj hother ▸ hotherKey)
      exact ⟨id', other, (hheld _ _).2 ⟨hid, hother⟩, hsent, hotherKey, hroster⟩
    · rintro ⟨id', other, hother, hsent, rfl, rfl⟩
      obtain ⟨hid, hother⟩ := (hheld id' other).1 hother
      exact ⟨hothers id' other hid hother hsent,
        (h.told _ _).2 ⟨id', other, hother, hsent, rfl, rfl⟩⟩
  · intro id₁ id₂ entry₁ entry₂ hentry₁ hentry₂
    exact h.distinct id₁ id₂ entry₁ entry₂ ((hheld _ _).1 hentry₁).2 ((hheld _ _).1 hentry₂).2
  · intro id' channel hroom
    obtain ⟨hmembers, hbefore⟩ := h.rooms id' channel
      (rooms_of_left (.channelLeft id) id' channel hroom)
    have hid : id' ≠ .wc3 id := by
      rintro rfl
      simp [left] at hroom
    refine ⟨hmembers, (hheld _ _).2 ⟨hid, ?_⟩⟩
    rw [hbefore, userRefs, userRefs, hp]
    show _ = some (_ : ProjectedChannel)
    rw [hprojector]
    rfl
  · rintro henabled hobserved id' ⟨other, hother, hsent, hnone⟩
    obtain ⟨hid, hother⟩ := (hheld id' other).1 hother
    have henabled' : s.enabled = true := by
      rw [enabled, ← hconfig]
      exact henabled
    refine h.fresh henabled' hobserved id' ⟨other, hother, hsent, ?_⟩
    simpa [left, hid] using hnone

/-- An event that the tap takes no notice of changes the rooms at most. -/
theorem Inv.ignored (h : Inv lowercase s) {event : Wc3Event}
    (hshared : s.enabled = true → ∀ id, s.left event id = s.rooms id) :
    Inv lowercase { s with rooms := s.left event } := by
  refine h.forget s.observed (rooms_of_left event) ?_
  rintro henabled hobserved id ⟨entry, hentry, hsent, hroom⟩
  refine h.fresh henabled hobserved id ⟨entry, hentry, hsent, ?_⟩
  rw [← hshared henabled id]
  exact hroom

theorem inv_warcraft (h : Inv lowercase s) (event : Wc3Event)
    (hadmissible : s.Admissible lowercase (.warcraft event)) :
    Inv lowercase (s.step lowercase clock (.warcraft event)) := by
  by_cases henabled : s.enabled = true
  swap
  · have hnothing : ClassicSessionTap.observeWarcraft clock event (s.tap, s.uplink) =
        (s.tap, s.uplink) := by
      simp [ClassicSessionTap.observeWarcraft, show s.uplink.config.enabled = false from
        Bool.eq_false_iff.2 henabled]
    rw [step, perform, ClassicSessionTap.perform, hnothing]
    exact h.ignored fun hshared => absurd hshared henabled
  have hconfig : s.uplink.config.enabled = true := henabled
  -- a room of the other product is not one that can be left
  have hroomless : ∀ id, s.held (.wc3 id) = none → ∀ id', s.left (.channelLeft id) id' =
      s.rooms id' := by
    intro id hnone id'
    simp only [left]
    split
    · next hid =>
      subst hid
      cases hroom : s.rooms (.wc3 id) with
      | none => rfl
      | some channel =>
        have hheld := (h.rooms _ channel hroom).2
        rw [hnone] at hheld
        cases hheld
    · rfl
  cases hp : s.tap.projector with
  | scr p =>
    have hnothing : ClassicSessionTap.observeWarcraft clock event (s.tap, s.uplink) =
        (s.tap, s.uplink) := by
      simp [ClassicSessionTap.observeWarcraft, hconfig, hp]
    rw [step, perform, ClassicSessionTap.perform, hnothing]
    refine h.ignored fun _ id => ?_
    by_cases hevent : ∀ gone, event ≠ .channelLeft gone
    · rw [left_of_ne hevent]
    · obtain ⟨gone, hgone⟩ := not_forall_not.1 hevent
      rw [hgone]
      refine hroomless gone ?_ id
      rw [held, hp]
      rfl
  | wc3 p =>
    have hemits : ClassicSessionTap.observeWarcraft clock event (s.tap, s.uplink) =
        ClassicSessionTap.emitAll clock (p.eventKinds event).1
          ({ s.tap with projector := .wc3 (p.eventKinds event).2 }, s.uplink) := by
      simp [ClassicSessionTap.observeWarcraft, hconfig, hp]
    have hheld : ∀ id, s.held (.wc3 id) = p.channels[id]? := by
      intro id
      rw [held, hp]
      rfl
    by_cases hevent : ∀ gone, event ≠ .channelLeft gone
    · obtain ⟨hsame, hline⟩ := eventKinds_line p hevent
      have htap : ({ s.tap with projector := .wc3 (p.eventKinds event).2 }, s.uplink) =
          (s.tap, s.uplink) := by
        rw [hsame, ← hp]
      rw [htap] at hemits
      obtain ⟨htells, hannounced⟩ := ClassicSessionTap.tells_emitAll clock h.accepted h.quiet
        (p.eventKinds event).1
      rw [← hemits] at htells hannounced
      have hviewer : s.uplink.viewer.applyAll (p.eventKinds event).1 = s.uplink.viewer := by
        rcases hline with hnil | ⟨id, entry, hid, hentry, happly⟩
        · rw [hnil]
          rfl
        · rw [happly]
          refine touch_room h ((hheld id).trans hentry) ?_
          have hfiled := hadmissible henabled
          cases event with
          | channelLeft gone => exact absurd rfl (hevent gone)
          | _ => exact hfiled id hid (by rw [hheld, hentry]; rfl)
      have htold := h.tells htells
        (fun hbefore => hannounced.trans (by rw [hbefore, Bool.true_or])) hviewer
      have hrooms := left_of_ne (s := s) hevent
      rw [step, hrooms]
      exact htold
    · obtain ⟨gone, rfl⟩ := not_forall_not.1 hevent
      cases hentry : p.channels[gone]? with
      | none =>
        have hnothing : ClassicSessionTap.observeWarcraft clock (.channelLeft gone)
            (s.tap, s.uplink) = (s.tap, s.uplink) := by
          rw [hemits, Wc3Projector.eventKinds, hentry]
          show ClassicSessionTap.emitAll clock [] ({ s.tap with projector := .wc3 p }, s.uplink) = _
          rw [← hp]
          rfl
        rw [step, perform, ClassicSessionTap.perform, hnothing]
        exact h.ignored fun _ => hroomless gone ((hheld gone).trans hentry)
      | some entry =>
        have hleave : ClassicSessionTap.observeWarcraft clock (.channelLeft gone)
            (s.tap, s.uplink) = ClassicSessionTap.emitAll clock [.left ⟨entry.key, none⟩]
              ({ s.tap with projector := .wc3 { p with channels := p.channels.erase gone } },
                s.uplink) := by
          rw [hemits, Wc3Projector.eventKinds, hentry]
        have hentryHeld : s.held (.wc3 gone) = some entry := (hheld gone).trans hentry
        exact inv_leave h hp hentryHeld (hadmissible henabled entry hentryHeld) hleave

theorem inv_snapshot (h : Inv lowercase s) (channel : Snapshot)
    (hadmissible : s.Admissible lowercase (.snapshot channel)) :
    Inv lowercase (s.step lowercase clock (.snapshot channel)) := by
  by_cases henabled : s.enabled = true
  · cases hp : s.tap.projector with
    | scr p =>
      cases channel with
      | scr channel => exact inv_scr_snapshot h hp henabled hadmissible
      | wc3 channel =>
        rw [step, hp]
        exact h
    | wc3 p =>
      cases channel with
      | wc3 channel => exact inv_wc3_snapshot h hp henabled hadmissible
      | scr channel =>
        rw [step, hp]
        exact h
  · have hconfig : s.uplink.config.enabled = false := Bool.eq_false_iff.2 henabled
    have hentered : ∀ id room, s.entered channel id = some room → s.rooms id = some room := by
      intro id room hroom
      cases channel with
      | scr channel =>
        simp only [entered, henabled] at hroom
        split at hroom
        · exact hroom
        · cases hroom
      | wc3 channel =>
        simpa [entered, henabled] using hroom
    have hquiet := h.forget (s.observed || s.enabled) hentered
      fun hshared => absurd hshared henabled
    rw [step]
    split
    · have hnothing : ClassicSessionTap.perform lowercase clock channel.op (s.tap, s.uplink) =
          (s.tap, s.uplink) := by
        cases channel <;> simp [Snapshot.op, ClassicSessionTap.perform,
          ClassicSessionTap.observeClassicChannel, ClassicSessionTap.observeWarcraftChannel, hconfig]
      rw [perform, hnothing]
      exact hquiet
    · exact h

theorem inv_step (h : Inv lowercase s) (i : Input) (hadmissible : s.Admissible lowercase i) :
    Inv lowercase (s.step lowercase clock i) := by
  cases i with
  | toggle enabled => exact inv_toggle h enabled
  | heartbeat => exact inv_heartbeat h hadmissible
  | snapshot channel => exact inv_snapshot h channel hadmissible
  | chat event => exact inv_chat h event hadmissible
  | warcraft event => exact inv_warcraft h event hadmissible

theorem inv_start (id clientVersion : String) (startedAt : Nat) (product : Product)
    (localIdentity : Option String) (config : UplinkConfig) :
    Inv lowercase (start lowercase id clientVersion startedAt product localIdentity config) := by
  have hheld : ∀ room, (start lowercase id clientVersion startedAt product localIdentity
      config).held room = none := by
    intro room
    cases product <;> cases room <;> simp [held, start, ClassicSessionTap.new,
      ClassicProjector.held, ScrProjector.new]
  refine ⟨⟨rfl, rfl⟩, fun _ => rfl, fun hended => absurd hended Bool.false_ne_true, ?_, ?_, ?_, ?_,
    ?_⟩
  · intro room entry hentry
    rw [hheld] at hentry
    cases hentry
  · intro key members
    show (∅ : Viewer)[key]? = _ ↔ _
    simp only [hheld, ExtTreeMap.getElem?_empty]
    constructor
    · intro hlookup
      cases hlookup
    · rintro ⟨_, _, hentry, -⟩
      cases hentry
  · intro room room' entry entry' hentry
    rw [hheld] at hentry
    cases hentry
  · intro room channel hroom
    cases hroom
  · rintro - - room ⟨entry, hentry, -⟩
    rw [hheld] at hentry
    cases hentry

end Steps

/-! ## The viewer mirrors the rooms -/

/-- **A classic viewer mirrors the room**, in every state of a run of admissible steps. -/
theorem mirrors_rooms (id clientVersion : String) (startedAt : Nat) (product : Product)
    (localIdentity : Option String) (config : UplinkConfig) (inputs : List Input)
    (hadmissible : StepsMeet (step lowercase clock) (Admissible lowercase)
      (start lowercase id clientVersion startedAt product localIdentity config) inputs) :
    StatesMeet (step lowercase clock) (MirrorsWhenShared lowercase)
      (start lowercase id clientVersion startedAt product localIdentity config) inputs :=
  statesMeet_of_stepsMeet (fun s (h : Inv lowercase s) => h.mirrors)
    (fun _ i h hC => inv_step h i hC)
    (inv_start id clientVersion startedAt product localIdentity config) hadmissible

/-! ## A visit, and a session that resumes -/

/-- `str::to_lowercase` of ASCII text. -/
def asciiLowercase (s : String) : String := String.ofList (s.toList.map Char.toLower)

/-- A public channel with members of the given names. -/
def publicChannel (names : List String) : Snapshot :=
  .scr {
    channelId := 9
    name := "Public Chat 1"
    displayName := none
    isPublic := true
    users := names.map fun name => { name, isOperator := false, avatar := none, attributes := [] } }

/-- Sharing is switched on, and somebody comes into the room. -/
def visit : List Input :=
  [.toggle true, .snapshot (publicChannel ["Darko"]),
    .snapshot (publicChannel ["Darko", "Kerrigan"])]

theorem mirrors_rooms_visit :
    StatesMeet (step asciiLowercase fun _ => 1) (MirrorsWhenShared asciiLowercase)
      (start asciiLowercase "s" "1" 1 .remastered none {}) visit := by
  refine mirrors_rooms asciiLowercase (fun _ => 1) "s" "1" 1 .remastered none {} visit
    ⟨fun _ => trivial, fun _ => ⟨by decide +kernel, ?_⟩, fun _ => ⟨by decide +kernel, ?_⟩, trivial⟩
  · intro entry hentry
    cases hentry
  · intro entry hentry
    have hchecked : (((start asciiLowercase "s" "1" 1 .remastered none {}).step asciiLowercase
        (fun _ => 1) (.toggle true)).step asciiLowercase (fun _ => 1)
        (.snapshot (publicChannel ["Darko"]))).held (.scr 9) |>.all fun entry =>
          decide (entry.key = "public:9") && !decide (SameMembers (rosterOf
            ((publicChannel ["Darko", "Kerrigan"]).userRefs asciiLowercase none)) entry.roster) := by
      decide +kernel
    replace hchecked := (Option.all_eq_true _ _).1 hchecked entry hentry
    simp only [Bool.and_eq_true, decide_eq_true_eq, Bool.not_eq_true', decide_eq_false_iff_not]
      at hchecked
    -- somebody new is there, so the roster goes out whole
    exact ⟨hchecked.1, fun _ hsame => absurd hsame hchecked.2⟩

/-- A member in the room, sharing switched off until the session has ended, and on again. -/
def resumed : List Input :=
  [.toggle true, .snapshot (publicChannel ["Darko"]), .toggle false, .heartbeat, .toggle true,
    .heartbeat]

/-- The session is announced again, but no roster follows. -/
theorem resumed_room_lost :
    ¬ StatesMeet (step asciiLowercase fun _ => 1) (MirrorsWhenShared asciiLowercase)
      (start asciiLowercase "s" "1" 1 .remastered none {}) resumed := by
  intro h
  have hmirrors := h.last (by decide +kernel) (by decide +kernel)
  have hkey := (hmirrors.channels "public:9").2
    ⟨.scr 9, publicChannel ["Darko"], by decide +kernel, by decide +kernel⟩
  have hclosed : (run (step asciiLowercase fun _ => 1)
      (start asciiLowercase "s" "1" 1 .remastered none {}) resumed).uplink.viewer.contains
        "public:9" = false := by
    decide +kernel
  rw [ExtTreeMap.contains_iff_mem.2 hkey] at hclosed
  cases hclosed

end WatchedTap

end Superiority
