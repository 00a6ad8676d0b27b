import Superiority.Gateway.SessionLaw
import Superiority.Sc2.Mirrors

/-!
# The gateway's users are the chat session's rosters

Two state machines keep who is in a channel: the chat session that reads the service, and the
session of the gateway, which only ever sees the events of the first. The worker between them calls
the chat session and hands every event that it returns to the gateway, in order.

Whenever no event waits, the gateway has for every channel with a complete roster exactly the users
of the chat session's roster (`Mirrored`), and for the party under the number that stands for it.
Channels that the gateway itself has left are excepted until their next snapshot.

* `shows_applyChat` – the gateway's users refine the picture of the events (`Sc2.Picture`);
* `mirrored_run` – every run of the pair.
-/

namespace Superiority.Gateway

open Std Stateful Sc2.LiveChat

/-! ## The gateway refines the picture -/

namespace Session

variable {s : Session} {p : Sc2.Picture}

/-- The users under an index. -/
def usersOf (s : Session) (index : UInt8) : Users := (s.stateOf index).users

/-- What is known in the picture is what the session has. -/
def Shows (s : Session) (p : Sc2.Picture) : Prop :=
  ∀ index known, p index = some known → s.usersOf index = known

@[simp] theorem identifyToon_usersOf (index other : UInt8) (s : Session) :
    (identifyToon index s).usersOf other = s.usersOf other := by
  rw [usersOf, identifyToon_stateOf, usersOf]

theorem usersOf_congr {t : Session} (h : t.channels = s.channels) (index : UInt8) :
    t.usersOf index = s.usersOf index := by
  rw [usersOf, stateOf, h, usersOf, stateOf]

theorem Shows.of_channels {t : Session} (hs : s.Shows p) (h : t.channels = s.channels) :
    t.Shows p := by
  intro index known hknown
  rw [usersOf_congr h]
  exact hs index known hknown

/-- A session with new users under one index shows the picture with these users. -/
theorem Shows.update {t : Session} {index : UInt8} {known : Option Users}
    (hs : s.Shows p) (hself : ∀ after, known = some after → t.usersOf index = after)
    (hother : ∀ other, other ≠ index → t.usersOf other = s.usersOf other) :
    t.Shows (Function.update p index known) := by
  intro other after hafter
  by_cases hindex : other = index
  · subst hindex
    rw [Function.update_self] at hafter
    exact hself after hafter
  · rw [Function.update_of_ne hindex] at hafter
    rw [hother other hindex]
    exact hs other after hafter

theorem usersOf_setState_self (index : UInt8) (state : ChannelState) (s : Session) :
    (setState index state s).usersOf index = state.users := by
  rw [usersOf, setState_stateOf_self]

theorem usersOf_setState_of_ne {index other : UInt8} (h : other ≠ index) (state : ChannelState)
    (s : Session) : (setState index state s).usersOf other = s.usersOf other := by
  rw [usersOf, setState_stateOf_of_ne (Ne.symm h), usersOf]

theorem usersOf_erase_self {t : Session} {index : UInt8}
    (h : t.channels = s.channels.erase index) : t.usersOf index = ∅ := by
  rw [usersOf, stateOf, h, ExtTreeMap.getElem?_erase_self]
  rfl

theorem usersOf_erase_of_ne {t : Session} {index other : UInt8} (hne : other ≠ index)
    (h : t.channels = s.channels.erase index) : t.usersOf other = s.usersOf other := by
  rw [usersOf, stateOf, h, getElem?_erase_of_ne (Ne.symm hne), usersOf, stateOf]

/-- To set the state of a channel and look for the toon is all that changes channels. -/
theorem shows_set (hs : s.Shows p) {index : UInt8} (state : ChannelState) {known : Option Users}
    (hknown : ∀ after, known = some after → state.users = after) {t : Session}
    (ht : t.channels = (identifyToon index (setState index state s)).channels) :
    t.Shows (Function.update p index known) := by
  refine Shows.of_channels (s := identifyToon index (setState index state s)) ?_ ht
  refine hs.update (fun after hafter => ?_) fun other hne => ?_
  · rw [identifyToon_usersOf, usersOf_setState_self]
    exact hknown after hafter
  · rw [identifyToon_usersOf, usersOf_setState_of_ne hne]

theorem shows_applyJoined (hs : s.Shows p) (index : UInt8) (channel : ChatChannel)
    (localMemberHandle : UInt32) : (applyJoined index channel localMemberHandle s).Shows p := by
  let state : ChannelState := { s.stateOf index with
    channel := some channel
    localMemberHandle := some localMemberHandle }
  have hset : (applyJoined index channel localMemberHandle s).channels
      = (identifyToon index (setState index state s)).channels := by
    unfold applyJoined
    dsimp only
    split
    · exact (activate_fields index _).2.2.1
    · rfl
  have hshown : (applyJoined index channel localMemberHandle s).Shows
      (Function.update p index (p index)) :=
    shows_set hs state (fun after hafter => hs index after hafter) hset
  rwa [Function.update_eq_self] at hshown

theorem shows_applyRoster (hs : s.Shows p) (snapshot : Sc2.RosterSnapshot) :
    (applyRoster snapshot s).2.Shows (p.see (.roster snapshot)) := by
  refine shows_set hs { s.stateOf snapshot.channelIndex with
    users := Sc2.collect snapshot.users } (fun after hafter => Option.some.inj hafter) ?_
  unfold applyRoster
  dsimp only
  split_ifs <;> rfl

theorem shows_applyMemberJoined (hs : s.Shows p) (index : UInt8) (joined : Sc2.ChatUser) :
    (applyMemberJoined index joined s).2.Shows (p.see (.memberJoined index joined)) := by
  refine shows_set hs { s.stateOf index with
    users := (s.stateOf index).users.insert joined.handle joined } (fun after hafter => ?_) ?_
  · obtain ⟨before, hbefore, rfl⟩ := Option.map_eq_some_iff.1 hafter
    rw [← hs index before hbefore, usersOf]
  · unfold applyMemberJoined
    dsimp only
    split_ifs <;> rfl

theorem shows_applyMemberLeft (hs : s.Shows p) (index : UInt8) (left : Sc2.ChatUser)
    (reason : Option UInt16) :
    (applyMemberLeft index left s).2.Shows (p.see (.memberLeft index left reason)) := by
  have hself : (applyMemberLeft index left s).2.usersOf index
      = (s.usersOf index).erase left.handle := by
    unfold applyMemberLeft usersOf stateOf
    cases hstate : s.channels[index]? with
    | none => simp [hstate]
    | some state =>
      dsimp only
      cases state.users[left.handle]? with
      | none => simp [setState]
      | some removed =>
        dsimp only
        split_ifs <;> simp [setState]
  have hother (other : UInt8) (hne : other ≠ index) :
      (applyMemberLeft index left s).2.usersOf other = s.usersOf other := by
    unfold applyMemberLeft
    cases s.channels[index]? with
    | none => rfl
    | some state =>
      dsimp only
      cases state.users[left.handle]? with
      | none => exact usersOf_setState_of_ne hne _ s
      | some removed =>
        dsimp only
        split_ifs <;> exact usersOf_setState_of_ne hne _ s
  refine hs.update (fun after hafter => ?_) hother
  obtain ⟨before, hbefore, rfl⟩ := Option.map_eq_some_iff.1 hafter
  rw [hself, hs index before hbefore]

theorem shows_applyRemoved (hs : s.Shows p) (index : UInt8) (reason : Option UInt16) :
    (applyRemoved index reason s).2.Shows (p.see (.removed index reason)) := by
  have hchannels : (applyRemoved index reason s).2.channels = s.channels.erase index := by
    unfold applyRemoved
    dsimp only
    split_ifs <;> rfl
  refine hs.update (fun after hafter => ?_) fun other hne =>
    usersOf_erase_of_ne hne hchannels
  obtain ⟨before, -, rfl⟩ := Option.map_eq_some_iff.1 hafter
  exact usersOf_erase_self hchannels

/-- **Each event.** The session makes of it what the picture does. -/
theorem shows_applyChat (hs : s.Shows p) (event : Sc2.ChatEvent) :
    (applyChat event s).2.Shows (p.see event) := by
  cases event with
  | roster snapshot => exact shows_applyRoster hs snapshot
  | memberJoined index joined => exact shows_applyMemberJoined hs index joined
  | memberLeft index left reason => exact shows_applyMemberLeft hs index left reason
  | removed index reason => exact shows_applyRemoved hs index reason
  | joined index channel handle shard => exact shows_applyJoined hs index channel handle
  | friends friends =>
    refine hs.of_channels ?_
    show (applyFriends friends s).2.channels = s.channels
    unfold applyFriends
    dsimp only
    split_ifs <;> rfl
  | _ => exact hs.of_channels rfl

theorem shows_foldl (hs : s.Shows p) (events : List Sc2.ChatEvent) :
    (events.foldl (fun session event => (session.applyChat event).2) s).Shows
      (p.watch events) := by
  induction events generalizing s p with
  | nil => exact hs
  | cons event events ih => exact ih (shows_applyChat hs event)

end Session

/-! ## The pair -/

/-- A chat session, the session of the gateway that is handed its events, and the channels that the
gateway has left since their last snapshot was handed to it. -/
structure Hosting where
  chat : Sc2.LiveChat
  session : Session := {}
  left : ExtTreeSet UInt8 := ∅

namespace Hosting

/-- What happens to the pair: the worker makes a call, or the gateway does something by itself. -/
inductive Act where
  | worker (m : Sc2.Moment) (c : Call)
  | join (requested : String)
  | leaveActiveChannel

/-- A snapshot of a channel ends that it counts as left. -/
def heed (left : ExtTreeSet UInt8) : Sc2.ChatEvent → ExtTreeSet UInt8
  | .roster snapshot => left.erase snapshot.channelIndex
  | _ => left

def step (tables : Sc2.Tables) (w : Hosting) : Act → Hosting
  | .worker m c => {
      chat := (call tables m c w.chat).2
      session := (returned (call tables m c w.chat).1).foldl
        (fun session event => (session.applyChat event).2) w.session
      left := (returned (call tables m c w.chat).1).foldl heed w.left }
  | .join requested => { w with session := (Session.join requested w.session).2 }
  | .leaveActiveChannel => { w with
      session := (Session.leaveActiveChannel w.session).2
      left := w.session.activeChannelIndex.elim w.left w.left.insert }

/-- A record that the worker reads is carried through, and no room in it has the number that stands
for the party. -/
def Admissible (tables : Sc2.Tables) (w : Hosting) : Act → Prop
  | .worker m c => Carried tables w.chat (m, c)
  | _ => True

instance (tables : Sc2.Tables) (w : Hosting) : (a : Act) → Decidable (Admissible tables w a)
  | .worker m c => inferInstanceAs (Decidable (Carried tables w.chat (m, c)))
  | .join _ | .leaveActiveChannel => .isTrue trivial

/-- Every complete roster of the chat session is what the gateway has of the channel, unless the
gateway has left it. -/
structure Mirrored (w : Hosting) : Prop where
  rooms : ∀ index channel, w.chat.channels[index]? = some channel →
    channel.initialRosterComplete = true → index ∉ w.left →
      w.session.usersOf index = Sc2.Roster.users channel.roster
  party : ∀ party, w.chat.party = some party → party.state.initialRosterComplete = true →
    Sc2.partyUiChannelIndex ∉ w.left →
      w.session.usersOf Sc2.partyUiChannelIndex = Sc2.Roster.users party.state.roster

/-- What every run keeps: a picture that the gateway shows and that the events which still wait
make true, and that lacks nothing but what the gateway has left. -/
structure Inv (w : Hosting) (p : Sc2.Picture) : Prop where
  mirrors : Sc2.LiveChat.Mirrors w.chat p
  shows : w.session.Shows p
  known : ∀ index, p index = none → index ∈ w.left

variable {w : Hosting} {p : Sc2.Picture} {tables : Sc2.Tables}

theorem Inv.mirrored (h : w.Inv p) (hempty : w.chat.pendingEvents = []) : w.Mirrored := by
  have hknown {index : UInt8} {users : Users} (hagrees : p.Agrees index users)
      (hleft : index ∉ w.left) : w.session.usersOf index = users := by
    cases hp : p index with
    | none => exact (hleft (h.known index hp)).elim
    | some known => rw [h.shows index known hp, hagrees known hp]
  have hrooms := h.mirrors.rooms
  have hparty := h.mirrors.party
  rw [hempty] at hrooms hparty
  exact ⟨fun index channel hchannel hcomplete => hknown (hrooms index channel hchannel hcomplete),
    fun party hsome hcomplete => hknown (hparty party hsome hcomplete)⟩

/-- Without a snapshot nothing that was unknown is known, and a snapshot is heeded. -/
theorem known_see {left : ExtTreeSet UInt8} (h : ∀ index, p index = none → index ∈ left)
    (event : Sc2.ChatEvent) : ∀ index, p.see event index = none → index ∈ heed left event := by
  intro index hindex
  by_cases habout : Sc2.Picture.about event = some index
  · cases event with
    | roster snapshot =>
      obtain rfl : snapshot.channelIndex = index := Option.some.inj habout
      simp [Sc2.Picture.see] at hindex
    | memberJoined other _ | memberLeft other _ _ | removed other _ =>
      obtain rfl : other = index := Option.some.inj habout
      simp only [Sc2.Picture.see, Function.update_self, Option.map_eq_none_iff] at hindex
      exact h other hindex
    | _ => cases habout
  · rw [p.see_of_about_ne habout] at hindex
    cases event with
    | roster snapshot =>
      rw [heed, ExtTreeSet.mem_erase]
      refine ⟨fun hsame => ?_, h index hindex⟩
      exact habout (congrArg some (Std.LawfulEqCmp.eq_of_compare hsame))
    | _ => exact h index hindex

theorem known_watch {left : ExtTreeSet UInt8} (h : ∀ index, p index = none → index ∈ left)
    (events : List Sc2.ChatEvent) :
    ∀ index, p.watch events index = none → index ∈ events.foldl heed left := by
  induction events generalizing p left with
  | nil => exact h
  | cons event events ih => exact ih (known_see h event)

theorem inv_worker (h : w.Inv p) {m : Sc2.Moment} {c : Call}
    (hcarried : Carried tables w.chat (m, c)) : ∃ q, (w.step tables (.worker m c)).Inv q :=
  ⟨_, mirrors_call tables m h.mirrors hcarried, Session.shows_foldl h.shows _,
    known_watch h.known _⟩

theorem inv_join (h : w.Inv p) (requested : String) : (w.step tables (.join requested)).Inv p := by
  have hchannels : (Session.join requested w.session).2.channels = w.session.channels := by
    unfold Session.join
    dsimp only
    split
    · rfl
    · rw [bind_of_ok (read_apply w.session)]
      split <;> rfl
  have hshows : (Session.join requested w.session).2.Shows p := h.shows.of_channels hchannels
  have hstep : w.step tables (.join requested)
      = { w with session := (Session.join requested w.session).2 } := rfl
  rw [hstep]
  exact ⟨h.mirrors, hshows, h.known⟩

/-- To leave a channel is to know nothing of it. -/
theorem inv_leaveActiveChannel (h : w.Inv p) :
    ∃ q, (w.step tables .leaveActiveChannel).Inv q := by
  cases hactive : w.session.activeChannelIndex with
  | none =>
    have hsame : w.step tables .leaveActiveChannel = w := by
      unfold step Session.leaveActiveChannel
      rw [hactive]
      rfl
    exact ⟨p, by rw [hsame]; exact h⟩
  | some index =>
    have hsession : (w.step tables .leaveActiveChannel).session.channels
        = w.session.channels.erase index := by
      unfold step Session.leaveActiveChannel
      rw [hactive]
      rfl
    have hleft : (w.step tables .leaveActiveChannel).left = w.left.insert index := by
      unfold step
      rw [hactive]
      rfl
    refine ⟨p.forget index, h.mirrors.forget index, ?_, fun other hother => ?_⟩
    · refine h.shows.update (fun after hafter => by cases hafter) fun other hne => ?_
      exact Session.usersOf_erase_of_ne hne hsession
    · rw [hleft, ExtTreeSet.mem_insert]
      by_cases hindex : other = index
      · exact Or.inl (by rw [hindex]; exact Std.ReflCmp.compare_self)
      · exact Or.inr (h.known other ((Function.update_of_ne hindex _ _).symm.trans hother))

/-- **One act.** -/
theorem inv_step (h : w.Inv p) {a : Act} (ha : Admissible tables w a) :
    ∃ q, (w.step tables a).Inv q := by
  cases a with
  | worker m c => exact inv_worker h ha
  | join requested => exact ⟨p, inv_join h requested⟩
  | leaveActiveChannel => exact inv_leaveActiveChannel h

/-- **The gateway mirrors the chat session.** From a pair that agrees, whatever the worker calls,
whatever the service sends and whatever the gateway does, whenever no event waits the gateway has
every complete roster of the chat session as it is. -/
theorem mirrored_run (tables : Sc2.Tables) {w : Hosting} (hstart : w.Mirrored)
    (hempty : w.chat.pendingEvents = []) (hapart : Sc2.partyUiChannelIndex ∉ w.chat.channels)
    {acts : List Act} (h : StepsMeet (step tables) (Admissible tables) w acts) :
    StatesMeet (step tables) (fun w => w.chat.pendingEvents = [] → w.Mirrored) w acts := by
  have hmirrored (w : Hosting) (hw : ∃ p, w.Inv p) :
      w.chat.pendingEvents = [] → w.Mirrored :=
    hw.elim fun p hp => hp.mirrored
  have hstep (w : Hosting) (a : Act) (hw : ∃ p, w.Inv p) (ha : Admissible tables w a) :
      ∃ p, (w.step tables a).Inv p :=
    hw.elim fun p hp => inv_step hp ha
  refine statesMeet_of_stepsMeet hmirrored hstep ?_ h
  -- At the start the picture is what the gateway has, but for what it has left.
  refine ⟨fun index => if index ∈ w.left then none else some (w.session.usersOf index), ?_, ?_, ?_⟩
  · refine ⟨fun index channel hchannel hcomplete known hknown => ?_,
      fun party hparty hcomplete known hknown => ?_, hapart⟩
    · rw [hempty] at hknown
      by_cases hleft : index ∈ w.left
      · simp [Sc2.Picture.watch, hleft] at hknown
      · rw [← hstart.rooms index channel hchannel hcomplete hleft]
        simpa [Sc2.Picture.watch, hleft] using hknown.symm
    · rw [hempty] at hknown
      by_cases hleft : Sc2.partyUiChannelIndex ∈ w.left
      · simp [Sc2.Picture.watch, hleft] at hknown
      · rw [← hstart.party party hparty hcomplete hleft]
        simpa [Sc2.Picture.watch, hleft] using hknown.symm
  · intro index known hknown
    by_cases hleft : index ∈ w.left
    · simp [hleft] at hknown
    · simpa [hleft] using hknown
  · intro index hindex
    by_contra hleft
    simp [hleft] at hindex

/-- A channel is joined, its roster comes, a member arrives while the gateway reads, and the
gateway leaves. -/
def visit : List Act :=
  [.worker Sc2.LiveChat.calm (.join [7] (.public_ 3)),
    .worker Sc2.LiveChat.calm (.receive (.ok {
      route := (some 0, 0)
      value := .chatJoin {
        success := true
        channelIndex := some 1
        memberHandle := some 5
        channelType := some Sc2.publicChannelType
        channelNameId := some 3
        channelShardIndex := none
        reason := none
        token := some 7 } })),
    .worker Sc2.LiveChat.calm (.receive (.ok {
      route := (some 0, 0)
      value := .chatMembership {
        channelIndex := 1
        endOfInitial := true
        changes := [{ kind := .join, memberHandle := 5 }] } })),
    .worker Sc2.LiveChat.calm (.receive (.ok {
      route := (some 0, 0)
      value := .chatMembership {
        channelIndex := 1
        endOfInitial := false
        changes := [{ kind := .join, memberHandle := 6 }] } })),
    .worker Sc2.LiveChat.calm (.receive (.error (.io "closed"))),
    .leaveActiveChannel]

theorem mirrored_run_visit : StatesMeet (step Sc2.LiveChat.noTables)
    (fun w => w.chat.pendingEvents = [] → w.Mirrored)
      { chat := { defaultChannelIndex := 0 } } visit := by
  refine mirrored_run Sc2.LiveChat.noTables
    ⟨fun index channel hchannel => ?_, fun party hparty => ?_⟩ rfl (by simp) (by decide +kernel)
  · rw [ExtTreeMap.getElem?_empty] at hchannel
    cases hchannel
  · cases hparty

end Hosting

end Superiority.Gateway
