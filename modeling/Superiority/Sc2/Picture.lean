import Superiority.Sc2.Frames

/-!
# What the events tell of who is where

A chat session keeps a roster for every channel and one for its party, and tells its host of them
in two ways: single arrivals and departures, and whole snapshots. A `Picture` is what a host that
does nothing but listen knows: it folds the events, one by one, into the users of each channel.

The picture that the events of a session draw, those that still wait included, agrees with the
rosters that the session keeps wherever the first roster is complete (`Mirrors`). Every call keeps
this (`mirrors_call`), unless it reads a record and fails, which ends the session. One number is the
host's name for the party; no room may have it.

A host that forgets a channel knows nothing of it until the next snapshot.
-/

namespace Superiority.Sc2

open Std

/-! ## Pictures -/

abbrev Users := ExtTreeMap UInt32 ChatUser

/-- The users of a snapshot, by their handles. -/
def collect (users : List ChatUser) : Users :=
  users.foldl (fun users user => users.insert user.handle user) ∅

/-- The users that a roster is shown as. -/
def Roster.users (roster : Roster) : Users :=
  roster.map fun handle member => userOf handle (some member)

/-- The users of each channel that a host knows of. -/
abbrev Picture := UInt8 → Option Users

namespace Picture

/-- What a host makes of an event. -/
def see (p : Picture) : ChatEvent → Picture
  | .roster snapshot => Function.update p snapshot.channelIndex (some (collect snapshot.users))
  | .memberJoined channelIndex user =>
    Function.update p channelIndex ((p channelIndex).map (·.insert user.handle user))
  | .memberLeft channelIndex user _ =>
    Function.update p channelIndex ((p channelIndex).map (·.erase user.handle))
  | .removed channelIndex _ => Function.update p channelIndex ((p channelIndex).map fun _ => ∅)
  | _ => p

/-- What a host makes of events, one after the other. -/
def watch (p : Picture) (events : List ChatEvent) : Picture := events.foldl see p

/-- The host knows the users, or nothing. -/
def Agrees (p : Picture) (channelIndex : UInt8) (users : Users) : Prop :=
  ∀ known, p channelIndex = some known → known = users

/-- What is known in one picture is known in the other. -/
def Below (p q : Picture) : Prop :=
  ∀ channelIndex, p channelIndex = none ∨ p channelIndex = q channelIndex

/-- The channel that an event is about. -/
def about : ChatEvent → Option UInt8
  | .roster snapshot => some snapshot.channelIndex
  | .memberJoined channelIndex _ | .memberLeft channelIndex _ _ | .removed channelIndex _ =>
    some channelIndex
  | _ => none

theorem see_of_about_ne (p : Picture) {event : ChatEvent} {channelIndex : UInt8}
    (h : about event ≠ some channelIndex) : p.see event channelIndex = p channelIndex := by
  cases event with
  | roster _ | memberJoined _ _ | memberLeft _ _ _ | removed _ _ =>
    exact Function.update_of_ne (fun heq => h (congrArg some heq.symm)) _ _
  | _ => rfl

theorem see_of_about_none (p : Picture) {event : ChatEvent} (h : about event = none) :
    p.see event = p := by
  funext channelIndex
  exact p.see_of_about_ne (by rw [h]; exact (Option.some_ne_none channelIndex).symm)

theorem watch_append (p : Picture) (events events' : List ChatEvent) :
    p.watch (events ++ events') = (p.watch events).watch events' := List.foldl_append

/-- Events about other channels. -/
theorem watch_of_about_ne (p : Picture) {events : List ChatEvent} {channelIndex : UInt8}
    (h : ∀ event ∈ events, about event ≠ some channelIndex) :
    p.watch events channelIndex = p channelIndex := by
  induction events generalizing p with
  | nil => rfl
  | cons event events ih =>
    rw [watch, List.foldl_cons]
    exact (ih _ fun event' h' => h event' (List.mem_cons_of_mem _ h')).trans
      (p.see_of_about_ne (h event (List.mem_cons_self ..)))

/-- Events about no channel. -/
theorem watch_of_about_none (p : Picture) {events : List ChatEvent}
    (h : ∀ event ∈ events, about event = none) : p.watch events = p := by
  funext channelIndex
  refine p.watch_of_about_ne fun event hevent => ?_
  rw [h event hevent]
  exact (Option.some_ne_none channelIndex).symm

theorem below_see {p q : Picture} (h : Below p q) (event : ChatEvent) :
    Below (p.see event) (q.see event) := by
  intro channelIndex
  by_cases habout : about event = some channelIndex
  · cases event with
    | roster snapshot =>
      obtain rfl : snapshot.channelIndex = channelIndex := Option.some.inj habout
      exact Or.inr (by simp [see])
    | memberJoined index _ | memberLeft index _ _ | removed index _ =>
      obtain rfl : index = channelIndex := Option.some.inj habout
      rcases h index with hnone | heq
      · exact Or.inl (by simp [see, hnone])
      · exact Or.inr (by simp [see, heq])
    | _ => cases habout
  · rw [see_of_about_ne p habout, see_of_about_ne q habout]
    exact h channelIndex

/-- A host that knows less to begin with knows no more in the end, and nothing else. -/
theorem below_watch {p q : Picture} (h : Below p q) (events : List ChatEvent) :
    Below (p.watch events) (q.watch events) := by
  induction events generalizing p q with
  | nil => exact h
  | cons event events ih => exact ih (below_see h event)

theorem Agrees.below {p q : Picture} (h : Below p q) {channelIndex : UInt8} {users : Users}
    (hq : q.Agrees channelIndex users) : p.Agrees channelIndex users := by
  intro known hknown
  rcases h channelIndex with hnone | heq
  · rw [hnone] at hknown
    cases hknown
  · exact hq known (heq ▸ hknown)

/-- The host forgets a channel. -/
def forget (p : Picture) (channelIndex : UInt8) : Picture := Function.update p channelIndex none

theorem below_forget (p : Picture) (channelIndex : UInt8) : Below (p.forget channelIndex) p := by
  intro index
  by_cases h : index = channelIndex
  · exact Or.inl (by rw [h, forget, Function.update_self])
  · exact Or.inr (Function.update_of_ne h _ _)

end Picture

/-! ## Snapshots -/

theorem getElem?_collect {users : List ChatUser} (hnodup : (users.map ChatUser.handle).Nodup)
    (handle : UInt32) : (collect users)[handle]? = users.find? (·.handle = handle) := by
  have hfold (start : Users) :
      (users.foldl (fun users user => users.insert user.handle user) start)[handle]?
        = (users.find? (·.handle = handle)).or start[handle]? := by
    induction users generalizing start with
    | nil => rfl
    | cons user users ih =>
      obtain ⟨hnot, hnodup⟩ := List.nodup_cons.1 hnodup
      rw [List.foldl_cons, ih hnodup, List.find?_cons]
      by_cases hhandle : user.handle = handle
      · have hnone : users.find? (·.handle = handle) = none := by
          rw [List.find?_eq_none]
          intro other hother
          have hne : other.handle ≠ handle := fun h =>
            hnot (List.mem_map.2 ⟨other, hother, h.trans hhandle.symm⟩)
          simpa using hne
        rw [hnone, hhandle]
        simp
      · rw [getElem?_insert_of_ne hhandle]
        simp [hhandle]
  rw [collect, hfold, ExtTreeMap.getElem?_empty, Option.or_none]

/-- The users of a snapshot are those of the roster. -/
theorem collect_rosterSnapshot (state : ChannelState) (channelIndex : UInt8) :
    collect (rosterSnapshot state channelIndex).users = Roster.users state.roster := by
  have hperm := List.mergeSort_perm state.roster.toList fun a b =>
    decide (a.2.joinedOrder ≤ b.2.joinedOrder)
  have hhandles : ((rosterSnapshot state channelIndex).users.map ChatUser.handle).Nodup := by
    have hkeys : (state.roster.toList.map (·.1)).Nodup := by
      refine List.pairwise_map.2 (ExtTreeMap.distinct_keys_toList.imp fun hne hsame => hne ?_)
      rw [hsame]
      exact Std.ReflCmp.compare_self
    rw [rosterSnapshot, List.map_map]
    exact (hperm.map _).nodup_iff.2 hkeys
  have hmem (user : ChatUser) : user ∈ (rosterSnapshot state channelIndex).users ↔ ∃ handle member,
      state.roster[handle]? = some member ∧ userOf handle (some member) = user := by
    simp [rosterSnapshot, ExtTreeMap.mem_toList_iff_getElem?_eq_some]
  apply ExtTreeMap.ext_getElem?
  intro handle
  rw [getElem?_collect hhandles, Roster.users, ExtTreeMap.getElem?_map]
  cases hmember : state.roster[handle]? with
  | none =>
    rw [Option.map_none, List.find?_eq_none]
    intro user huser
    obtain ⟨handle', member, hmember', rfl⟩ := (hmem user).1 huser
    have hne : handle' ≠ handle := by
      rintro rfl
      rw [hmember] at hmember'
      cases hmember'
    simp [userOf, hne]
  | some member =>
    have hin := (hmem (userOf handle (some member))).2 ⟨handle, member, hmember, rfl⟩
    cases hfind : (rosterSnapshot state channelIndex).users.find? (·.handle = handle) with
    | none =>
      have hnone := List.find?_eq_none.1 hfind _ hin
      simp [userOf] at hnone
    | some user =>
      obtain ⟨handle', member', hmember', rfl⟩ := (hmem user).1 (List.mem_of_find?_eq_some hfind)
      have hsame := List.find?_some hfind
      obtain rfl : handle' = handle := of_decide_eq_true hsame
      rw [hmember] at hmember'
      rw [← Option.some.inj hmember', Option.map_some]

/-! ## Rosters that are kept and shown -/

namespace LiveChat

open Stateful

/-- The events that wait, seen by a host, show every roster that is complete; no room has the
number that the host knows the party by. -/
structure Mirrors (s : LiveChat) (p : Picture) : Prop where
  rooms : ∀ channelIndex channel, s.channels[channelIndex]? = some channel →
    channel.initialRosterComplete = true →
      (p.watch s.pendingEvents).Agrees channelIndex (Roster.users channel.roster)
  party : ∀ party, s.party = some party → party.state.initialRosterComplete = true →
    (p.watch s.pendingEvents).Agrees partyUiChannelIndex (Roster.users party.state.roster)
  apart : partyUiChannelIndex ∉ s.channels

/-- A host that forgets a channel still has no false picture. -/
theorem Mirrors.forget {s : LiveChat} {p : Picture} (h : Mirrors s p) (channelIndex : UInt8) :
    Mirrors s (p.forget channelIndex) where
  rooms index channel hchannel hcomplete :=
    (h.rooms index channel hchannel hcomplete).below
      (Picture.below_watch (p.below_forget channelIndex) _)
  party party hparty hcomplete :=
    (h.party party hparty hcomplete).below (Picture.below_watch (p.below_forget channelIndex) _)
  apart := h.apart

/-- An event that is about no channel. -/
abbrev Placeless (event : ChatEvent) : Prop := Picture.about event = none

/-- The roster was complete before, with the same members. -/
def HasRoster (before : Option ChannelState) (roster : Roster) : Prop :=
  ∃ channel, before = some channel ∧ channel.initialRosterComplete = true ∧ channel.roster = roster

/-- Every roster that is complete after was so before. -/
def KeepsRoster (before after : Option ChannelState) : Prop :=
  ∀ channel, after = some channel → channel.initialRosterComplete = true →
    HasRoster before channel.roster

theorem KeepsRoster.refl (state : Option ChannelState) : KeepsRoster state state :=
  fun channel hchannel hcomplete => ⟨channel, hchannel, hcomplete, rfl⟩

theorem KeepsRoster.trans {first second third : Option ChannelState}
    (h : KeepsRoster first second) (k : KeepsRoster second third) : KeepsRoster first third := by
  intro channel hchannel hcomplete
  obtain ⟨mid, hmid, hmidComplete, hroster⟩ := k channel hchannel hcomplete
  exact hroster ▸ h mid hmid hmidComplete

/-- No roster is changed: what is complete was complete before with the same members, and nothing
is told of who is where. -/
structure Retains (s t : LiveChat) : Prop where
  rooms : ∀ channelIndex : UInt8, KeepsRoster s.channels[channelIndex]? t.channels[channelIndex]?
  party : KeepsRoster (s.party.map (·.state)) (t.party.map (·.state))
  apart : partyUiChannelIndex ∉ s.channels → partyUiChannelIndex ∉ t.channels
  told : Grows Placeless s.pendingEvents t.pendingEvents

instance : Std.Refl Retains where
  refl _ := ⟨fun _ => .refl _, .refl _, id, .refl _ _⟩

instance : IsTrans LiveChat Retains where
  trans _ _ _ h k := ⟨fun index => (h.rooms index).trans (k.rooms index), h.party.trans k.party,
    k.apart ∘ h.apart, h.told.trans k.told⟩

theorem Mirrors.retains {s t : LiveChat} {p : Picture} (h : Mirrors s p) (k : Retains s t) :
    Mirrors t p := by
  have hwatch : p.watch t.pendingEvents = p.watch s.pendingEvents := by
    obtain ⟨added, hadded, hplaceless⟩ := k.told
    rw [hadded, Picture.watch_append]
    exact Picture.watch_of_about_none _ hplaceless
  refine ⟨fun index channel hchannel hcomplete => ?_, fun party hparty hcomplete => ?_,
    k.apart h.apart⟩
  · obtain ⟨before, hbefore, hbeforeComplete, hroster⟩ := k.rooms index channel hchannel hcomplete
    rw [hwatch, ← hroster]
    exact h.rooms index before hbefore hbeforeComplete
  · obtain ⟨state, hstate, hstateComplete, hroster⟩ :=
      k.party party.state (by rw [hparty]; rfl) hcomplete
    obtain ⟨before, hbefore, rfl⟩ := Option.map_eq_some_iff.1 hstate
    rw [hwatch, ← hroster]
    exact h.party before hbefore hstateComplete

/-- What has nothing to do with rooms changes no roster. -/
theorem retains_of_elsewhere {α : Type} {x : Chat α} (hx : Within Elsewhere x) :
    Within Retains x := by
  refine hx.mono fun s t h => ?_
  have hchannels : t.onlyRooms.channels = s.onlyRooms.channels := congrArg channels h.kept
  have hparty : t.onlyRooms.party = s.onlyRooms.party := congrArg party h.kept
  refine ⟨fun index => ?_, ?_, fun hnot hmem => hnot (hchannels ▸ hmem), ?_⟩
  · rw [show t.channels[index]? = s.channels[index]? from congrArg (·[index]?) hchannels]
    exact .refl _
  · rw [show t.party = s.party from hparty]
    exact .refl _
  · refine h.told.mono fun event hevent => ?_
    cases event <;> first | rfl | exact (hevent trivial).elim

end LiveChat

end Superiority.Sc2
