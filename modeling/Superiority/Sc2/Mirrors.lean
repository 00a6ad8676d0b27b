import Superiority.Sc2.Picture

/-!
# A host that listens knows the rosters

Every call of a chat session keeps the picture that its events draw true (`Sc2.Picture`). Most
calls change no roster that is complete (`Retains`). Three places do: a membership, which tells
single changes and ends with a snapshot; the rosters that follow a record, which are shown where
presence has changed them; and a channel that is joined anew, whose roster is not complete.

* `mirrors_receiveMembership` – a membership;
* `mirrors_synchronizeRosters` – what follows a record;
* `mirrors_receiveRecord` – a whole record;
* `mirrors_call` – every call, with what its host makes of the event that it returns.
-/

namespace Superiority.Sc2

open Std

namespace LiveChat

open Stateful

variable {s t : LiveChat} {p : Picture}

/-! ## Steps that change no roster -/

theorem retains_of_same (hchannels : t.channels = s.channels) (hparty : t.party = s.party)
    (htold : Grows Placeless s.pendingEvents t.pendingEvents) : Retains s t where
  rooms index := by
    rw [hchannels]
    exact .refl _
  party := by
    rw [hparty]
    exact .refl _
  apart hnot := hchannels ▸ hnot
  told := htold

theorem retains_change {f : LiveChat → LiveChat} (hchannels : ∀ s, (f s).channels = s.channels)
    (hparty : ∀ s, (f s).party = s.party) (htold : ∀ s, (f s).pendingEvents = s.pendingEvents) :
    Within Retains (change f : Chat Unit) :=
  fun s => retains_of_same (hchannels s) (hparty s) (htold s ▸ .refl _ _)

theorem retains_send (m : Moment) (request : Request) : Within Retains (send m request) := by
  intro s
  unfold send
  cases m.transmit s.sent request with
  | error e => exact Std.Refl.refl s
  | ok _ => exact retains_of_same rfl rfl (.refl _ _)

/-- A party that was not there before, or whose roster is as it was. -/
theorem retains_party {party : Option PartyChannelState}
    (h : KeepsRoster (s.party.map (·.state)) (party.map (·.state))) :
    Retains s { s with party } where
  rooms _ := .refl _
  party := h
  apart := id
  told := .refl _ _

/-- Channels that begin anew, or keep their rosters, or go. -/
theorem retains_channels {channels : ExtTreeMap UInt8 ChannelState}
    (h : ∀ index : UInt8, KeepsRoster s.channels[index]? channels[index]?)
    (hapart : partyUiChannelIndex ∉ s.channels → partyUiChannelIndex ∉ channels) :
    Retains s { s with channels } where
  rooms := h
  party := .refl _
  apart := hapart
  told := .refl _ _

/-- The party that is there, or none. -/
theorem keepsRoster_filter (party : Option PartyChannelState) (keep : PartyChannelState → Bool) :
    KeepsRoster (party.map (·.state)) ((party.filter keep).map (·.state)) := by
  intro channel hchannel hcomplete
  obtain ⟨after, hafter, rfl⟩ := Option.map_eq_some_iff.1 hchannel
  rw [(Option.filter_eq_some_iff.1 hafter).1]
  exact ⟨after.state, rfl, hcomplete, rfl⟩

/-- A state with the roster of another, and complete only when that is. -/
theorem keepsRoster_some {before : Option ChannelState} {base after : ChannelState}
    (h : KeepsRoster before (some base)) (hroster : after.roster = base.roster)
    (hcomplete : after.initialRosterComplete = base.initialRosterComplete) :
    KeepsRoster before (some after) := by
  intro channel hchannel hdone
  obtain rfl := Option.some.inj hchannel
  rw [hroster]
  exact h base rfl (hcomplete ▸ hdone)

/-- A state that begins anew. -/
theorem keepsRoster_fresh (before : Option ChannelState) {after : ChannelState}
    (h : after.initialRosterComplete = false) : KeepsRoster before (some after) := by
  intro channel hchannel hcomplete
  obtain rfl := Option.some.inj hchannel
  rw [h] at hcomplete
  cases hcomplete

/-- The state that is there, or else one that begins anew. -/
theorem keepsRoster_getD (before : Option ChannelState) :
    KeepsRoster before (some (before.getD {})) := by
  cases before with
  | none => exact keepsRoster_fresh none rfl
  | some channel => exact .refl _

/-- A change of the channels or of the party, and of what is not shown. -/
theorem retains_then {u : LiveChat} (h : Retains s t) (hchannels : u.channels = t.channels)
    (hparty : u.party = t.party) (htold : u.pendingEvents = t.pendingEvents) : Retains s u :=
  IsTrans.trans s t u h (retains_of_same hchannels hparty (htold ▸ .refl _ _))

theorem retains_identifyInvitedPartyMember (channelIndex : UInt8) :
    Within Retains (change (identifyInvitedPartyMember channelIndex) : Chat Unit) := by
  intro s
  rw [change_apply, identifyInvitedPartyMember_eq]
  apply retains_party
  unfold identifyInvitedPartyMember
  split
  · split
    · exact .refl _
    · next party hparty =>
      split
      · exact .refl _
      · rw [(Option.filter_eq_some_iff.1 hparty).1]
        exact keepsRoster_some (.refl _) rfl rfl
  · exact .refl _

theorem retains_publishPartyOnlineIfReady (m : Moment) (channelIndex : UInt8) :
    Within Retains (publishPartyOnlineIfReady m channelIndex) := by
  refine within_bind within_read fun s => within_ite (within_pure ()) ?_
  refine within_bind (retains_identifyInvitedPartyMember channelIndex) fun _ => ?_
  refine within_bind within_read fun s => ?_
  cases (s.partyAt channelIndex).bind (·.state.localMemberHandle) with
  | none => exact within_pure ()
  | some handle =>
    exact within_bind (retains_send m _) fun _ =>
      retains_change (fun _ => rfl) (fun _ => rfl) fun _ => rfl

section Calls

variable (tables : Tables) (m : Moment)

theorem retains_joinChannel (draws : List UInt32) (channel : ChatChannel) :
    Within Retains (joinChannel m draws channel) := by
  refine within_bind within_read fun s => ?_
  cases s.nextJoinToken draws with
  | none => exact within_pure ()
  | some token =>
    refine within_orFail_bind fun request _ => within_bind (retains_send m request) fun _ => ?_
    exact within_bind (retains_change (fun _ => rfl) (fun _ => rfl) fun _ => rfl) fun _ =>
      retains_change (fun _ => rfl) (fun _ => rfl) fun _ => rfl

theorem retains_leaveParty : Within Retains (leaveParty m) := by
  refine within_bind within_read fun s => within_orFail_bind fun party _ => ?_
  refine within_bind (fun s => retains_party fun after hafter => by cases hafter) fun _ => ?_
  exact within_bind (retains_send m _) fun _ =>
    retains_change (fun _ => rfl) (fun _ => rfl) fun _ => rfl

theorem retains_leaveRoom (channelIndex : UInt8) : Within Retains (leaveRoom m channelIndex) := by
  refine within_bind within_read fun s => within_ite ?_ (within_fail _)
  refine within_bind (retains_send m _) fun _ s => ?_
  refine retains_then (t := { s with channels := s.channels.erase channelIndex })
    (retains_channels (fun index channel hchannel hcomplete => ?_) fun hnot hmem => ?_) rfl rfl rfl
  · rw [ExtTreeMap.getElem?_erase] at hchannel
    split at hchannel
    · cases hchannel
    · exact ⟨channel, hchannel, hcomplete, rfl⟩
  · exact hnot (ExtTreeMap.mem_of_mem_erase hmem)

theorem retains_leaveChannel (channelIndex : UInt8) :
    Within Retains (leaveChannel m channelIndex) :=
  within_ite (retains_leaveParty m) (retains_leaveRoom m channelIndex)

theorem retains_queueEvents {events : List ChatEvent} (h : ∀ event ∈ events, Placeless event) :
    Within Retains (queueEvents events) :=
  fun _ => retains_of_same rfl rfl (.append _ h)

theorem retains_sendMessage (channelIndex : UInt8) (body : String) :
    Within Retains (sendMessage m channelIndex body) := by
  refine within_bind within_read fun s => within_bind (within_ofExcept _) fun place => ?_
  refine within_bind (within_ofExcept _) fun handle => ?_
  refine within_bind (retains_send m _) fun _ => ?_
  refine within_bind (retains_queueEvents fun event hevent => ?_) fun _ => ?_
  · rw [List.mem_singleton.1 hevent]
    rfl
  · exact retains_change (fun _ => rfl) (fun _ => rfl) fun _ => rfl

theorem retains_answerPartyInvitation (channelIndex : UInt8) (accept : Bool) :
    Within Retains (answerPartyInvitation m channelIndex accept) := by
  refine within_bind (retains_send m _) fun _ => within_ite ?_ fun s => ?_
  · refine within_bind (retains_change (fun _ => rfl) (fun _ => rfl) fun _ => rfl) fun _ => ?_
    exact retains_publishPartyOnlineIfReady m channelIndex
  · have hparty : Retains s { s with party := s.party.filter fun party =>
        party.wireChannelIndex ≠ channelIndex } := retains_party (keepsRoster_filter _ _)
    exact retains_then hparty rfl rfl rfl

theorem retains_receiveMessage (route : Route) (message : ChatMessage) :
    Within Retains (receiveMessage m route message) := by
  refine within_bind (fun s => ?_) fun own => within_bind within_read fun s => within_pure _
  rw [take_apply, consumeLocalEcho_eq]
  exact retains_of_same rfl rfl (.refl _ _)

theorem retains_receiveInvite (invite : ChatInvite) : Within Retains (receiveInvite invite) := by
  refine within_bind (fun s => ?_) fun _ => ?_
  · have hheld : Retains s { s with party := some (s.heldParty invite.channelIndex) } := by
      apply retains_party
      unfold heldParty
      cases s.party with
      | none => exact keepsRoster_fresh none rfl
      | some party => exact .refl _
    exact retains_then hheld rfl rfl rfl
  · exact within_bind (retains_identifyInvitedPartyMember _) fun _ =>
      within_bind within_read fun s => within_pure _

/-! ### Joins -/

theorem retains_receivePartyJoin (route : Route) (result : ChatJoin) :
    Within Retains (receivePartyJoin tables m route result) := by
  refine within_bind within_read fun s => within_bind (within_ofExcept _) fun place => ?_
  refine within_bind (fun s => retains_party ?_) fun _ => ?_
  · -- A party under another index is given up, and its roster with it.
    cases hparty : s.partyAt place.1 with
    | none => exact keepsRoster_fresh _ rfl
    | some party =>
      rw [(Option.filter_eq_some_iff.1 hparty).1]
      exact keepsRoster_some (.refl _) rfl rfl
  refine within_bind (retains_change (fun _ => rfl) (fun _ => rfl) fun _ => rfl) fun _ => ?_
  refine within_bind (retains_publishPartyOnlineIfReady m _) fun _ => ?_
  refine within_bind (fun s => retains_party ?_) fun _ => within_pure _
  rw [Option.map_map]
  exact .refl _

theorem retains_enterChannel (route : Route) (requested : Option ChatChannel) (result : ChatJoin)
    {channelIndex : UInt8} (hapart : channelIndex ≠ partyUiChannelIndex)
    (localMemberHandle : UInt32) :
    Within Retains (enterChannel route requested result channelIndex localMemberHandle) := by
  have hinsert (s : LiveChat) (state : ChannelState)
      (hstate : KeepsRoster s.channels[channelIndex]? (some state)) :
      Retains s { s with channels := s.channels.insert channelIndex state } := by
    refine retains_channels (fun index => ?_) fun hnot hmem => ?_
    · by_cases hindex : channelIndex = index
      · subst hindex
        rw [ExtTreeMap.getElem?_insert_self]
        exact hstate
      · rw [getElem?_insert_of_ne hindex]
        exact .refl _
    · rcases ExtTreeMap.mem_insert.1 hmem with hsame | hold
      · exact hapart (Std.LawfulEqCmp.eq_of_compare hsame)
      · exact hnot hold
  refine within_bind within_read fun s => ?_
  cases s.joinedChannel requested result channelIndex with
  | some joined =>
    exact within_bind (fun t => hinsert t _ (keepsRoster_fresh _ rfl)) fun _ => within_pure _
  | none =>
    exact within_bind (fun t => hinsert t _ (keepsRoster_some (keepsRoster_getD _) rfl rfl))
      fun _ => within_pure _

theorem acceptedJoin_channelIndex {result : ChatJoin} {place : UInt8 × UInt32}
    (h : acceptedJoin tables result = .ok place) : result.channelIndex = some place.1 := by
  unfold acceptedJoin at h
  split at h
  · cases h
  · split at h
    · cases h
    · next index hindex =>
      split at h
      · cases h
      · cases h
        exact hindex

theorem retains_receiveRoomJoin (route : Route) {result : ChatJoin}
    (hapart : result.channelIndex ≠ some partyUiChannelIndex) :
    Within Retains (receiveRoomJoin tables route result) := by
  refine within_bind within_read fun s => within_bind (within_ofExcept _) fun taken => ?_
  refine within_bind (retains_change (fun _ => rfl) (fun _ => rfl) fun _ => rfl) fun _ => ?_
  refine within_ite (within_pure _) (within_bind (within_ofExcept _) fun _ => ?_)
  refine within_bind_yields (Q := fun place => result.channelIndex = some place.1)
    (within_ofExcept _) (fun s place t h => ?_) fun place hplace => ?_
  · exact acceptedJoin_channelIndex tables (congrArg Prod.fst h)
  · refine within_bind (retains_enterChannel _ _ _ (fun h => ?_) _) fun event => within_pure _
    exact hapart (by rw [hplace, h])

theorem retains_receiveJoin (route : Route) {result : ChatJoin}
    (hapart : result.channelIndex ≠ some partyUiChannelIndex) :
    Within Retains (receiveJoin tables m route result) := by
  refine within_bind (retains_change (fun _ => rfl) (fun _ => rfl) fun _ => rfl) fun _ => ?_
  refine within_bind within_read fun s =>
    within_ite ?_ (retains_receiveRoomJoin tables route hapart)
  exact within_bind (retains_receivePartyJoin tables m route _) fun event => within_pure _

theorem placeless_receiveJoin (route : Route) (result : ChatJoin) :
    Yields (fun handled => Placeless handled.event) (receiveJoin tables m route result) := by
  refine yields_receiveJoin tables m (fun _ => ?_) (fun _ _ _ _ => ?_) (fun _ _ => ?_) route result
  all_goals rfl

end Calls

/-! ## Memberships -/

/-- What is told of one channel and ends with its snapshot is the snapshot. -/
theorem watch_snapshot (p : Picture) {events : List ChatEvent} {channelIndex : UInt8}
    (hevents : ∀ event ∈ events, Placeless event ∨ Picture.about event = some channelIndex)
    (state : ChannelState) :
    p.watch (events ++ [.roster (rosterSnapshot state channelIndex)])
      = Function.update p channelIndex (some (Roster.users state.roster)) := by
  rw [Picture.watch_append]
  funext index
  show Function.update _ channelIndex _ index = _
  rw [collect_rosterSnapshot]
  by_cases hindex : index = channelIndex
  · rw [hindex, Function.update_self, Function.update_self]
  · rw [Function.update_of_ne hindex, Function.update_of_ne hindex]
    refine p.watch_of_about_ne fun event hevent habout => ?_
    rcases hevents event hevent with hnone | hsome
    · rw [Placeless, habout] at hnone
      cases hnone
    · exact hindex (Option.some.inj (habout.symm.trans hsome))

theorem agrees_update {p : Picture} {channelIndex : UInt8} {users : Users} :
    Picture.Agrees (Function.update p channelIndex (some users)) channelIndex users := by
  intro known hknown
  rw [Function.update_self] at hknown
  exact (Option.some.inj hknown).symm

theorem agrees_update_of_ne {channelIndex index : UInt8} (hindex : index ≠ channelIndex)
    (users : Option Users) {users' : Users} (h : p.Agrees index users') :
    Picture.Agrees (Function.update p channelIndex users) index users' := by
  intro known hknown
  rw [Function.update_of_ne hindex] at hknown
  exact h known hknown

theorem about_of_isMemberEvent {channelIndex : UInt8} {event : ChatEvent}
    (h : IsMemberEvent channelIndex event) : Picture.about event = some channelIndex := by
  cases event <;> first | exact congrArg some h | exact h.elim

/-- What a host is shown of: the channels, the roster of the party, and the events that wait. -/
def shownRosters (s : LiveChat) :
    ExtTreeMap UInt8 ChannelState × Option (Roster × Bool) × List ChatEvent :=
  (s.channels, s.party.map fun party => (party.state.roster, party.state.initialRosterComplete),
    s.pendingEvents)

theorem shown_send (m : Moment) (request : Request) :
    Within (Keeps shownRosters) (send m request) := by
  intro s
  unfold send
  cases m.transmit s.sent request <;> rfl

theorem shown_identifyInvitedPartyMember (channelIndex : UInt8) :
    Within (Keeps shownRosters)
      (change (identifyInvitedPartyMember channelIndex) : Chat Unit) := by
  intro s
  rw [change_apply]
  unfold identifyInvitedPartyMember
  split
  · split
    · rfl
    · next party hparty =>
      split
      · rfl
      · have hheld : s.party = some party := by
          rw [partyAt, Option.filter_eq_some_iff] at hparty
          exact hparty.1
        rw [Keeps, shownRosters, shownRosters, hheld]
        rfl
  · rfl

theorem shown_publishPartyOnlineIfReady (m : Moment) (channelIndex : UInt8) :
    Within (Keeps shownRosters) (publishPartyOnlineIfReady m channelIndex) := by
  refine within_bind within_read fun s => within_ite (within_pure ()) ?_
  refine within_bind (shown_identifyInvitedPartyMember channelIndex) fun _ => ?_
  refine within_bind within_read fun s => ?_
  cases (s.partyAt channelIndex).bind (·.state.localMemberHandle) with
  | none => exact within_pure ()
  | some handle => exact within_bind (shown_send m _) fun _ s => rfl

/-- To announce the party tells nothing of who is in it. -/
theorem shown_announceIf (isParty : Bool) (channelIndex : UInt8) :
    Within (Keeps shownRosters) (announceIf isParty channelIndex) := by
  cases isParty with
  | false => exact within_pure _
  | true =>
    intro s
    show Keeps shownRosters s (announceParty channelIndex s).2
    unfold announceParty
    rw [bind_of_ok (read_apply s)]
    cases hparty : s.party with
    | none => rfl
    | some party =>
      dsimp only
      split
      · cases hlocal : party.state.localMemberHandle with
        | none => rfl
        | some handle =>
          show shownRosters _ = shownRosters s
          rw [shownRosters, shownRosters, hparty]
          rfl
      · rfl

theorem placeless_announceIf (isParty : Bool) (channelIndex : UInt8) :
    Yields (fun events => ∀ event ∈ events, Placeless event)
      (announceIf isParty channelIndex) := by
  have hnothing : Yields (fun events => ∀ event ∈ events, Placeless event)
      (pure [] : Chat (List ChatEvent)) :=
    yields_pure fun event hevent => absurd hevent List.not_mem_nil
  cases isParty with
  | false => exact hnothing
  | true =>
    refine yields_bind fun s => ?_
    cases s.party with
    | none => exact hnothing
    | some party =>
      refine yields_ite (yields_bind fun handle => yields_bind fun _ => yields_pure ?_) hnothing
      intro event hevent
      rw [List.mem_singleton.1 hevent]
      rfl

/-- What a membership that is carried through has done: its changes are applied, and the event that
is handed over and those that wait behind it are what is told of it. -/
theorem receiveMembership_eq_ok {m : Moment} {membership : ChatMembership} {event : ChatEvent}
    (h : receiveMembership m membership s = (.ok event, t)) :
    ∃ u joined rest, (∀ event ∈ joined, Placeless event)
      ∧ event :: rest = joined
        ++ (applyToRoster (s.isPartyMembership membership) membership s).1
        ++ u.membershipRoster (s.isPartyMembership membership) membership.channelIndex
      ∧ t = { u with pendingEvents := u.pendingEvents ++ rest }
      ∧ shownRosters u
        = shownRosters (applyToRoster (s.isPartyMembership membership) membership s).2 := by
  obtain ⟨_, _, hread, h⟩ := bind_eq_ok.1 h
  cases hread
  obtain ⟨_, _, happly, h⟩ := bind_eq_ok.1 h
  cases happly
  obtain ⟨_, u, hidentify, h⟩ := bind_eq_ok.1 h
  obtain ⟨_, v, hpublish, h⟩ := bind_eq_ok.1 h
  obtain ⟨joined, w, hannounce, h⟩ := bind_eq_ok.1 h
  obtain ⟨_, _, hread, h⟩ := bind_eq_ok.1 h
  cases hread
  have hu := shown_identifyInvitedPartyMember membership.channelIndex
    (applyToRoster (s.isPartyMembership membership) membership s).2
  have hv := shown_publishPartyOnlineIfReady m membership.channelIndex u
  have hw := shown_announceIf (s.isPartyMembership membership) membership.channelIndex v
  rw [hidentify] at hu
  rw [hpublish] at hv
  rw [hannounce] at hw
  have hjoined := placeless_announceIf _ _ _ _ _ hannounce
  cases hevents : joined ++ (applyToRoster (s.isPartyMembership membership) membership s).1
      ++ w.membershipRoster (s.isPartyMembership membership) membership.channelIndex with
  | nil =>
    rw [hevents] at h
    cases h
  | cons first rest =>
    rw [hevents] at h
    cases h
    exact ⟨w, joined, rest, hjoined, hevents.symm, rfl, hw.trans (hv.trans hu)⟩

theorem about_applyMembership {state : ChannelState} {channelIndex : UInt8}
    {membership : ChatMembership} {joined : List ChatEvent}
    (hjoined : ∀ event ∈ joined, Placeless event) :
    ∀ event ∈ joined ++ (applyMembership state channelIndex membership).2,
      Placeless event ∨ Picture.about event = some channelIndex := by
  intro event hevent
  rcases List.mem_append.1 hevent with hevent | hevent
  · exact Or.inl (hjoined event hevent)
  · exact Or.inr (about_of_isMemberEvent (isMemberEvent_applyMembership _ _ _ event hevent))

/-- **A membership.** What it tells ends with the snapshot of the roster that it changes. -/
theorem mirrors_receiveMembership {m : Moment} {membership : ChatMembership} {event : ChatEvent}
    (hs : Mirrors s p) (hempty : s.pendingEvents = [])
    (hapart : membership.channelIndex ≠ partyUiChannelIndex)
    (h : receiveMembership m membership s = (.ok event, t)) : Mirrors t (p.see event) := by
  obtain ⟨u, joined, rest, hjoined, hevents, rfl, hu⟩ := receiveMembership_eq_ok h
  have hrooms := hs.rooms
  have hparty := hs.party
  rw [hempty] at hrooms hparty
  have hchannels : u.channels
      = (applyToRoster (s.isPartyMembership membership) membership s).2.channels :=
    congrArg (·.1) hu
  have hrosters := congrArg (·.2.1) hu
  have hqueue : u.pendingEvents = [] := by
    refine (congrArg (·.2.2) hu : u.pendingEvents = _).trans ?_
    cases s.isPartyMembership membership <;> exact hempty
  have hwatch : (p.see event).watch ({ u with
      pendingEvents := u.pendingEvents ++ rest }).pendingEvents = p.watch (event :: rest) := by
    show (p.see event).watch (u.pendingEvents ++ rest) = _
    rw [hqueue]
    rfl
  cases his : s.isPartyMembership membership with
  | true =>
    rw [his] at hevents hchannels hrosters
    have hchannels : u.channels = s.channels := hchannels
    obtain ⟨party, hsome, hroster⟩ := Option.map_eq_some_iff.1 hrosters
    rw [membershipRoster, if_pos rfl, hsome] at hevents
    have hshown := hwatch.trans ((congrArg p.watch hevents).trans
      (watch_snapshot p (about_applyMembership hjoined) party.state))
    refine ⟨fun index channel hchannel hcomplete => ?_, fun after hafter _ => ?_, ?_⟩
    · have hne : index ≠ partyUiChannelIndex := by
        rintro rfl
        exact hs.apart (hchannels ▸ ExtTreeMap.mem_iff_isSome_getElem?.2 (by rw [hchannel]; rfl))
      rw [hshown]
      exact agrees_update_of_ne hne _ (hrooms index channel (hchannels ▸ hchannel) hcomplete)
    · obtain rfl : party = after := Option.some.inj (hsome.symm.trans hafter)
      rw [hshown]
      exact agrees_update
    · exact hchannels ▸ hs.apart
  | false =>
    rw [his] at hevents hchannels hrosters
    let state := (applyMembership (s.channels[membership.channelIndex]?.getD {})
      membership.channelIndex membership).1
    have hchannels : u.channels = s.channels.insert membership.channelIndex state := hchannels
    rw [membershipRoster, if_neg Bool.false_ne_true, hchannels,
      ExtTreeMap.getElem?_insert_self] at hevents
    have hshown := hwatch.trans ((congrArg p.watch hevents).trans
      (watch_snapshot p (about_applyMembership hjoined) state))
    refine ⟨fun index channel hchannel hcomplete => ?_, fun after hafter hcomplete => ?_, ?_⟩
    · have hchannel : u.channels[index]? = some channel := hchannel
      rw [hchannels] at hchannel
      rw [hshown]
      by_cases hindex : membership.channelIndex = index
      · subst hindex
        rw [ExtTreeMap.getElem?_insert_self] at hchannel
        obtain rfl := Option.some.inj hchannel
        exact agrees_update
      · rw [getElem?_insert_of_ne hindex] at hchannel
        exact agrees_update_of_ne (Ne.symm hindex) _ (hrooms index channel hchannel hcomplete)
    · have hafter : u.party = some after := hafter
      have hrosters : u.party.map (fun party =>
          (party.state.roster, party.state.initialRosterComplete))
        = s.party.map fun party => (party.state.roster, party.state.initialRosterComplete) :=
        hrosters
      rw [hafter] at hrosters
      obtain ⟨before, hbefore, hsame⟩ := Option.map_eq_some_iff.1 hrosters.symm
      obtain ⟨hroster, hcompleteBefore⟩ := Prod.mk.inj hsame
      rw [hshown, ← hroster]
      exact agrees_update_of_ne (Ne.symm hapart) _
        (hparty before hbefore (hcompleteBefore.trans hcomplete))
    · show partyUiChannelIndex ∉ u.channels
      rw [hchannels]
      intro hmem
      rcases ExtTreeMap.mem_insert.1 hmem with hsame | hold
      · exact hapart (Std.LawfulEqCmp.eq_of_compare hsame)
      · exact hs.apart hold

/-! ## What follows a record -/

/-- A roster that presence has not changed is shown no more, and need not be. -/
theorem synchronizeChannel_of_upToDate {profiles : ProfileResolver} {channel : ChannelState}
    (h : outOfDate profiles channel = false) : synchronizeChannel profiles channel = channel := by
  have hroster : (channel.roster.map fun _ member => synchronizeMember profiles member)
      = channel.roster := by
    apply ExtTreeMap.ext_getElem?
    intro handle
    rw [ExtTreeMap.getElem?_map]
    cases hmember : channel.roster[handle]? with
    | none => rfl
    | some member =>
      have hsame := List.any_eq_false.1 h member (mem_valuesOf.2 ⟨handle, hmember⟩)
      rw [decide_eq_true_iff, not_not] at hsame
      rw [Option.map_some, hsame]
  rw [synchronizeChannel, hroster]

/-- The snapshots of several channels, each of which occurs once. -/
theorem watch_rosters (p : Picture) {entries : List (UInt8 × ChannelState)}
    (hnodup : (entries.map (·.1)).Nodup) {entry : UInt8 × ChannelState} (h : entry ∈ entries)
    (f : ChannelState → ChannelState) :
    p.watch (entries.map fun entry => .roster (rosterSnapshot (f entry.2) entry.1)) entry.1
      = some (Roster.users (f entry.2).roster) := by
  induction entries generalizing p with
  | nil => exact absurd h List.not_mem_nil
  | cons first entries ih =>
    obtain ⟨hnot, hnodup⟩ := List.nodup_cons.1 hnodup
    rw [List.map_cons, Picture.watch, List.foldl_cons]
    rcases List.mem_cons.1 h with rfl | h
    · have hothers : ∀ event ∈ entries.map fun entry =>
          ChatEvent.roster (rosterSnapshot (f entry.2) entry.1),
            Picture.about event ≠ some entry.1 := by
        intro event hevent habout
        obtain ⟨other, hother, rfl⟩ := List.mem_map.1 hevent
        exact hnot (List.mem_map.2 ⟨other, hother, Option.some.inj habout⟩)
      refine (Picture.watch_of_about_ne _ hothers).trans ?_
      show Function.update p entry.1 _ entry.1 = _
      rw [collect_rosterSnapshot, Function.update_self]
    · exact ih _ hnodup h

theorem nodup_toList_keys (channels : ExtTreeMap UInt8 ChannelState) :
    (channels.toList.map (·.1)).Nodup := by
  refine List.pairwise_map.2 (ExtTreeMap.distinct_keys_toList.imp fun hne hsame => hne ?_)
  rw [hsame]
  exact Std.ReflCmp.compare_self

/-- **The rosters after a record.** They are shown where presence has changed them. -/
theorem mirrors_synchronizeRosters (hs : Mirrors s p) : Mirrors s.synchronizeRosters p := by
  let q := p.watch s.pendingEvents
  let changed := s.channels.toList.filter fun entry => outOfDate s.profiles entry.2
  let roomEvents := changed.map fun entry =>
    ChatEvent.roster (rosterSnapshot (synchronizeChannel s.profiles entry.2) entry.1)
  let partyEvents := ((s.party.filter fun party => outOfDate s.profiles party.state).map
    fun party => ChatEvent.roster (rosterSnapshot (synchronizeChannel s.profiles party.state)
      partyUiChannelIndex)).toList
  have hwatch : p.watch s.synchronizeRosters.pendingEvents
      = (q.watch roomEvents).watch partyEvents := by
    show p.watch (s.pendingEvents ++ roomEvents ++ partyEvents) = _
    rw [Picture.watch_append, Picture.watch_append]
  have hmem (index : UInt8) (channel : ChannelState) :
      (index, channel) ∈ changed ↔ s.channels[index]? = some channel
        ∧ outOfDate s.profiles channel = true := by
    rw [List.mem_filter, ExtTreeMap.mem_toList_iff_getElem?_eq_some]
  have hroomAbout (event : ChatEvent) (hevent : event ∈ roomEvents) :
      ∃ index channel, (index, channel) ∈ changed ∧ Picture.about event = some index := by
    obtain ⟨entry, hentry, rfl⟩ := List.mem_map.1 hevent
    exact ⟨entry.1, entry.2, hentry, rfl⟩
  have hpartyAbout (event : ChatEvent) (hevent : event ∈ partyEvents) :
      Picture.about event = some partyUiChannelIndex := by
    rw [Option.mem_toList, Option.map_eq_some_iff] at hevent
    obtain ⟨party, -, rfl⟩ := hevent
    rfl
  have hne {index : UInt8} {channel : ChannelState} (h : s.channels[index]? = some channel) :
      index ≠ partyUiChannelIndex := by
    rintro rfl
    exact hs.apart (ExtTreeMap.mem_iff_isSome_getElem?.2 (by rw [h]; rfl))
  refine ⟨fun index channel hchannel hcomplete => ?_, fun party hparty hcomplete => ?_, ?_⟩
  · have hchannel : (s.channels.map fun _ channel =>
        synchronizeChannel s.profiles channel)[index]? = some channel := hchannel
    rw [ExtTreeMap.getElem?_map] at hchannel
    obtain ⟨before, hbefore, rfl⟩ := Option.map_eq_some_iff.1 hchannel
    intro known hknown
    rw [hwatch, Picture.watch_of_about_ne _ fun event hevent habout =>
      hne hbefore (Option.some.inj (habout.symm.trans (hpartyAbout event hevent)))] at hknown
    cases hold : outOfDate s.profiles before with
    | true =>
      have hkeys : (changed.map (·.1)).Nodup :=
        (nodup_toList_keys s.channels).sublist (List.filter_sublist.map _)
      have hshown := watch_rosters q hkeys ((hmem index before).2 ⟨hbefore, hold⟩)
        (synchronizeChannel s.profiles)
      exact (Option.some.inj (hshown.symm.trans hknown)).symm
    | false =>
      rw [Picture.watch_of_about_ne _ fun event hevent habout => ?_] at hknown
      · rw [synchronizeChannel_of_upToDate hold]
        exact hs.rooms index before hbefore hcomplete known hknown
      · obtain ⟨index', channel, hin, habout'⟩ := hroomAbout event hevent
        obtain rfl : index' = index := Option.some.inj (habout'.symm.trans habout)
        obtain ⟨hchannel', hold'⟩ := (hmem _ _).1 hin
        rw [Option.some.inj (hchannel'.symm.trans hbefore), hold] at hold'
        cases hold'
  · obtain ⟨before, hbefore, rfl⟩ := Option.map_eq_some_iff.1 hparty
    intro known hknown
    rw [hwatch] at hknown
    cases hold : outOfDate s.profiles before.state with
    | true =>
      have hevents : partyEvents = [.roster (rosterSnapshot
          (synchronizeChannel s.profiles before.state) partyUiChannelIndex)] := by
        simp only [partyEvents, hbefore, Option.filter_some, hold, if_true, Option.map_some,
          Option.toList_some]
      rw [hevents] at hknown
      have hshown : Function.update (q.watch roomEvents) partyUiChannelIndex
          (some (collect (rosterSnapshot (synchronizeChannel s.profiles before.state)
            partyUiChannelIndex).users)) partyUiChannelIndex = some known := hknown
      rw [Function.update_self, collect_rosterSnapshot] at hshown
      exact (Option.some.inj hshown).symm
    | false =>
      have hevents : partyEvents = [] := by
        simp only [partyEvents, hbefore, Option.filter_some, hold, Bool.false_eq_true, if_false,
          Option.map_none, Option.toList_none]
      rw [hevents] at hknown
      have hrest : q.watch roomEvents partyUiChannelIndex = q partyUiChannelIndex := by
        refine q.watch_of_about_ne fun event hevent habout => ?_
        obtain ⟨index, channel, hin, habout'⟩ := hroomAbout event hevent
        exact hne ((hmem _ _).1 hin).1 (Option.some.inj (habout'.symm.trans habout))
      have hknown : q.watch roomEvents partyUiChannelIndex = some known := hknown
      rw [hrest] at hknown
      rw [synchronizeChannel_of_upToDate hold]
      exact hs.party before hbefore hcomplete known hknown
  · intro hin
    exact hs.apart (ExtTreeMap.mem_map.1 hin)

/-! ## Records -/

section Records

variable (tables : Tables) (m : Moment)

theorem placeless_of_unroomed {event : ChatEvent} (h : Unroomed event) : Placeless event := by
  cases event <;> first | rfl | exact (h trivial).elim

/-- A room under the number that the host knows the party by. -/
def namesParty : Payload → Bool
  | .chatMembership membership => membership.channelIndex = partyUiChannelIndex
  | .chatJoin result => result.channelIndex = some partyUiChannelIndex
  | _ => false

/-- An arm that is about no membership changes no roster and tells of none. -/
theorem retains_handle {record : Record} (hparty : namesParty record.value = false)
    (hother : ∀ membership, record.value ≠ .chatMembership membership) :
    Within Retains (handle tables m record)
      ∧ Yields (fun handled => Placeless handled.event) (handle tables m record) := by
  by_cases hroom : isRoomRecord record.value = true
  · unfold handle
    cases hvalue : record.value with
    | chatJoin result =>
      rw [hvalue] at hparty
      exact ⟨retains_receiveJoin tables m _ (of_decide_eq_false hparty),
        placeless_receiveJoin tables m _ result⟩
    | chatMessage message =>
      dsimp only
      unfold handleRecord
      rw [hvalue]
      refine ⟨within_bind (retains_receiveMessage m _ message) fun _ => within_pure _, ?_⟩
      refine yields_bind_yields (P := Placeless) ?_ fun event hevent => yields_pure hevent
      refine yields_bind fun own => yields_bind fun s => yields_pure ?_
      unfold messageEvent
      split
      · rfl
      · split <;> rfl
    | chatInvite invite =>
      dsimp only
      unfold handleRecord
      rw [hvalue]
      refine ⟨within_bind (retains_receiveInvite invite) fun _ => within_pure _, ?_⟩
      refine yields_bind_yields (P := Placeless) ?_ fun event hevent => yields_pure hevent
      exact yields_bind fun _ => yields_bind fun _ => yields_bind fun s => yields_pure rfl
    | chatMembership membership => exact (hother membership hvalue).elim
    | _ =>
      rw [hvalue] at hroom
      cases hroom
  · rw [Bool.not_eq_true] at hroom
    obtain ⟨hwithin, hyields⟩ := elsewhere_handle tables m hroom
    exact ⟨retains_of_elsewhere hwithin, fun s handled t h =>
      placeless_of_unroomed (hyields s handled t h)⟩

/-- **The arm of a record.** -/
theorem mirrors_handle {record : Record} {handled : Handled} (hs : Mirrors s p)
    (hempty : s.pendingEvents = []) (hparty : namesParty record.value = false)
    (h : handle tables m record s = (.ok handled, t)) : Mirrors t (p.see handled.event) := by
  by_cases hmembership : ∃ membership, record.value = .chatMembership membership
  · obtain ⟨membership, hvalue⟩ := hmembership
    rw [hvalue] at hparty
    have hhandle : handle tables m record
        = (receiveMembership m membership >>= fun event => pure (.more event)) := by
      unfold handle handleRecord
      rw [hvalue]
    rw [hhandle] at h
    obtain ⟨event, u, hreceive, h⟩ := bind_eq_ok.1 h
    cases h
    exact mirrors_receiveMembership hs hempty (of_decide_eq_false hparty) hreceive
  · obtain ⟨hwithin, hyields⟩ := retains_handle tables m hparty fun membership hvalue =>
      hmembership ⟨membership, hvalue⟩
    have hretains := hwithin s
    rw [h] at hretains
    rw [p.see_of_about_none (hyields s handled t h)]
    exact hs.retains hretains

/-- What a picture that was true is true after. -/
def Carries (p : Picture) (s t : LiveChat) : Prop := Mirrors s p → Mirrors t p

instance (p : Picture) : Std.Refl (Carries p) where
  refl _ := id

instance (p : Picture) : IsTrans LiveChat (Carries p) where
  trans _ _ _ h k := k ∘ h

theorem carries_of_retains {α : Type} {x : Chat α} (hx : Within Retains x) :
    Within (Carries p) x := hx.mono fun _ _ h hs => hs.retains h

theorem carries_settle (payload : Payload) : Within (Carries p) (settle tables m payload) := by
  refine within_bind (carries_of_retains (retains_of_elsewhere
    (elsewhere_aside (aside_advancePendingWhispers tables m payload)))) fun _ => ?_
  refine within_bind (fun s => mirrors_synchronizeRosters) fun _ => ?_
  refine within_bind (carries_of_retains
    (retains_change (fun _ => rfl) (fun _ => rfl) fun _ => rfl)) fun _ => ?_
  exact carries_of_retains fun s => retains_of_same rfl rfl (.refl _ _)

/-- If the friends are listed in the place of an event, that event told nothing. -/
theorem see_refreshFriends (observed : Observed) (event : ChatEvent) :
    Yields (fun told => ∀ p : Picture, p.see told = p.see event)
      (refreshFriends tables observed event) := by
  refine yields_bind fun s => yields_ite (yields_bind fun _ => ?_) (yields_pure fun _ => rfl)
  cases event with
  | activity route => exact yields_pure fun _ => rfl
  | _ => exact yields_bind fun _ => yields_pure fun _ => rfl

/-- **A record that is carried through.** -/
theorem mirrors_receiveRecord {record : Record} {event : ChatEvent} (hs : Mirrors s p)
    (hempty : s.pendingEvents = []) (hparty : namesParty record.value = false)
    (h : receiveRecord tables m record s = (.ok event, t)) : Mirrors t (p.see event) := by
  obtain ⟨observed, u, hobserve, h⟩ := bind_eq_ok.1 h
  cases hobserve
  obtain ⟨handled, v, hhandle, h⟩ := bind_eq_ok.1 h
  let observed := (observe tables record.value s).1
  have hobserved := retains_of_elsewhere (elsewhere_observes
    (observes_observe tables record.value)) s
  have hv := mirrors_handle tables m (hs.retains hobserved) hempty hparty hhandle
  cases handled with
  | done told =>
    cases h
    exact hv
  | more told =>
    obtain ⟨_, w, hsettle, h⟩ := bind_eq_ok.1 h
    have hw := carries_settle (p := p.see told) tables m record.value v hv
    rw [hsettle] at hw
    have hrefresh := retains_of_elsewhere
      (elsewhere_befriends (befriends_refreshFriends tables observed told)) w
    rw [h] at hrefresh
    rw [see_refreshFriends tables observed told w event t h p]
    exact hw.retains hrefresh

/-! ## Calls -/

/-- The event that a call returns. -/
def returned : Except Failure (Option ChatEvent) → List ChatEvent
  | .ok (some event) => [event]
  | _ => []

/-- A record that is read is carried through, and puts no room under the number of the party. -/
def Carried (s : LiveChat) (i : Moment × Call) : Prop :=
  ∀ record t, readBy i.1 s i.2 = some (record, t) →
    namesParty record.value = false ∧ (receiveRecord tables i.1 record t).1.isOk = true

instance (s : LiveChat) (i : Moment × Call) : Decidable (Carried tables s i) :=
  decidable_of_iff ((readBy i.1 s i.2).all (fun read => !namesParty read.1.value &&
    (receiveRecord tables i.1 read.1 read.2).1.isOk) = true) (by
      unfold Carried
      cases readBy i.1 s i.2 with
      | none => simp
      | some read => simp [Prod.ext_iff])

/-- A call that reads nothing changes no roster and returns no event. -/
theorem retains_call {c : Call} (h : ∀ arrived, c ≠ .receive arrived) :
    Within Retains (call tables m c) ∧ ∀ s, returned (call tables m c s).1 = [] := by
  have hdone (x : Chat Unit) (hx : Within Retains x)
      (hcall : call tables m c = (x >>= fun _ => pure none)) :
      Within Retains (call tables m c) ∧ ∀ s, returned (call tables m c s).1 = [] := by
    rw [hcall]
    refine ⟨within_bind hx fun _ => within_pure none, fun s => ?_⟩
    rw [bind_apply]
    rcases x s with ⟨e | _, t⟩ <;> rfl
  cases c with
  | join draws channel => exact hdone _ (retains_joinChannel m draws channel) rfl
  | leave channelIndex => exact hdone _ (retains_leaveChannel m channelIndex) rfl
  | message channelIndex body => exact hdone _ (retains_sendMessage m channelIndex body) rfl
  | whisper target displayName body =>
    exact hdone _ (retains_of_elsewhere (elsewhere_aside
      (aside_sendWhisper m target displayName body))) rfl
  | answerParty channelIndex accept =>
    exact hdone _ (retains_answerPartyInvitation m channelIndex accept) rfl
  | answerGroup clubId accept =>
    exact hdone _ (retains_of_elsewhere (elsewhere_subscribes
      (subscribes_answerGroupInvitation m clubId accept))) rfl
  | search query =>
    exact hdone _ (retains_of_elsewhere (elsewhere_subscribes
      (subscribes_searchGroups m query))) rfl
  | receive arrived => exact (h arrived rfl).elim

/-- **Every call.** The host sees the event that it returns, and its picture stays true. -/
theorem mirrors_call {c : Call} (hs : Mirrors s p) (hcarried : Carried tables s (m, c)) :
    Mirrors (call tables m c s).2 (p.watch (returned (call tables m c s).1)) := by
  by_cases hreceive : ∃ arrived, c = .receive arrived
  swap
  · obtain ⟨hwithin, hreturned⟩ := retains_call tables m fun arrived h => hreceive ⟨arrived, h⟩
    rw [hreturned s]
    exact hs.retains (hwithin s)
  obtain ⟨arrived, rfl⟩ := hreceive
  have hcall : call tables m (.receive arrived) s
      = (receive tables m arrived >>= fun event => pure (some event)) s := rfl
  have hidle := retains_of_elsewhere (elsewhere_subscribes (subscribes_requestClubsWhenIdle m)) s
  cases hevents : s.pendingEvents with
  | cons event rest =>
    rw [hcall, bind_of_ok (receive_of_waiting hevents arrived)]
    have hrooms := hs.rooms
    have hparty := hs.party
    rw [hevents] at hrooms hparty
    exact ⟨hrooms, hparty, hs.apart⟩
  | nil =>
    cases hread : readBy m s (.receive arrived) with
    | none =>
      obtain ⟨e, hfails⟩ : ∃ e, receive tables m arrived s = (.error e, _) :=
        receive_of_readBy_eq_none hread hevents
      rw [hcall, bind_of_error hfails]
      exact hs.retains hidle
    | some read =>
      obtain ⟨record, t⟩ := read
      obtain ⟨hapart, hok⟩ := hcarried record t hread
      obtain ⟨harrived, -, hrequest⟩ := readBy_eq_some.1 hread
      obtain rfl : arrived = .ok record := by injection harrived
      rw [hrequest] at hidle
      have hempty : t.pendingEvents = [] := by
        have hsubscribes := (subscribes_requestClubsWhenIdle m s).told
        rw [hrequest, hevents] at hsubscribes
        obtain ⟨added, hadded, hnone⟩ := hsubscribes
        rw [hadded, List.nil_append, List.eq_nil_iff_forall_not_mem]
        exact hnone
      rcases hrecord : receiveRecord tables m record t with ⟨e | event, u⟩
      · rw [hrecord] at hok
        cases hok
      · rw [hcall, bind_of_ok ((receive_of_readBy hread).trans hrecord)]
        exact mirrors_receiveRecord tables m (hs.retains hidle) hempty hapart hrecord

end Records

end LiveChat

end Superiority.Sc2
