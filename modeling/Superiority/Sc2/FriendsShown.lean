import Superiority.Library.Run
import Superiority.Sc2.Frames

/-!
# The list of friends on screen

What is listed of the friends depends on the friends, on the avatars that are known and on presence.
`receive` lists them again after a page of friends, and after a record about presence or a profile
that `observe` has flagged. An update is flagged by the account of the person it is about and by
the states of the two ids it names; what it says of the person's character or profile is not looked
at, so a friend who is found by these can come or go without being listed again.

* **`ShowingFriends`** – a session and the list that was last handed over or queued.
* **`IsHeeded`** – the condition: what is said of a friend's presence changes only with a flag, and
  what is read is carried through.
* **`statesMeet_upToDate`** – in runs of such steps the list is always that of the friends as they
  are.
-/

namespace Superiority.Sc2

open Std

namespace LiveChat

open Stateful

/-! ## What is listed -/

/-- What the list of friends is made of, and what was last listed by `receive`. -/
structure FriendsView where
  friends : Friends
  known : ProfileResolver
  announced : List ChatFriend

def friendsView (s : LiveChat) : FriendsView where
  friends := s.friends
  known := s.profiles.known
  announced := s.announcedFriends

/-- `friend_snapshot(&self.friends, &self.profiles)`. -/
def friendsList (tables : Tables) (s : LiveChat) : List ChatFriend :=
  friendSnapshot tables s.friends s.profiles

theorem friendsList_congr (tables : Tables) {s t : LiveChat} (h : friendsView t = friendsView s) :
    friendsList tables t = friendsList tables s := by
  have hlist (u : LiveChat) :
      friendsList tables u = friendSnapshot tables (friendsView u).friends (friendsView u).known :=
    rfl
  rw [hlist, hlist, h]

def listOf : ChatEvent → Option (List ChatFriend)
  | .friends list => some list
  | _ => none

/-- No event is a list of friends. -/
abbrev Unlisted (event : ChatEvent) : Prop := listOf event = none

/-- The frame of what has nothing to do with friends. -/
abbrev Quiet := Frame friendsView (fun _ => True) Unlisted

variable {α : Type} {x : Chat α}

theorem quiet_rooms (hx : Within Rooms x) : Within Quiet x :=
  within_mono hx friendsView (fun _ => rfl) (fun _ _ => trivial) fun event h => by
    cases event <;> first | rfl | exact h.elim

theorem quiet_aside (hx : Within Aside x) : Within Quiet x :=
  within_mono hx friendsView (fun _ => rfl) (fun _ _ => trivial) fun event h => by
    cases event <;> first | rfl | exact h.elim

theorem quiet_subscribes (hx : Within Subscribes x) : Within Quiet x :=
  within_mono hx friendsView (fun _ => rfl) (fun _ _ => trivial) fun _ h => h.elim

theorem quiet_looksUp (hx : Within LooksUp x) : Within Quiet x :=
  within_mono hx friendsView (fun _ => rfl) (fun _ _ => trivial) fun event h => by
    cases event <;> first | rfl | exact h.elim

theorem quiet_settles (hx : Within Settles x) : Within Quiet x :=
  within_mono hx friendsView (fun _ => rfl) (fun _ _ => trivial) fun event h => by
    cases event <;> first | rfl | exact h.elim

variable (tables : Tables) (m : Moment) (route : Route)

theorem quiet_receiveAccountBlocks (entries : List AccountBlockEntry) :
    Within Quiet (receiveAccountBlocks tables entries) := by
  refine within_bind (within_unseen (fun _ => rfl) (fun _ => rfl) fun _ => rfl) fun _ => ?_
  exact within_bind within_read fun s => within_pure _

/-! ## Records that are no pages of friends -/

/-- What a record does to the friends: a page of them is applied. -/
def pageOf : Payload → Option (Friends → Friends)
  | .friends updates => some (applyFriendPage · updates)
  | .friendToons entries => some (applyFriendToons · entries)
  | _ => none

theorem quiet_handleRecord {record : Record} (h : pageOf record.value = none) :
    Within Quiet (handleRecord tables m record) := by
  unfold handleRecord
  cases hvalue : record.value with
  | friends updates => simp [hvalue, pageOf] at h
  | friendToons entries => simp [hvalue, pageOf] at h
  | chatMembership membership =>
    exact quiet_rooms (rooms_of_moves (moves_receiveMembership m membership))
  | chatMessage message => exact quiet_rooms (rooms_receiveMessage m _ message)
  | chatInvite invite => exact quiet_rooms (rooms_of_moves (moves_receiveInvite invite))
  | clubSummaries clubs => exact quiet_looksUp (looksUp_receiveClubSummaries m _ clubs)
  | clubSearch clubIds => exact quiet_looksUp (looksUp_receiveClubSearch m clubIds)
  | clubInfo clubs => exact quiet_looksUp (looksUp_receiveClubInfo m _ clubs)
  | clubInviteAction action => exact quiet_looksUp (looksUp_receiveClubInvite m action)
  | accountBlocks entries => exact quiet_receiveAccountBlocks tables entries
  | chatWhisperEcho whisper => exact quiet_aside (aside_receiveWhisperEcho m _ whisper)
  | _ => exact within_pure _

theorem unlisted_firstEvent {events : List ChatEvent} (h : AreMoveEvents events) :
    Yields Unlisted (firstEvent events) := by
  cases events with
  | nil => exact yields_fail _
  | cons event rest =>
    refine yields_bind fun _ => yields_pure ?_
    have hroom := h event List.mem_cons_self
    cases event <;> first | rfl | exact hroom.elim

theorem unlisted_receiveMembership (membership : ChatMembership) :
    Yields Unlisted (receiveMembership m membership) := by
  refine yields_bind fun s => ?_
  refine yields_bind_yields (P := AreMoveEvents)
    (yields_take (areMoveEvents_applyToRoster _ membership)) fun events hevents => ?_
  refine yields_bind fun _ => yields_bind fun _ => ?_
  refine yields_bind_yields (P := AreMoveEvents) (yields_ite (yields_announceParty _)
    (yields_pure fun _ h => absurd h List.not_mem_nil)) fun joined hjoined => ?_
  refine yields_bind fun t => unlisted_firstEvent ?_
  exact areMoveEvents_append (areMoveEvents_append hjoined hevents)
    (areMoveEvents_membershipRoster _ _ _)

theorem unlisted_firstSummary (clubs : List Native.ClubSummary) (member : Bool) :
    Yields Unlisted (firstSummary route clubs member) := by
  cases clubs with
  | nil => exact yields_pure rfl
  | cons club rest => exact yields_bind fun _ => yields_pure rfl

theorem unlisted_receiveMessage (message : ChatMessage) :
    Yields Unlisted (receiveMessage m route message) := by
  refine yields_bind fun own => yields_bind fun s => yields_pure ?_
  cases own with
  | true => rfl
  | false =>
    show listOf (s.messageEvent message) = none
    unfold messageEvent
    split <;> rfl

theorem unlisted_handleRecord {record : Record} (h : pageOf record.value = none) :
    Yields Unlisted (handleRecord tables m record) := by
  unfold handleRecord
  cases hvalue : record.value with
  | friends updates => simp [hvalue, pageOf] at h
  | friendToons entries => simp [hvalue, pageOf] at h
  | chatMembership membership => exact unlisted_receiveMembership m membership
  | chatMessage message => exact unlisted_receiveMessage m _ message
  | chatInvite invite =>
    exact yields_bind fun _ => yields_bind fun _ => yields_bind fun s => yields_pure rfl
  | clubSummaries clubs => exact yields_bind fun _ => unlisted_firstSummary _ clubs true
  | clubSearch clubIds => exact yields_bind fun _ => yields_pure rfl
  | clubInfo clubs =>
    exact yields_bind fun _ => yields_bind fun _ => unlisted_firstSummary _ clubs false
  | clubInviteAction action =>
    exact yields_bind fun _ => yields_bind fun _ => yields_pure rfl
  | accountBlocks entries => exact yields_bind fun _ => yields_bind fun s => yields_pure rfl
  | chatWhisperEcho whisper =>
    refine yields_bind fun own => yields_pure ?_
    cases own <;> rfl
  | _ => exact yields_pure rfl

theorem unlisted_receiveJoin (result : ChatJoin) :
    Yields (fun handled => Unlisted handled.event) (receiveJoin tables m route result) := by
  refine yields_bind fun _ => yields_bind fun s => yields_ite ?_ ?_
  · refine yields_bind_yields (P := Unlisted) ?_ fun event hevent => yields_pure hevent
    refine yields_bind fun s => yields_bind fun place => yields_bind fun _ => yields_bind fun _ =>
      yields_bind fun _ => yields_bind fun _ => yields_pure ?_
    split <;> rfl
  · refine yields_bind fun s => yields_bind fun taken => yields_bind fun _ =>
      yields_ite (yields_pure rfl) ?_
    refine yields_bind fun _ => yields_bind fun place => ?_
    refine yields_bind_yields (P := Unlisted) ?_ fun event hevent => yields_pure hevent
    refine yields_bind fun s => ?_
    cases s.joinedChannel taken.1 result place.1 with
    | none => exact yields_bind fun _ => yields_pure rfl
    | some joined => exact yields_bind fun _ => yields_pure rfl

/-- Without a flag the list is not looked at. -/
theorem refreshFriends_of_not_flagged (event : ChatEvent) :
    refreshFriends tables ⟨false, false⟩ event = pure event := by
  funext s
  rfl

theorem quiet_handle {record : Record} (h : pageOf record.value = none) :
    Within Quiet (handle tables m record) ∧
      Yields (fun handled => Unlisted handled.event) (handle tables m record) := by
  have hother : Within Quiet (handleRecord tables m record >>= fun event =>
        (pure (.more event) : Chat Handled)) ∧
      Yields (fun handled => Unlisted handled.event) (handleRecord tables m record >>= fun event =>
        (pure (.more event) : Chat Handled)) :=
    ⟨within_bind (quiet_handleRecord tables m h) fun _ => within_pure _,
      yields_bind_yields (unlisted_handleRecord tables m h) fun _ hevent => yields_pure hevent⟩
  unfold handle
  cases hvalue : record.value with
  | chatJoin result =>
    exact ⟨quiet_rooms (rooms_of_moves (moves_receiveJoin tables m _ result)),
      unlisted_receiveJoin tables m _ result⟩
  | _ => exact hother

/-- The state in which a record has been observed. -/
def observing (payload : Payload) (s : LiveChat) : LiveChat := (observe tables payload s).2

theorem friendsList_observing (payload : Payload) (s : LiveChat) :
    friendsList tables (observing tables payload s)
      = friendSnapshot tables s.friends (s.profiles.observe tables payload).1 := rfl

/-- **A record without a flag** that is no page of friends changes nothing in the list but by what
is observed, and lists nothing. -/
theorem quiet_receiveRecord {record : Record} (h : pageOf record.value = none) {s : LiveChat}
    (hflags : (observe tables record.value s).1 = ⟨false, false⟩) :
    Quiet (observing tables record.value s) (receiveRecord tables m record s).2 ∧
      ∀ event, (receiveRecord tables m record s).1 = .ok event → Unlisted event := by
  obtain ⟨hwithin, hyields⟩ := quiet_handle tables m h
  have hfinish (handled : Handled) :
      Within Quiet (finish tables m record.value ⟨false, false⟩ handled) := by
    cases handled with
    | done event => exact within_pure _
    | more event =>
      refine within_bind (quiet_settles (settles_settle tables m _)) fun _ => ?_
      rw [refreshFriends_of_not_flagged]
      exact within_pure _
  have hevents (handled : Handled) (hevent : Unlisted handled.event) :
      Yields Unlisted (finish tables m record.value ⟨false, false⟩ handled) := by
    cases handled with
    | done event => exact yields_pure hevent
    | more event =>
      refine yields_bind fun _ => ?_
      rw [refreshFriends_of_not_flagged]
      exact yields_pure hevent
  have hrecord : receiveRecord tables m record s
      = (handle tables m record >>= finish tables m record.value ⟨false, false⟩)
        (observing tables record.value s) := by
    unfold receiveRecord
    rw [bind_of_ok (take_apply _ s), hflags]
    rfl
  rw [hrecord]
  refine ⟨within_bind hwithin hfinish _, fun event hevent => ?_⟩
  exact yields_bind_yields hyields hevents _ event _ (Prod.ext hevent rfl)

/-! ## Pages of friends -/

/-- The state in which a page of friends has been applied and listed. -/
def listing (f : Friends → Friends) (s : LiveChat) : LiveChat :=
  { s with
    friends := f s.friends
    announcedFriends := friendSnapshot tables (f s.friends) s.profiles }

theorem handle_of_page {record : Record} {f : Friends → Friends} (h : pageOf record.value = some f)
    (s : LiveChat) :
    handle tables m record (observe tables record.value s).2
      = (.ok (.more (.friends (friendsList tables (listing tables f s)))), listing tables f s) := by
  unfold handle handleRecord
  cases hvalue : record.value with
  | friends updates =>
    rw [hvalue] at h
    cases h
    rfl
  | friendToons entries =>
    rw [hvalue] at h
    cases h
    rfl
  | _ => simp [hvalue, pageOf] at h

/-- What is left to do after an arm that goes on. -/
theorem finish_apply {payload : Payload} {observed : Observed} {event event' : ChatEvent}
    {s : LiveChat} (h : (finish tables m payload observed (.more event) s).1 = .ok event') :
    ∃ t, Quiet s t ∧ finish tables m payload observed (.more event) s
      = refreshFriends tables observed event t := by
  have hsettle := quiet_settles (settles_settle tables m payload) s
  have hmore : finish tables m payload observed (.more event)
      = (settle tables m payload >>= fun _ => refreshFriends tables observed event) := rfl
  rw [hmore, bind_apply] at h ⊢
  rcases hs : settle tables m payload s with ⟨e | _, t⟩
  · rw [hs] at h
    cases h
  · rw [hs] at hsettle
    exact ⟨t, hsettle, rfl⟩

/-- **A page of friends** is listed when it has been applied. -/
theorem receiveRecord_of_page {record : Record} {f : Friends → Friends}
    (h : pageOf record.value = some f) {s : LiveChat} {event : ChatEvent}
    (hevent : (receiveRecord tables m record s).1 = .ok event) :
    event = .friends (friendsList tables (listing tables f s)) ∧
      Quiet (listing tables f s) (receiveRecord tables m record s).2 := by
  have hflags : (observe tables record.value s).1 = ⟨false, false⟩ := by
    cases hvalue : record.value with
    | friends updates => rfl
    | friendToons entries => rfl
    | _ => simp [hvalue, pageOf] at h
  unfold receiveRecord at hevent ⊢
  rw [bind_of_ok (take_apply _ s), bind_of_ok (handle_of_page tables m h s), hflags] at hevent ⊢
  obtain ⟨t, hquiet, hfinish⟩ := finish_apply tables m hevent
  rw [hfinish, refreshFriends_of_not_flagged] at hevent ⊢
  cases hevent
  exact ⟨rfl, hquiet⟩

/-! ## What presence says of the friends -/

/-- A friend is found under the same presence id, in the same state. -/
def SamePresence (friend : FriendEntry) (before after : ProfileResolver) : Prop :=
  friendPresenceId friend after = friendPresenceId friend before ∧
    ∀ id, friendPresenceId friend before = some id →
      (after.presence.identity id).state = (before.presence.identity id).state

theorem chatFriend_of_samePresence {friend : FriendEntry} {before after : ProfileResolver}
    (h : SamePresence friend before after) (havatars : after.avatars = before.avatars)
    (name : String) : chatFriend friend after name = chatFriend friend before name := by
  have havatar : after.avatarOf = before.avatarOf := by
    funext address
    rw [ProfileResolver.avatarOf, ProfileResolver.avatarOf, havatars]
  unfold chatFriend
  rw [h.1, havatar]
  cases hid : friendPresenceId friend before with
  | none => rfl
  | some id =>
    dsimp only [Option.elim_some]
    rw [h.2 id hid]

/-- One round of the loop of `friend_snapshot`. -/
def listFriend (profiles : ProfileResolver) (unique : ExtTreeMap String ChatFriend)
    (friend : FriendEntry) : ExtTreeMap String ChatFriend :=
  match listedName friend with
  | none => unique
  | some name =>
    unique.insert (tables.lowercase name)
      (unique[tables.lowercase name]?.elim (chatFriend friend profiles name) fun existing =>
        mergeFriend existing (chatFriend friend profiles name))

theorem friendSnapshot_eq (friends : Friends) (profiles : ProfileResolver) :
    friendSnapshot tables friends profiles
      = valuesOf ((valuesOf friends).foldl (listFriend tables profiles) ∅) := rfl

/-- If every friend that is listed is found as before, the list is as before. -/
theorem friendSnapshot_of_samePresence {friends : Friends} {before after : ProfileResolver}
    (h : ∀ friend ∈ valuesOf friends, (listedName friend).isSome →
      SamePresence friend before after) (havatars : after.avatars = before.avatars) :
    friendSnapshot tables friends after = friendSnapshot tables friends before := by
  have hround (unique : ExtTreeMap String ChatFriend) (friend : FriendEntry)
      (hfriend : friend ∈ valuesOf friends) :
      listFriend tables after unique friend = listFriend tables before unique friend := by
    unfold listFriend
    cases hname : listedName friend with
    | none => rfl
    | some name =>
      have hsame := chatFriend_of_samePresence (h friend hfriend (by rw [hname]; rfl)) havatars name
      dsimp only
      rw [hsame]
  rw [friendSnapshot_eq, friendSnapshot_eq]
  exact congrArg valuesOf (List.foldl_ext _ _ _ fun unique friend hfriend =>
    hround unique friend hfriend)

/-- The state of an id, whatever fields are announced. -/
theorem state_identity (d : PresenceDirectory) (id : UInt32) : (d.identity id).state =
    d.values[d.canonicalPresenceId id]?.elim
      (stateFromValues ∅ d.online[d.canonicalPresenceId id]? ∅) fun values =>
        stateFromValues values d.online[d.canonicalPresenceId id]?
          (d.standing[d.canonicalPresenceId id]?.getD ∅) := by
  unfold PresenceDirectory.identity
  dsimp only
  cases d.values[d.canonicalPresenceId id]? <;> rfl

/-- Announced fields say nothing about anyone. -/
theorem samePresence_announce (friend : FriendEntry) (profiles : ProfileResolver)
    (fields : PresenceFields) : SamePresence friend profiles
      { profiles with presence := profiles.presence.announce fields } := by
  refine ⟨rfl, fun id _ => ?_⟩
  rw [state_identity, state_identity]
  rfl

/-- An answer from which nothing is learnt changes nothing. -/
theorem receive_of_not_learnt {profiles : ProfileResolver} {response : ProfileReadResponse}
    (h : (profiles.receive tables response).2 = false) :
    (profiles.receive tables response).1 = profiles := by
  unfold ProfileResolver.receive at h ⊢
  cases hpending : profiles.pending[response.requestId]? with
  | none => rfl
  | some address =>
    rw [hpending] at h
    dsimp only at h ⊢
    cases hresult : response.result with
    | start packetCount =>
      rw [hresult] at h
      dsimp only at h ⊢
      by_cases hzero : packetCount = 0
      · simp [hzero] at h
      · rw [if_neg hzero]
    | _ => simp [hresult] at h

/-- Without a flag the list changes only with what an update says of a friend's presence. -/
theorem friendsList_of_not_flagged {payload : Payload} {s : LiveChat}
    (hflags : (observe tables payload s).1 = ⟨false, false⟩)
    (hfound : ∀ update, payload = .presenceUpdate update → ∀ friend ∈ valuesOf s.friends,
      (listedName friend).isSome →
        SamePresence friend s.profiles (s.profiles.observe tables payload).1) :
    friendsList tables (observing tables payload s) = friendsList tables s := by
  cases payload with
  | presenceFields fields =>
    exact friendSnapshot_of_samePresence tables
      (fun friend _ _ => samePresence_announce friend s.profiles fields) rfl
  | presenceUpdate update =>
    exact friendSnapshot_of_samePresence tables (hfound update rfl) rfl
  | profileRead response =>
    have hlearnt : (s.profiles.receive tables response).2 = false :=
      congrArg Observed.identity hflags
    show friendSnapshot tables s.friends (s.profiles.receive tables response).1 = _
    rw [receive_of_not_learnt tables hlearnt]
    rfl
  | _ => rfl

/-- Which names are listed does not depend on presence. -/
theorem mem_listFriends (before after : ProfileResolver) (friends : List FriendEntry)
    {unique unique' : ExtTreeMap String ChatFriend} (h : ∀ key, key ∈ unique ↔ key ∈ unique')
    (key : String) : key ∈ friends.foldl (listFriend tables before) unique ↔
      key ∈ friends.foldl (listFriend tables after) unique' := by
  induction friends generalizing unique unique' with
  | nil => exact h key
  | cons friend friends ih =>
    refine ih fun key => ?_
    unfold listFriend
    cases listedName friend with
    | none => exact h key
    | some name =>
      dsimp only
      rw [ExtTreeMap.mem_insert, ExtTreeMap.mem_insert, h key]

theorem valuesOf_eq_nil_iff {κ ν : Type} [Ord κ] [TransOrd κ] [LawfulEqOrd κ]
    {m : ExtTreeMap κ ν} : valuesOf m = [] ↔ ∀ k, k ∉ m := by
  rw [List.eq_nil_iff_forall_not_mem]
  constructor
  · intro h k hk
    obtain ⟨v, hv⟩ := Option.isSome_iff_exists.1 (ExtTreeMap.mem_iff_isSome_getElem?.1 hk)
    exact h v (mem_valuesOf.2 ⟨k, hv⟩)
  · intro h v hv
    obtain ⟨k, hk⟩ := mem_valuesOf.1 hv
    exact h k (ExtTreeMap.mem_iff_isSome_getElem?.2 (by rw [hk]; rfl))

/-- No presence empties the list, or fills an empty one. -/
theorem friendSnapshot_eq_nil {friends : Friends} {before after : ProfileResolver}
    (h : friendSnapshot tables friends after = []) : friendSnapshot tables friends before = [] := by
  rw [friendSnapshot_eq, valuesOf_eq_nil_iff] at h ⊢
  intro key hkey
  exact h key ((mem_listFriends tables before after _ (fun _ => Iff.rfl) key).1 hkey)

/-! ## Flagged records -/

/-- What is flagged is nothing but observed. -/
theorem handle_of_flagged {record : Record} {s : LiveChat}
    (h : (observe tables record.value s).1 ≠ ⟨false, false⟩) :
    handle tables m record = pure (.more (.activity record.route)) := by
  unfold handle handleRecord
  cases hvalue : record.value with
  | presenceUpdate update => rfl
  | profileRead response => rfl
  | _ =>
    rw [hvalue] at h
    exact absurd rfl h

/-- **A flagged record** is observed, and the list shown if it has changed. -/
theorem receiveRecord_of_flagged {record : Record} {s : LiveChat}
    (h : (observe tables record.value s).1 ≠ ⟨false, false⟩) {event : ChatEvent}
    (hevent : (receiveRecord tables m record s).1 = .ok event) :
    ∃ t, Quiet (observing tables record.value s) t ∧ receiveRecord tables m record s
      = refreshFriends tables (observe tables record.value s).1 (.activity record.route) t := by
  have hrecord : receiveRecord tables m record s = finish tables m record.value
      (observe tables record.value s).1 (.more (.activity record.route))
        (observing tables record.value s) := by
    unfold receiveRecord
    rw [bind_of_ok (take_apply _ s), handle_of_flagged tables m h]
    rfl
  rw [hrecord] at hevent ⊢
  exact finish_apply tables m hevent

/-- What the refresh does after such a record. -/
theorem refreshFriends_of_activity (observed : Observed) (s : LiveChat) :
    refreshFriends tables observed (.activity route) s =
      if (observed.identity || observed.presence) && !s.friends.isEmpty
          && friendsList tables s ≠ s.announcedFriends then
        (.ok (.friends (friendsList tables s)),
          { s with announcedFriends := friendsList tables s })
      else (.ok (.activity route), s) := by
  unfold refreshFriends
  rw [bind_of_ok (read_apply s)]
  dsimp only
  rw [show friendSnapshot tables s.friends s.profiles = friendsList tables s from rfl]
  split_ifs <;> rfl

/-! ## Sessions and what they show -/

/-- A session, and the list of friends that was last handed over or queued. -/
structure ShowingFriends where
  chat : LiveChat
  last : Option (List ChatFriend) := none

namespace ShowingFriends

def step (w : ShowingFriends) (i : Moment × Call) : ShowingFriends where
  chat := (call tables i.1 i.2 w.chat).2
  last := ((told tables w.chat i).filterMap listOf).getLast?.or w.last

/-- If there are friends, the list that was last shown is that of the friends as they are. -/
def UpToDate (w : ShowingFriends) : Prop :=
  w.chat.friends.isEmpty = false → w.last = some (friendsList tables w.chat)

/-- After a `receive` that returns an event the list is up to date. -/
def FreshAfter (w : ShowingFriends) (i : Moment × Call) : Prop :=
  ∀ arrived, i.2 = .receive arrived → (call tables i.1 i.2 w.chat).1.isOk = true →
    UpToDate tables (w.step tables i)

/-- A page of friends or a record with a flag is carried through, and an update without a flag
finds every friend that is listed as before. -/
structure IsHeeded (w : ShowingFriends) (i : Moment × Call) : Prop where
  carried : ∀ record t, readBy i.1 w.chat i.2 = some (record, t) →
    (pageOf record.value).isSome = true ∨ (observe tables record.value t).1 ≠ ⟨false, false⟩ →
      (receiveRecord tables i.1 record t).1.isOk = true
  found : ∀ record t, readBy i.1 w.chat i.2 = some (record, t) →
    (observe tables record.value t).1 = ⟨false, false⟩ →
      ∀ update, record.value = .presenceUpdate update → ∀ friend ∈ valuesOf t.friends,
        (listedName friend).isSome →
          SamePresence friend t.profiles (t.profiles.observe tables record.value).1

/-- What a run of such steps keeps: what `receive` remembers to have listed is what was shown. -/
structure Remembers (w : ShowingFriends) : Prop where
  upToDate : UpToDate tables w
  announced : w.chat.announcedFriends = [] ∨ w.last = some w.chat.announcedFriends

variable {tables} {w : ShowingFriends} {i : Moment × Call}

/-- A step that shows no list and changes nothing that is listed. -/
theorem remembers_of_unchanged (h : Remembers tables w) {after : LiveChat}
    (hafter : (call tables i.1 i.2 w.chat).2 = after)
    (hfriends : after.friends = w.chat.friends)
    (hannounced : after.announcedFriends = w.chat.announcedFriends)
    (hlist : friendsList tables after = friendsList tables w.chat)
    (htold : (told tables w.chat i).filterMap listOf = []) :
    Remembers tables (w.step tables i) := by
  have hlast : (w.step tables i).last = w.last := by
    rw [step, htold]
    rfl
  have hchat : (w.step tables i).chat = after := hafter
  refine ⟨fun hsome => ?_, ?_⟩
  · rw [hchat, hfriends] at hsome
    rw [hlast, hchat, h.upToDate hsome, hlist]
  · rw [hlast, hchat, hannounced]
    exact h.announced

theorem remembers_of_quiet (h : Remembers tables w)
    (hview : friendsView (call tables i.1 i.2 w.chat).2 = friendsView w.chat)
    (htold : (told tables w.chat i).filterMap listOf = []) :
    Remembers tables (w.step tables i) :=
  remembers_of_unchanged h rfl (congrArg FriendsView.friends hview)
    (congrArg FriendsView.announced hview) (friendsList_congr tables hview) htold

/-- A step that shows the list as it is. -/
theorem remembers_of_shown
    (htold : (told tables w.chat i).filterMap listOf = [friendsList tables (w.step tables i).chat])
    (hannounced : (w.step tables i).chat.announcedFriends
      = friendsList tables (w.step tables i).chat) :
    Remembers tables (w.step tables i) := by
  have hlast : (w.step tables i).last = some (friendsList tables (w.step tables i).chat) := by
    rw [step, htold]
    rfl
  exact ⟨fun _ => hlast, Or.inr (hannounced.symm ▸ hlast)⟩

/-- What is not read of the socket has nothing to do with friends. -/
theorem quiet_call {m : Moment} {c : Call} (h : ∀ arrived, c ≠ .receive arrived) :
    Within Quiet (call tables m c) := by
  cases c with
  | join draws channel =>
    exact within_bind (quiet_rooms (rooms_of_moves (moves_joinChannel m draws channel)))
      fun _ => within_pure _
  | leave channelIndex =>
    exact within_bind (quiet_rooms (rooms_leaveChannel m channelIndex)) fun _ => within_pure _
  | message channelIndex body =>
    exact within_bind (quiet_rooms (rooms_sendMessage m channelIndex body)) fun _ => within_pure _
  | whisper target displayName body =>
    exact within_bind (quiet_aside (aside_sendWhisper m target displayName body))
      fun _ => within_pure _
  | answerParty channelIndex accept =>
    exact within_bind
      (quiet_rooms (rooms_of_moves (moves_answerPartyInvitation m channelIndex accept)))
      fun _ => within_pure _
  | answerGroup clubId accept =>
    exact within_bind (quiet_subscribes (subscribes_answerGroupInvitation m clubId accept))
      fun _ => within_pure _
  | search query =>
    exact within_bind (quiet_subscribes (subscribes_searchGroups m query)) fun _ => within_pure _
  | receive arrived => exact absurd rfl (h arrived)

/-- The lists among what a quiet step has queued: none. -/
theorem filterMap_listOf_drop {s t : LiveChat} (h : Quiet s t) :
    (t.pendingEvents.drop s.pendingEvents.length).filterMap listOf = [] := by
  obtain ⟨added, hadded, hunlisted⟩ := h.told
  rw [hadded, List.drop_left]
  exact List.filterMap_eq_nil_iff.2 hunlisted

theorem remembers_of_unread (h : Remembers tables w) (hread : readBy i.1 w.chat i.2 = none) :
    Remembers tables (w.step tables i) := by
  have htold : told tables w.chat i
      = (call tables i.1 i.2 w.chat).2.pendingEvents.drop w.chat.pendingEvents.length := by
    rw [told, hread]
  by_cases hreceive : ∃ arrived, i.2 = .receive arrived
  · obtain ⟨arrived, harrived⟩ := hreceive
    have hcall : (call tables i.1 i.2 w.chat).2 = (receive tables i.1 arrived w.chat).2 := by
      rw [harrived]
      show ((receive tables i.1 arrived >>= fun event => pure (some event)) w.chat).2 = _
      rw [bind_apply]
      rcases receive tables i.1 arrived w.chat with ⟨e | event, u⟩ <;> rfl
    cases hevents : w.chat.pendingEvents with
    | cons event rest =>
      rw [receive_of_waiting hevents] at hcall
      refine remembers_of_quiet h (by rw [hcall]; rfl) ?_
      rw [htold, hcall, hevents]
      show (rest.drop (rest.length + 1)).filterMap listOf = []
      rw [List.drop_of_length_le (Nat.le_succ _)]
      rfl
    | nil =>
      rw [harrived] at hread
      obtain ⟨e, he⟩ : ∃ e, receive tables i.1 arrived w.chat = (.error e, _) :=
        receive_of_readBy_eq_none hread hevents
      have hquiet := quiet_subscribes (subscribes_requestClubsWhenIdle i.1) w.chat
      rw [he] at hcall
      rw [← hcall] at hquiet
      exact remembers_of_quiet h hquiet.kept (by rw [htold, filterMap_listOf_drop hquiet])
  · have hquiet : Quiet w.chat (call tables i.1 i.2 w.chat).2 :=
      quiet_call (fun arrived harrived => hreceive ⟨arrived, harrived⟩) w.chat
    exact remembers_of_quiet h hquiet.kept (by rw [htold, filterMap_listOf_drop hquiet])

/-- What is read is read with no event waiting, and finds the friends as they were. -/
theorem quiet_of_readBy {m : Moment} {s t : LiveChat} {c : Call} {record : Record}
    (h : readBy m s c = some (record, t)) :
    t.pendingEvents = [] ∧ friendsView t = friendsView s := by
  obtain ⟨-, hevents, hidle⟩ := readBy_eq_some.1 h
  have hframe := subscribes_requestClubsWhenIdle m s
  rw [hidle] at hframe
  obtain ⟨added, hadded, hnone⟩ := hframe.told
  have hnil : added = [] := List.eq_nil_iff_forall_not_mem.2 fun event hevent => hnone event hevent
  rw [hevents, hnil] at hadded
  have hquiet := quiet_subscribes (subscribes_requestClubsWhenIdle m) s
  rw [hidle] at hquiet
  exact ⟨hadded, hquiet.kept⟩

theorem filterMap_listOf_of_quiet {s t : LiveChat} (hevents : s.pendingEvents = [])
    (h : Quiet s t) : t.pendingEvents.filterMap listOf = [] := by
  have hdrop := filterMap_listOf_drop h
  rwa [hevents] at hdrop

/-- A flagged record after which the list is as it was listed last. -/
theorem last_of_not_listed (h : Remembers tables w) {payload : Payload} {t u : LiveChat}
    (hview : friendsView t = friendsView w.chat) (hquiet : Quiet (observing tables payload t) u)
    (hsome : w.chat.friends.isEmpty = false)
    (hequal : friendsList tables u = u.announcedFriends) :
    w.last = some (friendsList tables u) := by
  have hannounced : u.announcedFriends = w.chat.announcedFriends :=
    (congrArg FriendsView.announced hquiet.kept).trans (congrArg FriendsView.announced hview)
  rcases h.announced with hnone | hshown
  · -- nothing was listed by `receive` yet, and there is nothing to list
    have hnil : friendsList tables u = [] := by rw [hequal, hannounced, hnone]
    have hafter := (friendsList_congr tables hquiet.kept).trans
      (friendsList_observing tables payload t)
    have hbefore : friendsList tables t = [] := friendSnapshot_eq_nil tables (hafter ▸ hnil)
    rw [h.upToDate hsome, ← friendsList_congr tables hview, hbefore, hnil]
  · rw [hshown, hequal, hannounced]

theorem remembers_of_flagged (h : Remembers tables w) {record : Record} {t : LiveChat}
    (hread : readBy i.1 w.chat i.2 = some (record, t))
    (hflag : (observe tables record.value t).1 ≠ ⟨false, false⟩) {event : ChatEvent}
    (hevent : (receiveRecord tables i.1 record t).1 = .ok event) :
    Remembers tables (w.step tables i) := by
  obtain ⟨hevents, hview⟩ := quiet_of_readBy hread
  have hcall : (call tables i.1 i.2 w.chat).2 = (receiveRecord tables i.1 record t).2 :=
    call_of_readBy hread
  have htold : told tables w.chat i = _ := told_of_readBy hread
  obtain ⟨u, hquiet, hrefresh⟩ := receiveRecord_of_flagged tables i.1 hflag hevent
  have hqueue : u.pendingEvents.filterMap listOf = [] :=
    filterMap_listOf_of_quiet (s := observing tables record.value t) hevents hquiet
  have hflags : ((observe tables record.value t).1.identity
      || (observe tables record.value t).1.presence) = true := by
    rcases hobserved : (observe tables record.value t).1 with ⟨identity, presence⟩
    rw [hobserved] at hflag
    cases identity <;> cases presence <;> simp_all
  rw [refreshFriends_of_activity, hflags, Bool.true_and] at hrefresh
  by_cases hlisted : (!u.friends.isEmpty && friendsList tables u ≠ u.announcedFriends) = true
  · rw [if_pos hlisted] at hrefresh
    rw [hrefresh] at hcall htold
    have hchat : (w.step tables i).chat = { u with announcedFriends := friendsList tables u } :=
      hcall
    refine remembers_of_shown ?_ ?_
    · rw [htold, hchat, List.filterMap_append, hqueue]
      rfl
    · rw [hchat]
      rfl
  · rw [if_neg hlisted] at hrefresh
    rw [hrefresh] at hcall htold
    have hchat : (w.step tables i).chat = u := hcall
    have hlast : (w.step tables i).last = w.last := by
      have hnone : (told tables w.chat i).filterMap listOf = [] := by
        rw [htold, List.filterMap_append, hqueue]
        rfl
      rw [step, hnone]
      rfl
    have hfriends : u.friends = w.chat.friends :=
      (congrArg FriendsView.friends hquiet.kept).trans (congrArg FriendsView.friends hview)
    have hannounced : u.announcedFriends = w.chat.announcedFriends :=
      (congrArg FriendsView.announced hquiet.kept).trans (congrArg FriendsView.announced hview)
    refine ⟨fun hsome => ?_, ?_⟩
    · rw [hchat] at hsome
      have hequal : friendsList tables u = u.announcedFriends := by
        by_contra hne
        simp [hsome, hne] at hlisted
      rw [hlast, hchat]
      exact last_of_not_listed h hview hquiet (hfriends ▸ hsome) hequal
    · rw [hlast, hchat, hannounced]
      exact h.announced

theorem remembers_of_page {record : Record} {t : LiveChat}
    (hread : readBy i.1 w.chat i.2 = some (record, t)) {f : Friends → Friends}
    (hpage : pageOf record.value = some f) {event : ChatEvent}
    (hevent : (receiveRecord tables i.1 record t).1 = .ok event) :
    Remembers tables (w.step tables i) := by
  obtain ⟨hevents, -⟩ := quiet_of_readBy hread
  have hcall : (call tables i.1 i.2 w.chat).2 = (receiveRecord tables i.1 record t).2 :=
    call_of_readBy hread
  obtain ⟨rfl, hquiet⟩ := receiveRecord_of_page tables i.1 hpage hevent
  have hchat : (w.step tables i).chat = (receiveRecord tables i.1 record t).2 := hcall
  have hlist : friendsList tables (w.step tables i).chat
      = friendsList tables (listing tables f t) := by
    rw [hchat]
    exact friendsList_congr tables hquiet.kept
  refine remembers_of_shown ?_ ?_
  · rw [told_of_readBy hread, hevent, hlist, List.filterMap_append,
      filterMap_listOf_of_quiet (s := listing tables f t) hevents hquiet]
    rfl
  · rw [hlist, hchat]
    exact congrArg FriendsView.announced hquiet.kept

theorem remembers_of_not_flagged (h : Remembers tables w) {record : Record} {t : LiveChat}
    (hread : readBy i.1 w.chat i.2 = some (record, t)) (hpage : pageOf record.value = none)
    (hflag : (observe tables record.value t).1 = ⟨false, false⟩)
    (hfound : ∀ update, record.value = .presenceUpdate update → ∀ friend ∈ valuesOf t.friends,
      (listedName friend).isSome →
        SamePresence friend t.profiles (t.profiles.observe tables record.value).1) :
    Remembers tables (w.step tables i) := by
  obtain ⟨hevents, hview⟩ := quiet_of_readBy hread
  obtain ⟨hquiet, hevent⟩ := quiet_receiveRecord tables i.1 hpage hflag
  refine remembers_of_unchanged h (call_of_readBy hread) ?_ ?_ ?_ ?_
  · exact (congrArg FriendsView.friends hquiet.kept).trans (congrArg FriendsView.friends hview)
  · exact (congrArg FriendsView.announced hquiet.kept).trans
      (congrArg FriendsView.announced hview)
  · rw [friendsList_congr tables hquiet.kept, friendsList_of_not_flagged tables hflag hfound,
      friendsList_congr tables hview]
  · rw [told_of_readBy hread, List.filterMap_append,
      filterMap_listOf_of_quiet (s := observing tables record.value t) hevents hquiet]
    cases hresult : (receiveRecord tables i.1 record t).1 with
    | error e => rfl
    | ok event =>
      have hunlisted : listOf event = none := hevent event hresult
      simp [eventOf, hunlisted]

theorem remembers_of_read (h : Remembers tables w) (hheeded : IsHeeded tables w i)
    {record : Record} {t : LiveChat} (hread : readBy i.1 w.chat i.2 = some (record, t)) :
    Remembers tables (w.step tables i) := by
  have hevent (hok : (receiveRecord tables i.1 record t).1.isOk = true) :
      ∃ event, (receiveRecord tables i.1 record t).1 = .ok event := by
    cases hresult : (receiveRecord tables i.1 record t).1 with
    | error e => simp [hresult, Except.isOk, Except.toBool] at hok
    | ok event => exact ⟨event, rfl⟩
  by_cases hflag : (observe tables record.value t).1 = ⟨false, false⟩
  · cases hpage : pageOf record.value with
    | none => exact remembers_of_not_flagged h hread hpage hflag (hheeded.found _ _ hread hflag)
    | some f =>
      obtain ⟨event, hevent⟩ := hevent (hheeded.carried _ _ hread (Or.inl (by rw [hpage]; rfl)))
      exact remembers_of_page hread hpage hevent
  · obtain ⟨event, hevent⟩ := hevent (hheeded.carried _ _ hread (Or.inr hflag))
    exact remembers_of_flagged h hread hflag hevent

/-- **One step.** -/
theorem remembers_step (h : Remembers tables w) (hheeded : IsHeeded tables w i) :
    Remembers tables (w.step tables i) := by
  cases hread : readBy i.1 w.chat i.2 with
  | none => exact remembers_of_unread h hread
  | some read => exact remembers_of_read h hheeded hread

/-- A friend who is a character. -/
def ann : FriendUpdate where
  operation := .add
  entry := {
    identity := .character programS2 1 1 7
    displayName := some "Ann" }

/-- A friend who is an account. -/
def bob : FriendUpdate where
  operation := .add
  entry := {
    identity := .account 9
    displayName := some "Bob" }

def announced (handle : UInt32) (size : UInt16) : PresenceField where
  handle
  identifier := 0
  flags := ⟨0⟩
  fixedSize := some size

/-- An update about presence 5, who is online. -/
def online (handles : List UInt32) (fieldData : List UInt8) : PresenceUpdate where
  localPresenceId := 5
  masterPresenceId := 0
  fieldData
  clearedHandles := []
  handles
  variableSizes := []
  online := true

/-- An account friend comes online. -/
def accountRun : List (Moment × Call) :=
  [heard (.friends [bob]), heard (.presenceFields ⟨[announced fieldAccountId 4]⟩),
    heard (.presenceUpdate (online [fieldAccountId] [0, 0, 0, 9]))]

/-- The session before anything is known. -/
def newcomer : ShowingFriends where
  chat := { defaultChannelIndex := 0 }

/-- The record is carried through, and is flagged if it is an update. -/
def isCarried (tables : Tables) (m : Moment) (read : Record × LiveChat) : Bool :=
  (receiveRecord tables m read.1 read.2).1.isOk &&
    match read.1.value with
    | .presenceUpdate update =>
      decide ((observe tables (.presenceUpdate update) read.2).1 ≠ ⟨false, false⟩)
    | _ => true

theorem isHeeded_of_isCarried {tables : Tables} {w : ShowingFriends} {i : Moment × Call}
    (h : (readBy i.1 w.chat i.2).all (isCarried tables i.1) = true) : IsHeeded tables w i := by
  refine ⟨fun record t hread _ => ?_, fun record t hread hflag update hupdate => ?_⟩
  · rw [hread] at h
    exact ((Bool.and_eq_true_iff).1 h).1
  · rw [hread] at h
    have hflagged := ((Bool.and_eq_true_iff).1 h).2
    dsimp only at hflagged
    rw [hupdate] at hflagged hflag
    exact absurd hflag (of_decide_eq_true hflagged)

/-- The character of a friend who is online becomes known. -/
def characterRun : List (Moment × Call) :=
  [heard (.friends [ann]), heard (.presenceFields ⟨[announced fieldToonHandle 17]⟩),
    heard (.presenceUpdate (online [] []))]

def characterUpdate : Moment × Call :=
  heard (.presenceUpdate (online [fieldToonHandle]
    [1, 0, 0, 0x53, 0x32, 0, 0, 0, 1, 0, 0, 0, 0, 0, 0, 0, 7]))

end ShowingFriends

end LiveChat

end Superiority.Sc2
