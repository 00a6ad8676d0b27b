import Superiority.Library.Run
import Superiority.Wc3.Live

/-!
# The halls on screen mirror the session

An event opens a hall with its name and without members, and a snapshot fills it; a snapshot is sent
when it differs from the one published before under its id. The screen therefore shows of a hall
what was published last, or what an event has opened since.

* **`tracks_step`** – what the screen shows between publications, in every step that is clear.
* **`mirrors_of_stepsMeet`** – the halls mirror the session in every run of clear steps: no failing
  dispatch loses the opening or closing of a hall, no hall whose closing waits is joined again or
  has a changed snapshot to publish, and a hall that was opened since the last publication has a
  changed snapshot unless it is as its event has opened it.
-/

namespace Superiority.Wc3

open Stateful ClassicSession

namespace LiveSession

/-! ## The law -/

structure Mirrors (m : LiveSession) : Prop where
  /-- A closed hall is absent until its leave has been answered. -/
  closed : ∀ id ∈ m.closing, m.ui.face id = none
  /-- After a publication the halls are the announced channels. -/
  shown : m.published = true → m.ui.faces.Perm
    ((m.session.chat.announcedChannels.filter (·.id ∉ m.closing)).map ChatChannel.face)
  distinct : (m.ui.faces.map (·.id)).Nodup
  /-- A hall is still announced after its leave exactly when the leave was refused. -/
  answered : ∀ id was accepted, m.answered = some (id, was, accepted) →
    (id ∈ m.session.chat.openIds ↔ was = true ∧ accepted = false)

/-! ## The condition -/

/-- What a command asks of the session. -/
def asks : LiveCommand → Option (Reply → Stateful ClassicSession Error Unit)
  | .joinWarcraft channel => some (askJoinNamed channel)
  | .sendMessage id body => some (askSendMessageTo id body)
  | .leaveChannel id => some (askLeave id)
  | .sendWhisper (.warcraftAccount accountId) body => some (askSendWhisper accountId body)
  | _ => none

def joinedId : ChatEvent → Option UInt8
  | .channelJoined id _ _ => some id
  | _ => none

def leftId : ChatEvent → Option UInt8
  | .channelLeft id => some id
  | _ => none

/-- No hall that is still to be left is joined. -/
def JoinsNoneOf (closing : List UInt8) (events : List ChatEvent) : Prop :=
  ∀ event ∈ events, (joinedId event).all (· ∉ closing) = true

/-- The events neither open nor close a hall. -/
def OpensNothing (events : List ChatEvent) : Prop :=
  ∀ event ∈ events, joinedId event = none ∧ leftId event = none

theorem JoinsNoneOf.not_mem {closing : List UInt8} {events : List ChatEvent}
    (h : JoinsNoneOf closing events) {id : UInt8} {name : String} {count : Nat}
    (hmem : .channelJoined id name count ∈ events) : id ∉ closing := by
  simpa [joinedId] using h _ hmem

variable (casing : Casing)

/-- The dispatch after what is asked joins no hall that is still to be left. -/
def JoinsClearly (closing : List UInt8) (outcome : Except Error Unit × ClassicSession) : Prop :=
  outcome.1 = .ok () → (outcome.2.dispatched casing).failure = none →
    JoinsNoneOf closing (outcome.2.dispatched casing).events

/-- When the dispatch after what is asked fails, it has opened and closed nothing before. -/
def FailsClearly (outcome : Except Error Unit × ClassicSession) : Prop :=
  outcome.1 = .ok () → (outcome.2.dispatched casing).failure.isSome →
    OpensNothing (outcome.2.dispatched casing).events

/-- What is published shows no hall again that is still to be left, and every hall as it is. -/
structure ClearPublish (m : LiveSession) : Prop where
  closing : ∀ channel ∈ m.session.chat.announcedChannels, channel.id ∈ m.closing →
    m.changed channel = false
  opened : ∀ entry ∈ m.opened, entry.1 ∉ m.closing →
    ∀ channel ∈ m.session.chat.announcedChannels, channel.id = entry.1 →
      m.changed channel = true ∨ channel.name = entry.2 ∧ channel.members = []

def Clear (m : LiveSession) : Action → Prop
  | .take reply _ _ => m.stage = .draining → ∀ ask ∈ m.commands.head?.bind asks,
      JoinsClearly casing { m with commands := m.commands.tail }.closing (ask reply m.session) ∧
        FailsClearly casing (ask reply m.session)
  | .poll arrival _ => m.stage = .polling →
      JoinsClearly casing m.closing (askPoll arrival m.session)
  | .publish _ => m.stage = .publishing ∨ m.stage = .republishing → m.ClearPublish
  | _ => True

instance (closing : List UInt8) (events : List ChatEvent) :
    Decidable (JoinsNoneOf closing events) :=
  inferInstanceAs (Decidable (∀ event ∈ events, (joinedId event).all (· ∉ closing) = true))

instance (events : List ChatEvent) : Decidable (OpensNothing events) :=
  inferInstanceAs (Decidable (∀ event ∈ events, joinedId event = none ∧ leftId event = none))

instance (closing : List UInt8) (outcome : Except Error Unit × ClassicSession) :
    Decidable (JoinsClearly casing closing outcome) :=
  inferInstanceAs (Decidable (outcome.1 = .ok () →
    (outcome.2.dispatched casing).failure = none →
      JoinsNoneOf closing (outcome.2.dispatched casing).events))

instance (outcome : Except Error Unit × ClassicSession) :
    Decidable (FailsClearly casing outcome) :=
  inferInstanceAs (Decidable (outcome.1 = .ok () →
    (outcome.2.dispatched casing).failure.isSome →
      OpensNothing (outcome.2.dispatched casing).events))

theorem clearPublish_iff {m : LiveSession} : (∀ channel ∈ m.session.chat.announcedChannels,
      channel.id ∈ m.closing → m.changed channel = false) ∧
    (∀ entry ∈ m.opened, entry.1 ∉ m.closing →
      ∀ channel ∈ m.session.chat.announcedChannels, channel.id = entry.1 →
        m.changed channel = true ∨ channel.name = entry.2 ∧ channel.members = []) ↔
    m.ClearPublish :=
  ⟨fun h => ⟨h.1, h.2⟩, fun h => ⟨h.closing, h.opened⟩⟩

instance (m : LiveSession) : Decidable m.ClearPublish := decidable_of_iff _ clearPublish_iff

instance (m : LiveSession) : (action : Action) → Decidable (m.Clear casing action)
  | .take reply _ _ => inferInstanceAs (Decidable (m.stage = .draining →
      ∀ ask ∈ m.commands.head?.bind asks,
        JoinsClearly casing { m with commands := m.commands.tail }.closing (ask reply m.session) ∧
          FailsClearly casing (ask reply m.session)))
  | .poll arrival _ => inferInstanceAs (Decidable (m.stage = .polling →
      JoinsClearly casing m.closing (askPoll arrival m.session)))
  | .publish _ => inferInstanceAs (Decidable
      (m.stage = .publishing ∨ m.stage = .republishing → m.ClearPublish))
  | .close _ | .select _ | .reorder .. | .send _ | .dispatchQueued _ | .joinFirst _ =>
    .isTrue trivial

/-! ## What events show -/

open ChatState (OpenAfter Fits Tells Told)

/-- The face of a hall between publications. -/
def expected (opened : List (UInt8 × String)) (prior : ChatChannel) : Face :=
  match byKey Prod.fst prior.id opened with
  | some (_, name) => ⟨prior.id, name, []⟩
  | none => prior.face

/-- What is on screen, for what is open, what was published last and what was opened since; halls
of the excepted ids may be missing. -/
structure Shown (opens : UInt8 → Prop) (last : List ChatChannel) (except_ : List UInt8)
    (ui : Wc3SessionUi) (opened : List (UInt8 × String)) : Prop where
  apart : ui.ids.Nodup
  absent : ∀ id, ¬ opens id → ui.face id = none
  seen : ∀ prior ∈ last, opens prior.id → prior.id ∉ except_ →
    ui.face prior.id = some (expected opened prior)

section Events

variable {opens : UInt8 → Prop} {last : List ChatChannel} {except_ : List UInt8}
  {ui : Wc3SessionUi} {opened : List (UInt8 × String)}

theorem Shown.of_faces (h : Shown opens last except_ ui opened) {ui' : Wc3SessionUi}
    (hfaces : ui'.faces = ui.faces) : Shown opens last except_ ui' opened where
  apart := Wc3SessionUi.nodup_of_faces h.apart hfaces
  absent id hid := by
    rw [Wc3SessionUi.face, hfaces]
    exact h.absent id hid
  seen prior hprior hopen hexcept := by
    rw [Wc3SessionUi.face, hfaces]
    exact h.seen prior hprior hopen hexcept

theorem Shown.joined (h : Shown opens last except_ ui opened) {id : UInt8} (hid : ¬ opens id)
    (name : String) (count : Nat) (time : String) :
    Shown (OpenAfter opens (.channelJoined id name count)) last except_
      (ui.appendEvent (.channelJoined id name count) time)
      (noteOpened opened (.channelJoined id name count)) where
  apart := Wc3SessionUi.nodup_appendEvent h.apart _ time
  absent k hk := by
    rw [Wc3SessionUi.face_channelJoined, if_neg fun hkid => hk (.inr hkid)]
    exact h.absent k fun hopen => hk (.inl hopen)
  seen prior hprior hopen hexcept := by
    rw [Wc3SessionUi.face_channelJoined, h.absent id hid]
    by_cases hk : prior.id = id
    · simp [expected, noteOpened, byKey, hk, Wc3SessionUi.joinedFace]
    · have hne : ¬ id = prior.id := fun heq => hk heq.symm
      rw [if_neg hk, h.seen prior hprior (hopen.resolve_right hk) hexcept]
      have hopened : byKey Prod.fst prior.id (noteOpened opened (.channelJoined id name count)) =
          byKey Prod.fst prior.id opened := by
        rw [noteOpened, byKey_cons, if_neg hne, byKey_filter_ne, if_neg hk]
      rw [expected, expected, hopened]

theorem Shown.left (h : Shown opens last except_ ui opened) (id : UInt8) (time : String) :
    Shown (OpenAfter opens (.channelLeft id)) last except_
      (ui.appendEvent (.channelLeft id) time) (noteOpened opened (.channelLeft id)) where
  apart := Wc3SessionUi.nodup_appendEvent h.apart _ time
  absent k hk := by
    rw [Wc3SessionUi.face_channelLeft h.apart]
    by_cases hkid : k = id
    · rw [if_pos hkid]
    · rw [if_neg hkid]
      exact h.absent k fun hopen => hk ⟨hopen, hkid⟩
  seen prior hprior hopen hexcept := by
    rw [Wc3SessionUi.face_channelLeft h.apart, if_neg hopen.2,
      h.seen prior hprior hopen.1 hexcept]
    have hopened : byKey Prod.fst prior.id (noteOpened opened (.channelLeft id)) =
        byKey Prod.fst prior.id opened := by
      rw [noteOpened, byKey_filter_ne, if_neg hopen.2]
    rw [expected, expected, hopened]

theorem Shown.event (h : Shown opens last except_ ui opened) {event : ChatEvent}
    (hfits : Fits opens event) (time : String) : Shown (OpenAfter opens event) last except_
      (ui.appendEvent event time) (noteOpened opened event) := by
  cases event with
  | channelJoined id name count => exact h.joined hfits name count time
  | channelLeft id => exact h.left id time
  | _ => exact h.of_faces (Wc3SessionUi.faces_appendEvent_of_other ui time (by simp) (by simp))

theorem Shown.events (h : Shown opens last except_ ui opened) {events : List ChatEvent}
    {after : UInt8 → Prop} (htells : Tells opens events after) (time : String) :
    Shown after last except_ (events.foldl (·.appendEvent · time) ui)
      (events.foldl noteOpened opened) := by
  induction events generalizing opens ui opened with
  | nil =>
    obtain rfl : after = opens := funext fun k => propext (htells k)
    exact h
  | cons event events ih => exact ih (h.event htells.1 time) htells.2

/-- A hall that is not on screen stays away unless it is joined. -/
theorem face_events_eq_none (hapart : ui.ids.Nodup) {id : UInt8} (h : ui.face id = none)
    {events : List ChatEvent} (hjoins : ∀ name count, .channelJoined id name count ∉ events)
    (time : String) : (events.foldl (·.appendEvent · time) ui).face id = none := by
  induction events generalizing ui with
  | nil => exact h
  | cons event events ih =>
    refine ih (Wc3SessionUi.nodup_appendEvent hapart event time) ?_ fun name count hmem =>
      hjoins name count (List.mem_cons_of_mem _ hmem)
    cases event with
    | channelJoined id' name count =>
      rw [Wc3SessionUi.face_channelJoined, if_neg ?_, h]
      rintro rfl
      exact hjoins name count List.mem_cons_self
    | channelLeft id' => simp [Wc3SessionUi.face_channelLeft hapart, h]
    | _ =>
      rw [Wc3SessionUi.face,
        Wc3SessionUi.faces_appendEvent_of_other ui time (by simp) (by simp)]
      exact h

end Events

/-! ## What snapshots show -/

theorem face_foldl_applyChannel (ui : Wc3SessionUi) {channels : List ChatChannel}
    (hapart : (channels.map (·.id)).Nodup) (time : String) (k : UInt8) :
    (channels.foldl (·.applyChannel · time) ui).face k =
      ((byKey ChatChannel.id k channels).map ChatChannel.face).or (ui.face k) := by
  induction channels generalizing ui with
  | nil => rfl
  | cons channel channels ih =>
    rw [List.map_cons, List.nodup_cons] at hapart
    rw [List.foldl_cons, ih _ hapart.2, Wc3SessionUi.face_applyChannel]
    rw [byKey_cons]
    by_cases hk : k = channel.id
    · have hnone : byKey ChatChannel.id k channels = none :=
        byKey_eq_none.2 fun other hother hid => hapart.1 (by
          rw [← hk, ← hid]
          exact List.mem_map_of_mem hother)
      rw [hnone, if_pos hk, if_pos hk.symm]
      rfl
    · rw [if_neg hk, if_neg fun heq => hk heq.symm]

theorem nodup_foldl_applyChannel {ui : Wc3SessionUi} (hapart : ui.ids.Nodup)
    (channels : List ChatChannel) (time : String) :
    (channels.foldl (·.applyChannel · time) ui).ids.Nodup := by
  induction channels generalizing ui with
  | nil => exact hapart
  | cons channel channels ih => exact ih (Wc3SessionUi.nodup_applyChannel hapart channel time)

/-- A publication sets the faces of the changed snapshots. -/
theorem face_publish {m : LiveSession} (h : m.session.chat.Numbered) (time : String) (k : UInt8) :
    (m.publish time).ui.face k =
      (((m.session.chat.announced k).filter m.changed).map ChatChannel.face).or (m.ui.face k) := by
  have hapart : (m.session.chat.announcedChannels.map (·.id)).Nodup := by
    rw [ChatState.map_id_announcedChannels h]
    exact ChatState.nodup_openIds h
  refine (face_foldl_applyChannel m.ui (nodup_keys_filter hapart _) time k).trans ?_
  rw [byKey_filter hapart]
  rfl

/-- The screen is what the session announces, but for the halls still to be left. -/
def Exact (m : LiveSession) : Prop := ∀ k, m.ui.face k =
  if k ∈ m.closing then none else (m.session.chat.announced k).map ChatChannel.face

theorem perm_of_exact {m : LiveSession} (hnumbered : m.session.chat.Numbered)
    (hapart : m.ui.ids.Nodup) (h : m.Exact) : m.ui.faces.Perm
      ((m.session.chat.announcedChannels.filter (·.id ∉ m.closing)).map ChatChannel.face) := by
  have hids : (m.session.chat.announcedChannels.map (·.id)).Nodup := by
    rw [ChatState.map_id_announcedChannels hnumbered]
    exact ChatState.nodup_openIds hnumbered
  have hmap (channels : List ChatChannel) :
      (channels.map ChatChannel.face).map Face.id = channels.map (·.id) := by
    rw [List.map_map]
    rfl
  refine perm_of_byKey (by rwa [Wc3SessionUi.map_id_faces])
    (by rw [hmap]; exact nodup_keys_filter hids _) fun k => ?_
  have hview (channels : List ChatChannel) : byKey Face.id k (channels.map ChatChannel.face) =
      (byKey ChatChannel.id k channels).map ChatChannel.face := byKey_map (by intro channel; rfl)
  rw [hview, byKey_filter_key fun id => decide (id ∉ m.closing), ← Wc3SessionUi.face, h k]
  by_cases hk : k ∈ m.closing
  · simp [hk]
  · simp [hk, ChatState.announced]

/-! ## What requests tell -/

section Requests

/-- A computation that announces no channel and takes none away. -/
def Unannounced (session session' : ClassicSession) : Prop :=
  session.chat.Numbered → Told session.chat [] session'.chat

instance : Std.Refl Unannounced where
  refl _ := fun h => ChatState.told_of_shapes h rfl

instance : IsTrans ClassicSession Unannounced where
  trans _ _ _ h h' := fun hnumbered => (h hnumbered).trans (h' (h hnumbered).numbered)

theorem unannounced_of_chat {f : ClassicSession → ClassicSession} (h : ∀ s, (f s).chat = s.chat) :
    Within Unannounced (change f : Stateful ClassicSession Error Unit) := fun s hnumbered => by
  rw [change_apply]
  dsimp only
  rw [h s]
  exact ChatState.told_of_shapes hnumbered rfl

theorem unannounced_call (reply : Reply) : Within Unannounced (call reply) :=
  within_bind (unannounced_of_chat fun _ => rfl) fun _ => within_ofExcept _

theorem unannounced_askJoin (index : Nat) (reply : Reply) :
    Within Unannounced (askJoin index reply) := by
  refine within_bind within_read fun session => within_bind (within_ofExcept _) fun identifier =>
    within_bind (unannounced_call reply) fun body => within_bind (within_ofExcept _) fun id =>
      within_bind (fun session h => ?_) fun _ => within_pure _
  exact ChatState.told_reserveChannel h id _

theorem unannounced_asks {command : LiveCommand} {ask : Reply → Stateful ClassicSession Error Unit}
    (h : asks command = some ask) (reply : Reply) : Within Unannounced (ask reply) := by
  cases command with
  | joinWarcraft channel =>
    obtain rfl := Option.some.inj h
    exact within_bind within_read fun _ => within_bind (within_ofExcept _) fun index =>
      unannounced_askJoin index reply
  | sendMessage id body =>
    obtain rfl := Option.some.inj h
    exact within_bind (within_ofExcept _) fun _ => within_bind within_read fun _ =>
      within_bind (within_ofExcept _) fun _ => within_bind (unannounced_call reply) fun _ =>
        within_ofExcept _
  | leaveChannel id =>
    obtain rfl := Option.some.inj h
    exact within_bind within_read fun _ => within_bind (within_ofExcept _) fun _ =>
      within_bind (unannounced_call reply) fun _ => within_ofExcept _
  | sendWhisper target body =>
    cases target with
    | warcraftAccount accountId =>
      obtain rfl := Option.some.inj h
      have hrest : Within Unannounced (do
          let _ ← ofExcept (checkedText body "whisper message")
          let body ← call reply
          ofExcept (onlyBytes body "SendWhisper")) :=
        within_bind (within_ofExcept _) fun _ => within_bind (unannounced_call reply) fun _ =>
          within_ofExcept _
      exact within_ite (within_bind (within_fail _) fun _ => hrest) hrest
    | _ => cases h
  | _ => cases h

theorem unannounced_takeCookieUpdates : Within Unannounced takeCookieUpdates := by
  refine within_bind within_read fun session => within_bind (unannounced_of_chat fun _ => rfl)
    fun _ => within_bind (within_ofExcept _) fun cookie => ?_
  cases cookie with
  | none => exact within_pure ()
  | some cookie => exact unannounced_of_chat fun _ => rfl

theorem unannounced_askPoll (arrival : Arrival) : Within Unannounced (askPoll arrival) := by
  refine within_bind (unannounced_of_chat fun _ => rfl) fun _ => ?_
  cases arrival.failure with
  | some error => exact within_fail error
  | none => exact unannounced_takeCookieUpdates

/-- What is asked, and the dispatch after it. -/
theorem told_dispatching {x : Stateful ClassicSession Error Unit} (hx : Within Unannounced x)
    (refreshed : List Callback) {session : ClassicSession} (h : session.chat.Numbered) :
    match (x >>= fun _ => dispatchProductEvents casing refreshed) session with
    | (.ok events, session') => (x session).1 = .ok () ∧
        ((x session).2.dispatched casing).failure = none ∧
        ((x session).2.dispatched casing).events = events ∧ Told session.chat events session'.chat
    | (.error _, session') => (∃ error, (x session).1 = .error error) ∧
          Told session.chat [] session'.chat ∨
        (x session).1 = .ok () ∧ ((x session).2.dispatched casing).failure.isSome ∧
          Told session.chat ((x session).2.dispatched casing).events session'.chat := by
  have hasked := hx session h
  rw [bind_apply]
  rcases hxs : x session with ⟨error | _, asked⟩
  · rw [hxs] at hasked
    exact .inl ⟨⟨error, rfl⟩, hasked⟩
  · rw [hxs] at hasked
    have htold := hasked.trans (ChatState.told_dispatch casing hasked.numbered asked.callbacks)
    rw [List.nil_append] at htold
    unfold dispatchProductEvents
    simp only [bind_apply, read_apply, change_apply, ofExcept_apply, pure_apply]
    unfold ChatState.Dispatched.result
    cases hfailure : (asked.dispatched casing).failure with
    | some error => exact .inr ⟨trivial, rfl, htold⟩
    | none => exact ⟨trivial, rfl, rfl, htold⟩

/-- A clear dispatch loses no opening or closing, and joins nothing that is still to be left. -/
theorem clear_dispatching {x : Stateful ClassicSession Error Unit} (hx : Within Unannounced x)
    (refreshed : List Callback) {session : ClassicSession} (h : session.chat.Numbered)
    {closing : List UInt8} (hjoins : JoinsClearly casing closing (x session))
    (hfails : FailsClearly casing (x session)) :
    match (x >>= fun _ => dispatchProductEvents casing refreshed) session with
    | (.ok events, session') => Told session.chat events session'.chat ∧ JoinsNoneOf closing events
    | (.error _, session') => session'.chat.Numbered ∧
        ∀ k, k ∈ session'.chat.openIds ↔ k ∈ session.chat.openIds := by
  have htold := told_dispatching casing hx refreshed h
  rcases hout : (x >>= fun _ => dispatchProductEvents casing refreshed) session with
    ⟨error | events, session'⟩
  · rw [hout] at htold
    rcases htold with ⟨-, htold⟩ | ⟨hok, hfailure, htold⟩
    · exact ⟨htold.numbered, htold.tells⟩
    · have hquiet := hfails hok hfailure
      refine ⟨htold.numbered, htold.tells.iff_of_quiet (fun id name count hmem => ?_)
        fun id hmem => ?_⟩
      · cases (hquiet _ hmem).1
      · cases (hquiet _ hmem).2
  · rw [hout] at htold
    obtain ⟨hok, hfailure, rfl, htold⟩ := htold
    exact ⟨htold, hjoins hok hfailure⟩

/-- A leave that is accepted takes its hall away. -/
theorem clear_leave {id : UInt8} (reply : Reply) {session : ClassicSession}
    (h : session.chat.Numbered) {closing : List UInt8}
    (hjoins : JoinsClearly casing closing (askLeave id reply session))
    (hfails : FailsClearly casing (askLeave id reply session)) :
    match ClassicSession.leave casing id reply session with
    | (.ok events, session') => Told session.chat events session'.chat ∧
        JoinsNoneOf closing events ∧ id ∉ session'.chat.openIds
    | (.error _, session') => session'.chat.Numbered ∧
        ∀ k, k ∈ session'.chat.openIds ↔ k ∈ session.chat.openIds := by
  have hasks : asks (.leaveChannel id) = some (askLeave id) := rfl
  have hrequest :=
    clear_dispatching casing (unannounced_asks hasks reply) reply.refreshed h hjoins hfails
  unfold ClassicSession.leave request
  rw [bind_apply]
  rcases hout : (askLeave id reply >>= fun _ => dispatchProductEvents casing reply.refreshed)
    session with ⟨error | events, session'⟩
  · rw [hout] at hrequest
    exact hrequest
  · rw [hout] at hrequest
    obtain ⟨htold, hjoins⟩ := hrequest
    have hremoved := ChatState.told_removeChannel htold.numbered id
    dsimp only
    rw [bind_apply]
    unfold onChat
    rw [within_apply, take_apply]
    rcases hchat : session'.chat.removeChannel id with ⟨removed | removed, chat⟩
    · rw [hchat] at hremoved
      obtain ⟨rfl, hclosed⟩ := hremoved
      exact ⟨htold, hjoins, hclosed⟩
    · rw [hchat] at hremoved
      obtain ⟨-, hleft⟩ := hremoved
      refine ⟨htold.trans hleft, fun event hmem => ?_, ?_⟩
      · rcases List.mem_append.1 hmem with hmem | hmem
        · exact hjoins event hmem
        · rw [List.mem_singleton.1 hmem]
          rfl
      · intro hopen
        exact ((hleft.tells.2 id).1 hopen).2 rfl

end Requests

/-! ## The invariant -/

/-- Before the start is reported nothing is on screen. -/
structure Starting (m : LiveSession) : Prop where
  halls : m.ui.channels = []
  last : m.lastChannels = []
  opened : m.opened = []
  closing : m.closing = []
  published : m.published = false
  tells : Tells (fun _ => False) m.initialEvents (· ∈ m.session.chat.openIds)

/-- The loop is running. -/
def Runs (m : LiveSession) : Prop := m.stage ≠ .connecting ∧ m.stage ≠ .ended

/-- What is on screen, with the halls still to be left excepted. -/
def Shows (m : LiveSession) (except_ : List UInt8) : Prop :=
  Shown (· ∈ m.session.chat.openIds) m.lastChannels except_ m.ui m.opened

structure Tracks (m : LiveSession) : Prop where
  numbered : m.session.chat.Numbered
  apart : m.ui.ids.Nodup
  closed : ∀ id ∈ m.closing, m.ui.face id = none
  starting : m.stage = .connecting → m.Starting
  shows : m.Runs → m.Shows m.closing
  exact : m.published = true → m.Exact
  answered : ∀ id was accepted, m.answered = some (id, was, accepted) →
    (id ∈ m.session.chat.openIds ↔ was = true ∧ accepted = false)

theorem Tracks.mirrors {m : LiveSession} (h : m.Tracks) : m.Mirrors where
  closed := h.closed
  shown hpublished := perm_of_exact h.numbered h.apart (h.exact hpublished)
  distinct := by
    rw [Wc3SessionUi.map_id_faces]
    exact h.apart
  answered := h.answered

theorem tracks_initial (publicChannels : List (List UInt8)) (callbacks : List Callback) :
    (initial publicChannels callbacks).Tracks where
  numbered := ChatState.numbered_default
  apart := List.nodup_nil
  closed _ h := by cases h
  starting _ := ⟨rfl, rfl, rfl, rfl, rfl, fun k => by
    simp [initial, established, ChatState.default_, ChatState.openIds]⟩
  shows h := absurd rfl h.1
  exact h := by cases h
  answered _ _ _ h := by cases h

theorem Tracks.unanswered {m : LiveSession} (h : m.Tracks) :
    ({ m with answered := none } : LiveSession).Tracks where
  numbered := h.numbered
  apart := h.apart
  closed := h.closed
  starting hstage := ⟨(h.starting hstage).halls, (h.starting hstage).last,
    (h.starting hstage).opened, (h.starting hstage).closing, (h.starting hstage).published,
    (h.starting hstage).tells⟩
  shows := h.shows
  exact := h.exact
  answered _ _ _ hanswered := by cases hanswered

/-- What is on screen outside the start and the end. -/
theorem tracks_of_shows {m : LiveSession} (hnumbered : m.session.chat.Numbered)
    (hclosed : ∀ id ∈ m.closing, m.ui.face id = none) (hstage : m.Runs)
    (hshows : m.Shows m.closing) (hexact : m.published = true → m.Exact)
    (hanswered : ∀ id was accepted, m.answered = some (id, was, accepted) →
      (id ∈ m.session.chat.openIds ↔ was = true ∧ accepted = false)) : m.Tracks where
  numbered := hnumbered
  apart := hshows.apart
  closed := hclosed
  starting h := absurd h hstage.1
  shows _ := hshows
  exact := hexact
  answered := hanswered

/-- After the end only the closed halls matter. -/
theorem tracks_of_ended {m : LiveSession} (hnumbered : m.session.chat.Numbered)
    (hapart : m.ui.ids.Nodup) (hclosed : ∀ id ∈ m.closing, m.ui.face id = none)
    (hstage : m.stage = .ended) (hpublished : m.published = false)
    (hanswered : m.answered = none) : m.Tracks where
  numbered := hnumbered
  apart := hapart
  closed := hclosed
  starting h := by rw [hstage] at h; cases h
  shows h := absurd hstage h.2
  exact h := by rw [hpublished] at h; cases h
  answered _ _ _ h := by rw [hanswered] at h; cases h

/-! ## The user's actions -/

theorem Shown.of_face {opens : UInt8 → Prop} {last : List ChatChannel} {except_ : List UInt8}
    {ui ui' : Wc3SessionUi} {opened : List (UInt8 × String)}
    (h : Shown opens last except_ ui opened) (hapart : ui'.ids.Nodup)
    (hface : ∀ k, ui'.face k = ui.face k) : Shown opens last except_ ui' opened where
  apart := hapart
  absent id hid := (hface id).trans (h.absent id hid)
  seen prior hprior hopen hexcept := (hface prior.id).trans (h.seen prior hprior hopen hexcept)

/-- A change of the desktop that leaves every hall. -/
theorem tracks_of_face {m : LiveSession} (h : m.Tracks) {ui : Wc3SessionUi}
    (hperm : ui.faces.Perm m.ui.faces) (hstart : m.ui.channels = [] → ui.channels = []) :
    ({ m with ui := ui } : LiveSession).Tracks := by
  have hface (k : UInt8) : ui.face k = m.ui.face k :=
    byKey_of_perm (by rw [Wc3SessionUi.map_id_faces]; exact h.apart) hperm
  have hapart : ui.ids.Nodup := by
    rw [← Wc3SessionUi.map_id_faces, (hperm.map Face.id).nodup_iff, Wc3SessionUi.map_id_faces]
    exact h.apart
  exact {
    numbered := h.numbered
    apart := hapart
    closed := fun id hid => (hface id).trans (h.closed id hid)
    starting := fun hstage => ⟨hstart (h.starting hstage).halls, (h.starting hstage).last,
      (h.starting hstage).opened, (h.starting hstage).closing, (h.starting hstage).published,
      (h.starting hstage).tells⟩
    shows := fun hruns => (h.shows hruns).of_face hapart hface
    exact := fun hpublished k => (hface k).trans (h.exact hpublished k)
    answered := h.answered }

theorem closing_send (m : LiveSession) {command : LiveCommand}
    (h : ∀ id, command ≠ .leaveChannel id) :
    ({ m with commands := m.commands ++ [command] } : LiveSession).closing = m.closing := by
  unfold closing
  rw [List.filterMap_append]
  cases command with
  | leaveChannel id => exact absurd rfl (h id)
  | _ => exact List.append_nil _

theorem tracks_send {m : LiveSession} (h : m.Tracks) {command : LiveCommand}
    (hcommand : ∀ id, command ≠ .leaveChannel id) :
    ({ m with commands := m.commands ++ [command] } : LiveSession).Tracks := by
  have hclosing := closing_send m hcommand
  exact {
    numbered := h.numbered
    apart := h.apart
    closed := by
      rw [hclosing]
      exact h.closed
    starting := fun hstage => ⟨(h.starting hstage).halls, (h.starting hstage).last,
      (h.starting hstage).opened, hclosing.trans (h.starting hstage).closing,
      (h.starting hstage).published, (h.starting hstage).tells⟩
    shows := by
      rw [hclosing]
      exact h.shows
    exact := fun hpublished k => by
      rw [hclosing]
      exact h.exact hpublished k
    answered := h.answered }

theorem tracks_closeTab {m : LiveSession} (h : m.Tracks) (index : Nat) :
    (m.closeTab index).Tracks := by
  unfold closeTab
  cases hget : m.ui.channels[index]? with
  | none =>
    rw [Wc3SessionUi.removeChannel, hget]
    exact h
  | some hall =>
    have hid : (m.ui.channels[index]?).map (·.id) = some hall.id := by rw [hget]; rfl
    have hface := Wc3SessionUi.face_removeChannel h.apart hid
    have hremoved : m.ui.removeChannel index =
        (some hall.id, (m.ui.removeChannel index).2) := by
      rw [Wc3SessionUi.removeChannel, hget]
    rw [hremoved]
    have hclosing : ({ m with
        ui := (m.ui.removeChannel index).2
        commands := m.commands ++ [.leaveChannel hall.id] } : LiveSession).closing =
          m.closing ++ [hall.id] := by
      unfold closing
      rw [List.filterMap_append]
      rfl
    have hmem (k : UInt8) : k ∈ m.closing ++ [hall.id] ↔ k ∈ m.closing ∨ k = hall.id := by simp
    have hapart := Wc3SessionUi.nodup_removeChannel h.apart index
    exact {
      numbered := h.numbered
      apart := hapart
      closed := fun k hk => by
        rw [hclosing, hmem] at hk
        rw [hface]
        rcases hk with hk | hk
        · rw [h.closed k hk, ite_self]
        · rw [if_pos hk]
      starting := fun hstage => by
        have hnil := (h.starting hstage).halls
        rw [hnil] at hget
        cases hget
      shows := fun hruns => by
        have hshows := h.shows hruns
        rw [hclosing]
        refine ⟨hapart, fun k hk => ?_, fun prior hprior hopen hexcept => ?_⟩
        · rw [hface, hshows.absent k hk, ite_self]
        · rw [hmem, not_or] at hexcept
          rw [hface, if_neg hexcept.2]
          exact hshows.seen prior hprior hopen hexcept.1
      exact := fun hpublished k => by
        rw [hclosing, hface, h.exact hpublished k]
        simp only [hmem]
        by_cases hk : k = hall.id
        · simp [hk]
        · simp [hk]
      answered := h.answered }

/-! ## Publications -/

/-- A clear publication leaves exactly the halls that are announced and not to be left. -/
theorem exact_publish {m : LiveSession} (hnumbered : m.session.chat.Numbered)
    (hclosed : ∀ id ∈ m.closing, m.ui.face id = none) (hshows : m.Shows m.closing)
    (hclear : m.ClearPublish) (time : String) : (m.publish time).Exact := by
  intro k
  rw [face_publish hnumbered]
  change _ = if k ∈ m.closing then none else (m.session.chat.announced k).map ChatChannel.face
  cases hannounced : m.session.chat.announced k with
  | none =>
    have hopen : k ∉ m.session.chat.openIds := fun hopen => by
      obtain ⟨channel, hchannel⟩ := (ChatState.mem_openIds_iff_announced hnumbered).1 hopen
      rw [hannounced] at hchannel
      cases hchannel
    simpa using hshows.absent k hopen
  | some channel =>
    have hmem : channel ∈ m.session.chat.announcedChannels := mem_of_byKey hannounced
    have hid : channel.id = k := key_of_byKey hannounced
    by_cases hk : k ∈ m.closing
    · have hsame := hclear.closing channel hmem (hid ▸ hk)
      simp [hk, hsame, hclosed k hk]
    rw [if_neg hk]
    cases hchanged : m.changed channel with
    | true => simp [hchanged]
    | false =>
      have hlast : channel ∈ m.lastChannels := by
        rw [changed, Bool.not_eq_false', List.any_eq_true] at hchanged
        obtain ⟨prior, hprior, hsame⟩ := hchanged
        obtain ⟨-, rfl⟩ := of_decide_eq_true hsame
        exact hprior
      have hopen : channel.id ∈ m.session.chat.openIds :=
        (ChatState.mem_openIds_iff_announced hnumbered).2 ⟨channel, hid ▸ hannounced⟩
      have hface := hshows.seen channel hlast hopen (hid ▸ hk)
      have hexpected : expected m.opened channel = channel.face := by
        unfold expected
        cases hopened : byKey Prod.fst channel.id m.opened with
        | none => rfl
        | some entry =>
          obtain ⟨id, name⟩ := entry
          obtain rfl : id = channel.id := key_of_byKey hopened
          have hsame := (hclear.opened (channel.id, name) (mem_of_byKey hopened) (hid ▸ hk) channel
            hmem rfl).resolve_left (by simp [hchanged])
          simp [ChatChannel.face, hsame.1, hsame.2]
      rw [hid] at hface
      simp [Option.filter, hchanged, hface, hexpected]

/-- What is published last is on screen. -/
theorem shows_of_exact {m : LiveSession} (hnumbered : m.session.chat.Numbered)
    (hapart : m.ui.ids.Nodup) (hexact : m.Exact)
    (hlast : m.lastChannels = m.session.chat.announcedChannels) (hopened : m.opened = []) :
    m.Shows m.closing where
  apart := hapart
  absent k hk := by
    rw [hexact k]
    cases hannounced : m.session.chat.announced k with
    | none => simp
    | some channel =>
      exact absurd ((ChatState.mem_openIds_iff_announced hnumbered).2 ⟨channel, hannounced⟩) hk
  seen prior hprior _ hexcept := by
    have hids : (m.session.chat.announcedChannels.map (·.id)).Nodup := by
      rw [ChatState.map_id_announcedChannels hnumbered]
      exact ChatState.nodup_openIds hnumbered
    have hannounced : m.session.chat.announced prior.id = some prior :=
      byKey_of_mem hids (hlast ▸ hprior)
    rw [hexact, if_neg hexcept, hannounced, hopened]
    rfl

theorem tracks_publish {m : LiveSession} (hnumbered : m.session.chat.Numbered)
    (hclosed : ∀ id ∈ m.closing, m.ui.face id = none) (hshows : m.Shows m.closing)
    (hclear : m.ClearPublish) (hanswered : m.answered = none) (time : String) {stage : Stage}
    (hstage : stage ≠ .connecting ∧ stage ≠ .ended) :
    ({ m.publish time with stage := stage } : LiveSession).Tracks := by
  have hexact := exact_publish hnumbered hclosed hshows hclear time
  have hapart : (m.publish time).ui.ids.Nodup := nodup_foldl_applyChannel hshows.apart _ time
  refine tracks_of_shows hnumbered (fun k hk => ?_) hstage
    (shows_of_exact (m := m.publish time) hnumbered hapart hexact rfl rfl) (fun _ => hexact) ?_
  · exact (hexact k).trans (if_pos hk)
  · intro id was accepted h
    rw [show m.answered = some (id, was, accepted) from h] at hanswered
    cases hanswered

/-- When the session starts every hall is published. -/
theorem tracks_start {m : LiveSession} (h : m.Tracks) (hstage : m.stage = .connecting)
    (hanswered : m.answered = none) (time : String) : (m.start time).Tracks := by
  obtain ⟨hhalls, hlast, hopened, hclosing, -, htells⟩ := h.starting hstage
  have hempty : Shown (fun _ => False) m.lastChannels m.closing m.ui m.opened := by
    refine ⟨h.apart, fun k _ => ?_, fun _ _ hopen => hopen.elim⟩
    simp [Wc3SessionUi.face, Wc3SessionUi.faces, hhalls, byKey]
  have hshows := hempty.events htells time
  have hnone (k : UInt8) : k ∉ m.closing := by simp [hclosing]
  have hclear : ({ m.emitEvents m.initialEvents time with initialEvents := [] } :
      LiveSession).ClearPublish := by
    refine ⟨fun channel _ hmem => absurd hmem (hnone channel.id), fun _ _ _ channel _ _ => ?_⟩
    exact .inl (by simp [changed, emitEvents, hlast])
  exact tracks_publish (m := { m.emitEvents m.initialEvents time with initialEvents := [] })
    h.numbered (fun k hk => absurd hk (hnone k)) hshows hclear hanswered time
    ⟨Stage.noConfusion, Stage.noConfusion⟩

/-! ## The worker's steps -/

/-- What is on screen after a request that has succeeded. -/
theorem shows_emitEvents {m : LiveSession} {except_ : List UInt8} (h : m.Shows except_)
    {events : List ChatEvent} {session : ClassicSession}
    (htold : Told m.session.chat events session.chat) (time : String) :
    ({ m with session := session } : LiveSession).emitEvents events time |>.Shows except_ :=
  h.events htold.tells time

theorem closed_emitEvents {m : LiveSession} (hapart : m.ui.ids.Nodup) {closing : List UInt8}
    (h : ∀ id ∈ closing, m.ui.face id = none) {events : List ChatEvent}
    (hjoins : JoinsNoneOf closing events) (time : String) :
    ∀ id ∈ closing, (m.emitEvents events time).ui.face id = none := fun id hid =>
  face_events_eq_none hapart (h id hid) (fun _ _ hmem => hjoins.not_mem hmem hid) time

/-- What is open is all that the screen depends on. -/
theorem shows_of_openIds {m : LiveSession} {except_ : List UInt8} (h : m.Shows except_)
    {session : ClassicSession}
    (hopen : ∀ k, k ∈ session.chat.openIds ↔ k ∈ m.session.chat.openIds) :
    ({ m with session := session } : LiveSession).Shows except_ where
  apart := h.apart
  absent k hk := h.absent k fun hmem => hk ((hopen k).2 hmem)
  seen prior hprior hmem hexcept := h.seen prior hprior ((hopen prior.id).1 hmem) hexcept

theorem Shown.of_appendError {opens : UInt8 → Prop} {last : List ChatChannel}
    {except_ : List UInt8} {ui : Wc3SessionUi} {opened : List (UInt8 × String)}
    (h : Shown opens last except_ ui opened) (time : String) (reason : Error ⊕ String) :
    Shown opens last except_ (ui.appendError time reason) opened :=
  h.of_faces (Wc3SessionUi.faces_appendError ui time reason)

theorem face_appendError (ui : Wc3SessionUi) (time : String) (reason : Error ⊕ String)
    (k : UInt8) : (ui.appendError time reason).face k = ui.face k := by
  rw [Wc3SessionUi.face, Wc3SessionUi.faces_appendError]
  rfl

/-- A worker that is draining, and has not published since. -/
structure Draining (m : LiveSession) : Prop where
  numbered : m.session.chat.Numbered
  runs : m.Runs
  published : m.published = false
  closed : ∀ id ∈ m.closing, m.ui.face id = none
  answered : m.answered = none

theorem Draining.tracks {m : LiveSession} (h : m.Draining) (hshows : m.Shows m.closing) :
    m.Tracks := by
  refine tracks_of_shows h.numbered h.closed h.runs hshows (fun hpublished => ?_) ?_
  · rw [h.published] at hpublished
    cases hpublished
  · intro id was accepted hanswered
    rw [h.answered] at hanswered
    cases hanswered

theorem tracks_report {m : LiveSession} (h : m.Draining) (hshows : m.Shows m.closing)
    {outcome : Except Error (List ChatEvent) × ClassicSession} (time : String)
    (houtcome : match outcome with
      | (.ok events, session) => Told m.session.chat events session.chat ∧
          JoinsNoneOf m.closing events
      | (.error _, session) => session.chat.Numbered ∧
          ∀ k, k ∈ session.chat.openIds ↔ k ∈ m.session.chat.openIds) :
    (m.report outcome time).Tracks := by
  obtain ⟨error | events, session⟩ := outcome
  · obtain ⟨hnumbered, hopen⟩ := houtcome
    have hdraining : (m.report (.error error, session) time).Draining :=
      ⟨hnumbered, h.runs, h.published,
        fun id hid => (face_appendError _ _ _ id).trans (h.closed id hid), h.answered⟩
    exact hdraining.tracks ((shows_of_openIds hshows hopen).of_appendError time _)
  · obtain ⟨htold, hjoins⟩ := houtcome
    have hdraining : (m.report (.ok events, session) time).Draining :=
      ⟨htold.numbered, h.runs, h.published,
        closed_emitEvents (m := { m with session := session }) hshows.apart h.closed hjoins time,
        h.answered⟩
    exact hdraining.tracks (shows_emitEvents hshows htold time)

/-- A request of a command that is taken. -/
theorem tracks_request {m : LiveSession} (h : m.Draining) (hshows : m.Shows m.closing)
    {command : LiveCommand} {ask : Reply → Stateful ClassicSession Error Unit}
    (hask : asks command = some ask) (reply : Reply) (time : String)
    (hclear : JoinsClearly casing m.closing (ask reply m.session) ∧
      FailsClearly casing (ask reply m.session)) :
    (m.report (request casing ask reply m.session) time).Tracks :=
  tracks_report h hshows time (clear_dispatching casing (unannounced_asks hask reply)
    reply.refreshed h.numbered hclear.1 hclear.2)

/-- A leave, whose hall may still be missing. -/
theorem tracks_leaveChannel {m : LiveSession} (h : m.Draining) {id : UInt8}
    (hshows : m.Shows (id :: m.closing)) (reply : Reply) (time : String)
    (hclear : JoinsClearly casing m.closing (askLeave id reply m.session) ∧
      FailsClearly casing (askLeave id reply m.session)) :
    (m.leaveChannel casing id reply time).Tracks := by
  have hleave := clear_leave casing reply h.numbered hclear.1 hclear.2
  unfold leaveChannel
  rcases hout : ClassicSession.leave casing id reply m.session with ⟨error | events, session⟩
  · rw [hout] at hleave
    obtain ⟨hnumbered, hopen⟩ := hleave
    refine tracks_of_shows hnumbered
      (fun k hk => (face_appendError _ _ _ k).trans (h.closed k hk)) h.runs ?_
      (fun hpublished => ?_) ?_
    · refine Shown.of_appendError ⟨hshows.apart, fun k hk => ?_, fun prior hprior hmem hk => ?_⟩ _ _
      · exact hshows.absent k fun hmem => hk ((hopen k).2 hmem)
      · obtain ⟨hlast, hne⟩ := List.mem_filter.1 hprior
        refine hshows.seen prior hlast ((hopen prior.id).1 hmem) fun hmem => ?_
        rcases List.mem_cons.1 hmem with heq | hmem
        · exact of_decide_eq_true hne heq
        · exact hk hmem
    · cases h.published.symm.trans hpublished
    · intro k was accepted hanswered
      obtain ⟨rfl, rfl, rfl⟩ : id = k ∧ decide (id ∈ m.session.chat.openIds) = was ∧
          false = accepted := by
          simpa [report, commandError, Except.toOption, eq_comm] using hanswered
      simpa [report, commandError] using hopen id
  · rw [hout] at hleave
    obtain ⟨htold, hjoins, hgone⟩ := hleave
    refine tracks_of_shows htold.numbered
      (closed_emitEvents (m := { m with session := session }) hshows.apart h.closed hjoins time)
      h.runs ?_ (fun hpublished => ?_) ?_
    · have hafter := shows_emitEvents hshows htold time
      refine ⟨hafter.apart, hafter.absent, fun prior hprior hmem hk => ?_⟩
      refine hafter.seen prior hprior hmem fun hmem' => ?_
      rcases List.mem_cons.1 hmem' with heq | hmem'
      · exact hgone (heq ▸ hmem)
      · exact hk hmem'
    · cases h.published.symm.trans hpublished
    · intro k was accepted hanswered
      obtain ⟨rfl, -, rfl⟩ : id = k ∧ decide (id ∈ m.session.chat.openIds) = was ∧
          true = accepted := by
          simpa [report, emitEvents, Except.toOption, eq_comm] using hanswered
      exact iff_of_false hgone (by simp)

theorem tracks_take {m : LiveSession} (h : m.Tracks) (hstage : m.stage = .draining)
    (hanswered : m.answered = none) (reply : Reply) (stored : Except Error Unit) (time : String)
    (hclear : m.Clear casing (.take reply stored time)) :
    (m.take casing reply stored time).Tracks := by
  have hruns : m.Runs := by
    rw [Runs, hstage]
    exact ⟨Stage.noConfusion, Stage.noConfusion⟩
  have hshows := h.shows hruns
  rcases hcommands : m.commands with _ | ⟨command, commands⟩
  · have htaken : m.take casing reply stored time = { m with stage := .publishing } := by
      rw [take, hcommands]
    rw [htaken]
    exact tracks_of_shows h.numbered h.closed ⟨Stage.noConfusion, Stage.noConfusion⟩ hshows h.exact
      h.answered
  · rw [take, hcommands]
    have hclear (ask) (hask : asks command = some ask) := hclear hstage ask (by
      rw [hcommands]
      exact hask)
    rw [hcommands] at hclear
    have hsub : ∀ id ∈ ({ m with commands := commands } : LiveSession).closing, id ∈ m.closing := by
      intro id hid
      rw [closing, hcommands]
      exact ((List.sublist_cons_self command commands).filterMap _).subset hid
    have hclosed : ∀ id ∈ ({ m with commands := commands } : LiveSession).closing,
        m.ui.face id = none := fun id hid => h.closed id (hsub id hid)
    have hdraining : ({ m with commands := commands, published := false } : LiveSession).Draining :=
      ⟨h.numbered, hruns, rfl, hclosed, hanswered⟩
    have hended : ({ m with
        commands := commands
        published := false
        stage := .ended } : LiveSession).Tracks :=
      tracks_of_ended h.numbered h.apart hclosed rfl rfl hanswered
    have hother (hcommand : ∀ id, command ≠ .leaveChannel id) :
        ({ m with commands := commands, published := false } : LiveSession).Shows
          ({ m with commands := commands } : LiveSession).closing := by
      have heq : m.closing = ({ m with commands := commands } : LiveSession).closing := by
        rw [closing, hcommands]
        cases command with
        | leaveChannel id => exact absurd rfl (hcommand id)
        | _ => rfl
      rw [← heq]
      exact hshows
    cases command with
    | disconnect => exact hended
    | signOut => exact hended
    | quit => exact hended
    | installCredential =>
      cases stored with
      | ok _ => exact hdraining.tracks (hother fun _ => LiveCommand.noConfusion)
      | error error => exact hended
    | joinWarcraft channel =>
      have hasks : asks (.joinWarcraft channel) = some (askJoinNamed channel) := rfl
      exact tracks_request casing hdraining (hother fun _ => LiveCommand.noConfusion) hasks reply
        time (hclear _ hasks)
    | sendMessage id body =>
      have hasks : asks (.sendMessage id body) = some (askSendMessageTo id body) := rfl
      exact tracks_request casing hdraining (hother fun _ => LiveCommand.noConfusion) hasks reply
        time (hclear _ hasks)
    | leaveChannel id =>
      refine tracks_leaveChannel casing hdraining ?_ reply time (hclear _ rfl)
      have heq : m.closing = id :: ({ m with commands := commands } : LiveSession).closing := by
        rw [closing, hcommands]
        rfl
      exact heq ▸ hshows
    | sendWhisper target body =>
      have hshows := hother fun _ => LiveCommand.noConfusion
      cases target with
      | warcraftAccount accountId =>
        have hasks : asks (.sendWhisper (.warcraftAccount accountId) body) =
            some (askSendWhisper accountId body) := rfl
        exact tracks_request casing hdraining hshows hasks reply time (hclear _ hasks)
      | _ =>
        refine Draining.tracks ⟨h.numbered, hruns, rfl, fun id hid => ?_, hanswered⟩
          (hshows.of_appendError time _)
        exact (face_appendError _ _ _ id).trans (hclosed id hid)
    | other =>
      exact Draining.tracks ⟨h.numbered, ⟨Stage.noConfusion, Stage.noConfusion⟩, rfl, hclosed,
        hanswered⟩ (hother fun _ => LiveCommand.noConfusion)

theorem tracks_gather {m : LiveSession} (h : m.Tracks) (hstage : m.stage = .connecting)
    (hanswered : m.answered = none) {x : Stateful ClassicSession Error Unit}
    (hx : Within Unannounced x) (refreshed : List Callback) :
    (m.gather ((x >>= fun _ => dispatchProductEvents casing refreshed) m.session)).Tracks := by
  have hstart := h.starting hstage
  have htold := told_dispatching casing hx refreshed h.numbered
  unfold gather
  rcases hout : (x >>= fun _ => dispatchProductEvents casing refreshed) m.session with
    ⟨error | events, session⟩
  · rw [hout] at htold
    have hnumbered : session.chat.Numbered := by
      rcases htold with ⟨-, htold⟩ | ⟨-, -, htold⟩
      · exact htold.numbered
      · exact htold.numbered
    exact tracks_of_ended hnumbered h.apart h.closed rfl hstart.published hanswered
  · rw [hout] at htold
    obtain ⟨-, -, -, htold⟩ := htold
    exact {
      numbered := htold.numbered
      apart := h.apart
      closed := h.closed
      starting := fun _ => ⟨hstart.halls, hstart.last, hstart.opened, hstart.closing,
        hstart.published, ChatState.tells_append hstart.tells htold.tells⟩
      shows := fun hruns => absurd hstage hruns.1
      exact := fun hpublished => by cases hstart.published.symm.trans hpublished
      answered := fun id was accepted hsome => by cases hanswered.symm.trans hsome }

/-- A poll that finds nothing in time has only queued what it has received. -/
theorem poll_idle {arrival : Arrival} (h : arrival.failure.isSome = true)
    (session : ClassicSession) :
    (∃ error, (poll casing arrival session).1 = .error error) ∧
      (poll casing arrival session).2.chat = session.chat := by
  obtain ⟨error, hfailure⟩ := Option.isSome_iff_exists.1 h
  unfold poll askPoll
  rw [hfailure]
  exact ⟨⟨error, rfl⟩, rfl⟩

theorem tracks_pollStarting {m : LiveSession} (h : m.Tracks) (hstage : m.stage = .connecting)
    (hanswered : m.answered = none) (arrival : Arrival) :
    (m.pollStarting casing arrival).Tracks := by
  unfold pollStarting
  split
  · next hidle =>
    have hchat := (poll_idle casing hidle.1 m.session).2
    have hstart := h.starting hstage
    exact {
      numbered := hchat ▸ h.numbered
      apart := h.apart
      closed := h.closed
      starting := fun _ => ⟨hstart.halls, hstart.last, hstart.opened, hstart.closing,
        hstart.published, hchat ▸ hstart.tells⟩
      shows := fun hruns => absurd hstage hruns.1
      exact := fun hpublished => by cases hstart.published.symm.trans hpublished
      answered := fun id was accepted hsome => by cases hanswered.symm.trans hsome }
  · exact tracks_gather casing h hstage hanswered (unannounced_askPoll arrival) arrival.refreshed

/-- Storing a cookie does nothing to the chat. -/
theorem pollStoring_eq (arrival : Arrival) (session : ClassicSession) :
    (∀ events, (pollStoring casing arrival session).1 = .ok events →
      (poll casing arrival session).1 = .ok events) ∧
    (pollStoring casing arrival session).2.chat = (poll casing arrival session).2.chat := by
  unfold pollStoring
  rw [bind_apply]
  rcases hpoll : poll casing arrival session with ⟨error | events, polled⟩
  · exact ⟨fun events h => (by cases h), rfl⟩
  · dsimp only
    rw [bind_apply, read_apply]
    dsimp only
    cases polled.latestCookie with
    | none => exact ⟨fun _ h => h, rfl⟩
    | some cookie =>
      cases hstored : arrival.stored with
      | ok _ => exact ⟨fun _ h => h, rfl⟩
      | error error => exact ⟨fun _ h => (by cases h), rfl⟩

theorem tracks_pollLive {m : LiveSession} (h : m.Tracks) (hstage : m.stage = .polling)
    (hanswered : m.answered = none) (arrival : Arrival) (time : String)
    (hclear : m.Clear casing (.poll arrival time)) : (m.pollLive casing arrival time).Tracks := by
  have hruns : m.Runs := by
    rw [Runs, hstage]
    exact ⟨Stage.noConfusion, Stage.noConfusion⟩
  have hshows := h.shows hruns
  have htold := told_dispatching casing (unannounced_askPoll arrival) arrival.refreshed h.numbered
  obtain ⟨hok, hchat⟩ := pollStoring_eq casing arrival m.session
  have hpoll : poll casing arrival m.session = (askPoll arrival >>= fun _ =>
      dispatchProductEvents casing arrival.refreshed) m.session := rfl
  rw [← hpoll] at htold
  unfold pollLive
  rcases hout : pollStoring casing arrival m.session with ⟨error | events, session⟩
  · rw [hout] at hchat
    have hnumbered : session.chat.Numbered := by
      rw [hchat]
      rcases hp : poll casing arrival m.session with ⟨error | events, polled⟩
      · rw [hp] at htold
        rcases htold with ⟨-, htold⟩ | ⟨-, -, htold⟩
        · exact htold.numbered
        · exact htold.numbered
      · rw [hp] at htold
        exact htold.2.2.2.numbered
    dsimp only
    split
    · next hidle =>
      have hsame : session.chat = m.session.chat :=
        hchat.trans (poll_idle casing hidle.1 m.session).2
      refine Draining.tracks ⟨hnumbered, ⟨Stage.noConfusion, Stage.noConfusion⟩, rfl, h.closed,
        hanswered⟩ ?_
      exact shows_of_openIds hshows fun k => by rw [hsame]
    · exact tracks_of_ended hnumbered h.apart h.closed rfl rfl hanswered
  · rw [hout] at hok hchat
    have hevents := hok events rfl
    rcases hp : poll casing arrival m.session with ⟨error | events', polled⟩
    · rw [hp] at hevents
      cases hevents
    rw [hp] at hevents htold hchat
    obtain rfl : events' = events := Except.ok.inj hevents
    obtain ⟨hasked, hfailure, rfl, htold⟩ := htold
    have htold : Told m.session.chat _ session.chat := hchat ▸ htold
    refine Draining.tracks ⟨htold.numbered, ⟨Stage.noConfusion, Stage.noConfusion⟩, rfl, ?_,
      hanswered⟩ (shows_emitEvents hshows htold time)
    exact closed_emitEvents (m := { m with session := session }) hshows.apart h.closed
      (hclear hstage hasked hfailure) time

/-! ## Runs -/

theorem tracks_act {m : LiveSession} (h : m.Tracks) (hanswered : m.answered = none)
    {action : Action} (hclear : m.Clear casing action) : (m.act casing action).Tracks := by
  cases action with
  | close index => exact tracks_closeTab h index
  | select index =>
    refine tracks_of_face h (List.Perm.of_eq (Wc3SessionUi.faces_selectChannel m.ui index))
      fun hnil => ?_
    have hfaces := Wc3SessionUi.faces_selectChannel m.ui index
    simpa [Wc3SessionUi.faces, hnil] using hfaces
  | reorder start stop =>
    have hperm := Wc3SessionUi.faces_reorder_perm m.ui start stop
    refine tracks_of_face h hperm fun hnil => ?_
    simpa [Wc3SessionUi.faces, hnil] using hperm
  | send command =>
    cases command with
    | leaveChannel id => exact h
    | _ => exact tracks_send h fun _ => LiveCommand.noConfusion
  | dispatchQueued refreshed =>
    dsimp only [act]
    split
    · next hstage =>
      exact tracks_gather casing h hstage hanswered unannounced_takeCookieUpdates refreshed
    · exact h
  | joinFirst reply =>
    dsimp only [act]
    split
    · next hstage =>
      exact tracks_gather casing h hstage hanswered (unannounced_askJoin 0 reply) reply.refreshed
    · exact h
  | take reply stored time =>
    dsimp only [act]
    split
    · next hstage => exact tracks_take casing h hstage hanswered reply stored time hclear
    · exact h
  | publish time =>
    dsimp only [act]
    split
    · next hstage => exact tracks_start h hstage hanswered time
    · next hstage =>
      have hruns : m.Runs := by
        rw [Runs, hstage]
        exact ⟨Stage.noConfusion, Stage.noConfusion⟩
      exact tracks_publish h.numbered h.closed (h.shows hruns) (hclear (.inl hstage)) hanswered time
        ⟨Stage.noConfusion, Stage.noConfusion⟩
    · next hstage =>
      have hruns : m.Runs := by
        rw [Runs, hstage]
        exact ⟨Stage.noConfusion, Stage.noConfusion⟩
      exact tracks_publish h.numbered h.closed (h.shows hruns) (hclear (.inr hstage)) hanswered time
        ⟨Stage.noConfusion, Stage.noConfusion⟩
    · exact h
  | poll arrival time =>
    dsimp only [act]
    split
    · next hstage => exact tracks_pollStarting casing h hstage hanswered arrival
    · next hstage => exact tracks_pollLive casing h hstage hanswered arrival time hclear
    · exact h

theorem tracks_step {m : LiveSession} (h : m.Tracks) {action : Action}
    (hclear : m.Clear casing action) : (m.step casing action).Tracks := by
  refine tracks_act casing h.unanswered rfl ?_
  cases action with
  | publish time => exact fun hstage => ⟨(hclear hstage).closing, (hclear hstage).opened⟩
  | _ => exact hclear

/-- In every run of clear steps the halls mirror the session. -/
theorem mirrors_of_stepsMeet (publicChannels : List (List UInt8)) (callbacks : List Callback)
    (actions : List Action)
    (h : StepsMeet (step casing) (Clear casing) (initial publicChannels callbacks) actions) :
    StatesMeet (step casing) Mirrors (initial publicChannels callbacks) actions :=
  statesMeet_of_stepsMeet (C := Clear casing) (I := Tracks) (fun _ htracks => htracks.mirrors)
    (fun _ _ htracks hclear => tracks_step casing htracks hclear)
    (tracks_initial publicChannels callbacks) h

theorem toLower_ne_nil (c : Char) : [c.toLower] ≠ [] := List.cons_ne_nil _ _

/-- Lower case for the letters of ASCII. -/
def asciiCasing : Casing where
  lower c := [c.toLower]
  lower_ne_nil := toLower_ne_nil
  finalSigma _ _ := false

/-- The channel of the wire id 1 is added, under a name of one letter. -/
def added (letter : UInt8) : Callback :=
  ⟨auroraChat, channelAdded, [0x0A, 6, 0x0A, 1, 1, 0x12, 1, letter]⟩

def received (callback : Callback) : Arrival := ⟨some callback, none, false, [], .ok ()⟩

/-- The empty queue of commands, a publication, a poll, and the publication after it. -/
def around (arrival : Arrival) : List Action :=
  [.take ⟨[], .ok [], []⟩ (.ok ()) "", .publish "", .poll arrival "", .publish ""]

/-- A hall that opens, is closed and is left. -/
def closedInTime : List Action :=
  [.publish ""] ++ around (received (added 65)) ++
    [.close 0, .take ⟨[], .ok [], []⟩ (.ok ()) ""] ++ around (received (added 66))

theorem mirrors_closedInTime :
    StatesMeet (step asciiCasing) Mirrors (initial [] []) closedInTime :=
  mirrors_of_stepsMeet asciiCasing [] [] closedInTime (by decide +kernel)

/-- The hall is closed while the worker polls, and the poll brings it a new name: it is published,
and it is on screen again before its leave has been answered. -/
theorem not_mirrors : ¬ ∀ actions : List Action,
    StatesMeet (step asciiCasing) Mirrors (initial [] []) actions := by
  intro h
  have hlast := (h ([.publish ""] ++ around (received (added 65)) ++
    [.take ⟨[], .ok [], []⟩ (.ok ()) "", .publish "", .close 0, .poll (received (added 66)) "",
      .publish ""])).last
  have hclosed := hlast.closed 0
  revert hclosed
  decide +kernel

end LiveSession

end Superiority.Wc3
