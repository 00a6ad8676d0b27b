import Superiority.Sc2.Receive

/-!
# What each part of a chat session leaves alone

A `Frame` says three things of a step: what a reader with a certain **view** of the state sees is
the same before and after it, and only certain requests have been sent and certain events queued.

The parts of the session have one frame each, whose view is all of the state except what the part
is about: whispers (`sansWhispers`), rooms and parties (`sansRooms`), subscriptions to groups
(`sansSubscriptions`), and what follows every record (`sansSettling`). A frame for a smaller view
follows by `Frame.mono`.
-/

namespace Superiority.Sc2

open Std

namespace LiveChat

open Stateful

/-! ## Frames -/

structure Frame {V : Type} (view : LiveChat → V) (asks : Request → Prop)
    (tells : ChatEvent → Prop) (s t : LiveChat) : Prop where
  kept : view t = view s
  sent : Grows asks s.sent t.sent
  told : Grows tells s.pendingEvents t.pendingEvents

section Rules

variable {V W α : Type} {view : LiveChat → V} {asks : Request → Prop}
  {tells : ChatEvent → Prop} {m : Moment}

instance : Std.Refl (Frame view asks tells) where
  refl _ := ⟨rfl, .refl _ _, .refl _ _⟩

instance : IsTrans LiveChat (Frame view asks tells) where
  trans _ _ _ h k := ⟨k.kept.trans h.kept, h.sent.trans k.sent, h.told.trans k.told⟩

theorem Frame.mono {view' : LiveChat → W} {asks' : Request → Prop} {tells' : ChatEvent → Prop}
    {s t : LiveChat} (h : Frame view asks tells s t) (g : V → W)
    (hview : ∀ s, view' s = g (view s)) (hasks : ∀ r, asks r → asks' r)
    (htells : ∀ e, tells e → tells' e) : Frame view' asks' tells' s t where
  kept := by rw [hview, hview, h.kept]
  sent := h.sent.mono hasks
  told := h.told.mono htells

/-- A computation within a frame is within every weaker one. -/
theorem within_mono {x : Chat α} (hx : Within (Frame view asks tells) x) {view' : LiveChat → W}
    {asks' : Request → Prop} {tells' : ChatEvent → Prop} (g : V → W)
    (hview : ∀ s, view' s = g (view s)) (hasks : ∀ r, asks r → asks' r)
    (htells : ∀ e, tells e → tells' e) : Within (Frame view' asks' tells') x :=
  hx.mono fun _ _ h => h.mono g hview hasks htells

theorem within_send {request : Request} (h : asks request)
    (hview : ∀ s sent, view { s with sent } = view s) :
    Within (Frame view asks tells) (send m request) := by
  intro s
  unfold send
  cases m.transmit s.sent request with
  | error e => exact Std.Refl.refl s
  | ok _ => exact ⟨hview _ _, .snoc _ h, .refl _ _⟩

theorem within_queueEvents {events : List ChatEvent} (h : ∀ e ∈ events, tells e)
    (hview : ∀ s pendingEvents, view { s with pendingEvents } = view s) :
    Within (Frame view asks tells) (queueEvents events) :=
  fun s => ⟨hview s _, .refl _ _, .append _ h⟩

/-- A change that no one who has the view sees. -/
theorem within_unseen {f : LiveChat → LiveChat} (hview : ∀ s, view (f s) = view s)
    (hsent : ∀ s, (f s).sent = s.sent) (htold : ∀ s, (f s).pendingEvents = s.pendingEvents) :
    Within (Frame view asks tells) (change f : Chat Unit) :=
  fun s => ⟨hview s, hsent s ▸ .refl _ _, htold s ▸ .refl _ _⟩

theorem within_unseen_take {f : LiveChat → α × LiveChat} (hview : ∀ s, view (f s).2 = view s)
    (hsent : ∀ s, (f s).2.sent = s.sent)
    (htold : ∀ s, (f s).2.pendingEvents = s.pendingEvents) :
    Within (Frame view asks tells) (take f : Chat α) :=
  fun s => ⟨hview s, hsent s ▸ .refl _ _, htold s ▸ .refl _ _⟩

end Rules

variable (tables : Tables) (m : Moment)

/-! ## Whispers -/

def IsWhisperRequest : Request → Prop
  | .chatWhisper _ _ | .friendToons _ | .resolveToonName _ | .temporaryPresence _ => True
  | _ => False

def IsWhisperEvent : ChatEvent → Prop
  | .whisper _ _ _ | .whisperFailed _ _ => True
  | _ => False

/-- All but what is kept about whispers. -/
def sansWhispers (s : LiveChat) : LiveChat :=
  { s with
    sent := []
    pendingEvents := []
    pendingWhisperEchoes := []
    pendingWhispers := []
    pendingToonResolutions := ∅
    requestedWhisperFriendAccounts := ∅
    requestedTemporaryPresences := ∅ }

/-- The frame of everything about whispers. -/
abbrev Aside := Frame sansWhispers IsWhisperRequest IsWhisperEvent

theorem aside_send {request : Request} (h : IsWhisperRequest request) :
    Within Aside (send m request) :=
  within_send h fun _ _ => rfl

theorem aside_sendResolvedWhisper (displayName : String) (presenceId : UInt32) (body : String) :
    Within Aside (sendResolvedWhisper m displayName presenceId body) := by
  refine within_bind (aside_send m trivial) fun _ => ?_
  refine within_bind (within_queueEvents ?_ fun _ _ => rfl) fun _ => ?_
  · intro event hevent
    rw [List.mem_singleton.1 hevent]
    trivial
  · exact within_unseen (fun _ => rfl) (fun _ => rfl) fun _ => rfl

theorem aside_requestWhisperFriendToons (accountId : UInt32) :
    Within Aside (requestWhisperFriendToons m accountId) := by
  refine within_bind within_read fun s => within_ite (within_pure ()) ?_
  refine within_bind (within_unseen (fun _ => rfl) (fun _ => rfl) fun _ => rfl) fun _ => ?_
  exact aside_send m trivial

theorem aside_requestToonResolution (name : ToonFullName) :
    Within Aside (requestToonResolution m name) := by
  refine within_bind within_read fun s => within_ite (within_pure ()) ?_
  refine within_bind (within_unseen (fun _ => rfl) (fun _ => rfl) fun _ => rfl) fun _ => ?_
  exact aside_send m trivial

theorem aside_requestTemporaryPresence (handle : ToonHandle) :
    Within Aside (requestTemporaryPresence m handle) := by
  refine within_bind within_read fun s => within_ite (within_pure ()) ?_
  refine within_bind (within_unseen (fun _ => rfl) (fun _ => rfl) fun _ => rfl) fun _ => ?_
  exact aside_send m trivial

theorem aside_requestCharacter (pending : PendingWhisper) :
    Within Aside (requestCharacter m pending) := by
  unfold requestCharacter
  cases pending.toonHandle with
  | some handle => exact aside_requestTemporaryPresence m handle
  | none =>
    cases pending.toonName with
    | none => exact within_pure ()
    | some name => exact aside_requestToonResolution m name

theorem aside_queueWhisper (pending : PendingWhisper) :
    Within Aside (queueWhisper m pending) := by
  refine within_bind within_read fun s => ?_
  cases pending.toonHandle.bind s.profiles.presence.presenceForToonHandle with
  | some presenceId => exact aside_sendResolvedWhisper m _ presenceId _
  | none =>
    refine within_bind (within_unseen (fun _ => rfl) (fun _ => rfl) fun _ => rfl) fun _ => ?_
    refine within_bind (aside_requestCharacter m pending) fun _ => ?_
    cases pending.accountId with
    | none => exact within_pure ()
    | some accountId => exact aside_requestWhisperFriendToons m accountId

theorem aside_sendWhisperTo (target : WhisperTarget) (displayName body : String) :
    Within Aside (sendWhisperTo m target displayName body) := by
  refine within_bind within_read fun s => ?_
  cases target with
  | presence presenceId => exact aside_sendResolvedWhisper m _ presenceId _
  | toonHandle handle => exact aside_queueWhisper m _
  | toonName name => exact aside_queueWhisper m _
  | warcraftAccount id => exact within_fail _
  | name name => exact aside_queueWhisper m _
  | account accountId =>
    dsimp only
    cases s.accountPresenceId accountId with
    | some presenceId => exact aside_sendResolvedWhisper m _ presenceId _
    | none => exact aside_queueWhisper m _

theorem aside_sendWhisper (target : WhisperTarget) (displayName body : String) :
    Within Aside (sendWhisper m target displayName body) := by
  refine within_bind within_read fun s => within_ite (within_fail _) ?_
  exact aside_sendWhisperTo m _ displayName _

theorem aside_receiveToonName (resolved : ToonNameResolved) :
    Within Aside (receiveToonName tables m resolved) := by
  refine within_bind (within_unseen (fun _ => rfl) (fun _ => rfl) fun _ => rfl) fun _ =>
    within_ite ?_ fun s => ⟨rfl, .refl _ _, .append _ ?_⟩
  · cases resolved.handle with
    | none => exact within_pure ()
    | some handle =>
      refine within_bind (within_unseen (fun _ => rfl) (fun _ => rfl) fun _ => rfl) fun _ => ?_
      exact aside_requestTemporaryPresence m handle
  · intro event hevent
    obtain ⟨pending, -, rfl⟩ := List.mem_map.1 hevent
    trivial

theorem aside_receiveResolved (payload : Payload) :
    Within Aside (receiveResolved tables m payload) := by
  cases payload with
  | toonNameResolved resolved => exact aside_receiveToonName tables m resolved
  | _ => exact within_pure ()

theorem aside_deliverWhispers (kept whispers : List PendingWhisper) :
    Within Aside (deliverWhispers m kept whispers) := by
  induction whispers generalizing kept with
  | nil => exact within_pure ()
  | cons pending rest ih =>
    refine within_bind within_read fun s => ?_
    cases delivery m s.profiles.presence pending with
    | waits => exact ih _
    | failed =>
      refine within_bind (within_unseen (fun _ => rfl) (fun _ => rfl) fun _ => rfl) fun _ => ?_
      refine within_bind (within_queueEvents ?_ fun _ _ => rfl) fun _ => ih _
      intro event hevent
      rw [List.mem_singleton.1 hevent]
      trivial
    | sent presenceId handle =>
      refine within_bind (within_unseen (fun _ => rfl) (fun _ => rfl) fun _ => rfl) fun _ => ?_
      refine within_bind (aside_sendResolvedWhisper m _ presenceId _) fun _ => ?_
      exact within_bind (within_unseen (fun _ => rfl) (fun _ => rfl) fun _ => rfl) fun _ => ih _

theorem aside_advancePendingWhispers (payload : Payload) :
    Within Aside (advancePendingWhispers tables m payload) := by
  refine within_bind (within_unseen (fun _ => rfl) (fun _ => rfl) fun _ => rfl) fun _ => ?_
  refine within_bind (aside_receiveResolved tables m payload) fun _ => ?_
  refine within_bind within_read fun s => ?_
  refine within_bind (within_each (aside_requestWhisperFriendToons m) _) fun _ => ?_
  refine within_bind within_read fun s => ?_
  refine within_bind (within_each (aside_requestToonResolution m) _) fun _ => ?_
  refine within_bind within_read fun s => ?_
  refine within_bind (within_each (aside_requestTemporaryPresence m) _) fun _ => ?_
  refine within_bind within_read fun s => ?_
  exact aside_deliverWhispers m [] _

theorem aside_receiveWhisperEcho (route : Route) (whisper : ChatWhisper) :
    Within Aside (receiveWhisperEcho m route whisper) := by
  refine within_bind ?_ fun own => within_pure _
  intro s
  have hecho : (consumeWhisperEcho m whisper s).2 = { s with
      pendingWhisperEchoes := (consumeWhisperEcho m whisper s).2.pendingWhisperEchoes } := by
    unfold consumeWhisperEcho
    dsimp only
    split <;> rfl
  rw [take_apply, hecho]
  exact ⟨rfl, .refl _ _, .refl _ _⟩

/-! ## What follows every record -/

def IsProfileRequest : Request → Prop
  | .friendToons _ | .profileRead _ _ => True
  | _ => False

def IsSettlingRequest (request : Request) : Prop :=
  IsWhisperRequest request ∨ IsProfileRequest request

def IsSettlingEvent : ChatEvent → Prop
  | .roster _ | .whisper _ _ _ | .whisperFailed _ _ => True
  | _ => False

end LiveChat

/-- What the resolver knows, without what it is asking. -/
def ProfileResolver.known (profiles : ProfileResolver) : ProfileResolver where
  presence := profiles.presence
  avatars := profiles.avatars

namespace ProfileResolver

variable (profiles : ProfileResolver)

theorem known_enqueue (address : ProfileAddress) :
    (profiles.enqueue address).known = profiles.known := by
  unfold enqueue
  split <;> rfl

theorem known_enqueueIf (address : Option ProfileAddress) :
    (profiles.enqueueIf address).known = profiles.known := by
  cases address with
  | none => rfl
  | some address => exact profiles.known_enqueue address

theorem known_enqueueAccount (accountId : UInt32) :
    (profiles.enqueueAccount accountId).known = profiles.known := by
  unfold enqueueAccount
  split <;> rfl

theorem known_enqueueFriend (friend : FriendEntry) :
    (profiles.enqueueFriend friend).known = profiles.known := by
  unfold enqueueFriend
  cases nameless friend with
  | none => exact profiles.known_enqueueIf _
  | some accountId =>
    exact (known_enqueueAccount _ accountId).trans (profiles.known_enqueueIf _)

theorem known_foldl {α : Type} {f : ProfileResolver → α → ProfileResolver}
    (hf : ∀ profiles a, (f profiles a).known = profiles.known) (as : List α) :
    (as.foldl f profiles).known = profiles.known := by
  induction as generalizing profiles with
  | nil => rfl
  | cons a as ih => exact (ih _).trans (hf profiles a)

/-- To note what is missing is to learn nothing. -/
theorem known_enqueueMissing (channels : List ChannelState) (friends : Friends) :
    (profiles.enqueueMissing channels friends).known = profiles.known :=
  (known_foldl _ known_enqueueFriend _).trans
    (profiles.known_foldl (fun profiles _ => profiles.known_enqueueIf _) _)

end ProfileResolver

namespace Resolving

open Stateful LiveChat

/-- The frame of `pump`. -/
structure Pumps (s t : Resolving) : Prop where
  known : t.profiles.known = s.profiles.known
  sent : Grows IsProfileRequest s.sent t.sent

instance : Std.Refl Pumps where
  refl _ := ⟨rfl, .refl _ _⟩

instance : IsTrans Resolving Pumps where
  trans _ _ _ h k := ⟨k.known.trans h.known, h.sent.trans k.sent⟩

variable (m : Moment)

theorem pumps_send {request : Request} (h : IsProfileRequest request) :
    Within Pumps (send m request) := by
  intro s
  unfold send
  cases m.transmit s.sent request with
  | error e => exact Std.Refl.refl s
  | ok _ => exact ⟨rfl, .snoc _ h⟩

theorem pumps_updateProfiles {f : ProfileResolver → ProfileResolver}
    (hf : ∀ profiles, (f profiles).known = profiles.known) : Within Pumps (updateProfiles f) :=
  fun s => ⟨hf s.profiles, .refl _ _⟩

theorem pumps_askAccount (accountId : UInt32) : Within Pumps (askAccount m accountId) := by
  refine within_bind (pumps_updateProfiles fun _ => rfl) fun _ => ?_
  refine within_bind within_read fun s => within_ite (within_pure ()) ?_
  refine within_bind (pumps_updateProfiles fun _ => rfl) fun _ => ?_
  exact pumps_send m trivial

theorem pumps_askProfile (address : ProfileAddress) : Within Pumps (askProfile m address) := by
  refine within_bind within_read fun s => ?_
  refine within_bind (pumps_updateProfiles fun _ => rfl) fun _ => ?_
  refine within_bind (pumps_send m trivial) fun _ => ?_
  exact pumps_updateProfiles fun _ => rfl

theorem pumps_askProfiles (allowance : Nat) : Within Pumps (askProfiles m allowance) := by
  induction allowance with
  | zero => exact within_pure ()
  | succ allowance ih =>
    refine within_bind within_read fun s => ?_
    cases s.profiles.queue.head? with
    | none => exact within_pure ()
    | some address =>
      exact within_ite (within_bind (pumps_askProfile m address) fun _ => ih) (within_pure ())

theorem pumps_pump : Within Pumps (pump m) := by
  refine within_bind within_read fun s => ?_
  refine within_bind (within_each (pumps_askAccount m) _) fun _ => ?_
  exact pumps_askProfiles m _

end Resolving

/-- A channel without the people in it. -/
def ChannelState.sansRoster (channel : ChannelState) : ChannelState :=
  { channel with roster := ∅ }

namespace LiveChat

open Stateful

/-- All but what is kept about whispers, about lookups, and the people in the channels. -/
def sansSettling (s : LiveChat) : LiveChat :=
  { s.sansWhispers with
    channels := s.channels.map fun _ channel => channel.sansRoster
    party := s.party.map fun party => { party with state := party.state.sansRoster }
    profiles := s.profiles.known }

variable (tables : Tables) (m : Moment)

/-- The frame of what follows every record. -/
abbrev Settles := Frame sansSettling IsSettlingRequest IsSettlingEvent

theorem settles_advancePendingWhispers (payload : Payload) :
    Within Settles (advancePendingWhispers tables m payload) :=
  within_mono (aside_advancePendingWhispers tables m payload) sansSettling (fun _ => rfl)
    (fun _ h => Or.inl h) fun event h => by cases event <;> first | exact h | exact h.elim

theorem sansRosters_synchronizeRosters (s : LiveChat) :
    s.synchronizeRosters.sansSettling = s.sansSettling := by
  have hchannels : (s.channels.map fun _ channel => synchronizeChannel s.profiles channel).map
      (fun _ channel => channel.sansRoster)
      = s.channels.map fun _ channel => channel.sansRoster := by
    apply ExtTreeMap.ext_getElem?
    intro index
    rw [ExtTreeMap.getElem?_map, ExtTreeMap.getElem?_map, ExtTreeMap.getElem?_map]
    cases s.channels[index]? <;> rfl
  have hparty : (s.party.map fun party =>
      { party with state := synchronizeChannel s.profiles party.state }).map
        (fun party => { party with state := party.state.sansRoster })
      = s.party.map fun party => { party with state := party.state.sansRoster } := by
    cases s.party <;> rfl
  simp only [synchronizeRosters, sansSettling, sansWhispers, hchannels, hparty]

theorem settles_synchronizeRosters : Within Settles (change synchronizeRosters : Chat Unit) := by
  intro s
  refine ⟨sansRosters_synchronizeRosters s, .refl _ _, ?_⟩
  show Grows _ s.pendingEvents (s.pendingEvents ++ _ ++ _)
  rw [List.append_assoc]
  refine .append _ fun event hevent => ?_
  rcases List.mem_append.1 hevent with hevent | hevent
  · obtain ⟨entry, -, rfl⟩ := List.mem_map.1 hevent
    trivial
  · rw [Option.mem_toList, Option.map_eq_some_iff] at hevent
    obtain ⟨party, -, rfl⟩ := hevent
    trivial

theorem settles_enqueueMissing : Within Settles (change enqueueMissing : Chat Unit) := by
  intro s
  refine ⟨?_, .refl _ _, .refl _ _⟩
  have hknown := s.profiles.known_enqueueMissing s.channelStates s.friends
  simp only [change_apply, enqueueMissing, sansSettling, sansWhispers, hknown]

theorem settles_pump : Within Settles (pump m) := by
  intro s
  have h := Resolving.pumps_pump m { sent := s.sent, profiles := s.profiles }
  refine ⟨?_, h.sent.mono fun _ => Or.inr, .refl _ _⟩
  simp only [pump, within_apply, sansSettling, sansWhispers, h.known]

theorem settles_settle (payload : Payload) : Within Settles (settle tables m payload) := by
  refine within_bind (settles_advancePendingWhispers tables m payload) fun _ => ?_
  refine within_bind settles_synchronizeRosters fun _ => ?_
  refine within_bind settles_enqueueMissing fun _ => ?_
  exact settles_pump m

/-! ## Rooms and parties -/

def IsRoomRequest : Request → Prop
  | .chatJoinPublic _ _ | .chatJoinPrivate _ _ | .chatJoinClub _ _ | .chatLeave _
  | .chatMessage _ _ | .chatInviteAnswer _ _ | .chatPartyOnline _ _ => True
  | _ => False

def IsRoomEvent : ChatEvent → Prop
  | .joined _ _ _ _ | .roster _ | .memberJoined _ _ | .memberLeft _ _ _ | .removed _ _
  | .message _ _ _ => True
  | _ => False

/-- All but what is kept about channels, parties and what is said in them. -/
def sansRooms (s : LiveChat) : LiveChat :=
  { s with
    sent := []
    pendingEvents := []
    channels := ∅
    party := none
    pendingJoins := ∅
    defaultChannelIndex := 0
    pendingLocalEchoes := []
    partyInvitations := ∅
    pendingPartyAccepts := ∅
    partyOnlineChannels := ∅ }

/-- The frame of everything about rooms and parties. -/
abbrev Rooms := Frame sansRooms IsRoomRequest IsRoomEvent

def IsMoveRequest : Request → Prop
  | .chatJoinPublic _ _ | .chatJoinPrivate _ _ | .chatJoinClub _ _ | .chatLeave _
  | .chatInviteAnswer _ _ | .chatPartyOnline _ _ => True
  | _ => False

def IsMoveEvent : ChatEvent → Prop
  | .joined _ _ _ _ | .roster _ | .memberJoined _ _ | .memberLeft _ _ _ | .removed _ _ => True
  | _ => False

/-- All but what is kept about channels and parties, and with what is said in them. -/
def sansMoves (s : LiveChat) : LiveChat :=
  { s.sansRooms with pendingLocalEchoes := s.pendingLocalEchoes }

/-- The frame of who is where; nothing is said. -/
abbrev Moves := Frame sansMoves IsMoveRequest IsMoveEvent

theorem rooms_of_moves {α : Type} {x : Chat α} (hx : Within Moves x) : Within Rooms x :=
  within_mono hx sansRooms (fun _ => rfl)
    (fun request _ => by cases request <;> trivial) fun event _ => by cases event <;> trivial

theorem moves_send {request : Request} (h : IsMoveRequest request) :
    Within Moves (send m request) :=
  within_send h fun _ _ => rfl

theorem moves_change {f : LiveChat → LiveChat} (hview : ∀ s, (f s).sansMoves = s.sansMoves)
    (hsent : ∀ s, (f s).sent = s.sent) (htold : ∀ s, (f s).pendingEvents = s.pendingEvents) :
    Within Moves (change f : Chat Unit) :=
  within_unseen hview hsent htold

theorem moves_joinChannel (draws : List UInt32) (channel : ChatChannel) :
    Within Moves (joinChannel m draws channel) := by
  refine within_bind within_read fun s => ?_
  cases s.nextJoinToken draws with
  | none => exact within_pure ()
  | some token =>
    have hafter : Within Moves (do
        change (expirePendingJoins m.now)
        change fun s => { s with
          pendingJoins := s.pendingJoins.insert token (channel, m.now) } : Chat Unit) :=
      within_bind (moves_change (fun _ => rfl) (fun _ => rfl) fun _ => rfl) fun _ =>
        moves_change (fun _ => rfl) (fun _ => rfl) fun _ => rfl
    refine within_orFail_bind fun request hrequest => ?_
    refine within_bind (moves_send m ?_) fun _ => hafter
    cases channel <;> cases hrequest <;> trivial

theorem moves_leaveParty : Within Moves (leaveParty m) := by
  refine within_bind within_read fun s => ?_
  refine within_bind (within_orFail s.party _) fun party => ?_
  refine within_bind (moves_change (fun _ => rfl) (fun _ => rfl) fun _ => rfl) fun _ => ?_
  refine within_bind (moves_send m trivial) fun _ => ?_
  exact moves_change (fun _ => rfl) (fun _ => rfl) fun _ => rfl

/-- To find out which member of the party we are changes the party alone. -/
theorem identifyInvitedPartyMember_eq (channelIndex : UInt8) (s : LiveChat) :
    identifyInvitedPartyMember channelIndex s =
      { s with party := (identifyInvitedPartyMember channelIndex s).party } := by
  unfold identifyInvitedPartyMember
  split
  · split
    · rfl
    · split <;> rfl
  · rfl

theorem moves_identifyInvitedPartyMember (channelIndex : UInt8) :
    Within Moves (change (identifyInvitedPartyMember channelIndex) : Chat Unit) := by
  refine moves_change (fun s => ?_) (fun s => ?_) fun s => ?_
  · rw [identifyInvitedPartyMember_eq]
    rfl
  · rw [identifyInvitedPartyMember_eq]
  · rw [identifyInvitedPartyMember_eq]

theorem moves_publishPartyOnlineIfReady (channelIndex : UInt8) :
    Within Moves (publishPartyOnlineIfReady m channelIndex) := by
  refine within_bind within_read fun s => within_ite (within_pure ()) ?_
  refine within_bind (moves_identifyInvitedPartyMember channelIndex) fun _ => ?_
  refine within_bind within_read fun s => ?_
  cases (s.partyAt channelIndex).bind (·.state.localMemberHandle) with
  | none => exact within_pure ()
  | some handle =>
    refine within_bind (moves_send m trivial) fun _ => ?_
    exact moves_change (fun _ => rfl) (fun _ => rfl) fun _ => rfl

theorem moves_answerPartyInvitation (channelIndex : UInt8) (accept : Bool) :
    Within Moves (answerPartyInvitation m channelIndex accept) := by
  refine within_bind (moves_send m trivial) fun _ => within_ite ?_ ?_
  · refine within_bind (moves_change (fun _ => rfl) (fun _ => rfl) fun _ => rfl) fun _ => ?_
    exact moves_publishPartyOnlineIfReady m channelIndex
  · exact moves_change (fun _ => rfl) (fun _ => rfl) fun _ => rfl

theorem isMoveEvent_of_isMemberEvent {channelIndex : UInt8} {event : ChatEvent}
    (h : IsMemberEvent channelIndex event) : IsMoveEvent event := by
  cases event <;> trivial

/-- All events are about who is where. -/
def AreMoveEvents (events : List ChatEvent) : Prop := ∀ event ∈ events, IsMoveEvent event

theorem areMoveEvents_singleton {event : ChatEvent} (h : IsMoveEvent event) :
    AreMoveEvents [event] := by
  intro e he
  rw [List.mem_singleton.1 he]
  exact h

theorem areMoveEvents_append {xs ys : List ChatEvent} (hxs : AreMoveEvents xs)
    (hys : AreMoveEvents ys) : AreMoveEvents (xs ++ ys) := by
  intro event hevent
  rcases List.mem_append.1 hevent with hevent | hevent
  · exact hxs event hevent
  · exact hys event hevent

theorem areMoveEvents_toList {α : Type} {option : Option α} {f : α → ChatEvent}
    (h : ∀ a, IsMoveEvent (f a)) : AreMoveEvents (option.map f).toList := by
  intro event hevent
  rw [Option.mem_toList, Option.map_eq_some_iff] at hevent
  obtain ⟨a, -, rfl⟩ := hevent
  exact h a

theorem areMoveEvents_membershipRoster (s : LiveChat) (isParty : Bool) (channelIndex : UInt8) :
    AreMoveEvents (s.membershipRoster isParty channelIndex) := by
  unfold membershipRoster
  split
  · exact areMoveEvents_toList fun _ => trivial
  · exact areMoveEvents_toList fun _ => trivial

theorem moves_announceParty (channelIndex : UInt8) :
    Within Moves (announceParty channelIndex) := by
  refine within_bind within_read fun s => ?_
  cases s.party with
  | none => exact within_pure _
  | some party =>
    refine within_ite (within_orFail_bind fun handle _ => ?_) (within_pure _)
    refine within_bind (moves_change (fun _ => rfl) (fun _ => rfl) fun _ => rfl) fun _ => ?_
    exact within_pure _

theorem yields_announceParty (channelIndex : UInt8) :
    Yields AreMoveEvents (announceParty channelIndex) := by
  have hnone : Yields AreMoveEvents (pure [] : Chat (List ChatEvent)) :=
    yields_pure fun _ h => absurd h List.not_mem_nil
  refine yields_bind fun s => ?_
  cases s.party with
  | none => exact hnone
  | some party =>
    refine yields_ite (yields_bind fun handle => yields_bind fun _ => ?_) hnone
    exact yields_pure (areMoveEvents_singleton trivial)

theorem moves_firstEvent {events : List ChatEvent} (h : AreMoveEvents events) :
    Within Moves (firstEvent events) := by
  cases events with
  | nil => exact within_fail _
  | cons event rest =>
    refine within_bind (within_queueEvents ?_ fun _ _ => rfl) fun _ => within_pure event
    exact fun event hevent => h event (List.mem_cons_of_mem _ hevent)

theorem moves_applyToRoster (isParty : Bool) (membership : ChatMembership) :
    Within Moves (take (applyToRoster isParty membership) : Chat (List ChatEvent)) := by
  cases isParty <;> exact within_unseen_take (fun _ => rfl) (fun _ => rfl) fun _ => rfl

theorem areMoveEvents_applyToRoster (isParty : Bool) (membership : ChatMembership)
    (s : LiveChat) : AreMoveEvents (applyToRoster isParty membership s).1 := by
  intro event hevent
  cases isParty with
  | true => exact isMoveEvent_of_isMemberEvent (isMemberEvent_applyMembership _ _ _ _ hevent)
  | false => exact isMoveEvent_of_isMemberEvent (isMemberEvent_applyMembership _ _ _ _ hevent)

theorem moves_receiveMembership (membership : ChatMembership) :
    Within Moves (receiveMembership m membership) := by
  refine within_bind within_read fun s => ?_
  refine within_bind_yields (Q := AreMoveEvents) (moves_applyToRoster _ membership)
    (yields_take (areMoveEvents_applyToRoster _ membership)) fun events hevents => ?_
  refine within_bind (moves_identifyInvitedPartyMember _) fun _ => ?_
  refine within_bind (moves_publishPartyOnlineIfReady m _) fun _ => ?_
  refine within_bind_yields (Q := AreMoveEvents)
    (within_ite (moves_announceParty _) (within_pure _)) ?_ fun joined hjoined => ?_
  · exact yields_ite (yields_announceParty _) (yields_pure fun _ h => absurd h List.not_mem_nil)
  · refine within_bind within_read fun t => moves_firstEvent ?_
    exact areMoveEvents_append (areMoveEvents_append hjoined hevents)
      (areMoveEvents_membershipRoster _ _ _)

theorem yields_firstEvent {events : List ChatEvent} (h : AreMoveEvents events) :
    Yields IsMoveEvent (firstEvent events) := by
  cases events with
  | nil => exact yields_fail _
  | cons event rest => exact yields_bind fun _ => yields_pure (h event List.mem_cons_self)

/-- What a membership is answered with tells who is where. -/
theorem yields_receiveMembership (membership : ChatMembership) :
    Yields IsMoveEvent (receiveMembership m membership) := by
  refine yields_bind fun s => ?_
  refine yields_bind_yields (P := AreMoveEvents)
    (yields_take (areMoveEvents_applyToRoster _ membership)) fun events hevents => ?_
  refine yields_bind fun _ => yields_bind fun _ => ?_
  refine yields_bind_yields (P := AreMoveEvents) (yields_ite (yields_announceParty _)
    (yields_pure fun _ h => absurd h List.not_mem_nil)) fun joined hjoined => ?_
  refine yields_bind fun t => yields_firstEvent ?_
  exact areMoveEvents_append (areMoveEvents_append hjoined hevents)
    (areMoveEvents_membershipRoster _ _ _)

theorem moves_receivePartyJoin (route : Route) (result : ChatJoin) :
    Within Moves (receivePartyJoin tables m route result) := by
  refine within_bind within_read fun s => ?_
  refine within_bind (within_ofExcept _) fun place => ?_
  refine within_bind (moves_change (fun _ => rfl) (fun _ => rfl) fun _ => rfl) fun _ => ?_
  refine within_bind (moves_change (fun _ => rfl) (fun _ => rfl) fun _ => rfl) fun _ => ?_
  refine within_bind (moves_publishPartyOnlineIfReady m _) fun _ => ?_
  refine within_bind (moves_change (fun _ => rfl) (fun _ => rfl) fun _ => rfl) fun _ => ?_
  exact within_pure _

theorem moves_enterChannel (route : Route) (requested : Option ChatChannel) (result : ChatJoin)
    (channelIndex : UInt8) (localMemberHandle : UInt32) :
    Within Moves (enterChannel route requested result channelIndex localMemberHandle) := by
  refine within_bind within_read fun s => ?_
  cases s.joinedChannel requested result channelIndex with
  | some joined =>
    refine within_bind (moves_change (fun _ => rfl) (fun _ => rfl) fun _ => rfl) fun _ => ?_
    exact within_pure _
  | none =>
    refine within_bind (moves_change (fun _ => rfl) (fun _ => rfl) fun _ => rfl) fun _ => ?_
    exact within_pure _

theorem moves_receiveRoomJoin (route : Route) (result : ChatJoin) :
    Within Moves (receiveRoomJoin tables route result) := by
  refine within_bind within_read fun s => ?_
  refine within_bind (within_ofExcept _) fun taken => ?_
  refine within_bind (moves_change (fun _ => rfl) (fun _ => rfl) fun _ => rfl) fun _ => ?_
  refine within_ite (within_pure _) ?_
  refine within_bind (within_ofExcept _) fun _ => ?_
  refine within_bind (within_ofExcept _) fun place => ?_
  exact within_bind (moves_enterChannel _ _ _ _ _) fun event => within_pure _

theorem moves_receiveJoin (route : Route) (result : ChatJoin) :
    Within Moves (receiveJoin tables m route result) := by
  refine within_bind (moves_change (fun _ => rfl) (fun _ => rfl) fun _ => rfl) fun _ => ?_
  refine within_bind within_read fun s => within_ite ?_ (moves_receiveRoomJoin tables route _)
  exact within_bind (moves_receivePartyJoin tables m route _) fun event => within_pure _

/-- An answer to a join is shown as a channel that is joined, as a join that is rejected, or not at
all. -/
theorem yields_receiveJoin {Q : ChatEvent → Prop} (hactivity : ∀ route, Q (.activity route))
    (hjoined : ∀ index channel handle shard, Q (.joined index channel handle shard))
    (hrejected : ∀ channel reason, Q (.joinRejected channel reason)) (route : Route)
    (result : ChatJoin) :
    Yields (fun handled => Q handled.event) (receiveJoin tables m route result) := by
  refine yields_bind fun _ => yields_bind fun s => yields_ite ?_ ?_
  · refine yields_bind_yields (P := Q) ?_ fun event hevent => yields_pure hevent
    refine yields_bind fun s => yields_bind fun place => yields_bind fun _ => yields_bind fun _ =>
      yields_bind fun _ => yields_bind fun _ => yields_pure ?_
    split
    · exact hactivity route
    · exact hjoined _ _ _ _
  · refine yields_bind fun s => yields_bind fun taken => yields_bind fun _ =>
      yields_ite (yields_pure (hrejected _ _)) (yields_bind fun _ => yields_bind fun place => ?_)
    refine yields_bind_yields (P := Q) ?_ fun event hevent => yields_pure hevent
    refine yields_bind fun s => ?_
    cases s.joinedChannel taken.1 result place.1 with
    | some joined => exact yields_bind fun _ => yields_pure (hjoined _ _ _ _)
    | none => exact yields_bind fun _ => yields_pure (hactivity route)

theorem moves_receiveInvite (invite : ChatInvite) : Within Moves (receiveInvite invite) := by
  refine within_bind (moves_change (fun _ => rfl) (fun _ => rfl) fun _ => rfl) fun _ => ?_
  refine within_bind (moves_identifyInvitedPartyMember _) fun _ => ?_
  exact within_bind within_read fun s => within_pure _

/-! ### What is said -/

theorem rooms_send {request : Request} (h : IsRoomRequest request) :
    Within Rooms (send m request) :=
  within_send h fun _ _ => rfl

theorem rooms_change {f : LiveChat → LiveChat} (hview : ∀ s, (f s).sansRooms = s.sansRooms)
    (hsent : ∀ s, (f s).sent = s.sent) (htold : ∀ s, (f s).pendingEvents = s.pendingEvents) :
    Within Rooms (change f : Chat Unit) :=
  within_unseen hview hsent htold

theorem rooms_leaveRoom (channelIndex : UInt8) : Within Rooms (leaveRoom m channelIndex) := by
  refine within_bind within_read fun s => within_ite ?_ (within_fail _)
  refine within_bind (rooms_send m trivial) fun _ => ?_
  exact rooms_change (fun _ => rfl) (fun _ => rfl) fun _ => rfl

theorem rooms_leaveChannel (channelIndex : UInt8) :
    Within Rooms (leaveChannel m channelIndex) :=
  within_ite (rooms_of_moves (moves_leaveParty m)) (rooms_leaveRoom m channelIndex)

theorem rooms_sendMessage (channelIndex : UInt8) (body : String) :
    Within Rooms (sendMessage m channelIndex body) := by
  refine within_bind within_read fun s => ?_
  refine within_bind (within_ofExcept _) fun place => ?_
  refine within_bind (within_ofExcept _) fun handle => ?_
  refine within_bind (rooms_send m trivial) fun _ => ?_
  refine within_bind (within_queueEvents ?_ fun _ _ => rfl) fun _ => ?_
  · intro event hevent
    rw [List.mem_singleton.1 hevent]
    trivial
  · exact rooms_change (fun _ => rfl) (fun _ => rfl) fun _ => rfl

/-- To look for an echo changes the echoes alone. -/
theorem consumeLocalEcho_eq (message : ChatMessage) (s : LiveChat) :
    (consumeLocalEcho m message s).2 = { s with
      pendingLocalEchoes := (consumeLocalEcho m message s).2.pendingLocalEchoes } := by
  unfold consumeLocalEcho
  dsimp only
  split <;> rfl

theorem rooms_receiveMessage (route : Route) (message : ChatMessage) :
    Within Rooms (receiveMessage m route message) := by
  have hconsume : Within Rooms (take (consumeLocalEcho m message) : Chat Bool) := by
    refine within_unseen_take (fun s => ?_) (fun s => ?_) fun s => ?_
    · rw [consumeLocalEcho_eq]
      rfl
    · rw [consumeLocalEcho_eq]
    · rw [consumeLocalEcho_eq]
  refine within_bind hconsume fun own => ?_
  exact within_bind within_read fun s => within_pure _

/-! ## Groups -/

def IsSubscriptionRequest : Request → Prop
  | .clubSearch _ | .clubInviteAnswer _ _ _ | .clubSubscribe _ => True
  | _ => False

/-- All but which invitations can be answered and whether the groups are to be asked for. -/
def sansSubscriptions (s : LiveChat) : LiveChat :=
  { s with
    sent := []
    pendingEvents := []
    pendingInvitations := ∅
    pendingClubSubscription := none }

/-- The frame of what the host asks about groups. -/
abbrev Subscribes := Frame sansSubscriptions IsSubscriptionRequest fun _ => False

theorem subscribes_send {request : Request} (h : IsSubscriptionRequest request) :
    Within Subscribes (send m request) :=
  within_send h fun _ _ => rfl

theorem subscribes_searchGroups (query : String) : Within Subscribes (searchGroups m query) :=
  subscribes_send m trivial

theorem subscribes_requestClubs (handle : ToonHandle) :
    Within Subscribes (requestClubs m handle) :=
  subscribes_send m trivial

theorem subscribes_requestClubsWhenIdle : Within Subscribes (requestClubsWhenIdle m) := by
  refine within_bind within_read fun s => within_ite (within_pure ()) ?_
  cases s.pendingClubSubscription with
  | none => exact within_pure ()
  | some handle =>
    refine within_bind (within_unseen (fun _ => rfl) (fun _ => rfl) fun _ => rfl) fun _ => ?_
    exact subscribes_send m trivial

theorem subscribes_subscribeAgain : Within Subscribes (subscribeAgain m) := by
  intro s
  unfold subscribeAgain
  cases s.localToon with
  | none => exact Std.Refl.refl s
  | some handle =>
    have hsend := subscribes_requestClubs m handle s
    dsimp only
    rcases hrequest : requestClubs m handle s with ⟨e | _, t⟩
    · rw [hrequest] at hsend
      exact ⟨hsend.kept, hsend.sent, hsend.told⟩
    · rw [hrequest] at hsend
      exact hsend

theorem subscribes_answerGroupInvitation (clubId : UInt32) (accept : Bool) :
    Within Subscribes (answerGroupInvitation m clubId accept) := by
  refine within_bind within_read fun s => within_orFail_bind fun program _ => ?_
  refine within_bind (within_unseen (fun _ => rfl) (fun _ => rfl) fun _ => rfl) fun _ => ?_
  refine within_bind (subscribes_send m trivial) fun _ => ?_
  exact within_ite (subscribes_subscribeAgain m) (within_pure ())

def IsLookup : Request → Prop
  | .clubInfo _ _ => True
  | _ => False

def IsGroupEvent : ChatEvent → Prop
  | .groupSummary _ _ => True
  | _ => False

/-- All but what is kept about invitations and lookups of groups. -/
def sansLookups (s : LiveChat) : LiveChat :=
  { s with
    sent := []
    pendingEvents := []
    pendingClubInfo := none
    pendingInvitations := ∅
    pendingClubLookups := [] }

/-- The frame of what the service says of groups. -/
abbrev LooksUp := Frame sansLookups IsLookup IsGroupEvent

theorem looksUp_send (token : UInt32) (clubIds : List UInt32) :
    Within LooksUp (send m (.clubInfo token clubIds)) :=
  within_send trivial fun _ _ => rfl

theorem looksUp_requestNextClubLookup : Within LooksUp (requestNextClubLookup m) := by
  refine within_bind within_read fun s => ?_
  cases s.pendingClubLookups.getLast? with
  | none => exact within_pure ()
  | some batch =>
    refine within_bind (within_unseen (fun _ => rfl) (fun _ => rfl) fun _ => rfl) fun _ => ?_
    exact within_ignore (looksUp_send m 0 batch)

theorem looksUp_enqueueClubLookups (clubIds : List UInt32) :
    Within LooksUp (enqueueClubLookups m clubIds) := by
  refine within_bind within_read fun s => within_ite (within_pure ()) ?_
  refine within_bind (within_unseen (fun _ => rfl) (fun _ => rfl) fun _ => rfl) fun _ => ?_
  exact within_ite (looksUp_requestNextClubLookup m) (within_pure ())

theorem looksUp_firstSummary (route : Route) (clubs : List Native.ClubSummary) (member : Bool) :
    Within LooksUp (firstSummary route clubs member) := by
  cases clubs with
  | nil => exact within_pure _
  | cons club rest =>
    refine within_bind (within_queueEvents ?_ fun _ _ => rfl) fun _ => within_pure _
    intro event hevent
    obtain ⟨club, -, rfl⟩ := List.mem_map.1 hevent
    trivial

theorem looksUp_receiveClubSummaries (route : Route) (clubs : List Native.ClubSummary) :
    Within LooksUp (receiveClubSummaries m route clubs) :=
  within_bind (looksUp_enqueueClubLookups m _) fun _ => looksUp_firstSummary route clubs true

theorem looksUp_receiveClubSearch (clubIds : List UInt32) :
    Within LooksUp (receiveClubSearch m clubIds) :=
  within_bind (looksUp_enqueueClubLookups m clubIds) fun _ => within_pure _

theorem looksUp_receiveClubInfo (route : Route) (clubs : List Native.ClubSummary) :
    Within LooksUp (receiveClubInfo m route clubs) := by
  refine within_bind (within_unseen (fun _ => rfl) (fun _ => rfl) fun _ => rfl) fun _ => ?_
  exact within_bind (looksUp_requestNextClubLookup m) fun _ => looksUp_firstSummary route clubs _

theorem looksUp_receiveClubInvite (action : ClubInviteAction) :
    Within LooksUp (receiveClubInvite m action) := by
  refine within_bind (within_unseen (fun _ => rfl) (fun _ => rfl) fun _ => rfl) fun _ => ?_
  exact within_bind (within_ignore (looksUp_send m _ _)) fun _ => within_pure _

/-! ## Friends -/

def IsFriendsEvent : ChatEvent → Prop
  | .friends _ => True
  | _ => False

/-- All but the friends, what was shown of them, and who is blocked. -/
def sansFriends (s : LiveChat) : LiveChat :=
  { s with
    sent := []
    pendingEvents := []
    friends := ∅
    announcedFriends := []
    blockedAccounts := ∅ }

/-- The frame of everything about friends. -/
abbrev Befriends := Frame sansFriends (fun _ => False) IsFriendsEvent

theorem befriends_receiveFriends (f : Friends → Friends) :
    Within Befriends (receiveFriends tables f) := by
  refine within_bind (within_unseen (fun _ => rfl) (fun _ => rfl) fun _ => rfl) fun _ => ?_
  exact within_unseen_take (fun _ => rfl) (fun _ => rfl) fun _ => rfl

theorem befriends_receiveAccountBlocks (entries : List AccountBlockEntry) :
    Within Befriends (receiveAccountBlocks tables entries) := by
  refine within_bind (within_unseen (fun _ => rfl) (fun _ => rfl) fun _ => rfl) fun _ => ?_
  exact within_bind within_read fun s => within_pure _

theorem befriends_refreshFriends (observed : Observed) (event : ChatEvent) :
    Within Befriends (refreshFriends tables observed event) := by
  refine within_bind within_read fun s => within_ite ?_ (within_pure _)
  refine within_bind (within_unseen (fun _ => rfl) (fun _ => rfl) fun _ => rfl) fun _ => ?_
  have hqueue (snapshot : List ChatFriend) : Within Befriends (do
      queueEvents [.friends snapshot]
      pure event : Chat ChatEvent) := by
    refine within_bind (within_queueEvents ?_ fun _ _ => rfl) fun _ => within_pure _
    intro told htold
    rw [List.mem_singleton.1 htold]
    trivial
  cases event with
  | activity route => exact within_pure _
  | _ => exact hqueue _

/-! ## What the resolver observes -/

/-- All but the resolver. -/
def sansProfiles (s : LiveChat) : LiveChat :=
  { s with
    sent := []
    pendingEvents := []
    profiles := {} }

abbrev Observes := Frame sansProfiles (fun _ => False) fun _ => False

theorem observes_observe (payload : Payload) :
    Within Observes (take (observe tables payload) : Chat Observed) :=
  within_unseen_take (fun _ => rfl) (fun _ => rfl) fun _ => rfl

/-! ## Records that are not about rooms -/

/-- What is kept about channels, parties and what is said in them. -/
def onlyRooms (s : LiveChat) : LiveChat where
  channels := s.channels
  party := s.party
  pendingJoins := s.pendingJoins
  defaultChannelIndex := s.defaultChannelIndex
  pendingLocalEchoes := s.pendingLocalEchoes
  partyInvitations := s.partyInvitations
  pendingPartyAccepts := s.pendingPartyAccepts
  partyOnlineChannels := s.partyOnlineChannels

/-- No event about rooms. -/
abbrev Unroomed (event : ChatEvent) : Prop := ¬ IsRoomEvent event

/-- The frame of what has nothing to do with rooms. -/
abbrev Elsewhere := Frame onlyRooms (fun _ => True) Unroomed

section Elsewhere

variable {α : Type} {x : Chat α}

theorem elsewhere_aside (hx : Within Aside x) : Within Elsewhere x :=
  within_mono hx onlyRooms (fun _ => rfl) (fun _ _ => trivial) fun event h => by
    cases event <;> first | exact h.elim | exact not_false

theorem elsewhere_subscribes (hx : Within Subscribes x) : Within Elsewhere x :=
  within_mono hx onlyRooms (fun _ => rfl) (fun _ _ => trivial) fun _ h => h.elim

theorem elsewhere_looksUp (hx : Within LooksUp x) : Within Elsewhere x :=
  within_mono hx onlyRooms (fun _ => rfl) (fun _ _ => trivial) fun event h => by
    cases event <;> first | exact h.elim | exact not_false

theorem elsewhere_befriends (hx : Within Befriends x) : Within Elsewhere x :=
  within_mono hx onlyRooms (fun _ => rfl) (fun _ _ => trivial) fun event h => by
    cases event <;> first | exact h.elim | exact not_false

theorem elsewhere_observes (hx : Within Observes x) : Within Elsewhere x :=
  within_mono hx onlyRooms (fun _ => rfl) (fun _ _ => trivial) fun _ h => h.elim

end Elsewhere

def isRoomRecord : Payload → Bool
  | .chatMembership _ | .chatMessage _ | .chatInvite _ | .chatJoin _ => true
  | _ => false

theorem elsewhere_handleRecord {record : Record} (h : isRoomRecord record.value = false) :
    Within Elsewhere (handleRecord tables m record) := by
  unfold handleRecord
  cases hvalue : record.value with
  | chatMembership membership => simp [hvalue, isRoomRecord] at h
  | chatMessage message => simp [hvalue, isRoomRecord] at h
  | chatInvite invite => simp [hvalue, isRoomRecord] at h
  | clubSummaries clubs => exact elsewhere_looksUp (looksUp_receiveClubSummaries m _ clubs)
  | clubSearch clubIds => exact elsewhere_looksUp (looksUp_receiveClubSearch m clubIds)
  | clubInfo clubs => exact elsewhere_looksUp (looksUp_receiveClubInfo m _ clubs)
  | clubInviteAction action => exact elsewhere_looksUp (looksUp_receiveClubInvite m action)
  | accountBlocks entries => exact elsewhere_befriends (befriends_receiveAccountBlocks tables _)
  | friends updates => exact elsewhere_befriends (befriends_receiveFriends tables _)
  | friendToons entries => exact elsewhere_befriends (befriends_receiveFriends tables _)
  | chatWhisperEcho whisper => exact elsewhere_aside (aside_receiveWhisperEcho m _ whisper)
  | _ => exact within_pure _

theorem unroomed_firstSummary (route : Route) (clubs : List Native.ClubSummary) (member : Bool) :
    Yields Unroomed (firstSummary route clubs member) := by
  cases clubs with
  | nil => exact yields_pure not_false
  | cons club rest => exact yields_bind fun _ => yields_pure not_false

theorem unroomed_handleRecord {record : Record} (h : isRoomRecord record.value = false) :
    Yields Unroomed (handleRecord tables m record) := by
  unfold handleRecord
  cases hvalue : record.value with
  | chatMembership membership => simp [hvalue, isRoomRecord] at h
  | chatMessage message => simp [hvalue, isRoomRecord] at h
  | chatInvite invite => simp [hvalue, isRoomRecord] at h
  | clubSummaries clubs => exact yields_bind fun _ => unroomed_firstSummary _ clubs true
  | clubSearch clubIds => exact yields_bind fun _ => yields_pure not_false
  | clubInfo clubs =>
    exact yields_bind fun _ => yields_bind fun _ => unroomed_firstSummary _ clubs false
  | clubInviteAction action =>
    exact yields_bind fun _ => yields_bind fun _ => yields_pure not_false
  | accountBlocks entries => exact yields_bind fun _ => yields_bind fun s => yields_pure not_false
  | friends updates => exact yields_bind fun _ => yields_take fun _ => not_false
  | friendToons entries => exact yields_bind fun _ => yields_take fun _ => not_false
  | chatWhisperEcho whisper =>
    refine yields_bind fun own => yields_pure ?_
    cases own <;> exact not_false
  | _ => exact yields_pure not_false

/-- Whatever record is no answer to a join goes on to what every record brings about. -/
theorem handle_eq_handleRecord {record : Record} (h : isRoomRecord record.value = false) :
    handle tables m record
      = (handleRecord tables m record >>= fun event => pure (.more event)) := by
  unfold handle
  cases hvalue : record.value with
  | chatJoin result => simp [hvalue, isRoomRecord] at h
  | _ => rfl

theorem elsewhere_handle {record : Record} (h : isRoomRecord record.value = false) :
    Within Elsewhere (handle tables m record) ∧
      Yields (fun handled => Unroomed handled.event) (handle tables m record) := by
  rw [handle_eq_handleRecord tables m h]
  exact ⟨within_bind (elsewhere_handleRecord tables m h) fun _ => within_pure _,
    yields_bind_yields (unroomed_handleRecord tables m h) fun _ hevent => yields_pure hevent⟩

/-! ## A whole record -/

theorem yields_refreshFriends {Q : ChatEvent → Prop} (hfriends : ∀ list, Q (.friends list))
    (observed : Observed) {event : ChatEvent} (h : Q event) :
    Yields Q (refreshFriends tables observed event) := by
  refine yields_bind fun s => yields_ite (yields_bind fun _ => ?_) (yields_pure h)
  cases event with
  | activity route => exact yields_pure (hfriends _)
  | _ => exact yields_bind fun _ => yields_pure h

/-- The event of a record is that of its arm, unless the friends are listed in its place. -/
theorem yields_finish {Q : ChatEvent → Prop} (hfriends : ∀ list, Q (.friends list))
    (payload : Payload) (observed : Observed) {handled : Handled} (h : Q handled.event) :
    Yields Q (finish tables m payload observed handled) := by
  cases handled with
  | done event => exact yields_pure h
  | more event => exact yields_bind fun _ => yields_refreshFriends tables hfriends observed h

/-- What comes after the arm is within every frame that holds of its parts. -/
theorem within_finish {R : LiveChat → LiveChat → Prop} [Std.Refl R] [IsTrans LiveChat R]
    (hsettles : ∀ s t, Settles s t → R s t) (hbefriends : ∀ s t, Befriends s t → R s t)
    (payload : Payload) (observed : Observed) (handled : Handled) :
    Within R (finish tables m payload observed handled) := by
  cases handled with
  | done event => exact within_pure _
  | more event =>
    refine within_bind ((settles_settle tables m payload).mono hsettles) fun _ => ?_
    exact (befriends_refreshFriends tables observed event).mono hbefriends

end LiveChat

end Superiority.Sc2
