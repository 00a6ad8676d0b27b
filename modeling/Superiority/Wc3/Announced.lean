import Superiority.Wc3.Session

/-!
# The events tell of every hall

The chat of a session numbers its channels apart, and it announces some of them. What a callback
does to the ids that are announced is told by the event it gives: a joined event opens an id that
was not open, a left event closes its id, and any other callback leaves what is open.

* **`tells_onChatCallback`**, **`tells_dispatch`** – for one callback, and for a dispatch with the
  events it has gathered, whether it fails or not.
* **`tells_reserveChannel`**, **`tells_removeChannel`** – what requests do besides.
-/

namespace Superiority.Wc3

open Stateful
open Scr (firstBytes)

namespace JoinedChannel

/-- What the members of a channel do not matter for. -/
def shape (joined : JoinedChannel) : UInt8 × UInt8 × Bool :=
  (joined.id, joined.channel.id, joined.announced)

end JoinedChannel

namespace ChatState

def shapes (chat : ChatState) : List (UInt8 × UInt8 × Bool) := chat.channels.map (·.shape)

/-- The ids that are announced. -/
def openIds (chat : ChatState) : List UInt8 := (chat.channels.filter (·.announced)).map (·.id)

/-- The channels are numbered apart, and each snapshot has its channel's number. -/
structure Numbered (chat : ChatState) : Prop where
  apart : (chat.channels.map (·.id)).Nodup
  snapshot : ∀ joined ∈ chat.channels, joined.channel.id = joined.id

theorem numbered_default : default_.Numbered where
  apart := List.nodup_nil
  snapshot _ h := by cases h

theorem openIds_eq (chat : ChatState) :
    chat.openIds = (chat.shapes.filter (·.2.2)).map (·.1) := by
  simp [openIds, shapes, JoinedChannel.shape, List.filter_map, Function.comp_def]

theorem mem_openIds {chat : ChatState} {id : UInt8} :
    id ∈ chat.openIds ↔ ∃ joined ∈ chat.channels, joined.announced = true ∧ joined.id = id := by
  simp [openIds, and_assoc]

theorem Numbered.of_shapes {chat chat' : ChatState} (h : chat.Numbered)
    (hshapes : chat'.shapes = chat.shapes) : chat'.Numbered where
  apart := by
    have heq : chat'.channels.map (·.id) = chat.channels.map (·.id) := by
      simpa [shapes, JoinedChannel.shape, Function.comp_def] using
        congrArg (List.map Prod.fst) hshapes
    rw [heq]
    exact h.apart
  snapshot := by
    have hall : ∀ shape ∈ chat.shapes, shape.2.1 = shape.1 := by
      intro shape hshape
      obtain ⟨joined, hjoined, rfl⟩ := List.mem_map.1 hshape
      exact h.snapshot joined hjoined
    intro joined hjoined
    exact hall joined.shape (hshapes ▸ List.mem_map_of_mem hjoined)

theorem openIds_of_shapes {chat chat' : ChatState} (h : chat'.shapes = chat.shapes) :
    chat'.openIds = chat.openIds := by
  rw [openIds_eq, openIds_eq, h]

/-! ## What an event tells -/

/-- What is open after an event. -/
def OpenAfter (before : UInt8 → Prop) : ChatEvent → UInt8 → Prop
  | .channelJoined id _ _, k => before k ∨ k = id
  | .channelLeft id, k => before k ∧ k ≠ id
  | _, k => before k

/-- Only what is not open is joined. -/
def Fits (before : UInt8 → Prop) : ChatEvent → Prop
  | .channelJoined id _ _ => ¬ before id
  | _ => True

/-- The events lead from what was open to what is open. -/
def Tells : (before : UInt8 → Prop) → List ChatEvent → (after : UInt8 → Prop) → Prop
  | before, [], after => ∀ k, after k ↔ before k
  | before, event :: events, after =>
    Fits before event ∧ Tells (OpenAfter before event) events after

theorem tells_append {before : UInt8 → Prop} {events events' : List ChatEvent}
    {between after : UInt8 → Prop} (h : Tells before events between)
    (h' : Tells between events' after) : Tells before (events ++ events') after := by
  induction events generalizing before with
  | nil =>
    obtain rfl : between = before := funext fun k => propext (h k)
    exact h'
  | cons event events ih => exact ⟨h.1, ih h.2⟩

/-- Events that open and close nothing. -/
theorem Tells.iff_of_quiet {before after : UInt8 → Prop} {events : List ChatEvent}
    (h : Tells before events after) (hjoined : ∀ id name count,
      .channelJoined id name count ∉ events) (hleft : ∀ id, .channelLeft id ∉ events) (k : UInt8) :
    after k ↔ before k := by
  induction events generalizing before with
  | nil => exact h k
  | cons event events ih =>
    have hrest := ih h.2 (fun id name count hmem => hjoined id name count
      (List.mem_cons_of_mem _ hmem)) fun id hmem => hleft id (List.mem_cons_of_mem _ hmem)
    cases event with
    | channelJoined id name count => exact absurd List.mem_cons_self (hjoined id name count)
    | channelLeft id => exact absurd List.mem_cons_self (hleft id)
    | _ => exact hrest

/-- A step of the chat that keeps its numbering and whose events tell what it does. -/
structure Told (chat : ChatState) (events : List ChatEvent) (chat' : ChatState) : Prop where
  numbered : chat'.Numbered
  tells : Tells (· ∈ chat.openIds) events (· ∈ chat'.openIds)

theorem told_of_shapes {chat chat' : ChatState} (h : chat.Numbered)
    (hshapes : chat'.shapes = chat.shapes) : Told chat [] chat' where
  numbered := h.of_shapes hshapes
  tells k := by rw [openIds_of_shapes hshapes]

theorem Told.trans {chat chat' chat'' : ChatState} {events events' : List ChatEvent}
    (h : Told chat events chat') (h' : Told chat' events' chat'') :
    Told chat (events ++ events') chat'' := ⟨h'.numbered, tells_append h.tells h'.tells⟩

/-- An event that opens and closes nothing may be told besides. -/
theorem Told.of_quiet {chat chat' : ChatState} (h : Told chat [] chat') {event : ChatEvent}
    (hfits : Fits (· ∈ chat.openIds) event)
    (hafter : ∀ k, OpenAfter (· ∈ chat.openIds) event k ↔ k ∈ chat.openIds) :
    Told chat [event] chat' where
  numbered := h.numbered
  tells := ⟨hfits, fun k => (h.tells k).trans (hafter k).symm⟩

/-! ## Channels -/

/-- The id of a new channel is not in use. -/
theorem allocateChannelId_fresh {chat : ChatState} {id : UInt8}
    (h : chat.allocateChannelId = .ok id) : ∀ joined ∈ chat.channels, joined.id ≠ id := by
  unfold allocateChannelId orClassic at h
  split at h
  · next candidate hfind =>
    obtain rfl : candidate = id := by simpa using h
    simpa using List.find?_some hfind
  · cases h

theorem numbered_push {chat : ChatState} (h : chat.Numbered) {joined : JoinedChannel}
    (hfresh : ∀ other ∈ chat.channels, other.id ≠ joined.id)
    (hsnapshot : joined.channel.id = joined.id) (focused : Option UInt8) :
    ({ chat with channels := chat.channels ++ [joined], focusedChannel := focused } :
      ChatState).Numbered where
  apart := nodup_keys_append h.apart (byKey_eq_none.2 hfresh)
  snapshot other hother := by
    rcases List.mem_append.1 hother with hother | hother
    · exact h.snapshot other hother
    · rw [List.mem_singleton.1 hother]
      exact hsnapshot

/-- A channel that is reserved is not announced yet. -/
theorem told_reserveChannel {chat : ChatState} (h : chat.Numbered) (channelId : List UInt8)
    (name : String) : Told chat [] (reserveChannel channelId name chat).2 := by
  unfold reserveChannel
  rw [bind_apply, read_apply]
  dsimp only
  cases chat.channels.find? (·.channelId = channelId) with
  | some channel => exact told_of_shapes h rfl
  | none =>
    dsimp only
    rw [bind_apply, ofExcept_apply]
    cases hid : chat.allocateChannelId with
    | error error => exact told_of_shapes h rfl
    | ok id =>
      refine ⟨numbered_push h (allocateChannelId_fresh hid) rfl _, fun k => ?_⟩
      dsimp only
      rw [bind_apply]
      simp [mem_openIds]

/-- What is found in a list splits it. -/
theorem modifyFirst_of_find {α : Type*} {p : α → Bool} {f : α → α} {items : List α} {found : α}
    (h : items.find? p = some found) :
    ∃ front back, items = front ++ found :: back ∧
      modifyFirst p f items = front ++ f found :: back := by
  induction items with
  | nil => cases h
  | cons first items ih =>
    by_cases hp : p first = true
    · obtain rfl : first = found := by simpa [hp] using h
      exact ⟨[], items, rfl, by simp [modifyFirst, hp]⟩
    · obtain ⟨front, back, rfl, hmodify⟩ := ih (by simpa [hp] using h)
      exact ⟨first :: front, back, rfl, by simp [modifyFirst, hp, hmodify]⟩

/-- Naming and filling a channel announces it. -/
theorem told_filled {chat : ChatState} (h : chat.Numbered) {parsed : ParsedChannel}
    {joined : JoinedChannel}
    (hfind : chat.channels.find? (·.channelId = parsed.channelId) = some joined) :
    Told chat (if joined.announced then []
        else [.channelJoined joined.id parsed.name parsed.members.length])
      { chat with channels :=
          modifyFirst (·.channelId = parsed.channelId) (·.filled parsed) chat.channels } := by
  obtain ⟨front, back, hsplit, hmodify⟩ := modifyFirst_of_find (f := (·.filled parsed)) hfind
  have hmem : joined ∈ chat.channels := by simp [hsplit]
  have hsame : ∀ other ∈ front ++ joined.filled parsed :: back, other ∈ chat.channels ∨
      other = joined.filled parsed := by
    intro other hother
    rw [hsplit]
    simp only [List.mem_append, List.mem_cons] at hother ⊢
    tauto
  have hopen (k : UInt8) :
      k ∈ ({ chat with channels := front ++ joined.filled parsed :: back } : ChatState).openIds ↔
        k ∈ chat.openIds ∨ k = joined.id := by
    simp only [mem_openIds]
    constructor
    · intro hk
      obtain ⟨other, hother, hannounced, rfl⟩ := hk
      rcases hsame other hother with hother | rfl
      · exact .inl ⟨other, hother, hannounced, rfl⟩
      · exact .inr rfl
    · intro hk
      rcases hk with ⟨other, hother, hannounced, rfl⟩ | rfl
      · rw [hsplit] at hother
        simp only [List.mem_append, List.mem_cons] at hother
        rcases hother with hother | rfl | hother
        · exact ⟨other, by simp [hother], hannounced, rfl⟩
        · exact ⟨other.filled parsed, by simp, rfl, rfl⟩
        · exact ⟨other, by simp [hother], hannounced, rfl⟩
      · exact ⟨joined.filled parsed, by simp, rfl, rfl⟩
  rw [hmodify]
  refine ⟨⟨?_, fun other hother => ?_⟩, ?_⟩
  · have hapart := h.apart
    rw [hsplit, List.map_append, List.map_cons] at hapart
    rw [List.map_append, List.map_cons]
    exact hapart
  · rcases hsame other hother with hother | rfl
    · exact h.snapshot other hother
    · exact h.snapshot joined hmem
  cases hannounced : joined.announced with
  | true =>
    intro k
    refine (hopen k).trans ⟨fun hk => ?_, .inl⟩
    rcases hk with hk | rfl
    · exact hk
    · exact mem_openIds.2 ⟨joined, hmem, hannounced, rfl⟩
  | false =>
    refine ⟨fun hjoined => ?_, hopen⟩
    obtain ⟨other, hother, hother', hid⟩ := mem_openIds.1 hjoined
    obtain rfl : other = joined := List.inj_on_of_nodup_map h.apart hother hmem hid
    rw [hannounced] at hother'
    cases hother'

theorem told_applyChannel {chat : ChatState} (h : chat.Numbered) (parsed : ParsedChannel) :
    match applyChannel parsed chat with
    | (.ok applied, chat') => Told chat (if applied.2 then
        [.channelJoined applied.1 parsed.name parsed.members.length] else []) chat'
    | (.error _, chat') => chat' = chat := by
  unfold applyChannel
  rw [bind_apply, read_apply]
  dsimp only
  cases hfind : chat.channels.find? (·.channelId = parsed.channelId) with
  | some joined =>
    have htold := told_filled h hfind
    cases hannounced : joined.announced with
    | true => simpa [hannounced, bind_apply] using htold
    | false => simpa [hannounced, bind_apply] using htold
  | none =>
    dsimp only
    rw [bind_apply, ofExcept_apply]
    cases hid : chat.allocateChannelId with
    | error error => rfl
    | ok id =>
      have hfresh := allocateChannelId_fresh hid
      refine ⟨numbered_push h hfresh rfl _, fun hmem => ?_, fun k => ?_⟩
      · obtain ⟨joined, hjoined, -, hk⟩ := mem_openIds.1 hmem
        exact hfresh joined hjoined hk
      · simp only [mem_openIds, List.mem_append, List.mem_singleton, OpenAfter]
        constructor
        · intro hk
          obtain ⟨joined, hjoined | rfl, hannounced, rfl⟩ := hk
          · exact .inl ⟨joined, hjoined, hannounced, rfl⟩
          · exact .inr rfl
        · intro hk
          rcases hk with ⟨joined, hjoined, hannounced, rfl⟩ | rfl
          · exact ⟨joined, .inl hjoined, hannounced, rfl⟩
          · exact ⟨_, .inr rfl, rfl, rfl⟩

/-- A channel that is removed is told to be left, even one that was not announced. -/
theorem told_removeChannel {chat : ChatState} (h : chat.Numbered) (id : UInt8) :
    match chat.removeChannel id with
    | (some removed, chat') => removed.id = id ∧ Told chat [.channelLeft id] chat'
    | (none, chat') => chat' = chat ∧ id ∉ chat.openIds := by
  unfold removeChannel
  cases hfind : chat.channel id with
  | none =>
    refine ⟨rfl, fun hmem => ?_⟩
    obtain ⟨joined, hjoined, -, hid⟩ := mem_openIds.1 hmem
    simp only [channel, List.find?_eq_none, decide_eq_true_eq] at hfind
    exact hfind joined hjoined hid
  | some removed =>
    have herase : withoutFirst id chat.channels = chat.channels.filter (·.id ≠ id) :=
      eraseP_eq_filter h.apart
    refine ⟨by simpa using List.find?_some hfind, ⟨?_, fun joined hjoined => ?_⟩, trivial,
      fun k => ?_⟩
    · dsimp only
      rw [herase]
      exact nodup_keys_filter h.apart _
    · dsimp only at hjoined
      rw [herase] at hjoined
      exact h.snapshot joined (List.mem_filter.1 hjoined).1
    · simp only [mem_openIds, herase, List.mem_filter, decide_eq_true_eq, OpenAfter]
      constructor
      · intro hk
        obtain ⟨joined, ⟨hjoined, hne⟩, hannounced, rfl⟩ := hk
        exact ⟨⟨joined, hjoined, hannounced, rfl⟩, hne⟩
      · intro hk
        obtain ⟨⟨joined, hjoined, hannounced, rfl⟩, hne⟩ := hk
        exact ⟨joined, ⟨hjoined, hne⟩, hannounced, rfl⟩

/-! ## Callbacks -/

theorem shapes_withMembers (chat : ChatState) (id : UInt8)
    (f : List ChatMember → List ChatMember) : (chat.withMembers id f).shapes = chat.shapes :=
  map_modifyFirst_of_eq (by intro joined; rfl) chat.channels

theorem shapes_applyPresences (body : List UInt8) (channels : List JoinedChannel) :
    (applyPresences body channels).2.map (·.shape) = channels.map (·.shape) := by
  induction channels with
  | nil => rfl
  | cons current channels ih =>
    dsimp only [applyPresences]
    split
    · rfl
    · simp [JoinedChannel.shape] at ih ⊢
      exact ih

theorem keeps_onChannels (body : List UInt8) :
    Within (Keeps shapes) (onChannels (applyPresences body)) :=
  fun chat => shapes_applyPresences body chat.channels

/-- A batch of presences keeps what each of them keeps. -/
theorem keeps_applyPresenceBatch {τ : Type} {view : ChatState → τ}
    (h : ∀ update, Within (Keeps view) (onChannels (applyPresences update))) (body : List UInt8) :
    Within (Keeps view) (applyPresenceBatch body) := by
  refine within_each (fun item => within_bind (within_ofExcept _) fun update => ?_) _
  cases update with
  | none => exact within_pure ()
  | some update => exact h update

/-- What friends and names do not matter for. -/
def rooms (chat : ChatState) : List JoinedChannel × Option UInt8 :=
  (chat.channels, chat.focusedChannel)

theorem keeps_applyFriendUpdate (changed : Bool) (update : FriendUpdate) :
    Within (Keeps rooms) (applyFriendUpdate changed update) := by
  cases update with
  | remove accountId =>
    exact within_bind within_read fun _ => within_bind (within_change fun _ => rfl) fun _ =>
      within_pure _
  | upsert friend =>
    refine within_bind (within_change fun _ => rfl) fun _ => within_bind within_read fun _ => ?_
    exact within_ite (within_bind (within_change fun _ => rfl) fun _ => within_pure _)
      (within_pure _)

theorem keeps_applyFriendUpdates (changed : Bool) (items : List (Except Error Wire.Field)) :
    Within (Keeps rooms) (applyFriendUpdates changed items) := by
  induction items generalizing changed with
  | nil => exact within_pure changed
  | cons item items ih =>
    refine within_bind (within_ofExcept _) fun update => ?_
    cases update with
    | none => exact ih changed
    | some update =>
      exact within_bind (within_ofExcept _) fun update =>
        within_bind (keeps_applyFriendUpdate changed update) fun changed => ih changed

theorem keeps_applyBatchFriendUpdated (body : List UInt8) :
    Within (Keeps rooms) (applyBatchFriendUpdated body) := by
  refine within_bind (keeps_applyFriendUpdates false _) fun changed => ?_
  exact within_ite (within_change fun _ => rfl) (within_pure ())

/-- What the event of a callback tells. -/
def CallbackTells (x : Chat (Option ChatEvent)) : Prop := ∀ chat : ChatState, chat.Numbered →
  match x chat with
  | (.ok event, chat') => Told chat event.toList chat'
  | (.error _, chat') => Told chat [] chat'

/-- An event that neither joins nor leaves. -/
def Quiet : ChatEvent → Prop
  | .channelJoined .. => False
  | .channelLeft _ => False
  | _ => True

theorem Told.of_isQuiet {chat chat' : ChatState} (h : Told chat [] chat') {event : ChatEvent}
    (hquiet : Quiet event) : Told chat [event] chat' := by
  cases event with
  | channelJoined => exact hquiet.elim
  | channelLeft => exact hquiet.elim
  | _ => exact h.of_quiet trivial fun _ => Iff.rfl

/-- A callback that keeps the shapes and gives no event of a hall. -/
theorem callbackTells_of_keeps {x : Chat (Option ChatEvent)} (hkeeps : Within (Keeps shapes) x)
    (hyields : Yields (fun event => ∀ e, event = some e → Quiet e) x) : CallbackTells x := by
  intro chat h
  have hshapes := hkeeps chat
  have hquiet := hyields chat
  rcases hx : x chat with ⟨error | event, chat'⟩
  · rw [hx] at hshapes
    exact told_of_shapes h hshapes
  · rw [hx] at hshapes
    have htold := told_of_shapes h hshapes
    cases event with
    | none => exact htold
    | some event => exact htold.of_isQuiet (hquiet _ _ hx event rfl)

variable (casing : Casing)

theorem tells_onChannelAdded (body : List UInt8) : CallbackTells (onChannelAdded casing body) := by
  intro chat h
  unfold onChannelAdded
  rw [bind_apply, ofExcept_apply]
  cases parseChannelAdded casing body with
  | error error => exact told_of_shapes h rfl
  | ok parsed =>
    have happlied := told_applyChannel h parsed
    dsimp only
    rw [bind_apply]
    rcases hx : applyChannel parsed chat with ⟨error | applied, chat'⟩
    · rw [hx] at happlied
      obtain rfl := happlied
      exact told_of_shapes h rfl
    · rw [hx] at happlied
      obtain ⟨id, first⟩ := applied
      cases first with
      | true => exact happlied
      | false => exact happlied

theorem tells_onChannelRemoved (body : List UInt8) : CallbackTells (onChannelRemoved body) := by
  intro chat h
  unfold onChannelRemoved
  rw [bind_apply, read_apply]
  dsimp only
  cases chat.callbackChannelId body with
  | none => exact told_of_shapes h rfl
  | some id =>
    have hremoved := told_removeChannel h id
    dsimp only
    rw [bind_apply, take_apply]
    rcases hx : chat.removeChannel id with ⟨removed | removed, chat'⟩
    · rw [hx] at hremoved
      obtain ⟨rfl, -⟩ := hremoved
      exact told_of_shapes h rfl
    · rw [hx] at hremoved
      obtain ⟨rfl, htold⟩ := hremoved
      exact htold

theorem tells_onMemberAdded (body : List UInt8) : CallbackTells (onMemberAdded casing body) := by
  intro chat h
  unfold onMemberAdded
  rw [bind_apply, read_apply]
  dsimp only
  cases chat.callbackChannelId body with
  | none => exact told_of_shapes h rfl
  | some id =>
    dsimp only
    rw [bind_apply, ofExcept_apply]
    cases findMemberInfo body with
    | error error => exact told_of_shapes h rfl
    | ok member =>
      cases member with
      | none => exact told_of_shapes h rfl
      | some member =>
        exact (told_of_shapes h (shapes_withMembers chat id _)).of_isQuiet trivial

theorem tells_onMemberRemoved (body : List UInt8) : CallbackTells (onMemberRemoved body) := by
  intro chat h
  unfold onMemberRemoved
  rw [bind_apply, read_apply]
  dsimp only
  cases chat.callbackChannelId body with
  | none => exact told_of_shapes h rfl
  | some id =>
    dsimp only
    rw [bind_apply, ofExcept_apply]
    cases findMemberName body with
    | error error => exact told_of_shapes h rfl
    | ok name => exact (told_of_shapes h (shapes_withMembers chat id _)).of_isQuiet trivial

theorem tells_onMessageReceived (body : List UInt8) :
    CallbackTells (onMessageReceived body) := by
  intro chat h
  unfold onMessageReceived
  rw [bind_apply, read_apply]
  dsimp only
  cases chat.callbackChannelId body with
  | none => exact told_of_shapes h rfl
  | some id =>
    dsimp only
    rw [bind_apply, ofExcept_apply]
    cases parseChatMessage body with
    | error error => exact told_of_shapes h rfl
    | ok text => exact (told_of_shapes h rfl).of_isQuiet trivial

theorem tells_pure {event : ChatEvent} (hquiet : Quiet event) :
    CallbackTells (pure (some event)) := by
  intro chat h
  exact (told_of_shapes h rfl).of_isQuiet hquiet

theorem tells_onWhisper (body : List UInt8) (outgoing : Bool) :
    CallbackTells (onWhisper body outgoing) := by
  intro chat h
  unfold onWhisper
  rw [bind_apply, ofExcept_apply]
  cases parseWhisper body outgoing with
  | error error => exact told_of_shapes h rfl
  | ok whisper =>
    refine Told.of_isQuiet ?_ trivial
    exact told_of_shapes h rfl

/-- A computation without an event. -/
theorem tells_none {x : Chat Unit} (hkeeps : Within (Keeps shapes) x) :
    CallbackTells (x >>= fun _ => pure none) := by
  refine callbackTells_of_keeps (within_bind hkeeps fun _ => within_pure _) ?_
  refine yields_bind fun _ => yields_pure ?_
  intro event hevent
  cases hevent

theorem tells_onChatCallback (methodId : UInt32) (body : List UInt8) :
    CallbackTells (onChatCallback casing methodId body) := by
  unfold onChatCallback
  split
  · exact tells_pure trivial
  split
  · exact tells_onChannelAdded casing body
  split
  · exact tells_onChannelRemoved body
  split
  · exact tells_onMemberAdded casing body
  split
  · exact tells_onMemberRemoved body
  split
  · exact tells_none (keeps_onChannels body)
  split
  · exact tells_none (keeps_applyPresenceBatch keeps_onChannels body)
  split
  · exact tells_onMessageReceived body
  split
  · exact tells_onWhisper body _
  · intro chat h
    exact told_of_shapes h rfl

/-! ## The dispatch -/

theorem told_dispatchFrom {start chat : ChatState} {events : List ChatEvent}
    (h : Told start events chat) (deferred callbacks : List Callback) :
    Told start (dispatchFrom casing events deferred chat callbacks).events
      (dispatchFrom casing events deferred chat callbacks).chat := by
  induction callbacks generalizing events deferred chat with
  | nil => exact h
  | cons callback callbacks ih =>
    rw [dispatchFrom]
    split
    · split
      · have hshapes := congrArg (fun rooms => rooms.1.map JoinedChannel.shape)
          (keeps_applyBatchFriendUpdated callback.body chat)
        rcases hx : applyBatchFriendUpdated callback.body chat with ⟨error | _, chat'⟩
        · rw [hx] at hshapes
          simpa using h.trans (told_of_shapes h.numbered hshapes)
        · rw [hx] at hshapes
          exact ih (by simpa using h.trans (told_of_shapes h.numbered hshapes)) deferred
      · exact ih h deferred
    split
    · have htold := tells_onChatCallback casing callback.methodId callback.body chat h.numbered
      rcases hx : onChatCallback casing callback.methodId callback.body chat with
        ⟨error | event, chat'⟩
      · rw [hx] at htold
        simpa using h.trans htold
      · rw [hx] at htold
        exact ih (h.trans htold) deferred
    · exact ih h _

/-- Whether it fails or not, the events that a dispatch has gathered tell what it has done. -/
theorem told_dispatch {chat : ChatState} (h : chat.Numbered) (callbacks : List Callback) :
    Told chat (dispatch casing chat callbacks).events (dispatch casing chat callbacks).chat :=
  told_dispatchFrom casing (told_of_shapes h rfl) [] callbacks

/-! ## Snapshots -/

/-- The snapshot of the announced channel of an id. -/
def announced (chat : ChatState) (id : UInt8) : Option ChatChannel :=
  byKey ChatChannel.id id chat.announcedChannels

theorem map_id_announcedChannels {chat : ChatState} (h : chat.Numbered) :
    chat.announcedChannels.map (·.id) = chat.openIds := by
  rw [announcedChannels, openIds, List.map_map]
  refine List.map_congr_left fun joined hjoined => ?_
  exact h.snapshot joined (List.mem_filter.1 hjoined).1

theorem nodup_openIds {chat : ChatState} (h : chat.Numbered) : chat.openIds.Nodup :=
  nodup_keys_filter h.apart _

theorem mem_openIds_iff_announced {chat : ChatState} (h : chat.Numbered) {id : UInt8} :
    id ∈ chat.openIds ↔ ∃ channel, chat.announced id = some channel := by
  rw [← map_id_announcedChannels h, ← Option.isSome_iff_exists, Option.isSome_iff_ne_none, ne_eq,
    announced, byKey_eq_none, List.mem_map]
  push Not
  exact Iff.rfl

end ChatState

end Superiority.Wc3
