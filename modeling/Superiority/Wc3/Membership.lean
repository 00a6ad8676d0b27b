import Superiority.Library.Fallible
import Superiority.Library.Run
import Superiority.Wc3.Announced
import Superiority.Wc3.Queue

/-!
# The chat's memberships

A channel has two ids, the service's and a local one, and its members are told apart by their
identities. `Coherent` says so of every channel, and that the focus is on a channel that is held.

* **`coherent_step`** – every operation keeps it.
* **`removesOnly_iff`** – a MEMBER_REMOVED callback takes members out by their name. It takes out the
  one it identifies, and no other, exactly when that one alone has the name.
* **`mirrors_iff`** – so a run is a mirror of the service exactly when all its removals are such.
-/

namespace Superiority.Wc3

open Stateful
open Scr (firstBytes)
open Wire (Field itemsOf)

namespace ChatState

/-! ## What holds of every state -/

structure Coherent (chat : ChatState) : Prop where
  ids : (chat.channels.map (·.id)).Nodup
  wireIds : (chat.channels.map (·.channelId)).Nodup
  focused : ∀ id, chat.focusedChannel = some id → id ∈ chat.channels.map (·.id)
  members : ∀ joined ∈ chat.channels, (joined.channel.members.map (·.identity)).Nodup

/-- What the members of the channels do not matter for. -/
def keys (chat : ChatState) : List (UInt8 × List UInt8) × Option UInt8 :=
  (chat.channels.map fun joined => (joined.id, joined.channelId), chat.focusedChannel)

theorem coherent_default : default_.Coherent where
  ids := List.nodup_nil
  wireIds := List.nodup_nil
  focused id h := by cases h
  members _ h := by cases h

variable {chat chat' : ChatState}

/-- Other members of the same channels. -/
theorem Coherent.of_keys (h : chat.Coherent) (hkeys : chat'.keys = chat.keys)
    (hmembers : ∀ joined ∈ chat'.channels, (joined.channel.members.map (·.identity)).Nodup) :
    chat'.Coherent := by
  have hpairs := congrArg Prod.fst hkeys
  have hfocused : chat'.focusedChannel = chat.focusedChannel := congrArg Prod.snd hkeys
  have hids : chat'.channels.map (·.id) = chat.channels.map (·.id) := by
    simpa [keys, Function.comp_def] using congrArg (List.map Prod.fst) hpairs
  have hwires : chat'.channels.map (·.channelId) = chat.channels.map (·.channelId) := by
    simpa [keys, Function.comp_def] using congrArg (List.map Prod.snd) hpairs
  constructor
  · rw [hids]
    exact h.ids
  · rw [hwires]
    exact h.wireIds
  · rw [hfocused, hids]
    exact h.focused
  · exact hmembers

/-- Nothing but the channels matters. -/
theorem Coherent.of_same (h : chat.Coherent) (hchannels : chat'.channels = chat.channels)
    (hfocused : chat'.focusedChannel = chat.focusedChannel) : chat'.Coherent :=
  h.of_keys (by rw [keys, keys, hchannels, hfocused]) (hchannels ▸ h.members)

/-! ## Channels -/

/-- A new channel, under ids that are not in use. -/
theorem Coherent.push (h : chat.Coherent) {joined : JoinedChannel} {focused : Option UInt8}
    (hid : ∀ other ∈ chat.channels, other.id ≠ joined.id)
    (hwire : ∀ other ∈ chat.channels, other.channelId ≠ joined.channelId)
    (hmembers : (joined.channel.members.map (·.identity)).Nodup)
    (hfocused : ∀ id, focused = some id →
      id = joined.id ∨ chat.focusedChannel = some id) :
    ({ chat with channels := chat.channels ++ [joined], focusedChannel := focused } :
      ChatState).Coherent where
  ids := nodup_keys_append h.ids (byKey_eq_none.2 hid)
  wireIds := nodup_keys_append h.wireIds (byKey_eq_none.2 hwire)
  focused id hfocus := by
    dsimp only
    rw [List.map_append, List.mem_append]
    rcases hfocused id hfocus with rfl | hold
    · exact .inr (by simp)
    · exact .inl (h.focused id hold)
  members other hother := by
    rcases List.mem_append.1 hother with hother | hother
    · exact h.members other hother
    · rw [List.mem_singleton.1 hother]
      exact hmembers

theorem wire_ne_of_find? {channelId : List UInt8}
    (h : chat.channels.find? (·.channelId = channelId) = none) :
    ∀ other ∈ chat.channels, other.channelId ≠ channelId := by
  simpa using h

theorem coherent_reserveChannel (h : chat.Coherent) (channelId : List UInt8) (name : String) :
    (reserveChannel channelId name chat).2.Coherent := by
  unfold reserveChannel
  rw [bind_apply, read_apply]
  dsimp only
  cases hfind : chat.channels.find? (·.channelId = channelId) with
  | some joined =>
    refine ⟨h.ids, h.wireIds, fun id hfocus => ?_, h.members⟩
    obtain rfl : joined.id = id := Option.some.inj hfocus
    exact List.mem_map_of_mem (List.mem_of_find?_eq_some hfind)
  | none =>
    dsimp only
    rw [bind_apply, ofExcept_apply]
    cases hid : chat.allocateChannelId with
    | error error => exact h
    | ok id =>
      refine h.push (allocateChannelId_fresh hid) (wire_ne_of_find? hfind) List.nodup_nil ?_
      intro focus hfocus
      exact .inl (Option.some.inj hfocus).symm

theorem coherent_applyChannel (h : chat.Coherent) {parsed : ParsedChannel}
    (hparsed : (parsed.members.map (·.identity)).Nodup) :
    (applyChannel parsed chat).2.Coherent := by
  unfold applyChannel
  rw [bind_apply, read_apply]
  dsimp only
  cases hfind : chat.channels.find? (·.channelId = parsed.channelId) with
  | some joined =>
    refine h.of_keys ?_ ?_
    · refine Prod.ext ?_ rfl
      exact map_modifyFirst_of_eq (by intro joined; rfl) chat.channels
    · intro other hother
      obtain ⟨front, back, hsplit, hmodify⟩ := modifyFirst_of_find (f := (·.filled parsed)) hfind
      have hother : other ∈ front ++ joined.filled parsed :: back := by
        rw [← hmodify]
        exact hother
      rcases List.mem_append.1 hother with hfront | hback
      · exact h.members other (by rw [hsplit]; exact List.mem_append_left _ hfront)
      rcases List.mem_cons.1 hback with rfl | hback
      · exact hparsed
      · exact h.members other (by rw [hsplit]; simp [hback])
  | none =>
    dsimp only
    rw [bind_apply, ofExcept_apply]
    cases hid : chat.allocateChannelId with
    | error error => exact h
    | ok id =>
      refine h.push (allocateChannelId_fresh hid) (wire_ne_of_find? hfind) hparsed ?_
      intro focus hfocus
      cases hold : chat.focusedChannel with
      | some old =>
        rw [hold, Option.some_or] at hfocus
        exact .inr hfocus
      | none =>
        rw [hold, Option.none_or] at hfocus
        exact .inl (Option.some.inj hfocus).symm

theorem coherent_removeChannel (h : chat.Coherent) (id : UInt8) :
    (chat.removeChannel id).2.Coherent := by
  unfold removeChannel
  cases chat.channel id with
  | none => exact h
  | some removed =>
    have herase : withoutFirst id chat.channels = chat.channels.filter (·.id ≠ id) :=
      eraseP_eq_filter h.ids
    dsimp only
    rw [herase]
    constructor
    · exact nodup_keys_filter h.ids _
    · exact nodup_keys_filter h.wireIds _
    · intro focus hfocus
      dsimp only at hfocus
      split_ifs at hfocus with hwas
      · obtain ⟨last, hlast, rfl⟩ := Option.map_eq_some_iff.1 hfocus
        exact List.mem_map_of_mem (List.mem_reverse.1 (List.mem_of_find?_eq_some hlast))
      · obtain ⟨joined, hjoined, rfl⟩ := List.mem_map.1 (h.focused focus hfocus)
        refine List.mem_map_of_mem (List.mem_filter.2 ⟨hjoined, ?_⟩)
        rw [decide_eq_true_eq]
        intro heq
        exact hwas (heq ▸ hfocus)
    · intro joined hjoined
      exact h.members joined (List.mem_filter.1 hjoined).1

/-! ## Members -/

theorem mem_modifyFirst {α : Type*} {p : α → Bool} {f : α → α} {items : List α} {a : α}
    (h : a ∈ modifyFirst p f items) : a ∈ items ∨ ∃ b ∈ items, p b = true ∧ a = f b := by
  induction items with
  | nil => cases h
  | cons b items ih =>
    rw [modifyFirst] at h
    split at h
    · next hp =>
      rcases List.mem_cons.1 h with rfl | hitems
      · exact .inr ⟨b, List.mem_cons_self, hp, rfl⟩
      · exact .inl (List.mem_cons_of_mem _ hitems)
    · rcases List.mem_cons.1 h with rfl | hitems
      · exact .inl List.mem_cons_self
      · rcases ih hitems with hmem | ⟨c, hc, hp, rfl⟩
        · exact .inl (List.mem_cons_of_mem _ hmem)
        · exact .inr ⟨c, List.mem_cons_of_mem _ hc, hp, rfl⟩

theorem keys_withMembers (chat : ChatState) (id : UInt8) (f : List ChatMember → List ChatMember) :
    (chat.withMembers id f).keys = chat.keys :=
  Prod.ext (map_modifyFirst_of_eq (by intro joined; rfl) chat.channels) rfl

/-- Members that are changed stay apart. -/
theorem Coherent.withMembers (h : chat.Coherent) (id : UInt8)
    {f : List ChatMember → List ChatMember}
    (hf : ∀ members, (members.map (·.identity)).Nodup → ((f members).map (·.identity)).Nodup) :
    (chat.withMembers id f).Coherent := by
  refine h.of_keys (keys_withMembers chat id f) fun joined hjoined => ?_
  rcases mem_modifyFirst hjoined with hold | ⟨other, hother, -, rfl⟩
  · exact h.members joined hold
  · exact hf _ (h.members other hother)

theorem nodup_sortMembers (casing : Casing) {members : List ChatMember}
    (h : (members.map (·.identity)).Nodup) :
    ((sortMembers casing members).map (·.identity)).Nodup :=
  ((List.mergeSort_perm members _).map _).nodup_iff.2 h

/-- A member with another identity joins. -/
theorem nodup_push {members : List ChatMember} (h : (members.map (·.identity)).Nodup)
    {member : ChatMember} (hnew : members.any (·.identity = member.identity) = false) :
    ((members ++ [member]).map (·.identity)).Nodup := by
  refine nodup_keys_append h (byKey_eq_none.2 fun other hother heq => ?_)
  have hnot := List.any_eq_false.1 hnew other hother
  exact hnot (by simpa using heq)

theorem readMember_ok {members members' : List ChatMember} {item : Except Error Field}
    (hround : readMember members item = .ok members') : members' = members ∨
      ∃ member, members.any (·.identity = member.identity) = false ∧
        members' = members ++ [member] := by
  obtain ⟨field, -, hround⟩ := except_bind_ok.1 hround
  by_cases hnumber : field.number ≠ 5
  · rw [if_pos hnumber] at hround
    exact .inl (Except.ok.inj hround).symm
  rw [if_neg hnumber] at hround
  obtain ⟨body, -, hround⟩ := except_bind_ok.1 hround
  by_cases hfull : members.length = maxMembers
  · rw [if_pos hfull] at hround
    cases hround
  rw [if_neg hfull] at hround
  obtain ⟨member, -, hround⟩ := except_bind_ok.1 hround
  have hround := Except.ok.inj hround
  split_ifs at hround with hany
  · exact .inl hround.symm
  · exact .inr ⟨member, Bool.eq_false_iff.2 hany, hround.symm⟩

theorem nodup_readMembers {items : List (Except Error Field)} {members read : List ChatMember}
    (h : (members.map (·.identity)).Nodup) (hread : items.foldlM readMember members = .ok read) :
    (read.map (·.identity)).Nodup := by
  induction items generalizing members with
  | nil =>
    obtain rfl := Except.ok.inj hread
    exact h
  | cons item items ih =>
    rw [List.foldlM_cons, except_bind_ok] at hread
    obtain ⟨members', hround, hread⟩ := hread
    rcases readMember_ok hround with rfl | ⟨member, hnew, rfl⟩
    · exact ih h hread
    · exact ih (nodup_push h hnew) hread

/-- **The members of a channel that is read are apart.** -/
theorem nodup_parseChannelAdded {casing : Casing} {body : List UInt8} {parsed : ParsedChannel}
    (h : parseChannelAdded casing body = .ok parsed) :
    (parsed.members.map (·.identity)).Nodup := by
  obtain ⟨info, -, h⟩ := except_bind_ok.1 h
  obtain ⟨channelId, -, h⟩ := except_bind_ok.1 h
  obtain ⟨name, -, h⟩ := except_bind_ok.1 h
  obtain ⟨name, -, h⟩ := except_bind_ok.1 h
  obtain ⟨members, hread, h⟩ := except_bind_ok.1 h
  obtain rfl := Except.ok.inj h
  have hnil : (([] : List ChatMember).map (·.identity)).Nodup := List.nodup_nil
  exact nodup_sortMembers casing (nodup_readMembers hnil hread)

/-! ## Presences -/

theorem keeps_updateMember (body : List UInt8) :
    Within (Keeps ChatMember.identity) (updateMember body) := by
  dsimp only [updateMember]
  have hstatus (status : List UInt8) : Within (Keeps ChatMember.identity) (do
      let presence ← ofExcept (parsePresence status)
      change fun member => { member with presence := presence }) :=
    within_bind (within_ofExcept _) fun _ => within_change fun _ => rfl
  have hclan {x : Stateful ChatMember Error (Option String)}
      (hx : Within (Keeps ChatMember.identity) x) {last : Stateful ChatMember Error Unit}
      (hlast : Within (Keeps ChatMember.identity) last) : Within (Keeps ChatMember.identity) (do
        let clan ← x
        change fun member => { member with clanAbbreviation := clan }
        last) :=
    within_bind hx fun _ => within_bind (within_change fun _ => rfl) fun _ => hlast
  rcases firstBytes body 4 with _ | avatarId
  on_goal 2 => refine within_bind (within_ofExcept _) fun avatarId =>
    within_bind (within_change fun _ => rfl) fun _ => ?_
  all_goals
    rcases firstBytes body 5 with _ | clan
    · rcases firstBytes body 9 with _ | status
      · exact within_pure ()
      · exact hstatus status
    · rcases firstBytes body 9 with _ | status
      · exact within_ite (hclan (within_pure _) (within_pure ()))
          (hclan (within_ofExcept _) (within_pure ()))
      · exact within_ite (hclan (within_pure _) (hstatus status))
          (hclan (within_ofExcept _) (hstatus status))

/-- Whom the members of a channel are. -/
def face (joined : JoinedChannel) : UInt8 × List UInt8 × List ChatMemberIdentity :=
  (joined.id, joined.channelId, joined.channel.members.map (·.identity))

/-- What presences do not matter for. -/
def roll (chat : ChatState) :
    List (UInt8 × List UInt8 × List ChatMemberIdentity) × Option UInt8 :=
  (chat.channels.map face, chat.focusedChannel)

theorem Coherent.of_roll (h : chat.Coherent) (hroll : chat'.roll = chat.roll) :
    chat'.Coherent := by
  have hfaces : chat'.channels.map face = chat.channels.map face := congrArg Prod.fst hroll
  have hfocused : chat'.focusedChannel = chat.focusedChannel := congrArg Prod.snd hroll
  refine h.of_keys (Prod.ext ?_ hfocused) fun joined hjoined => ?_
  · have hpairs := congrArg (List.map fun face => (face.1, face.2.1)) hfaces
    rwa [List.map_map, List.map_map] at hpairs
  · have hmem : face joined ∈ chat.channels.map face := hfaces ▸ List.mem_map_of_mem hjoined
    obtain ⟨other, hother, heq⟩ := List.mem_map.1 hmem
    have hmembers : other.channel.members.map (·.identity) =
        joined.channel.members.map (·.identity) := congrArg (·.2.2) heq
    rw [← hmembers]
    exact h.members other hother

theorem identity_modifyMember {x : Stateful ChatMember Error Unit}
    (hx : Within (Keeps ChatMember.identity) x) (identity : ChatMemberIdentity)
    (members : List ChatMember) :
    (modifyMember identity x members).2.map (·.identity) = members.map (·.identity) := by
  unfold modifyMember
  cases hfind : members.find? (·.identity = identity) with
  | none => rfl
  | some member =>
    obtain ⟨front, back, hsplit, hmodify⟩ := modifyFirst_of_find (f := fun _ => (x member).2) hfind
    have hkept : (x member).2.identity = member.identity := hx member
    dsimp only
    rw [hmodify, hsplit]
    simp [hkept]

theorem identity_applyMemberPresence (body : List UInt8) (members : List ChatMember) :
    (applyMemberPresence body members).2.map (·.identity) = members.map (·.identity) := by
  have hwithin : Within (Keeps (List.map ChatMember.identity)) (applyMemberPresence body) := by
    refine within_ite (within_pure ()) (within_bind (within_ofExcept _) fun _ =>
      within_bind (within_ofExcept _) fun identity => ?_)
    exact fun members => identity_modifyMember (keeps_updateMember body) identity members
  exact hwithin members

theorem face_applyPresences (body : List UInt8) (channels : List JoinedChannel) :
    (applyPresences body channels).2.map face = channels.map face := by
  induction channels with
  | nil => rfl
  | cons current channels ih =>
    have hkept := identity_applyMemberPresence body current.channel.members
    rw [applyPresences]
    rcases hx : applyMemberPresence body current.channel.members with ⟨error | _, members⟩
    · rw [hx] at hkept
      simp only [List.map_cons, face, hkept]
    · rw [hx] at hkept
      simp only [List.map_cons, face, hkept]
      rw [ih]

theorem keeps_roll_onChannels (body : List UInt8) :
    Within (Keeps roll) (onChannels (applyPresences body)) :=
  fun chat => Prod.ext (face_applyPresences body chat.channels) rfl

/-! ## Callbacks -/

variable (casing : Casing)

theorem coherent_of_keeps {α : Type} {x : Chat α} (hx : Within (Keeps roll) x)
    (h : chat.Coherent) : (x chat).2.Coherent := h.of_roll (hx chat)

theorem coherent_onChannelAdded (h : chat.Coherent) (body : List UInt8) :
    (onChannelAdded casing body chat).2.Coherent := by
  unfold onChannelAdded
  rw [bind_apply, ofExcept_apply]
  cases hparse : parseChannelAdded casing body with
  | error error => exact h
  | ok parsed =>
    have happlied := coherent_applyChannel h (nodup_parseChannelAdded hparse)
    dsimp only
    rw [bind_apply]
    rcases hx : applyChannel parsed chat with ⟨error | applied, chat'⟩
    · rwa [hx] at happlied
    · rwa [hx] at happlied

theorem coherent_onChannelRemoved (h : chat.Coherent) (body : List UInt8) :
    (onChannelRemoved body chat).2.Coherent := by
  unfold onChannelRemoved
  rw [bind_apply, read_apply]
  dsimp only
  cases chat.callbackChannelId body with
  | none => exact h
  | some id => exact coherent_removeChannel h id

theorem coherent_onMemberAdded (h : chat.Coherent) (body : List UInt8) :
    (onMemberAdded casing body chat).2.Coherent := by
  unfold onMemberAdded
  rw [bind_apply, read_apply]
  dsimp only
  cases chat.callbackChannelId body with
  | none => exact h
  | some id =>
    dsimp only
    rw [bind_apply, ofExcept_apply]
    cases findMemberInfo body with
    | error error => exact h
    | ok member =>
      cases member with
      | none => exact h
      | some member =>
        refine Coherent.withMembers (f := fun members =>
          if members.any (·.identity = member.identity) then members
          else sortMembers casing (members ++ [member])) h id fun members hmembers => ?_
        split
        · exact hmembers
        · next hnew =>
          exact nodup_sortMembers casing (nodup_push hmembers (Bool.eq_false_iff.2 hnew))

/-- What a MEMBER_REMOVED callback leaves. -/
theorem onMemberRemoved_state (body : List UInt8) (chat : ChatState) :
    (onMemberRemoved body chat).2 =
      match chat.callbackChannelId body, findMemberName body with
      | some id, .ok (some name) => chat.withMembers id (·.filter (·.name ≠ name))
      | some id, .ok none => chat.withMembers id fun members => members
      | _, _ => chat := by
  unfold onMemberRemoved
  rw [bind_apply, read_apply]
  dsimp only
  cases chat.callbackChannelId body with
  | none => rfl
  | some id =>
    dsimp only
    rw [bind_apply, ofExcept_apply]
    cases findMemberName body with
    | error error => rfl
    | ok name => cases name <;> rfl

theorem coherent_onMemberRemoved (h : chat.Coherent) (body : List UInt8) :
    (onMemberRemoved body chat).2.Coherent := by
  rw [onMemberRemoved_state]
  split
  · exact h.withMembers _ fun members hmembers => nodup_keys_filter hmembers _
  · exact h.withMembers _ fun members hmembers => hmembers
  · exact h

theorem coherent_onChatCallback (h : chat.Coherent) (methodId : UInt32) (body : List UInt8) :
    (onChatCallback casing methodId body chat).2.Coherent := by
  unfold onChatCallback
  split
  · exact h
  split
  · exact coherent_onChannelAdded casing h body
  split
  · exact coherent_onChannelRemoved h body
  split
  · exact coherent_onMemberAdded casing h body
  split
  · exact coherent_onMemberRemoved h body
  split
  · exact coherent_of_keeps (within_bind (keeps_roll_onChannels body) fun _ => within_pure _) h
  split
  · exact coherent_of_keeps (within_bind (keeps_applyPresenceBatch keeps_roll_onChannels body)
      fun _ => within_pure _) h
  split
  · refine coherent_of_keeps ?_ h
    refine within_bind within_read fun chat => ?_
    cases chat.callbackChannelId body with
    | none => exact within_pure _
    | some id => exact within_bind (within_ofExcept _) fun _ => within_pure _
  split
  · refine coherent_of_keeps ?_ h
    exact within_bind (within_ofExcept _) fun _ => within_bind within_read fun _ =>
      within_bind (within_change fun _ => rfl) fun _ => within_pure _
  · exact h

theorem coherent_handle (h : chat.Coherent) (callback : Callback) :
    (handle casing callback chat).2.Coherent := by
  unfold handle
  split
  · split
    · have hrooms := within_bind (keeps_applyBatchFriendUpdated callback.body)
        (fun _ => within_pure (none : Option ChatEvent)) chat
      exact h.of_same (congrArg Prod.fst hrooms) (congrArg Prod.snd hrooms)
    · exact h
  split
  · exact coherent_onChatCallback casing h _ _
  · exact h

/-! ## Removals -/

/-- Whether a body identifies the member: by its identity, or by its name when the body holds no
member's info. -/
def identifies (body : List UInt8) (member : ChatMember) : Bool :=
  match findMemberInfo body with
  | .ok (some info) => member.identity = info.identity
  | .ok none =>
    match findInFields nameIn (itemsOf body) with
    | .ok (some name) => member.name = name
    | _ => false
  | .error _ => false

/-- The channel that a body names. -/
def isNamed (body : List UInt8) (joined : JoinedChannel) : Bool :=
  firstBytes body 1 = some joined.channelId

/-- A channel without some of its members. -/
def without (p : ChatMember → Bool) (joined : JoinedChannel) : JoinedChannel :=
  { joined with channel :=
    { joined.channel with members := joined.channel.members.filter (!p ·) } }

/-- The member that the body identifies is taken out of the channel that it names, no more than one
of them, and nothing else changes. -/
structure RemovesOnly (body : List UInt8) (chat chat' : ChatState) : Prop where
  channels : chat'.channels = chat.channels.map fun joined =>
    if isNamed body joined then without (identifies body) joined else joined
  one : ∀ joined ∈ chat.channels, isNamed body joined = true →
    (joined.channel.members.filter (identifies body)).length ≤ 1
  focused : chat'.focusedChannel = chat.focusedChannel

/-- Of the members of the channel that the body names, those of the name that it holds are those
that it identifies, and they are no more than one. -/
def NamesOne (body : List UInt8) (chat : ChatState) : Prop :=
  ∀ joined ∈ chat.channels, isNamed body joined = true →
    (∀ member ∈ joined.channel.members,
      findMemberName body = .ok (some member.name) ↔ identifies body member = true) ∧
    (joined.channel.members.filter (identifies body)).length ≤ 1

/-- Whether a body holds the name of the member. -/
def holdsName (body : List UInt8) (member : ChatMember) : Bool :=
  findMemberName body = .ok (some member.name)

/-- Channels of which the first that is found is changed, when no other would be. -/
theorem modifyFirst_eq_map {α κ : Type*} [DecidableEq κ] {key : α → κ} {k : κ} {items : List α}
    (hnodup : (items.map key).Nodup) (f : α → α) :
    modifyFirst (key · = k) f items = items.map fun a => if key a = k then f a else a := by
  induction items with
  | nil => rfl
  | cons a items ih =>
    rw [List.map_cons, List.nodup_cons] at hnodup
    rw [modifyFirst, List.map_cons]
    by_cases hkey : key a = k
    · have hrest : items.map (fun b => if key b = k then f b else b) = items.map id := by
        refine List.map_congr_left fun b hb => if_neg fun hb' => hnodup.1 ?_
        rw [hkey, ← hb']
        exact List.mem_map_of_mem hb
      rw [if_pos (by simpa using hkey), if_pos hkey, hrest, List.map_id]
    · rw [if_neg (by simpa using hkey), if_neg hkey, ih hnodup.2]

theorem without_eq_self {p : ChatMember → Bool} {joined : JoinedChannel}
    (h : ∀ member ∈ joined.channel.members, p member = false) : without p joined = joined := by
  have hall : joined.channel.members.filter (!p ·) = joined.channel.members :=
    List.filter_eq_self.2 fun member hmember => by rw [h member hmember]; rfl
  rw [without, hall]

/-- The named channel is the one that is found. -/
theorem callbackChannelId_cases (h : chat.Coherent) (body : List UInt8) :
    match chat.callbackChannelId body with
    | some id => ∀ joined ∈ chat.channels, joined.id = id ↔ isNamed body joined = true
    | none => ∀ joined ∈ chat.channels, isNamed body joined = false := by
  unfold callbackChannelId
  cases hwire : firstBytes body 1 with
  | none => simp [isNamed, hwire]
  | some wireId =>
    rw [Option.bind_some]
    cases hfind : chat.channels.find? (·.channelId = wireId) with
    | none =>
      intro joined hjoined
      have hne := wire_ne_of_find? hfind joined hjoined
      simp [isNamed, hwire, Ne.symm hne]
    | some found =>
      have hmem := List.mem_of_find?_eq_some hfind
      have hfound : found.channelId = wireId := by simpa using List.find?_some hfind
      intro joined hjoined
      dsimp only
      rw [isNamed, hwire, decide_eq_true_eq, Option.some.injEq, ← hfound]
      constructor
      · intro hid
        rw [List.inj_on_of_nodup_map h.ids hjoined hmem hid]
      · intro hchannel
        rw [List.inj_on_of_nodup_map h.wireIds hjoined hmem hchannel.symm]

/-- **What is taken out**: of the channel that the body names, the members of the name it holds. -/
theorem channels_onMemberRemoved (h : chat.Coherent) (body : List UInt8) :
    (onMemberRemoved body chat).2.channels = chat.channels.map fun joined =>
      if isNamed body joined then without (holdsName body) joined else joined := by
  have hnamed := callbackChannelId_cases h body
  -- nobody is taken out of a channel that is not named, or when no name is held
  have hsame (hnone : ∀ joined ∈ chat.channels, isNamed body joined = true →
      ∀ member ∈ joined.channel.members, holdsName body member = false) :
      chat.channels = chat.channels.map fun joined =>
        if isNamed body joined then without (holdsName body) joined else joined := by
    conv_lhs => rw [← List.map_id chat.channels]
    refine List.map_congr_left fun joined hjoined => ?_
    split_ifs with his
    · exact (without_eq_self (hnone joined hjoined his)).symm
    · rfl
  rw [onMemberRemoved_state]
  cases hid : chat.callbackChannelId body with
  | none =>
    rw [hid] at hnamed
    refine hsame fun joined hjoined his => ?_
    rw [hnamed joined hjoined] at his
    cases his
  | some id =>
    rw [hid] at hnamed
    cases hname : findMemberName body with
    | error error => exact hsame fun _ _ _ member _ => by simp [holdsName, hname]
    | ok name =>
      have hmap (f : List ChatMember → List ChatMember) :
          (chat.withMembers id f).channels = chat.channels.map fun joined =>
            if isNamed body joined then { joined with channel :=
              { joined.channel with members := f joined.channel.members } } else joined := by
        refine (modifyFirst_eq_map h.ids _).trans (List.map_congr_left fun joined hjoined => ?_)
        by_cases his : isNamed body joined = true
        · rw [if_pos his, if_pos ((hnamed joined hjoined).2 his)]
        · rw [if_neg his, if_neg fun heq => his ((hnamed joined hjoined).1 heq)]
      cases name with
      | none =>
        dsimp only
        rw [hmap]
        refine List.map_congr_left fun joined hjoined => ?_
        rw [without_eq_self fun member _ => by simp [holdsName, hname]]
      | some name =>
        dsimp only
        rw [hmap]
        refine List.map_congr_left fun joined hjoined => ?_
        have hfilter : joined.channel.members.filter (!holdsName body ·) =
            joined.channel.members.filter (·.name ≠ name) := by
          refine List.filter_congr fun member _ => ?_
          simp [holdsName, hname, eq_comm]
        rw [without, hfilter]

theorem focused_onMemberRemoved (body : List UInt8) (chat : ChatState) :
    (onMemberRemoved body chat).2.focusedChannel = chat.focusedChannel := by
  rw [onMemberRemoved_state]
  split <;> rfl

/-- **The exact condition.** -/
theorem removesOnly_iff (h : chat.Coherent) (body : List UInt8) :
    RemovesOnly body chat (onMemberRemoved body chat).2 ↔ NamesOne body chat := by
  have hheld (member : ChatMember) : holdsName body member = true ↔
      findMemberName body = .ok (some member.name) := decide_eq_true_iff
  constructor
  · intro hremoves joined hjoined his
    refine ⟨fun member hmember => ?_, hremoves.one joined hjoined his⟩
    have hchannels := hremoves.channels
    rw [channels_onMemberRemoved h] at hchannels
    have hsame := List.map_inj_left.1 hchannels joined hjoined
    rw [if_pos his, if_pos his] at hsame
    have hfilters : joined.channel.members.filter (!holdsName body ·) =
        joined.channel.members.filter (!identifies body ·) :=
      congrArg (fun joined => joined.channel.members) hsame
    have hiff : holdsName body member = false ↔ identifies body member = false := by
      have hmem := congrArg (member ∈ ·) hfilters
      simpa [hmember] using hmem
    rw [← hheld]
    cases hleft : holdsName body member <;> cases hright : identifies body member <;>
      simp_all
  · intro hnames
    refine ⟨?_, fun joined hjoined his => (hnames joined hjoined his).2,
      focused_onMemberRemoved body chat⟩
    rw [channels_onMemberRemoved h]
    refine List.map_congr_left fun joined hjoined => ?_
    by_cases his : isNamed body joined = true
    · have hfilter : joined.channel.members.filter (!holdsName body ·) =
          joined.channel.members.filter (!identifies body ·) := by
        refine List.filter_congr fun member hmember => ?_
        have hiff := (hheld member).trans ((hnames joined hjoined his).1 member hmember)
        rw [Bool.eq_iff_iff.2 hiff]
      rw [if_pos his, if_pos his, without, without, hfilter]
    · rw [if_neg his, if_neg his]

/-! ## Runs -/

/-- A channel whose members are apart. -/
def Parsed : Type := { parsed : ParsedChannel // (parsed.members.map (·.identity)).Nodup }

inductive Op where
  | reserveChannel (channelId : List UInt8) (name : String)
  | applyChannel (parsed : Parsed)
  | removeChannel (id : UInt8)
  | callback (callback : Callback)

def step (chat : ChatState) : Op → ChatState
  | .reserveChannel channelId name => (reserveChannel channelId name chat).2
  | .applyChannel parsed => (applyChannel parsed.1 chat).2
  | .removeChannel id => (chat.removeChannel id).2
  | .callback callback => (handle casing callback chat).2

/-- The callbacks of a dispatch are handled one after another, up to the first that fails. -/
theorem dispatch_eq_run (chat : ChatState) (callbacks : List Callback) :
    ∃ handled, handled <+: callbacks ∧
      (dispatch casing chat callbacks).chat = run (step casing) chat (handled.map Op.callback) := by
  have hrun (chat : ChatState) (callbacks : List Callback) :
      run (step casing) chat (callbacks.map Op.callback) = handleAll casing chat callbacks := by
    rw [run, List.foldl_map]
    rfl
  rcases handles_or_fails casing chat callbacks with
    h | ⟨before, callback, behind, rfl, h, hfails⟩
  · exact ⟨callbacks, List.prefix_rfl, by rw [hrun, (dispatch_of_handles h).2.1]⟩
  · refine ⟨before ++ [callback], ⟨behind, by simp⟩, ?_⟩
    rw [(dispatch_of_fails h hfails behind).2.1, hrun, handleAll, handleAll, List.foldl_append]
    rfl

/-- **Every operation keeps the state coherent.** -/
theorem coherent_step (h : chat.Coherent) (op : Op) : (step casing chat op).Coherent := by
  cases op with
  | reserveChannel channelId name => exact coherent_reserveChannel h channelId name
  | applyChannel parsed => exact coherent_applyChannel h parsed.2
  | removeChannel id => exact coherent_removeChannel h id
  | callback callback => exact coherent_handle casing h callback

/-- A removal takes out what it identifies, and only that. -/
def Exact (chat : ChatState) : Op → Prop
  | .callback callback => callback.serviceId = auroraChat → callback.methodId = memberRemoved →
      RemovesOnly callback.body chat (step casing chat (.callback callback))
  | _ => True

/-- A removal names what it identifies, and only that. -/
def Unambiguous (chat : ChatState) : Op → Prop
  | .callback callback => callback.serviceId = auroraChat → callback.methodId = memberRemoved →
      NamesOne callback.body chat
  | _ => True

theorem exact_iff (h : chat.Coherent) (op : Op) :
    Exact casing chat op ↔ Unambiguous chat op := by
  cases op with
  | callback callback =>
    refine imp_congr_right fun hservice => imp_congr_right fun hmethod => ?_
    have hhandle : step casing chat (.callback callback) = (onMemberRemoved callback.body chat).2 := by
      rw [step, handle, if_neg (by rw [hservice]; decide), if_pos hservice, hmethod]
      rfl
    rw [hhandle]
    exact removesOnly_iff h callback.body
  | _ => exact Iff.rfl

/-- **The chat mirrors its memberships.** In every run the ids and the identities are apart and the
focus is on a channel that is held; and every removal of the run takes out the one member that it
identifies exactly when every one names that member and no other. -/
theorem mirrors_iff (ops : List Op) :
    StatesMeet (step casing) Coherent default_ ops ∧
      (StepsMeet (step casing) (Exact casing) default_ ops ↔
        StepsMeet (step casing) Unambiguous default_ ops) := by
  constructor
  · exact statesMeet_of_stepsMeet (C := fun _ _ => True) (fun _ h => h)
      (fun _ op h _ => coherent_step casing h op) coherent_default (stepsMeet_true _ _ ops)
  · exact stepsMeet_congr (A := fun _ _ => True) (fun _ op h _ => exact_iff casing h op)
      (fun _ op h _ _ => coherent_step casing h op) coherent_default (stepsMeet_true _ _ ops)

def namesake (accountId : UInt64) : ChatMember :=
  ⟨7, "A", .online, none, none, ⟨accountId, 1, 1⟩⟩

/-- A channel with two members of one name. -/
def namesakes : Parsed := ⟨⟨[1], "H", [namesake 1, namesake 2]⟩, by decide⟩

/-- The removal of the first of them, by name, handle and identity. -/
def removal : Callback := ⟨auroraChat, memberRemoved,
  [0x0A, 1, 1, 0x12, 15, 0x12, 1, 65, 0x20, 1, 0x30, 7, 0x3A, 6, 8, 1, 0x10, 1, 0x18, 1]⟩

/-- Both of them are taken out. -/
theorem not_exact : ¬ ∀ ops, StepsMeet (step plainCasing) (Exact plainCasing) default_ ops := by
  intro h
  have hremoves := (h [.applyChannel namesakes, .callback removal]).2.1 rfl rfl
  have hlengths := congrArg (List.map fun joined => joined.channel.members.length)
    hremoves.channels
  revert hlengths
  decide +kernel

end ChatState

end Superiority.Wc3
