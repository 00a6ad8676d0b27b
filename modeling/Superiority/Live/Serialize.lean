import Superiority.Library.Fallible
import Superiority.Live.Events
import Superiority.Live.Projector

/-!
# From wire events to checked events

What `serde_json` makes of an `EventDto`, and what the ingest Worker's check makes of that: an
event is accepted exactly when it conforms to the Worker's limits (**`validateEvent_iff`**), and
an accepted event has the fields it was sent with.
-/

namespace Superiority

/-! ## JSON -/

/-- A field that is skipped when there is no value. -/
def optionalField (name : String) (value : Option Js) : List (String × Js) :=
  (value.map (name, ·)).toList

def ChannelRef.toJs (channel : ChannelRef) : Js :=
  .obj (("key", .str channel.key) :: optionalField "name" (channel.name.map .str))

def PortraitRef.toJs (portrait : PortraitRef) : Js :=
  .obj [("t", .ofNat portrait.t.toNat), ("o", .ofNat portrait.o.toNat)]

def UserRef.toJs (user : UserRef) : Js :=
  .obj (("handle", .ofNat user.handle.toNat) ::
    (optionalField "name" (user.name.map .str) ++
      optionalField "clan_tag" (user.clanTag.map .str) ++
      optionalField "presence" (user.presence.map .str) ++
      optionalField "portrait" (user.portrait.map PortraitRef.toJs) ++
      optionalField "is_local" (user.isLocal.map .bool) ++
      optionalField "joined_order" (user.joinedOrder.map .ofNat) ++
      optionalField "avatar" (user.avatar.map .str) ++
      optionalField "is_operator" (user.isOperator.map .bool)))

def MessageSubkind.toJs : MessageSubkind → Js
  | talk => .str "talk"
  | emote => .str "emote"

def NoticeSubkind.toJs : NoticeSubkind → Js
  | broadcast => .str "broadcast"
  | information => .str "information"

namespace EventKind

/-- The tag of the kind. -/
def wireKind : EventKind → WireKind
  | sessionStarted => .sessionStarted
  | syncStarted => .syncStarted
  | sessionSynced => .sessionSynced
  | joined _ => .joined
  | left _ => .left
  | roster .. => .roster
  | memberJoined .. => .memberJoined
  | memberLeft .. => .memberLeft
  | rosterDelta .. => .rosterDelta
  | message .. => .message
  | notice .. => .notice
  | dropped _ => .dropped
  | heartbeat => .heartbeat
  | sessionEnded => .sessionEnded

/-- The fields of the variant. -/
def fields : EventKind → List (String × Js)
  | joined channel | left channel => [("channel", channel.toJs)]
  | roster channel complete count users =>
    [("channel", channel.toJs), ("complete", .bool complete), ("count", .ofNat count),
      ("users", .arr (users.map UserRef.toJs))]
  | memberJoined channel user | memberLeft channel user =>
    [("channel", channel.toJs), ("user", user.toJs)]
  | rosterDelta channel users =>
    [("channel", channel.toJs), ("users", .arr (users.map UserRef.toJs))]
  | message channel subkind sender body =>
    ("channel", channel.toJs) :: (optionalField "subkind" (subkind.map MessageSubkind.toJs) ++
      optionalField "sender" (sender.map UserRef.toJs) ++ [("body", .str body)])
  | notice channel subkind body =>
    [("channel", channel.toJs), ("subkind", subkind.toJs), ("body", .str body)]
  | dropped count => [("count", .ofNat count)]
  | sessionStarted | syncStarted | sessionSynced | heartbeat | sessionEnded => []

/-! The fields by name. -/

def channel? : EventKind → Option ChannelRef
  | joined channel | left channel | roster channel .. | memberJoined channel _
  | memberLeft channel _ | rosterDelta channel _ | message channel .. | notice channel .. =>
    some channel
  | _ => none

def body? : EventKind → Option String
  | message _ _ _ body | notice _ _ body => some body
  | _ => none

def subkind? : EventKind → Option Js
  | message _ subkind _ _ => subkind.map MessageSubkind.toJs
  | notice _ subkind _ => some subkind.toJs
  | _ => none

def sender? : EventKind → Option UserRef
  | message _ _ sender _ => sender
  | _ => none

def user? : EventKind → Option UserRef
  | memberJoined _ user | memberLeft _ user => some user
  | _ => none

def users? : EventKind → Option (List UserRef)
  | roster _ _ _ users | rosterDelta _ users => some users
  | _ => none

def complete? : EventKind → Option Bool
  | roster _ complete _ _ => some complete
  | _ => none

end EventKind

/-- An event, with its kind flattened into it. -/
def EventDto.toJs (dto : EventDto) : Js :=
  .obj (("seq", .ofNat dto.seq) :: ("ts", .ofNat dto.ts) ::
    ("kind", .str dto.kind.wireKind.text) :: dto.kind.fields)

def SessionMeta.toJs (info : SessionMeta) : Js :=
  .obj [("id", .str info.id), ("product", .str info.product),
    ("client_version", .str info.clientVersion), ("started_at", .ofNat info.startedAt)]

/-- `Envelope`. -/
def envelopeJs (info : SessionMeta) (events : List EventDto) : Js :=
  .obj [("v", .ofNat 1), ("session", info.toJs), ("events", .arr (events.map EventDto.toJs))]

/-! ## Reading a field back -/

theorem lookup_optionalField_self (name : String) (value : Option Js)
    (fields : List (String × Js)) :
    (optionalField name value ++ fields).lookup name = value.or (fields.lookup name) := by
  cases value <;> simp [optionalField]

theorem lookup_optionalField_of_ne {name name' : String} (h : (name' == name) = false)
    (value : Option Js) (fields : List (String × Js)) :
    (optionalField name value ++ fields).lookup name' = fields.lookup name' := by
  cases value <;> simp [optionalField, List.lookup_cons, h]

namespace EventDto

variable (dto : EventDto)

theorem get?_seq : dto.toJs.get? "seq" = some (.ofNat dto.seq) := rfl

theorem get?_ts : dto.toJs.get? "ts" = some (.ofNat dto.ts) := by
  simp [toJs, Js.get?, List.lookup_cons]

theorem get?_kind : dto.toJs.get? "kind" = some (.str dto.kind.wireKind.text) := by
  simp [toJs, Js.get?, List.lookup_cons]

theorem get?_channel :
    dto.toJs.get? "channel" = dto.kind.channel?.map ChannelRef.toJs := by
  cases hkind : dto.kind <;>
    simp [toJs, Js.get?, List.lookup_cons, EventKind.fields, EventKind.channel?, hkind]

theorem get?_body : dto.toJs.get? "body" = dto.kind.body?.map .str := by
  cases hkind : dto.kind <;>
    simp [toJs, Js.get?, List.lookup_cons, EventKind.fields, EventKind.body?, hkind,
      lookup_optionalField_of_ne]

theorem get?_subkind : dto.toJs.get? "subkind" = dto.kind.subkind? := by
  cases hkind : dto.kind <;>
    simp [toJs, Js.get?, List.lookup_cons, EventKind.fields, EventKind.subkind?, hkind,
      lookup_optionalField_of_ne, lookup_optionalField_self]

theorem get?_sender : dto.toJs.get? "sender" = dto.kind.sender?.map UserRef.toJs := by
  cases hkind : dto.kind <;>
    simp [toJs, Js.get?, List.lookup_cons, EventKind.fields, EventKind.sender?, hkind,
      lookup_optionalField_of_ne, lookup_optionalField_self]

theorem get?_user : dto.toJs.get? "user" = dto.kind.user?.map UserRef.toJs := by
  cases hkind : dto.kind <;>
    simp [toJs, Js.get?, List.lookup_cons, EventKind.fields, EventKind.user?, hkind,
      lookup_optionalField_of_ne]

theorem get?_users :
    dto.toJs.get? "users" = dto.kind.users?.map fun users => .arr (users.map UserRef.toJs) := by
  cases hkind : dto.kind <;>
    simp [toJs, Js.get?, List.lookup_cons, EventKind.fields, EventKind.users?, hkind,
      lookup_optionalField_of_ne]

theorem get?_complete : dto.toJs.get? "complete" = dto.kind.complete?.map .bool := by
  cases hkind : dto.kind <;>
    simp [toJs, Js.get?, List.lookup_cons, EventKind.fields, EventKind.complete?, hkind,
      lookup_optionalField_of_ne]

end EventDto

/-! ## Conforming events -/

/-- The key is a channel identity of the Worker and the name is short enough. -/
structure ChannelRef.Conforms (channel : ChannelRef) : Prop where
  key : isValidChannelKey channel.key = true
  name : ∀ name ∈ channel.name, utf16Length name ≤ 128

/-- The limits of the Worker on one event. -/
structure EventDto.Conforms (dto : EventDto) : Prop where
  seq : dto.seq ≤ maxSafeInteger
  ts : 0 < dto.ts ∧ dto.ts ≤ maxSafeInteger
  channel : ∀ channel ∈ dto.kind.channel?, channel.Conforms
  body : ∀ body ∈ dto.kind.body?, utf16Length body ≤ maxMessageChars
  users : ∀ users ∈ dto.kind.users?, users.length ≤ maxRosterUsers
  size : stringifiedLength dto.toJs ≤ maxEventJsonChars

instance (channel : ChannelRef) : Decidable channel.Conforms :=
  decidable_of_iff (isValidChannelKey channel.key = true ∧
      ∀ name ∈ channel.name, utf16Length name ≤ 128)
    ⟨fun ⟨key, name⟩ => ⟨key, name⟩, fun ⟨key, name⟩ => ⟨key, name⟩⟩

instance (dto : EventDto) : Decidable dto.Conforms :=
  decidable_of_iff (dto.seq ≤ maxSafeInteger ∧ (0 < dto.ts ∧ dto.ts ≤ maxSafeInteger) ∧
      (∀ channel ∈ dto.kind.channel?, channel.Conforms) ∧
      (∀ body ∈ dto.kind.body?, utf16Length body ≤ maxMessageChars) ∧
      (∀ users ∈ dto.kind.users?, users.length ≤ maxRosterUsers) ∧
      stringifiedLength dto.toJs ≤ maxEventJsonChars)
    ⟨fun ⟨seq, ts, channel, body, users, size⟩ => ⟨seq, ts, channel, body, users, size⟩,
      fun ⟨seq, ts, channel, body, users, size⟩ => ⟨seq, ts, channel, body, users, size⟩⟩

/-- The event as the Worker has it after its check. -/
def EventDto.wire (dto : EventDto) : WireEvent where
  seq := dto.seq
  ts := dto.ts
  kind := dto.kind.wireKind
  channel := dto.kind.channel?.map fun channel => ⟨channel.key, channel.name⟩
  body := dto.kind.body?
  subkind := dto.kind.subkind?
  sender := dto.kind.sender?.map UserRef.toJs
  user := dto.kind.user?.map UserRef.toJs
  users := dto.kind.users?.map (·.map UserRef.toJs)
  complete := dto.kind.complete?.map .bool

theorem validateChannel_toJs (at_ : String) {channel : ChannelRef} (h : channel.Conforms) :
    validateChannel at_ (some channel.toJs) = .ok (some ⟨channel.key, channel.name⟩) := by
  obtain ⟨key, name⟩ := channel
  cases name with
  | none =>
    have hname : List.lookup "name" [("key", Js.str key)] = none := rfl
    simp [validateChannel, ChannelRef.toJs, Js.isRecord, Js.get?, optionalField, h.key, hname]
    rfl
  | some name =>
    have hname := h.name name rfl
    simp [validateChannel, ChannelRef.toJs, Js.isRecord, Js.get?, optionalField, h.key, asString,
      hname, List.lookup_cons]
    rfl

theorem conforms_of_validateChannel {at_ : String} {channel : ChannelRef}
    {checked : Option WireChannel} (h : validateChannel at_ (some channel.toJs) = .ok checked) :
    channel.Conforms := by
  obtain ⟨key, name⟩ := channel
  have hkey : isValidChannelKey key = true := by
    by_contra hkey
    simp [validateChannel, ChannelRef.toJs, Js.isRecord, Js.get?, hkey] at h
    cases h
  refine ⟨hkey, fun text htext => ?_⟩
  obtain rfl : name = some text := htext
  by_contra hname
  simp [validateChannel, ChannelRef.toJs, Js.isRecord, Js.get?, optionalField, hkey, asString,
    hname, List.lookup_cons] at h

theorem validateChannel_iff {at_ : String} {channel : Option ChannelRef}
    {checked : Option WireChannel} :
    validateChannel at_ (channel.map ChannelRef.toJs) = .ok checked ↔
      checked = channel.map (fun channel => ⟨channel.key, channel.name⟩) ∧
        ∀ c ∈ channel, c.Conforms := by
  cases channel with
  | none => exact ⟨fun h => ⟨(Except.ok.inj h).symm, nofun⟩, fun h => by rw [h.1]; rfl⟩
  | some channel =>
    constructor
    · intro h
      have hconforms := conforms_of_validateChannel h
      rw [Option.map_some, validateChannel_toJs at_ hconforms] at h
      exact ⟨(Except.ok.inj h).symm, fun c hc => Option.some.inj hc ▸ hconforms⟩
    · rintro ⟨rfl, h⟩
      exact validateChannel_toJs at_ (h channel rfl)

theorem validateBody_iff {at_ : String} {body checked : Option String} :
    validateBody at_ (body.map .str) = .ok checked ↔
      checked = body ∧ ∀ text ∈ body, utf16Length text ≤ maxMessageChars := by
  cases body with
  | none => simp [validateBody, eq_comm]
  | some text =>
    by_cases hlength : utf16Length text ≤ maxMessageChars
    · simp [validateBody, asString, hlength, eq_comm]
    · simp [validateBody, asString, hlength]

/-- Every kind has the fields that its line needs. -/
theorem validateLine_toJs (at_ : String) (kind : EventKind) :
    validateLine at_ kind.wireKind
      (kind.channel?.map fun channel => ⟨channel.key, channel.name⟩) kind.body? kind.subkind? =
      .ok () := by
  cases kind with
  | message channel subkind sender body => cases subkind with
    | none => rfl
    | some subkind => cases subkind <;> rfl
  | notice channel subkind body => cases subkind <;> rfl
  | _ => rfl

theorem validateUsers_iff {at_ : String} {users : Option (List UserRef)}
    {checked : Option (List Js)} :
    validateUsers at_ (users.map fun users => .arr (users.map UserRef.toJs)) = .ok checked ↔
      checked = users.map (·.map UserRef.toJs) ∧
        ∀ list ∈ users, list.length ≤ maxRosterUsers := by
  cases users with
  | none => simp [validateUsers, eq_comm]
  | some list =>
    by_cases hlength : list.length ≤ maxRosterUsers
    · simp [validateUsers, hlength, not_lt.2 hlength, eq_comm]
    · simp [validateUsers, hlength, not_le.1 hlength]

theorem validateStamp_iff {at_ : String} {dto : EventDto} {stamp : Nat × Nat × WireKind} :
    validateStamp at_ dto.toJs = .ok stamp ↔
      stamp = (dto.seq, dto.ts, dto.kind.wireKind) ∧ dto.seq ≤ maxSafeInteger ∧
        0 < dto.ts ∧ dto.ts ≤ maxSafeInteger := by
  have hkind : asNonEmptyString (some (.str dto.kind.wireKind.text)) 32 =
      some dto.kind.wireKind.text := by
    cases dto.kind.wireKind <;> decide
  by_cases hseq : dto.seq ≤ maxSafeInteger
  · by_cases hts : 0 < dto.ts ∧ dto.ts ≤ maxSafeInteger
    · simp [validateStamp, dto.get?_seq, dto.get?_ts, dto.get?_kind, hseq, hts, hkind, eq_comm]
    · have hint : ¬ (0 < (dto.ts : Int) ∧ (dto.ts : Int) ≤ maxSafeInteger) := by
        exact_mod_cast hts
      have hnone : asPositiveInt (some (.ofNat dto.ts)) = none := if_neg hint
      simp [validateStamp, dto.get?_seq, hseq, dto.get?_ts, hnone, hts]
  · have hint : ¬ (0 ≤ (dto.seq : Int) ∧ (dto.seq : Int) ≤ maxSafeInteger) := fun h =>
      hseq (by exact_mod_cast h.2)
    have hnone : asNonNegativeInt (some (.ofNat dto.seq)) = none := if_neg hint
    simp [validateStamp, dto.get?_seq, hnone, hseq]

/-- **The Worker accepts exactly the conforming events**, and takes them for what they are. -/
theorem validateEvent_iff {dto : EventDto} {index : Nat} {event : WireEvent} :
    validateEvent dto.toJs index = .ok event ↔ dto.Conforms ∧ event = dto.wire := by
  have hrecord : dto.toJs.isRecord = true := rfl
  unfold validateEvent
  simp only [hrecord, dto.get?_channel, dto.get?_body, dto.get?_subkind, dto.get?_users,
    dto.get?_sender, dto.get?_user, dto.get?_complete, if_true, except_bind_ok]
  constructor
  · rintro ⟨stamp, hstamp, channel, hchannel, body, hbody, -, -, users, husers, h⟩
    obtain ⟨rfl, hseq, hts⟩ := validateStamp_iff.1 hstamp
    obtain ⟨rfl, hconforms⟩ := validateChannel_iff.1 hchannel
    obtain ⟨rfl, hlength⟩ := validateBody_iff.1 hbody
    obtain ⟨rfl, hcount⟩ := validateUsers_iff.1 husers
    by_cases hsize : stringifiedLength dto.toJs > maxEventJsonChars
    · rw [if_pos hsize] at h
      cases h
    · rw [if_neg hsize] at h
      exact ⟨⟨hseq, hts, hconforms, hlength, hcount, not_lt.1 hsize⟩, (Except.ok.inj h).symm⟩
  · rintro ⟨h, rfl⟩
    refine ⟨_, validateStamp_iff.2 ⟨rfl, h.seq, h.ts⟩, _, validateChannel_iff.2 ⟨rfl, h.channel⟩,
      _, validateBody_iff.2 ⟨rfl, h.body⟩, (), validateLine_toJs _ _, _,
      validateUsers_iff.2 ⟨rfl, h.users⟩, ?_⟩
    rw [if_neg (not_lt.2 h.size)]
    rfl

/-! ## Users -/

/-- The fields of a user that the Worker would otherwise set to `null`. -/
structure UserRef.FieldsPass (user : UserRef) : Prop where
  name : ∀ name ∈ user.name, utf16Length name ≤ 128
  clanTag : ∀ tag ∈ user.clanTag, utf16Length tag ≤ 32
  presence : ∀ presence ∈ user.presence, utf16Length presence ≤ 16
  joinedOrder : ∀ order ∈ user.joinedOrder, order ≤ maxSafeInteger

instance (user : UserRef) : Decidable user.FieldsPass :=
  decidable_of_iff ((∀ name ∈ user.name, utf16Length name ≤ 128) ∧
      (∀ tag ∈ user.clanTag, utf16Length tag ≤ 32) ∧
      (∀ presence ∈ user.presence, utf16Length presence ≤ 16) ∧
      ∀ order ∈ user.joinedOrder, order ≤ maxSafeInteger)
    ⟨fun ⟨name, clanTag, presence, order⟩ => ⟨name, clanTag, presence, order⟩,
      fun ⟨name, clanTag, presence, order⟩ => ⟨name, clanTag, presence, order⟩⟩

theorem asString_map {text : Option String} {maxLength : Nat}
    (h : ∀ s ∈ text, utf16Length s ≤ maxLength) :
    asString (text.map .str) maxLength = text := by
  cases text with
  | none => rfl
  | some s => exact asString_str (h s rfl)

theorem asNonNegativeInt_map {n : Option Nat} (h : ∀ k ∈ n, k ≤ maxSafeInteger) :
    asNonNegativeInt (n.map .ofNat) = n := by
  cases n with
  | none => rfl
  | some k => exact asNonNegativeInt_ofNat (h k rfl)

namespace UserRef

variable (user : UserRef)

theorem get?_handle : user.toJs.get? "handle" = some (.ofNat user.handle.toNat) := rfl

/-- The optional fields, by name. -/
theorem get?_optional :
    user.toJs.get? "name" = user.name.map .str ∧
      user.toJs.get? "clan_tag" = user.clanTag.map .str ∧
      user.toJs.get? "presence" = user.presence.map .str ∧
      user.toJs.get? "is_local" = user.isLocal.map .bool ∧
      user.toJs.get? "joined_order" = user.joinedOrder.map .ofNat := by
  have hoperator : ∀ name, (name == "is_operator") = false →
      (optionalField "is_operator" (user.isOperator.map .bool)).lookup name = none := by
    intro name hname
    have h := lookup_optionalField_of_ne hname (user.isOperator.map .bool) []
    rwa [List.append_nil] at h
  refine ⟨?_, ?_, ?_, ?_, ?_⟩ <;>
    simp [toJs, Js.get?, List.lookup_cons, List.append_assoc, lookup_optionalField_of_ne,
      lookup_optionalField_self, hoperator]

/-- A user whose fields pass is read back with the columns the roster shows. -/
theorem userField_toJs (h : user.FieldsPass) : ∃ wire, userField (some user.toJs) = some wire ∧
    wire.handle = user.handle.toNat ∧ wire.name = user.name ∧ wire.clanTag = user.clanTag ∧
    wire.presence = user.presence ∧ wire.isLocal = user.isLocal ∧
    wire.joinedOrder = user.joinedOrder := by
  obtain ⟨hname, hclanTag, hpresence, hisLocal, hjoinedOrder⟩ := user.get?_optional
  have hhandle : user.handle.toNat ≤ maxSafeInteger := by
    have hlt := user.handle.toNat_lt
    have hmax : (2 : Nat) ^ 32 ≤ maxSafeInteger := by decide
    omega
  have hbool : asBool (user.isLocal.map .bool) = user.isLocal := by cases user.isLocal <;> rfl
  refine ⟨_, by
    simp only [userField, Option.bind_eq_bind, Option.bind_some, user.get?_handle,
      asNonNegativeInt_ofNat hhandle]
    rfl, rfl, ?_, ?_, ?_, ?_, ?_⟩
  · exact hname ▸ asString_map h.name
  · exact hclanTag ▸ asString_map h.clanTag
  · exact hpresence ▸ asString_map h.presence
  · exact hisLocal ▸ hbool
  · exact hjoinedOrder ▸ asNonNegativeInt_map h.joinedOrder

end UserRef

end Superiority
