import Superiority.Live.Ledger
import Superiority.Live.Mirror

/-!
# What taps send against the Worker's check

The uplink worker hands out batches of what the taps put on the channel; the ingest Worker checks
a batch as a whole. Producer and validator state their limits apart, and these do not agree on the
party channel, on the length of a private channel's name, of a shown name and of a body, and on
the size of a roster.

* **`conforms_channelRef`** – which channels the Worker takes, by kind.
* **`Puts`** – what an operation of a tap appends to the channel: events with growing numbers,
  each of some allowed kind.
* **`serves_perform`** – every operation that brings nothing outside the limits is of this kind.
* **`validateEnvelope_batch`** – a batch of conforming events with growing numbers is accepted.
-/

namespace Superiority

open Std

/-! ## Channels -/

theorem utf16Length_append (s t : String) :
    utf16Length (s ++ t) = utf16Length s + utf16Length t := by
  simp [utf16Length, List.sum_append]

theorem utf16Length_le_two (s : String) : utf16Length s ≤ 2 * s.toList.length := by
  have hunits : ∀ c ∈ s.toList, utf16Units c ≤ 2 := by
    intro c _
    unfold utf16Units
    split_ifs <;> omega
  rw [utf16Length, Nat.mul_comm]
  simpa using List.sum_le_card_nsmul (s.toList.map utf16Units) 2 (by simpa using hunits)

/-- The characters of a number are digits. -/
theorem digit_bounds {n : Nat} {c : Char} (h : c ∈ (toString n).toList) : '0' ≤ c ∧ c ≤ '9' := by
  have hdigit := Nat.isDigit_of_mem_toDigits (by decide) (by decide) (Nat.toList_repr (n := n) ▸ h)
  obtain ⟨hlow, hhigh⟩ := Char.isDigit_iff_toNat.1 hdigit
  exact ⟨Char.le_def.2 hlow, Char.le_def.2 hhigh⟩

theorem length_digits {n k : Nat} (hk : 0 < k) (h : n < 10 ^ k) :
    1 ≤ (toString n).toList.length ∧ (toString n).toList.length ≤ k := by
  rw [Nat.toString_eq_repr, Nat.toList_repr]
  exact ⟨Nat.length_toDigits_pos, (Nat.length_toDigits_le_iff (by decide) hk).2 h⟩

theorem isNumericTail_digits {n : Nat} (h : n < 10 ^ 10) :
    isNumericTail (toString n).toList = true := by
  obtain ⟨hpos, hlength⟩ := length_digits (by decide) h
  have hdigits : (toString n).toList.all (fun c => '0' ≤ c && c ≤ '9') = true := by
    rw [List.all_eq_true]
    intro c hc
    simpa using digit_bounds hc
  simp only [isNumericTail, hdigits, Bool.and_true, Bool.and_eq_true, decide_eq_true_eq]
  exact ⟨hpos, hlength⟩

theorem afterPrefix_append (front s : String) : afterPrefix front (front ++ s) = some s.toList := by
  simp [afterPrefix, String.toList_append]

theorem isValidChannelKey_public {n : Nat} (h : n < 10 ^ 10) :
    isValidChannelKey ("public:" ++ toString n) = true := by
  rw [isValidChannelKey, afterPrefix_append, Option.any_some, isNumericTail_digits h]
  simp

theorem isValidChannelKey_club {n : Nat} (h : n < 10 ^ 10) :
    isValidChannelKey ("club:" ++ toString n) = true := by
  rw [isValidChannelKey, afterPrefix_append "club:", Option.any_some, isNumericTail_digits h]
  simp

theorem isValidChannelKey_private {name : String} :
    isValidChannelKey ("private:" ++ name) = true ↔
      1 ≤ utf16Length name ∧ utf16Length name ≤ 64 := by
  have hfront : utf16Length "private:" = 8 := by decide
  have hpublic : afterPrefix "public:" ("private:" ++ name) = none := by
    simp [afterPrefix, String.toList_append, List.isPrefixOf]
  have hclub : afterPrefix "club:" ("private:" ++ name) = none := by
    simp [afterPrefix, String.toList_append, List.isPrefixOf]
  rw [isValidChannelKey, hpublic, hclub, afterPrefix_append, utf16Length_append, hfront]
  simp only [Option.any_none, Bool.or_self, Bool.false_or, Option.isSome_some, Bool.true_and,
    Bool.and_eq_true, decide_eq_true_eq]
  omega

namespace Projector

/-- The Worker takes the channel and the name that is shown of it. The party it never takes. -/
def ChannelFits (p : Projector) : ChatChannel → Prop
  | .public_ identifier => ∀ name ∈ p.publicNames[identifier]?, utf16Length name ≤ 128
  | .private_ name => 1 ≤ utf16Length name ∧ utf16Length name ≤ 64
  | .club clubId => ∀ name ∈ p.clubNames[clubId]?, utf16Length name ≤ 128
  | .party => False

variable {p : Projector}

theorem utf16Length_channelTitle (identifier : UInt16) :
    utf16Length (channelTitle (.public_ identifier)) ≤ 128 := by
  have hlt := identifier.toNat_lt
  obtain ⟨-, hlength⟩ := length_digits (n := identifier.toNat) (k := 5) (by decide) (by omega)
  have hdigits := utf16Length_le_two (toString identifier.toNat)
  have hgeneral : utf16Length "General" ≤ 128 := by decide
  have hpublic : utf16Length "Public " = 7 := by decide
  show utf16Length (if identifier = generalPublicChannel then "General"
    else "Public " ++ toString identifier.toNat) ≤ 128
  split_ifs
  · exact hgeneral
  · rw [utf16Length_append, hpublic]
    omega

/-- Exactly the channels that fit conform. -/
theorem conforms_channelRef {channel : ChatChannel} :
    (channelRef channel p.clubNames p.publicNames).Conforms ↔ p.ChannelFits channel := by
  cases channel with
  | public_ identifier =>
    have hlt := identifier.toNat_lt
    have hkey := isValidChannelKey_public (n := identifier.toNat) (by omega)
    have htitle := utf16Length_channelTitle identifier
    constructor
    · intro h name hname
      refine h.name name ?_
      simp [channelRef, Option.mem_def.1 hname]
    · intro h
      refine ⟨hkey, fun name hname => ?_⟩
      simp only [channelRef, Option.mem_def, Option.some.injEq] at hname
      cases hpublic : p.publicNames[identifier]? with
      | none =>
        rw [hpublic] at hname
        exact hname ▸ htitle
      | some learned =>
        rw [hpublic] at hname
        exact hname ▸ h learned hpublic
  | private_ name =>
    have hkey : (channelRef (.private_ name) p.clubNames p.publicNames).key = "private:" ++ name :=
      rfl
    constructor
    · intro h
      exact isValidChannelKey_private.1 (hkey ▸ h.key)
    · intro h
      refine ⟨isValidChannelKey_private.2 h, fun shown hshown => ?_⟩
      obtain rfl : name = shown := Option.some.inj hshown
      exact h.2.trans (by decide)
  | club clubId =>
    have hlt := clubId.toNat_lt
    have hkey := isValidChannelKey_club (n := clubId.toNat) (by omega)
    exact ⟨fun h => h.name, fun h => ⟨hkey, h⟩⟩
  | party =>
    have hparty : isValidChannelKey "party" = false := by decide
    refine ⟨fun h => ?_, False.elim⟩
    exact absurd (h.key.symm.trans hparty) (by decide)

/-- The Worker takes every open channel. -/
def OpenFit (p : Projector) : Prop :=
  ∀ (index : UInt8) channel, p.channels[index]? = some channel → p.ChannelFits channel

/-- The projector `q` has no channel that `p` has not, and the names of `p`. -/
structure Narrows (p q : Projector) : Prop where
  channels : ∀ (index : UInt8) channel, q.channels[index]? = some channel →
    p.channels[index]? = some channel
  clubNames : q.clubNames = p.clubNames
  publicNames : q.publicNames = p.publicNames

variable {q r : Projector}

theorem Narrows.refl (p : Projector) : Narrows p p := ⟨fun _ _ h => h, rfl, rfl⟩

theorem Narrows.trans (h : Narrows p q) (h' : Narrows q r) : Narrows p r where
  channels index channel hchannel := h.channels index channel (h'.channels index channel hchannel)
  clubNames := h'.clubNames.trans h.clubNames
  publicNames := h'.publicNames.trans h.publicNames

theorem OpenFit.narrow (h : OpenFit p) (hq : Narrows p q) : OpenFit q := by
  intro index channel hchannel
  have hfits := h index channel (hq.channels index channel hchannel)
  cases channel with
  | public_ identifier =>
    rw [ChannelFits, hq.publicNames]
    exact hfits
  | club clubId =>
    rw [ChannelFits, hq.clubNames]
    exact hfits
  | private_ name => exact hfits
  | party => exact hfits

/-- A channel that is announced conforms. -/
theorem OpenFit.conforms (h : OpenFit p) {index : UInt8} {ref : ChannelRef}
    (href : p.sharedIndex index none = some ref) : ref.Conforms := by
  obtain ⟨channel, hchannel, hshared⟩ := Option.bind_eq_some_iff.1 href
  obtain rfl := Option.some.inj hshared
  exact conforms_channelRef.2 (h index channel hchannel)

theorem narrows_rosterUserRef (p : Projector) (index : UInt8) (user : ChatUser) :
    Narrows p (p.rosterUserRef index user).2 := by
  unfold rosterUserRef joinedOrder
  dsimp only
  split
  · exact Narrows.refl p
  · exact ⟨fun _ _ h => h, rfl, rfl⟩

theorem narrows_mirrorOf (index : UInt8) (users : List ChatUser) (mirror : RosterMirror)
    (p : Projector) : Narrows p (mirrorOf index users mirror p).2 := by
  induction users generalizing mirror p with
  | nil => exact Narrows.refl p
  | cons user users ih => exact (narrows_rosterUserRef p index user).trans (ih _ _)

theorem narrows_leave (p : Projector) (index : UInt8) (enabled : Bool)
    (shared : Option (ExtTreeSet String)) : Narrows p (p.leave index enabled shared).2 := by
  refine ⟨fun other channel hchannel => ?_, rfl, rfl⟩
  have herase : (p.channels.erase index)[other]? = some channel := hchannel
  rw [ExtTreeMap.getElem?_erase] at herase
  split_ifs at herase
  exact herase

theorem narrows_projectRoster (p : Projector) (snapshot : RosterSnapshot)
    (shared : Option (ExtTreeSet String)) : Narrows p (p.projectRoster snapshot shared).2 := by
  have hmirror := narrows_mirrorOf snapshot.channelIndex snapshot.users ∅ p
  unfold projectRoster
  by_cases hcomplete : snapshot.initialComplete
  · rw [if_pos hcomplete]
    dsimp only
    cases p.sharedIndex snapshot.channelIndex shared with
    | none => exact Narrows.refl p
    | some ref =>
      by_cases hsent : (mirrorOf snapshot.channelIndex snapshot.users ∅ p).2.rosterSent.contains
          snapshot.channelIndex
      · simp only [if_pos hsent]
        exact ⟨hmirror.channels, hmirror.clubNames, hmirror.publicNames⟩
      · simp only [if_neg hsent]
        exact ⟨hmirror.channels, hmirror.clubNames, hmirror.publicNames⟩
  · rw [if_neg hcomplete]
    exact Narrows.refl p

theorem narrows_projectMemberLeft (p : Projector) (index : UInt8) (user : ChatUser)
    (shared : Option (ExtTreeSet String)) :
    Narrows p (p.projectMemberLeft index user shared).2 := by
  have hnumbered := narrows_rosterUserRef p index user
  unfold projectMemberLeft
  dsimp only
  split
  · exact ⟨fun _ _ h => h, rfl, rfl⟩
  · exact ⟨hnumbered.channels, hnumbered.clubNames, hnumbered.publicNames⟩

/-- Past its bookkeeping an event opens no channel and brings no name. -/
theorem narrows_project (p : Projector) (event : ChatEvent) (enabled : Bool)
    (shared : Option (ExtTreeSet String)) :
    Narrows (p.learn event) (p.project event enabled shared).2 := by
  unfold project
  dsimp only
  split_ifs
  · cases event with
    | roster snapshot => exact narrows_projectRoster _ snapshot shared
    | memberJoined index user =>
      obtain ⟨hchannels, hclubs, hpublics⟩ :=
        narrows_rosterUserRef (p.learn (.memberJoined index user)) index user
      exact ⟨hchannels, hclubs, hpublics⟩
    | memberLeft index user => exact narrows_projectMemberLeft _ index user shared
    | removed index => exact narrows_leave _ index enabled shared
    | groupSummary clubId name => cases name <;> exact Narrows.refl _
    | _ => exact Narrows.refl _
  · exact Narrows.refl _

end Projector

/-! ## Bodies and sizes -/

/-- What a body is cut to has no more code units than the Worker allows. -/
def BodyFits (body : String) : Prop :=
  utf16Length (String.ofList (body.toList.take maxBodyChars)) ≤ maxMessageChars

instance (body : String) : Decidable (BodyFits body) := inferInstanceAs (Decidable (_ ≤ _))

theorem truncated_eq (body : String) :
    truncated body = String.ofList (body.toList.take maxBodyChars) := by
  unfold truncated
  split_ifs with h
  · rw [List.take_of_length_le h, String.ofList_toList]
  · rfl

/-- The code units of the JSON of an event with the longest number and time. -/
def EventKind.units (kind : EventKind) : Nat :=
  stringifiedLength (EventDto.toJs ⟨maxSafeInteger, maxSafeInteger, kind⟩)

/-- A roster is not too long, and no text is too large. -/
structure EventKind.SizeFits (kind : EventKind) : Prop where
  users : ∀ users ∈ kind.users?, users.length ≤ maxRosterUsers
  units : kind.units ≤ maxEventJsonChars

instance (kind : EventKind) : Decidable kind.SizeFits :=
  decidable_of_iff ((∀ users ∈ kind.users?, users.length ≤ maxRosterUsers) ∧
      kind.units ≤ maxEventJsonChars)
    ⟨fun ⟨users, units⟩ => ⟨users, units⟩, fun ⟨users, units⟩ => ⟨users, units⟩⟩

/-- The Worker takes the kind, whatever the number and time of the event. -/
structure EventKind.Sendable (kind : EventKind) : Prop extends kind.SizeFits where
  channel : ∀ channel ∈ kind.channel?, channel.Conforms
  body : ∀ body ∈ kind.body?, utf16Length body ≤ maxMessageChars

theorem stringifiedNumber_ofNat {n : Nat} (h : n ≤ maxSafeInteger) :
    stringifiedNumber (.int n) ≤ 16 := by
  have hlt : n < 10 ^ 16 := h.trans_lt (by decide)
  exact (Nat.length_repr_le_iff (by decide)).2 hlt

theorem stringifiedLength_toJs (dto : EventDto) :
    stringifiedLength dto.toJs + (16 + 16) =
      dto.kind.units + (stringifiedNumber (.int dto.seq) + stringifiedNumber (.int dto.ts)) := by
  have hmax : stringifiedNumber (.int maxSafeInteger) = 16 := by decide +kernel
  simp only [EventKind.units, EventDto.toJs, stringifiedLength, stringifiedFields, Js.ofNat, hmax,
    List.length_cons]
  omega

theorem conforms_of_sendable {dto : EventDto} (h : dto.kind.Sendable)
    (hseq : dto.seq ≤ maxSafeInteger) (hts : 0 < dto.ts ∧ dto.ts ≤ maxSafeInteger) :
    dto.Conforms := by
  refine ⟨hseq, hts, h.channel, h.body, h.users, ?_⟩
  have hlength := stringifiedLength_toJs dto
  have hseq' := stringifiedNumber_ofNat hseq
  have hts' := stringifiedNumber_ofNat hts.2
  have hunits := h.units
  omega

theorem sendable_dropped {count : Nat} (h : count ≤ maxSafeInteger) :
    (EventKind.dropped count).Sendable := by
  have hcount := stringifiedNumber_ofNat h
  have hzero : stringifiedNumber (.int (0 : Nat)) = 1 := by decide +kernel
  have hnone : (EventKind.dropped 0).units ≤ 100 := by decide +kernel
  have hunits : (EventKind.dropped count).units + 1 =
      (EventKind.dropped 0).units + stringifiedNumber (.int count) := by
    simp only [EventKind.units, EventDto.toJs, EventKind.fields, EventKind.wireKind,
      stringifiedLength, stringifiedFields, Js.ofNat, hzero, List.length_cons]
    omega
  refine ⟨⟨?_, ?_⟩, ?_, ?_⟩
  · intro channel h
    cases h
  · have hmax : 200 ≤ maxEventJsonChars := by decide
    omega
  · intro body h
    cases h
  · intro body h
    cases h

/-- The kinds without fields. -/
theorem sendable_bare {kind : EventKind} (h : kind ∈ [EventKind.sessionStarted, .syncStarted,
    .sessionSynced, .heartbeat, .sessionEnded]) : kind.Sendable := by
  have hunits : ∀ kind ∈ [EventKind.sessionStarted, .syncStarted, .sessionSynced, .heartbeat,
      .sessionEnded], kind.units ≤ maxEventJsonChars := by decide +kernel
  refine ⟨⟨?_, hunits kind h⟩, ?_, ?_⟩ <;> fin_cases h <;> exact nofun

namespace Projector

variable {p : Projector}

/-- The body of a message in an open channel fits. -/
def MessageFits (p : Projector) : ChatEvent → Prop
  | .message index _ body => index ∈ p.channels → BodyFits body
  | _ => True

/-- What an event brings fits: with it every open channel does, and so does a message. -/
structure Takes (p : Projector) (event : ChatEvent) : Prop where
  channels : (p.learn event).OpenFit
  message : p.MessageFits event

instance (p : Projector) (channel : ChatChannel) : Decidable (p.ChannelFits channel) :=
  match channel with
  | .public_ identifier =>
    inferInstanceAs (Decidable (∀ name ∈ p.publicNames[identifier]?, utf16Length name ≤ 128))
  | .private_ name => inferInstanceAs (Decidable (1 ≤ utf16Length name ∧ utf16Length name ≤ 64))
  | .club clubId =>
    inferInstanceAs (Decidable (∀ name ∈ p.clubNames[clubId]?, utf16Length name ≤ 128))
  | .party => .isFalse not_false

instance (p : Projector) : Decidable p.OpenFit :=
  decidable_of_iff (∀ entry ∈ p.channels.toList, p.ChannelFits entry.2)
    ⟨fun h index channel hchannel =>
      h (index, channel) (ExtTreeMap.mem_toList_iff_getElem?_eq_some.2 hchannel),
    fun h entry hentry =>
      h entry.1 entry.2 (ExtTreeMap.mem_toList_iff_getElem?_eq_some.1 hentry)⟩

instance (p : Projector) (event : ChatEvent) : Decidable (p.MessageFits event) :=
  match event with
  | .message index _ body => inferInstanceAs (Decidable (index ∈ p.channels → BodyFits body))
  | .publicChannelCatalog _ | .conferenceDescriptions | .conferenceMemberCounts | .joined ..
  | .joinRejected | .roster _ | .memberJoined .. | .memberLeft .. | .removed _ | .whisper
  | .friends | .blockedAccounts | .activity | .whisperFailed | .groupInvitation
  | .partyInvitation | .groupSummary .. | .groupSearch => .isTrue trivial

instance (p : Projector) (event : ChatEvent) : Decidable (p.Takes event) :=
  decidable_of_iff ((p.learn event).OpenFit ∧ p.MessageFits event)
    ⟨fun ⟨channels, message⟩ => ⟨channels, message⟩,
      fun ⟨channels, message⟩ => ⟨channels, message⟩⟩

/-- A kind without a body, in a channel that conforms. -/
theorem sendable_of_channel {kind : EventKind} {ref : ChannelRef} (hsize : kind.SizeFits)
    (hkind : kind.channel? = some ref) (hbody : kind.body? = none) (href : ref.Conforms) :
    kind.Sendable := by
  refine ⟨hsize, fun other hother => ?_, fun body hother => ?_⟩
  · obtain rfl := Option.some.inj (hkind.symm.trans hother)
    exact href
  · rw [hbody] at hother
    cases hother

theorem sendable_projectRoster (h : p.OpenFit) {snapshot : RosterSnapshot} {kind : EventKind}
    (hkind : (p.projectRoster snapshot none).1 = some kind) (hsize : kind.SizeFits) :
    kind.Sendable := by
  unfold projectRoster at hkind
  by_cases hcomplete : snapshot.initialComplete
  · rw [if_pos hcomplete] at hkind
    dsimp only at hkind
    cases href : p.sharedIndex snapshot.channelIndex none with
    | none =>
      rw [href] at hkind
      cases hkind
    | some ref =>
      rw [href] at hkind
      dsimp only at hkind
      split_ifs at hkind <;> cases hkind <;>
        exact sendable_of_channel hsize rfl rfl (h.conforms href)
  · rw [if_neg hcomplete] at hkind
    cases hkind

/-- What is projected of an event that fits is taken, if it is not too large. -/
theorem sendable_project {event : ChatEvent} (h : p.Takes event) {enabled : Bool}
    {kind : EventKind} (hkind : (p.project event enabled none).1 = some kind)
    (hsize : kind.SizeFits) : kind.Sendable := by
  have hopen := h.channels
  unfold project at hkind
  dsimp only at hkind
  split at hkind
  · cases event with
    | joined index channel handle =>
      cases hkind
      have hfits := hopen index channel ExtTreeMap.getElem?_insert_self
      exact sendable_of_channel hsize rfl rfl (conforms_channelRef.2 hfits)
    | roster snapshot => exact sendable_projectRoster hopen hkind hsize
    | memberJoined index user =>
      obtain ⟨ref, href, rfl⟩ := Option.map_eq_some_iff.1 hkind
      have hopen' := hopen.narrow (narrows_rosterUserRef _ index user)
      exact sendable_of_channel hsize rfl rfl (hopen'.conforms href)
    | memberLeft index user =>
      obtain ⟨ref, href, rfl⟩ := Option.map_eq_some_iff.1 hkind
      have hopen' := hopen.narrow (narrows_projectMemberLeft _ index user none)
      exact sendable_of_channel hsize rfl rfl (hopen'.conforms href)
    | removed index =>
      obtain ⟨ref, href, rfl⟩ := Option.map_eq_some_iff.1 hkind
      have href' : (p.learn (.removed index)).sharedIndex index none = some ref := by
        simp only [leave] at href
        split_ifs at href
        exact href
      exact sendable_of_channel hsize rfl rfl (hopen.conforms href')
    | message index sender body =>
      obtain ⟨ref, href, rfl⟩ := Option.map_eq_some_iff.1 hkind
      have hindex : index ∈ p.channels := by
        obtain ⟨channel, hchannel, -⟩ := Option.bind_eq_some_iff.1 href
        exact ExtTreeMap.mem_iff_isSome_getElem?.2 (Option.isSome_of_mem hchannel)
      refine ⟨hsize, fun other hother => ?_, fun text htext => ?_⟩
      · obtain rfl := Option.some.inj hother
        exact hopen.conforms href
      · obtain rfl := Option.some.inj htext
        rw [truncated_eq]
        exact h.message hindex
    | groupSummary clubId name =>
      cases name with
      | none => cases hkind
      | some name =>
        obtain ⟨ref, href, rfl⟩ := Option.map_eq_some_iff.1 hkind
        obtain ⟨named, hnamed, hshared⟩ := Option.bind_eq_some_iff.1 href
        obtain rfl := Option.some.inj hshared
        obtain ⟨entry, hentry, rfl⟩ := List.mem_map.1 (List.mem_of_find?_eq_some hnamed)
        have hfits := hopen entry.1 entry.2 (ExtTreeMap.mem_toList_iff_getElem?_eq_some.1 hentry)
        exact sendable_of_channel hsize rfl rfl (conforms_channelRef.2 hfits)
    | _ => cases hkind
  · cases hkind

theorem sendable_reconciliationEvents (h : p.OpenFit) {kind : EventKind}
    (hkind : kind ∈ p.reconciliationEvents none) (hsize : kind.SizeFits) : kind.Sendable := by
  obtain ⟨index, channel, mirror, hchannel, -, -, rfl⟩ := mem_reconciliationEvents hkind
  exact sendable_of_channel hsize rfl rfl (conforms_channelRef.2 (h index channel hchannel))

end Projector

/-! ## What an operation puts on the channel -/

/-- The event is one the Worker takes, or counts fewer lost events than its own number. -/
def EventDto.Allowed (dto : EventDto) : Prop :=
  dto.kind.Sendable ∨ ∃ count < dto.seq, dto.kind = .dropped count

namespace SessionTap

/-- From `s` to `s'` the tap has given out at most `n` numbers and sent messages of its own session
only: events with growing numbers, stamped by the clock and allowed. -/
structure Puts (clock : Nat → Nat) (n : Nat) (s s' : Tapped) : Prop where
  info : s'.1.info = s.1.info
  projector : s'.1.projector = s.1.projector
  enabled : s'.2.config = s.2.config
  messages : ∃ messages, s'.2.channel = s.2.channel ++ messages ∧
    (∀ info, .session info ∈ messages → info = s.1.info) ∧
    (∀ id dto, .event id dto ∈ messages → id = s.1.info.id ∧ s.1.nextSeq ≤ dto.seq ∧
      dto.seq < s'.1.nextSeq ∧ dto.ts = clock dto.seq ∧ dto.Allowed) ∧
    (messages.filterMap TapMessage.carried).Pairwise (·.2.seq < ·.2.seq)
  nextSeq : s.1.nextSeq ≤ s'.1.nextSeq ∧ s'.1.nextSeq ≤ s.1.nextSeq + n
  pendingDropped : s'.1.pendingDropped + s.1.nextSeq ≤ s.1.pendingDropped + s'.1.nextSeq

variable {clock : Nat → Nat} {n m : Nat} {s s' s'' : Tapped}

theorem mem_carried {messages : List TapMessage} {id : String} {dto : EventDto} :
    (id, dto) ∈ messages.filterMap TapMessage.carried ↔ .event id dto ∈ messages := by
  rw [List.mem_filterMap]
  constructor
  · rintro ⟨message, hmem, hcarried⟩
    cases message with
    | session info => cases hcarried
    | event id' dto' =>
      cases hcarried
      exact hmem
  · intro hmem
    exact ⟨_, hmem, rfl⟩

theorem Puts.refl (s : Tapped) : Puts clock 0 s s where
  info := rfl
  projector := rfl
  enabled := rfl
  messages := ⟨[], by simp⟩
  nextSeq := by omega
  pendingDropped := by omega

theorem Puts.trans (h : Puts clock n s s') (h' : Puts clock m s' s'') :
    Puts clock (n + m) s s'' where
  info := h'.info.trans h.info
  projector := h'.projector.trans h.projector
  enabled := h'.enabled.trans h.enabled
  messages := by
    obtain ⟨messages, hchannel, hsessions, hevents, hordered⟩ := h.messages
    obtain ⟨messages', hchannel', hsessions', hevents', hordered'⟩ := h'.messages
    have hseq := h.nextSeq
    have hseq' := h'.nextSeq
    refine ⟨messages ++ messages', by rw [hchannel', hchannel, List.append_assoc], ?_, ?_, ?_⟩
    · intro info hinfo
      rcases List.mem_append.1 hinfo with hinfo | hinfo
      · exact hsessions info hinfo
      · exact (hsessions' info hinfo).trans h.info
    · intro id dto hdto
      rcases List.mem_append.1 hdto with hdto | hdto
      · obtain ⟨hid, hlow, hhigh, hts, hallowed⟩ := hevents id dto hdto
        exact ⟨hid, hlow, by omega, hts, hallowed⟩
      · obtain ⟨hid, hlow, hhigh, hts, hallowed⟩ := hevents' id dto hdto
        exact ⟨hid.trans (by rw [h.info]), by omega, hhigh, hts, hallowed⟩
    · rw [List.filterMap_append, List.pairwise_append]
      refine ⟨hordered, hordered', ?_⟩
      intro event hevent event' hevent'
      obtain ⟨-, -, hhigh, -⟩ := hevents event.1 event.2 (mem_carried.1 hevent)
      obtain ⟨-, hlow, -⟩ := hevents' event'.1 event'.2 (mem_carried.1 hevent')
      omega
  nextSeq := by
    have hseq := h.nextSeq
    have hseq' := h'.nextSeq
    omega
  pendingDropped := by
    have hpending := h.pendingDropped
    have hpending' := h'.pendingDropped
    omega

theorem Puts.mono (h : Puts clock n s s') (hle : n ≤ m) : Puts clock m s s' where
  info := h.info
  projector := h.projector
  enabled := h.enabled
  messages := h.messages
  nextSeq := by
    have hseq := h.nextSeq
    omega
  pendingDropped := h.pendingDropped

theorem puts_place {kind : EventKind}
    (h : EventDto.Allowed ⟨s.1.nextSeq, clock s.1.nextSeq, kind⟩) :
    Puts clock 1 s (place clock kind s).2 := by
  obtain ⟨tap, u⟩ := s
  by_cases hroom : u.room.head?.getD true
  · have hplace : (place clock kind (tap, u)).2 = ({ tap with nextSeq := tap.nextSeq + 1 }, { u with
        channel := u.channel ++ [.event tap.info.id ⟨tap.nextSeq, clock tap.nextSeq, kind⟩]
        room := u.room.tail
        trace := { u.trace with
          placed := u.trace.placed ++ [(tap.info.id, ⟨tap.nextSeq, clock tap.nextSeq, kind⟩)] } })
        := by
      simp [place, Uplink.trySend, hroom, TapMessage.carried]
    rw [hplace]
    refine ⟨rfl, rfl, rfl, ⟨[.event tap.info.id ⟨tap.nextSeq, clock tap.nextSeq, kind⟩], rfl,
      by simp, ?_, List.pairwise_singleton _ _⟩, ⟨Nat.le_succ _, Nat.le_refl _⟩, ?_⟩
    · intro id dto hdto
      obtain ⟨rfl, rfl⟩ := TapMessage.event.inj (List.mem_singleton.1 hdto)
      exact ⟨rfl, Nat.le_refl _, Nat.lt_succ_self _, rfl, h⟩
    · dsimp only
      omega
  · have hplace : (place clock kind (tap, u)).2 = ({ tap with
        nextSeq := tap.nextSeq + 1
        pendingDropped := tap.pendingDropped + 1 }, Uplink.noteDropped { u with
          room := u.room.tail
          trace := { u.trace with refused := u.trace.refused + 1 } } 1) := by
      simp [place, Uplink.trySend, hroom]
    rw [hplace]
    refine ⟨rfl, rfl, rfl, ⟨[], (List.append_nil u.channel).symm, ?_, ?_, List.Pairwise.nil⟩,
      ⟨Nat.le_succ _, Nat.le_refl _⟩, ?_⟩
    · exact fun info hinfo => absurd hinfo List.not_mem_nil
    · exact fun id dto hdto => absurd hdto List.not_mem_nil
    · dsimp only
      omega

/-- The tap has lost fewer events than it has numbered. -/
def Counted (s : Tapped) : Prop := s.1.pendingDropped < s.1.nextSeq

theorem Puts.counted (h : Puts clock n s s') (hs : Counted s) : Counted s' := by
  have hpending := h.pendingDropped
  unfold Counted at *
  omega

theorem puts_emit (hs : Counted s) {kind : EventKind} (h : kind.Sendable) :
    Puts clock 2 s (emit clock kind s) := by
  have hreport : Puts clock 1 s (place clock (.dropped s.1.pendingDropped) s).2 :=
    puts_place (.inr ⟨s.1.pendingDropped, hs, rfl⟩)
  have hthen : ∀ s₁, Puts clock 1 s s₁ → Puts clock 2 s (place clock kind s₁).2 := by
    intro s₁ h₁
    have hallowed : EventDto.Allowed ⟨s₁.1.nextSeq, clock s₁.1.nextSeq, kind⟩ := Or.inl h
    exact h₁.trans (puts_place hallowed)
  unfold emit
  dsimp only
  split_ifs with hpending hsent
  · refine hthen _ ⟨hreport.info, hreport.projector, hreport.enabled, hreport.messages,
      hreport.nextSeq, ?_⟩
    have hseq := hreport.nextSeq
    dsimp only
    omega
  · exact hthen _ hreport
  · exact hthen _ ((Puts.refl s).mono (by decide))

theorem trySend_taken {u : Uplink} {message : TapMessage} (h : (u.trySend message).1 = true) :
    (u.trySend message).2.channel = u.channel ++ [message] ∧
      (u.trySend message).2.config = u.config := by
  unfold Uplink.trySend at h ⊢
  split_ifs at h ⊢
  exact ⟨rfl, rfl⟩

theorem trySend_refused {u : Uplink} {message : TapMessage} (h : ¬ (u.trySend message).1 = true) :
    (u.trySend message).2.channel = u.channel ∧ (u.trySend message).2.config = u.config := by
  unfold Uplink.trySend at h ⊢
  split_ifs at h ⊢ with hroom
  · exact absurd rfl h
  · exact ⟨rfl, rfl⟩

/-- The announcement brings the session's record and its first event. -/
theorem puts_announce (hs : Counted s) : Puts clock 2 s (announce clock s).2 := by
  obtain ⟨tap, u⟩ := s
  have hstarted : EventKind.sessionStarted.Sendable := sendable_bare (by simp)
  unfold announce
  dsimp only
  split_ifs with hannounced hsent
  · exact (Puts.refl _).mono (by decide)
  · obtain ⟨hchannel, hconfig⟩ := trySend_taken hsent
    have hsession : Puts clock 0 (tap, u) ({ tap with announced := true },
        (u.trySend (.session tap.info)).2) := by
      refine ⟨rfl, rfl, hconfig, ⟨[.session tap.info], hchannel, ?_, ?_, List.Pairwise.nil⟩,
        ⟨Nat.le_refl _, Nat.le_refl _⟩, Nat.le_refl _⟩
      · intro info hinfo
        exact TapMessage.session.inj (List.mem_singleton.1 hinfo)
      · intro id dto hdto
        cases List.mem_singleton.1 hdto
    exact hsession.trans (puts_emit (hsession.counted hs) hstarted)
  · obtain ⟨hchannel, hconfig⟩ := trySend_refused hsent
    refine ⟨rfl, rfl, hconfig, ⟨[], ?_, ?_, ?_, List.Pairwise.nil⟩,
      ⟨Nat.le_refl _, Nat.le_add_right _ _⟩, Nat.le_refl _⟩
    · exact hchannel.trans (List.append_nil _).symm
    · exact fun info hinfo => absurd hinfo List.not_mem_nil
    · exact fun id dto hdto => absurd hdto List.not_mem_nil

theorem puts_announceAndEmit (hs : Counted s) {kind : EventKind} (h : kind.Sendable) :
    Puts clock 4 s (announceAndEmit clock kind s) := by
  have hannounce : Puts clock 2 s (announce clock s).2 := puts_announce hs
  unfold announceAndEmit
  dsimp only
  split_ifs
  · exact hannounce.trans (puts_emit (hannounce.counted hs) h)
  · exact hannounce.mono (by decide)

theorem puts_foldl (hs : Counted s) {kinds : List EventKind} (h : ∀ kind ∈ kinds, kind.Sendable) :
    Puts clock (2 * kinds.length) s (kinds.foldl (fun s kind => emit clock kind s) s) := by
  induction kinds generalizing s with
  | nil => exact Puts.refl s
  | cons kind kinds ih =>
    have hfirst : Puts clock 2 s (emit clock kind s) := puts_emit hs (h kind (by simp))
    have hrest := ih (hfirst.counted hs) fun kind hkind => h kind (by simp [hkind])
    exact (hfirst.trans hrest).mono (by rw [List.length_cons]; omega)

/-- There are at most 256 channel indices. -/
theorem length_reconciliationEvents (p : Projector) :
    (p.reconciliationEvents none).length ≤ 256 := by
  have hkeys : (p.channels.keys.map UInt8.toNat).Nodup :=
    ExtTreeMap.nodup_keys.map fun _ _ h => UInt8.toNat_inj.1 h
  have hbelow : p.channels.keys.map UInt8.toNat ⊆ List.range 256 := by
    intro n hn
    obtain ⟨index, -, rfl⟩ := List.mem_map.1 hn
    exact List.mem_range.2 index.toNat_lt
  have hcount := (hkeys.subperm hbelow).length_le
  rw [List.length_map, ← ExtTreeMap.map_fst_toList_eq_keys, List.length_map,
    List.length_range] at hcount
  exact (List.length_filterMap_le _ _).trans hcount

theorem puts_reconcile (hs : Counted s)
    (h : ∀ kind ∈ s.1.projector.reconciliationEvents none, kind.Sendable) :
    Puts clock 518 s (reconcile clock s) := by
  have hlength := length_reconciliationEvents s.1.projector
  have hstarted : EventKind.syncStarted.Sendable := sendable_bare (by simp)
  have hsynced : EventKind.sessionSynced.Sendable := sendable_bare (by simp)
  unfold reconcile
  dsimp only
  split_ifs
  · exact (Puts.refl s).mono (by decide)
  · have hfirst : Puts clock 4 s (announceAndEmit clock .syncStarted s) :=
      puts_announceAndEmit hs hstarted
    have hrosters := hfirst.trans (puts_foldl (hfirst.counted hs) h)
    have hall := hrosters.trans (puts_emit (hrosters.counted hs) hsynced)
    exact hall.mono (by omega)

theorem puts_completeSync (hs : Counted s)
    (h : ∀ kind ∈ s.1.projector.reconciliationEvents none, kind.Sendable) :
    Puts clock 518 s (completeSync clock s) := by
  obtain ⟨hinfo, hprojector, henabled, hmessages, hseq, hpending⟩ :=
    puts_reconcile hs h
  exact ⟨hinfo, hprojector, henabled, hmessages, hseq, hpending⟩

/-- What an operation has to say of channels, members and messages, if sharing is on. -/
def speaks (s : Tapped) : Op → List EventKind
  | .observe event =>
    let (kind, projector) := s.1.projector.project event s.2.config.enabled none
    match kind with
    | none => []
    | some (.roster channel true _ _) =>
      let tap := SessionTap.resolve channel.key { s.1 with projector }
      if tap.initialSyncComplete || tap.isResolved then projector.reconciliationEvents none else []
    | some kind => [kind]
  | .heartbeat => if s.1.ended then s.1.projector.reconciliationEvents none else []
  | .observeLeft channelIndex =>
    ((s.1.projector.leave channelIndex s.2.config.enabled none).1.map .left).toList
  | .rejectChannel channel =>
    if !s.1.initialSyncComplete && (s.1.resolve (channelIdentity channel)).isResolved then
      s.1.projector.reconciliationEvents none
    else []
  | .resolvePendingChannels =>
    if s.1.initialSyncComplete || s.1.pendingChannels.isEmpty then []
    else s.1.projector.reconciliationEvents none
  | .reconcileSnapshots snapshots =>
    (snapshots.foldl (fun p snapshot => (p.project snapshot true none).2)
      s.1.projector).reconciliationEvents none
  | .endSession => []

theorem speaks_congr {tap : SessionTap} {u u' : Uplink} (h : u'.config = u.config) (op : Op) :
    speaks (tap, u') op = speaks (tap, u) op := by
  cases op <;> simp only [speaks, h]

/-- Each of the events fits when it comes. -/
def TakesAll : Projector → List ChatEvent → Prop
  | _, [] => True
  | p, event :: events => p.Takes event ∧ TakesAll (p.project event true none).2 events

/-- The events an operation is given. -/
def Op.events : Op → List ChatEvent
  | .observe event => [event]
  | .reconcileSnapshots snapshots => snapshots
  | _ => []

/-- An operation brings nothing outside the Worker's limits. -/
structure OpFits (s : Tapped) (op : Op) : Prop where
  takes : TakesAll s.1.projector op.events
  sizes : ∀ kind ∈ speaks s op, kind.SizeFits
  numbers : s.1.nextSeq + 520 ≤ maxSafeInteger

instance decidableTakesAll : (p : Projector) → (events : List ChatEvent) →
    Decidable (TakesAll p events)
  | _, [] => .isTrue trivial
  | p, event :: events =>
    have := decidableTakesAll (p.project event true none).2 events
    inferInstanceAs (Decidable (p.Takes event ∧ TakesAll (p.project event true none).2 events))

instance (s : Tapped) (op : Op) : Decidable (OpFits s op) :=
  decidable_of_iff (TakesAll s.1.projector op.events ∧ (∀ kind ∈ speaks s op, kind.SizeFits) ∧
      s.1.nextSeq + 520 ≤ maxSafeInteger)
    ⟨fun ⟨takes, sizes, numbers⟩ => ⟨takes, sizes, numbers⟩,
      fun ⟨takes, sizes, numbers⟩ => ⟨takes, sizes, numbers⟩⟩

theorem OpFits.congr {tap : SessionTap} {u u' : Uplink} {op : Op} (h : OpFits (tap, u) op)
    (hconfig : u'.config = u.config) : OpFits (tap, u') op :=
  ⟨h.takes, speaks_congr hconfig op ▸ h.sizes, h.numbers⟩

/-- An operation of a tap that shares: it first changes its own records, then sends. -/
structure Serves (clock : Nat → Nat) (s s' : Tapped) : Prop where
  sends : ∃ s₀ : Tapped, Puts clock 520 s₀ s' ∧ s₀.1.info = s.1.info ∧
    s₀.1.nextSeq = s.1.nextSeq ∧ s₀.1.pendingDropped = s.1.pendingDropped ∧
    s₀.2.channel = s.2.channel ∧ s₀.2.config = s.2.config
  openFit : s'.1.projector.OpenFit

theorem serves_of_puts {s₀ : Tapped} (h : Puts clock n s₀ s') (hn : n ≤ 520)
    (hopen : s₀.1.projector.OpenFit) (hinfo : s₀.1.info = s.1.info)
    (hseq : s₀.1.nextSeq = s.1.nextSeq) (hpending : s₀.1.pendingDropped = s.1.pendingDropped)
    (hchannel : s₀.2.channel = s.2.channel) (hconfig : s₀.2.config = s.2.config) :
    Serves clock s s' where
  sends := ⟨s₀, h.mono hn, hinfo, hseq, hpending, hchannel, hconfig⟩
  openFit := h.projector ▸ hopen

theorem serves_observe (hs : Counted s) (event : ChatEvent) (h : OpFits s (.observe event)) :
    Serves clock s (observe clock event s) := by
  obtain ⟨tap, u⟩ := s
  obtain ⟨hconfig, -, hchannel⟩ := shareClubName_frame event u
  have htakes := h.takes.1
  have hsizes := h.sizes
  have hopen := htakes.channels.narrow
    (Projector.narrows_project tap.projector event u.config.enabled none)
  unfold observe
  dsimp only [speaks] at hsizes ⊢
  rw [hconfig]
  cases hkind : (tap.projector.project event u.config.enabled none).1 with
  | none => exact serves_of_puts (Puts.refl _) (by decide) hopen rfl rfl rfl hchannel hconfig
  | some kind =>
    rw [hkind] at hsizes
    split
    · rename_i hnone
      cases hnone
    · rename_i channel _ _ hroster
      cases hroster
      dsimp only at hsizes
      split_ifs at hsizes ⊢ with hresolved
      · refine serves_of_puts (puts_completeSync hs ?_) (by decide) hopen rfl rfl rfl hchannel
          hconfig
        intro kind hmem
        exact Projector.sendable_reconciliationEvents hopen hmem (hsizes kind hmem)
      · exact serves_of_puts (Puts.refl _) (by decide) hopen rfl rfl rfl hchannel hconfig
    · rename_i _ other hother hsome
      obtain rfl := Option.some.inj hsome
      have hsize : kind.SizeFits := by
        split at hsizes
        · rename_i hnone
          cases hnone
        · rename_i channel _ _ hroster
          exact absurd (Option.some.inj hroster) (hother _ _ _)
        · rename_i _ other' _ hsome'
          obtain rfl := Option.some.inj hsome'
          exact hsizes kind (List.mem_singleton_self kind)
      have hcounted : Counted ({ tap with
          projector := (tap.projector.project event u.config.enabled none).2 },
          shareClubName event u) := hs
      have hsendable := Projector.sendable_project htakes hkind hsize
      exact serves_of_puts (puts_announceAndEmit hcounted hsendable) (by decide) hopen rfl rfl rfl
        hchannel hconfig

theorem serves_heartbeat (hs : Counted s) (henabled : s.2.config.enabled = true)
    (hopen : s.1.projector.OpenFit) (h : OpFits s .heartbeat) :
    Serves clock s (heartbeat clock s) := by
  obtain ⟨tap, u⟩ := s
  have hsizes := h.sizes
  have hstarted : EventKind.sessionStarted.Sendable := sendable_bare (by simp)
  have hheartbeat : EventKind.heartbeat.Sendable := sendable_bare (by simp)
  have henabled' : u.config.enabled = true := henabled
  dsimp only [speaks] at hsizes
  unfold heartbeat
  dsimp only
  rw [henabled', Bool.not_true, if_neg Bool.false_ne_true]
  split_ifs at hsizes ⊢ with hended hannounced
  · have hcounted : Counted ({ tap with ended := false }, u) := hs
    have hfirst : Puts clock 2 _ _ := puts_emit hcounted hstarted
    have hprojector := hfirst.projector
    have hrest : Puts clock 518 _ _ := puts_reconcile (hfirst.counted hs) fun kind hkind => by
      rw [hprojector] at hkind
      exact Projector.sendable_reconciliationEvents hopen hkind (hsizes kind hkind)
    exact serves_of_puts (hfirst.trans hrest) (by decide) hopen rfl rfl rfl rfl rfl
  · exact serves_of_puts (puts_emit hs hheartbeat) (by decide) hopen rfl rfl rfl rfl rfl
  · exact serves_of_puts (Puts.refl _) (by decide) hopen rfl rfl rfl rfl rfl

theorem serves_observeLeft (hs : Counted s) (hopen : s.1.projector.OpenFit) (index : UInt8)
    (h : OpFits s (.observeLeft index)) : Serves clock s (observeLeft clock index s) := by
  obtain ⟨tap, u⟩ := s
  have hsizes := h.sizes
  have hleft := hopen.narrow (Projector.narrows_leave tap.projector index u.config.enabled none)
  dsimp only [speaks] at hsizes
  unfold observeLeft
  dsimp only
  cases hchannel : (tap.projector.leave index u.config.enabled none).1 with
  | none => exact serves_of_puts (Puts.refl _) (by decide) hleft rfl rfl rfl rfl rfl
  | some ref =>
    rw [hchannel] at hsizes
    have href : tap.projector.sharedIndex index none = some ref := by
      simp only [Projector.leave] at hchannel
      split_ifs at hchannel
      exact hchannel
    have hsendable : (EventKind.left ref).Sendable :=
      Projector.sendable_of_channel (hsizes (.left ref) (by simp)) rfl rfl (hopen.conforms href)
    have hcounted : Counted ({ tap with
        projector := (tap.projector.leave index u.config.enabled none).2 }, u) := hs
    exact serves_of_puts (puts_announceAndEmit hcounted hsendable) (by decide) hleft rfl rfl rfl rfl
      rfl

theorem serves_rejectChannel (hs : Counted s) (hopen : s.1.projector.OpenFit)
    (channel : ChatChannel) (h : OpFits s (.rejectChannel channel)) :
    Serves clock s (rejectChannel clock channel s) := by
  obtain ⟨tap, u⟩ := s
  have hsizes := h.sizes
  dsimp only [speaks] at hsizes
  unfold rejectChannel
  dsimp only
  split_ifs with hresolved
  · refine serves_of_puts (puts_completeSync hs ?_) (by decide) hopen rfl rfl rfl rfl rfl
    intro kind hkind
    have hspoken : kind ∈ if !tap.initialSyncComplete && (resolve (channelIdentity channel)
        tap).isResolved then tap.projector.reconciliationEvents none else [] :=
      if_pos hresolved ▸ hkind
    exact Projector.sendable_reconciliationEvents hopen hkind (hsizes kind hspoken)
  · exact serves_of_puts (Puts.refl _) (by decide) hopen rfl rfl rfl rfl rfl

theorem serves_resolvePendingChannels (hs : Counted s) (hopen : s.1.projector.OpenFit)
    (h : OpFits s .resolvePendingChannels) :
    Serves clock s (resolvePendingChannels clock s) := by
  obtain ⟨tap, u⟩ := s
  have hsizes := h.sizes
  dsimp only [speaks] at hsizes
  unfold resolvePendingChannels
  dsimp only
  split_ifs with hresolved
  · exact serves_of_puts (Puts.refl _) (by decide) hopen rfl rfl rfl rfl rfl
  · rw [if_neg hresolved] at hsizes
    refine serves_of_puts (puts_completeSync hs ?_) (by decide) hopen rfl rfl rfl rfl rfl
    intro kind hkind
    exact Projector.sendable_reconciliationEvents hopen hkind (hsizes kind hkind)

theorem openFit_takesAll {p : Projector} (hopen : p.OpenFit) {events : List ChatEvent}
    (h : TakesAll p events) :
    (events.foldl (fun p event => (p.project event true none).2) p).OpenFit := by
  induction events generalizing p with
  | nil => exact hopen
  | cons event events ih =>
    exact ih (h.1.channels.narrow (Projector.narrows_project p event true none)) h.2

theorem serves_reconcileSnapshots (hs : Counted s) (hopen : s.1.projector.OpenFit)
    (snapshots : List ChatEvent) (h : OpFits s (.reconcileSnapshots snapshots)) :
    Serves clock s (reconcileSnapshots clock snapshots s) := by
  obtain ⟨tap, u⟩ := s
  have hsizes := h.sizes
  have hfolded := openFit_takesAll hopen h.takes
  dsimp only [speaks] at hsizes
  unfold reconcileSnapshots
  dsimp only
  split_ifs
  · exact serves_of_puts (Puts.refl _) (by decide) hopen rfl rfl rfl rfl rfl
  · refine serves_of_puts (puts_reconcile hs ?_) (by decide) hfolded rfl rfl rfl rfl rfl
    intro kind hkind
    exact Projector.sendable_reconciliationEvents hfolded hkind (hsizes kind hkind)

theorem serves_endSession (hs : Counted s) (hopen : s.1.projector.OpenFit) :
    Serves clock s (endSession clock s) := by
  have hended : EventKind.sessionEnded.Sendable := sendable_bare (by simp)
  have hputs : Puts clock 2 s (emit clock .sessionEnded s) := puts_emit hs hended
  unfold endSession
  split_ifs
  · obtain ⟨hinfo, hprojector, henabled, hmessages, hseq, hpending⟩ := hputs
    have hputs' : Puts clock 2 s ({ (emit clock .sessionEnded s).1 with ended := true },
        (emit clock .sessionEnded s).2) :=
      ⟨hinfo, hprojector, henabled, hmessages, hseq, hpending⟩
    exact serves_of_puts hputs' (by decide) hopen rfl rfl rfl rfl rfl
  · exact serves_of_puts (Puts.refl _) (by decide) hopen rfl rfl rfl rfl rfl

/-- Every operation that fits. -/
theorem serves_perform (hs : Counted s) (henabled : s.2.config.enabled = true)
    (hopen : s.1.projector.OpenFit) {op : Op} (h : OpFits s op) :
    Serves clock s (perform clock op s) := by
  cases op with
  | observe event => exact serves_observe hs event h
  | heartbeat => exact serves_heartbeat hs henabled hopen h
  | observeLeft index => exact serves_observeLeft hs hopen index h
  | rejectChannel channel => exact serves_rejectChannel hs hopen channel h
  | resolvePendingChannels => exact serves_resolvePendingChannels hs hopen h
  | reconcileSnapshots snapshots => exact serves_reconcileSnapshots hs hopen snapshots h
  | endSession => exact serves_endSession hs hopen

end SessionTap

/-! ## Envelopes -/

/-- The check takes the events of a batch one by one. -/
theorem validateEvents_batch {batch : List EventDto} (h : ∀ dto ∈ batch, dto.Conforms)
    (hordered : batch.Pairwise (·.seq < ·.seq)) (index : Nat) {previous : Int}
    (hprevious : ∀ dto ∈ batch, previous < dto.seq) :
    validateEvents (batch.map EventDto.toJs) index previous = .ok (batch.map EventDto.wire) := by
  induction batch generalizing index previous with
  | nil => rfl
  | cons dto batch ih =>
    obtain ⟨hbelow, hordered⟩ := List.pairwise_cons.1 hordered
    have hfirst : validateEvent dto.toJs index = .ok dto.wire :=
      validateEvent_iff.2 ⟨h dto (by simp), rfl⟩
    have hnewer : ¬ (dto.wire.seq : Int) ≤ previous := (hprevious dto (by simp)).not_ge
    have hrest := ih (fun dto hdto => h dto (by simp [hdto])) hordered (index + 1)
      (fun later hlater => Int.ofNat_lt.2 (hbelow later hlater))
    rw [List.map_cons, validateEvents, except_bind_ok]
    refine ⟨dto.wire, hfirst, ?_⟩
    dsimp only
    rw [if_neg hnewer, except_bind_ok]
    exact ⟨_, hrest, rfl⟩

/-- The session record is within the Worker's limits. -/
structure SessionMeta.Conforms (info : SessionMeta) : Prop where
  id : 1 ≤ utf16Length info.id ∧ utf16Length info.id ≤ 64
  product : info.product = "sc2"
  clientVersion : utf16Length info.clientVersion ≤ 32
  startedAt : 0 < info.startedAt ∧ info.startedAt ≤ maxSafeInteger

theorem validateSession_toJs {info : SessionMeta} (h : info.Conforms) :
    validateSession (some info.toJs) =
      .ok ⟨info.id, .sc2, info.clientVersion, info.startedAt⟩ := by
  have hid : asNonEmptyString (info.toJs.get? "id") 64 = some info.id := by
    simp [SessionMeta.toJs, Js.get?, asNonEmptyString, h.id]
  have hproduct : info.toJs.get? "product" = some (.str "sc2") := by
    simp [SessionMeta.toJs, Js.get?, List.lookup_cons, h.product]
  have hversion : asString (info.toJs.get? "client_version") 32 = some info.clientVersion := by
    simp [SessionMeta.toJs, Js.get?, List.lookup_cons, asString, h.clientVersion]
  have hstarted : asPositiveInt (info.toJs.get? "started_at") = some info.startedAt := by
    have hget : info.toJs.get? "started_at" = some (.ofNat info.startedAt) := by
      simp [SessionMeta.toJs, Js.get?, List.lookup_cons]
    rw [hget, asPositiveInt_ofNat h.startedAt.1 h.startedAt.2]
  have hrecord : info.toJs.isRecord = true := rfl
  simp only [validateSession, hrecord, hid, hproduct, hversion, hstarted, if_true]
  rfl

theorem validateEnvelope_batch {info : SessionMeta} (hinfo : info.Conforms)
    {batch : List EventDto} (h : ∀ dto ∈ batch, dto.Conforms)
    (hordered : batch.Pairwise (·.seq < ·.seq)) (hpos : 1 ≤ batch.length)
    (hmax : batch.length ≤ maxEventsPerPost) :
    validateEnvelope (envelopeJs info batch) = .ok ⟨⟨info.id, .sc2, info.clientVersion,
      info.startedAt⟩, batch.map EventDto.wire⟩ := by
  have hsession := validateSession_toJs hinfo
  have hevents : validateEvents (batch.map EventDto.toJs) 0 (-1) = .ok (batch.map EventDto.wire) :=
    validateEvents_batch h hordered 0 fun dto _ => by omega
  have hlength : ¬ ((batch.map EventDto.toJs).length < 1 ∨
      (batch.map EventDto.toJs).length > maxEventsPerPost) := by
    rw [List.length_map]
    omega
  have hget : (envelopeJs info batch).get? "session" = some info.toJs := by
    simp [envelopeJs, Js.get?, List.lookup_cons]
  have hget' : (envelopeJs info batch).get? "events" = some (.arr (batch.map EventDto.toJs)) := by
    simp [envelopeJs, Js.get?, List.lookup_cons]
  have hrecord : (envelopeJs info batch).isRecord = true := rfl
  have hversion : (envelopeJs info batch).get? "v" = some (.num (.int 1)) := rfl
  simp only [validateEnvelope, hrecord, hversion, hget, hget', if_true]
  rw [except_bind_ok]
  refine ⟨_, hsession, ?_⟩
  rw [if_neg hlength, except_bind_ok]
  exact ⟨_, hevents, rfl⟩

end Superiority
