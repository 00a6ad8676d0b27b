import Superiority.Live.Sync
import Superiority.Live.Tap

/-!
# The stored rosters against the client's mirror

A tap whose sharing is on from the start reconciles: it brackets the rosters of all channels that
it has sent a roster of with `sync_started` and `session_synced`. When the emitted events are
stored in order, the store then shows what the projector mirrors.

* **`Projector.Sound`** – what the projector keeps about a channel: a roster that was sent is kept
  with its channel, and members are filed under their handles.
* **`Performs`** – what an operation of a tap on an open channel emits: nothing, one event, or one
  whole reconciliation of the projector it leaves.
* **`mirrored_at_sync`** – right after every `session_synced` the store mirrors the projector.
-/

namespace Superiority

open Std

/-! ## The projector's records -/

namespace Projector

structure Sound (p : Projector) : Prop where
  sent : ∀ index : UInt8, index ∈ p.rosterSent →
    ∃ channel mirror, p.channels[index]? = some channel ∧ p.rosterState[index]? = some mirror
  handles : ∀ (index : UInt8) mirror, p.rosterState[index]? = some mirror →
    ∀ (handle : UInt32) user, mirror[handle]? = some user → user.handle = handle

/-- Members are filed under their handles. -/
def Filed (mirror : RosterMirror) : Prop :=
  ∀ (handle : UInt32) user, mirror[handle]? = some user → user.handle = handle

variable {p : Projector}

theorem filed_empty : Filed ∅ := by
  intro handle user huser
  rw [ExtTreeMap.getElem?_empty] at huser
  cases huser

theorem filed_insert {mirror : RosterMirror} (h : Filed mirror) (user : UserRef) :
    Filed (mirror.insert user.handle user) := by
  intro handle other hother
  simp only [ExtTreeMap.getElem?_insert, Std.compare_eq_iff_eq] at hother
  by_cases hhandle : user.handle = handle
  · rw [if_pos hhandle, Option.some.injEq] at hother
    rw [← hother, hhandle]
  · rw [if_neg hhandle] at hother
    exact h handle other hother

theorem filed_erase {mirror : RosterMirror} (h : Filed mirror) (gone : UInt32) :
    Filed (mirror.erase gone) := by
  intro handle other hother
  rw [ExtTreeMap.getElem?_erase] at hother
  split_ifs at hother
  exact h handle other hother

/-- The mirror of a channel, which may not be there yet. -/
theorem Sound.filed (h : Sound p) (index : UInt8) : Filed (p.rosterState[index]?.getD ∅) := by
  cases hmirror : p.rosterState[index]? with
  | none => exact filed_empty
  | some mirror => exact h.handles index mirror hmirror

/-- Soundness is about the channels, which rosters were sent, and the mirrors. -/
theorem Sound.congr {q : Projector} (h : Sound p) (hchannels : q.channels = p.channels)
    (hsent : q.rosterSent = p.rosterSent) (hstate : q.rosterState = p.rosterState) : Sound q where
  sent := by rw [hchannels, hsent, hstate]; exact h.sent
  handles := by rw [hstate]; exact h.handles

theorem Sound.insertMirror (h : Sound p) (index : UInt8) {mirror : RosterMirror}
    (hmirror : Filed mirror) :
    Sound { p with rosterState := p.rosterState.insert index mirror } where
  sent other hother := by
    obtain ⟨channel, known, hchannel, hknown⟩ := h.sent other hother
    simp only [ExtTreeMap.getElem?_insert, Std.compare_eq_iff_eq]
    by_cases hindex : index = other
    · exact ⟨channel, mirror, hchannel, by rw [if_pos hindex]⟩
    · exact ⟨channel, known, hchannel, by rw [if_neg hindex, hknown]⟩
  handles other known hknown := by
    simp only [ExtTreeMap.getElem?_insert, Std.compare_eq_iff_eq] at hknown
    by_cases hindex : index = other
    · rw [if_pos hindex, Option.some.injEq] at hknown
      exact hknown ▸ hmirror
    · rw [if_neg hindex] at hknown
      exact h.handles other known hknown

/-- Numbering a member leaves channels and mirrors alone. -/
theorem rosterUserRef_frame (p : Projector) (index : UInt8) (user : ChatUser) :
    (p.rosterUserRef index user).1.handle = user.handle ∧
      (p.rosterUserRef index user).2.channels = p.channels ∧
      (p.rosterUserRef index user).2.rosterSent = p.rosterSent ∧
      (p.rosterUserRef index user).2.rosterState = p.rosterState := by
  unfold rosterUserRef joinedOrder
  dsimp only
  split
  · exact ⟨rfl, rfl, rfl, rfl⟩
  · exact ⟨rfl, rfl, rfl, rfl⟩

theorem sound_rosterUserRef (h : Sound p) (index : UInt8) (user : ChatUser) :
    Sound (p.rosterUserRef index user).2 := by
  obtain ⟨-, hchannels, hsent, hstate⟩ := p.rosterUserRef_frame index user
  exact h.congr hchannels hsent hstate

theorem mirrorOf_frame (index : UInt8) (users : List ChatUser) (mirror : RosterMirror)
    (p : Projector) :
    (mirrorOf index users mirror p).2.channels = p.channels ∧
      (mirrorOf index users mirror p).2.rosterSent = p.rosterSent ∧
      (mirrorOf index users mirror p).2.rosterState = p.rosterState := by
  induction users generalizing mirror p with
  | nil => exact ⟨rfl, rfl, rfl⟩
  | cons user users ih =>
    obtain ⟨-, hchannels, hsent, hstate⟩ := p.rosterUserRef_frame index user
    obtain ⟨hchannels', hsent', hstate'⟩ := ih (mirror.insert user.handle
      (p.rosterUserRef index user).1) (p.rosterUserRef index user).2
    exact ⟨hchannels'.trans hchannels, hsent'.trans hsent, hstate'.trans hstate⟩

theorem filed_mirrorOf (index : UInt8) (users : List ChatUser) {mirror : RosterMirror}
    (h : Filed mirror) (p : Projector) : Filed (mirrorOf index users mirror p).1 := by
  induction users generalizing mirror p with
  | nil => exact h
  | cons user users ih =>
    have hhandle := (p.rosterUserRef_frame index user).1
    have hinsert := filed_insert h (p.rosterUserRef index user).1
    rw [hhandle] at hinsert
    exact ih hinsert _

theorem sound_mirrorOf (h : Sound p) (index : UInt8) (users : List ChatUser)
    (mirror : RosterMirror) : Sound (mirrorOf index users mirror p).2 := by
  obtain ⟨hchannels, hsent, hstate⟩ := mirrorOf_frame index users mirror p
  exact h.congr hchannels hsent hstate

/-- Forgetting a roster, whatever becomes of its channel. -/
theorem sound_forget (h : Sound p) (index : UInt8) {q : Projector}
    (hchannels : ∀ other : UInt8, other ≠ index → q.channels[other]? = p.channels[other]?)
    (hsent : q.rosterSent = p.rosterSent.erase index)
    (hstate : q.rosterState = p.rosterState.erase index) : Sound q where
  sent other hother := by
    rw [hsent, ExtTreeSet.mem_erase] at hother
    obtain ⟨hne, hother⟩ := hother
    obtain ⟨channel, mirror, hchannel, hmirror⟩ := h.sent other hother
    rw [Ne, Std.compare_eq_iff_eq] at hne
    rw [hchannels other (Ne.symm hne), hstate, ExtTreeMap.getElem?_erase,
      if_neg (by rwa [Std.compare_eq_iff_eq])]
    exact ⟨channel, mirror, hchannel, hmirror⟩
  handles other mirror hmirror := by
    rw [hstate, ExtTreeMap.getElem?_erase] at hmirror
    split_ifs at hmirror
    exact h.handles other mirror hmirror

theorem sound_learn (h : Sound p) (event : ChatEvent) : Sound (p.learn event) := by
  unfold learn
  split
  · rename_i index channel handle
    refine sound_forget h index (fun other hother => ?_) rfl rfl
    exact ExtTreeMap.getElem?_insert.trans (if_neg (by simpa using Ne.symm hother))
  · exact h.congr rfl rfl rfl
  · exact h.congr rfl rfl rfl
  · exact h

theorem sound_leave (h : Sound p) (index : UInt8) (enabled : Bool)
    (shared : Option (ExtTreeSet String)) : Sound (p.leave index enabled shared).2 := by
  refine sound_forget h index (fun other hother => ?_) rfl rfl
  exact ExtTreeMap.getElem?_erase.trans (if_neg (by simpa using Ne.symm hother))

theorem sound_projectRoster (h : Sound p) (snapshot : RosterSnapshot)
    (shared : Option (ExtTreeSet String)) : Sound (p.projectRoster snapshot shared).2 := by
  unfold projectRoster
  by_cases hcomplete : snapshot.initialComplete
  swap
  · rw [if_neg hcomplete]
    exact h
  rw [if_pos hcomplete]
  dsimp only
  cases hchannel : p.sharedIndex snapshot.channelIndex shared with
  | none => exact h
  | some ref =>
    have hmirror := sound_mirrorOf h snapshot.channelIndex snapshot.users ∅
    have hfiled := filed_mirrorOf snapshot.channelIndex snapshot.users filed_empty p
    have hinsert := hmirror.insertMirror snapshot.channelIndex hfiled
    dsimp only
    by_cases hsent : (mirrorOf snapshot.channelIndex snapshot.users ∅ p).2.rosterSent.contains
        snapshot.channelIndex
    · rw [if_pos hsent]
      exact hinsert
    · rw [if_neg hsent]
      refine ⟨fun index hindex => ?_, hinsert.handles⟩
      rw [ExtTreeSet.mem_insert, Std.compare_eq_iff_eq] at hindex
      rcases hindex with rfl | hindex
      · obtain ⟨channel, hopen, -⟩ := Option.bind_eq_some_iff.1 hchannel
        rw [(mirrorOf_frame _ _ _ _).1]
        exact ⟨channel, _, hopen, ExtTreeMap.getElem?_insert_self⟩
      · exact hinsert.sent index hindex

theorem sound_projectMemberJoined (h : Sound p) (index : UInt8) (user : ChatUser)
    (shared : Option (ExtTreeSet String)) :
    Sound (p.projectMemberJoined index user shared).2 := by
  have hnumbered := sound_rosterUserRef h index user
  have hfiled := filed_insert (hnumbered.filed index) (p.rosterUserRef index user).1
  rw [(p.rosterUserRef_frame index user).1] at hfiled
  exact hnumbered.insertMirror index hfiled

theorem sound_projectMemberLeft (h : Sound p) (index : UInt8) (user : ChatUser)
    (shared : Option (ExtTreeSet String)) :
    Sound (p.projectMemberLeft index user shared).2 := by
  unfold projectMemberLeft
  dsimp only
  split
  · exact (h.insertMirror index (filed_erase (h.filed index) user.handle)).congr rfl rfl rfl
  · have hnumbered := sound_rosterUserRef h index user
    exact (hnumbered.insertMirror index
      (filed_erase (hnumbered.filed index) user.handle)).congr rfl rfl rfl

theorem sound_project (h : Sound p) (event : ChatEvent) (enabled : Bool)
    (shared : Option (ExtTreeSet String)) : Sound (p.project event enabled shared).2 := by
  have hlearned := sound_learn h event
  unfold project
  dsimp only
  split_ifs
  · cases event with
    | roster snapshot => exact sound_projectRoster hlearned snapshot shared
    | memberJoined index user => exact sound_projectMemberJoined hlearned index user shared
    | memberLeft index user => exact sound_projectMemberLeft hlearned index user shared
    | removed index => exact sound_leave hlearned index enabled shared
    | groupSummary clubId name => cases name <;> exact hlearned
    | _ => exact hlearned
  · exact hlearned

/-! ## What a reconciliation brings -/

/-- The channel and the users of a roster. -/
def rosterEntry : EventKind → Option (String × List UserRef)
  | .roster channel _ _ users => some (channel.key, users)
  | _ => none

/-- The rosters of a reconciliation, by channel. -/
def sentRosters (p : Projector) : List (String × List UserRef) :=
  (p.reconciliationEvents none).filterMap rosterEntry

/-- No two open channel indices have the same identity. -/
def DistinctChannels (p : Projector) : Prop :=
  ∀ (index other : UInt8) channel channel', p.channels[index]? = some channel →
    p.channels[other]? = some channel' → channelIdentity channel = channelIdentity channel' →
    index = other

theorem distinctChannels_iff :
    DistinctChannels p ↔ (p.channels.toList.map fun entry => channelIdentity entry.2).Nodup := by
  constructor
  · intro h
    rw [List.Nodup, List.pairwise_map]
    refine List.Pairwise.imp_of_mem (fun {entry other} hentry hother hne heq => ?_)
      p.channels.distinct_keys_toList
    exact hne (Std.compare_eq_iff_eq.2 (h entry.1 other.1 entry.2 other.2
      (ExtTreeMap.mem_toList_iff_getElem?_eq_some.1 hentry)
      (ExtTreeMap.mem_toList_iff_getElem?_eq_some.1 hother) heq))
  · intro h index other channel channel' hchannel hother heq
    have hentry := List.inj_on_of_nodup_map h
      (ExtTreeMap.mem_toList_iff_getElem?_eq_some.2 hchannel)
      (ExtTreeMap.mem_toList_iff_getElem?_eq_some.2 hother) heq
    exact congrArg Prod.fst hentry

instance (p : Projector) : Decidable (DistinctChannels p) :=
  decidable_of_iff _ distinctChannels_iff.symm

theorem reconciliationEvent_eq_some {index : UInt8} {channel : ChatChannel} {kind : EventKind}
    (h : p.reconciliationEvent none index channel = some kind) :
    index ∈ p.rosterSent ∧ ∃ mirror, p.rosterState[index]? = some mirror ∧
      kind = .roster (channelRef channel p.clubNames p.publicNames) true
        (saturatedCount (mirror.toList.map (·.2)).length) (mirror.toList.map (·.2)) := by
  unfold reconciliationEvent at h
  split_ifs at h with hsent
  refine ⟨ExtTreeSet.contains_iff_mem.1 hsent, ?_⟩
  cases hmirror : p.rosterState[index]? with
  | none =>
    rw [hmirror] at h
    cases h
  | some mirror =>
    rw [hmirror] at h
    exact ⟨mirror, rfl, (Option.some.inj h).symm⟩

theorem mem_reconciliationEvents {kind : EventKind} (h : kind ∈ p.reconciliationEvents none) :
    ∃ (index : UInt8) (channel : ChatChannel) (mirror : RosterMirror),
      p.channels[index]? = some channel ∧ index ∈ p.rosterSent ∧
      p.rosterState[index]? = some mirror ∧
      kind = .roster (channelRef channel p.clubNames p.publicNames) true
        (saturatedCount (mirror.toList.map (·.2)).length) (mirror.toList.map (·.2)) := by
  obtain ⟨⟨index, channel⟩, hmem, hevent⟩ := List.mem_filterMap.1 h
  obtain ⟨hsent, mirror, hmirror, hkind⟩ := reconciliationEvent_eq_some hevent
  exact ⟨index, channel, mirror, ExtTreeMap.mem_toList_iff_getElem?_eq_some.1 hmem, hsent, hmirror,
    hkind⟩

theorem mem_sentRosters {entry : String × List UserRef} (h : entry ∈ p.sentRosters) :
    ∃ (index : UInt8) (channel : ChatChannel) (mirror : RosterMirror),
      p.channels[index]? = some channel ∧ index ∈ p.rosterSent ∧
      p.rosterState[index]? = some mirror ∧
      entry = (channelIdentity channel, mirror.toList.map (·.2)) := by
  obtain ⟨kind, hmem, hentry⟩ := List.mem_filterMap.1 h
  obtain ⟨index, channel, mirror, hchannel, hsent, hmirror, rfl⟩ := mem_reconciliationEvents hmem
  exact ⟨index, channel, mirror, hchannel, hsent, hmirror, (Option.some.inj hentry).symm⟩

/-- A channel whose roster was sent is part of the reconciliation. -/
theorem sentRosters_of_sent {index : UInt8} {channel : ChatChannel} {mirror : RosterMirror}
    (hchannel : p.channels[index]? = some channel) (hsent : index ∈ p.rosterSent)
    (hmirror : p.rosterState[index]? = some mirror) :
    (channelIdentity channel, mirror.toList.map (·.2)) ∈ p.sentRosters := by
  refine List.mem_filterMap.2 ⟨.roster (channelRef channel p.clubNames p.publicNames) true
    (saturatedCount (mirror.toList.map (·.2)).length) (mirror.toList.map (·.2)), ?_, rfl⟩
  refine List.mem_filterMap.2 ⟨(index, channel),
    ExtTreeMap.mem_toList_iff_getElem?_eq_some.2 hchannel, ?_⟩
  dsimp only
  rw [reconciliationEvent, if_pos (ExtTreeSet.contains_iff_mem.2 hsent), hmirror]
  rfl

theorem nodup_sentRosters (h : DistinctChannels p) : (p.sentRosters.map (·.1)).Nodup := by
  have hkeys := p.channels.distinct_keys_toList
  have hopen : ∀ entry ∈ p.channels.toList, p.channels[entry.1]? = some entry.2 :=
    fun entry hentry => ExtTreeMap.mem_toList_iff_getElem?_eq_some.1 hentry
  rw [sentRosters, reconciliationEvents, List.filterMap_filterMap, List.Nodup, List.pairwise_map,
    List.pairwise_filterMap]
  refine List.Pairwise.imp_of_mem (fun {entry other} hentry hother hne => ?_) hkeys
  intro roster hroster roster' hroster' heq
  obtain ⟨kind, hkind, hroster⟩ := Option.bind_eq_some_iff.1 hroster
  obtain ⟨kind', hkind', hroster'⟩ := Option.bind_eq_some_iff.1 hroster'
  obtain ⟨-, mirror, -, rfl⟩ := reconciliationEvent_eq_some hkind
  obtain ⟨-, mirror', -, rfl⟩ := reconciliationEvent_eq_some hkind'
  rw [← Option.some.inj hroster, ← Option.some.inj hroster'] at heq
  exact hne (Std.compare_eq_iff_eq.2
    (h entry.1 other.1 entry.2 other.2 (hopen entry hentry) (hopen other hother) heq))

/-- The users of a mirror have different handles. -/
theorem nodup_mirror {mirror : RosterMirror} (h : Filed mirror) :
    ((mirror.toList.map (·.2)).map (·.handle)).Nodup := by
  have hkeys : (mirror.toList.map (·.2)).map (·.handle) = mirror.toList.map (·.1) := by
    rw [List.map_map]
    refine List.map_congr_left fun entry hentry => ?_
    exact h entry.1 entry.2 (ExtTreeMap.mem_toList_iff_getElem?_eq_some.1 hentry)
  rw [hkeys, ExtTreeMap.map_fst_toList_eq_keys]
  exact ExtTreeMap.nodup_keys

/-- The members a mirror shows. -/
def mirrorViews (mirror : RosterMirror) : Set RosterView :=
  {view | ∃ (handle : UInt32) (user : UserRef), mirror[handle]? = some user ∧ user.view = view}

theorem userViews_toList (mirror : RosterMirror) :
    userViews (mirror.toList.map (·.2)) = mirrorViews mirror := by
  ext view
  simp only [userViews, mirrorViews, Set.mem_ofPred_eq, List.mem_map]
  constructor
  · rintro ⟨user, ⟨entry, hentry, rfl⟩, hview⟩
    exact ⟨entry.1, entry.2, ExtTreeMap.mem_toList_iff_getElem?_eq_some.1 hentry, hview⟩
  · rintro ⟨handle, user, huser, hview⟩
    exact ⟨user, ⟨(handle, user), ExtTreeMap.mem_toList_iff_getElem?_eq_some.2 huser, rfl⟩, hview⟩

end Projector

/-- The open channels of the session are those with a roster sent, and each has the members that
the projector mirrors, who have different handles. -/
structure Mirrors (t : SessionTables) (p : Projector) : Prop where
  channels : ∀ key : String, (∃ row, t.channels[key]? = some row ∧ row.closedAt = none) ↔
    ∃ (index : UInt8) (channel : ChatChannel), p.channels[index]? = some channel ∧
      index ∈ p.rosterSent ∧ channelIdentity channel = key
  rosters : ∀ (index : UInt8) (channel : ChatChannel), p.channels[index]? = some channel →
    index ∈ p.rosterSent → ∃ mirror, p.rosterState[index]? = some mirror ∧
      Projector.Filed mirror ∧
      storedViews (t.roster[channelIdentity channel]?.getD ∅) = Projector.mirrorViews mirror

/-! ## Storing what a tap emits -/

/-- The events of a list of kinds, numbered from `seq`. -/
def numbered (clock : Nat → Nat) : (seq : Nat) → List EventKind → List EventDto
  | _, [] => []
  | seq, kind :: kinds => ⟨seq, clock seq, kind⟩ :: numbered clock (seq + 1) kinds

theorem numbered_append (clock : Nat → Nat) (seq : Nat) (first later : List EventKind) :
    numbered clock seq (first ++ later) =
      numbered clock seq first ++ numbered clock (seq + first.length) later := by
  induction first generalizing seq with
  | nil => rfl
  | cons kind first ih =>
    rw [List.cons_append, numbered, ih, numbered, List.length_cons, List.cons_append,
      Nat.add_assoc, Nat.add_comm 1]

theorem kinds_numbered (clock : Nat → Nat) (seq : Nat) (kinds : List EventKind) :
    (numbered clock seq kinds).map (·.kind) = kinds := by
  induction kinds generalizing seq with
  | nil => rfl
  | cons kind kinds ih => rw [numbered, List.map_cons, ih]

/-- The Worker accepts the event and takes all of its users' fields. -/
def EventDto.Passes (dto : EventDto) : Prop :=
  dto.Conforms ∧ ∀ users ∈ dto.kind.users?, ∀ user ∈ users, user.FieldsPass

instance (dto : EventDto) : Decidable dto.Passes :=
  inferInstanceAs (Decidable (dto.Conforms ∧
    ∀ users ∈ dto.kind.users?, ∀ user ∈ users, user.FieldsPass))

namespace SessionTables

variable {t : SessionTables} (session : WireSession) (times : Nat → Nat) (clock : Nat → Nat)

theorem ready_storeDtos {seq : Nat} {kinds : List EventKind} (h : Ready t seq)
    (hpass : ∀ dto ∈ numbered clock seq kinds, dto.Passes) (hkinds : .sessionEnded ∉ kinds) :
    Ready (storeDtos session times t (numbered clock seq kinds)) (seq + kinds.length) := by
  induction kinds generalizing t seq with
  | nil => exact h
  | cons kind kinds ih =>
    rw [List.mem_cons, not_or] at hkinds
    have hkind : kind.wireKind ≠ .sessionEnded := by
      intro hkind
      cases kind with
      | sessionEnded => exact hkinds.1 rfl
      | _ => cases hkind
    have hconforms := (hpass ⟨seq, clock seq, kind⟩ (by simp [numbered])).1
    have hstored := ready_storeDto session times h hconforms hkind
    have hrest := ih hstored (fun dto hdto => hpass dto (by simp [numbered, hdto])) hkinds.2
    rw [List.length_cons, Nat.add_comm kinds.length, ← Nat.add_assoc]
    exact hrest

/-- The rosters of a reconciliation are stored one after another. -/
theorem storeDtos_rosters {kinds : List EventKind}
    (hkinds : ∀ kind ∈ kinds, ∃ channel count users, kind = .roster channel true count users)
    {start next : Nat} {brought : List (String × List UserRef)}
    (h : Restored t start next brought) (hstart : start ≤ next)
    (hpass : ∀ dto ∈ numbered clock next kinds, dto.Passes)
    (hnodup : ∀ entry ∈ kinds.filterMap Projector.rosterEntry, (entry.2.map (·.handle)).Nodup)
    (hkeys : ((kinds.filterMap Projector.rosterEntry).map (·.1)).Nodup)
    (hfresh : ∀ entry ∈ kinds.filterMap Projector.rosterEntry, entry.1 ∉ brought.map (·.1)) :
    Restored (storeDtos session times t (numbered clock next kinds)) start (next + kinds.length)
      ((kinds.filterMap Projector.rosterEntry).reverse ++ brought) := by
  induction kinds generalizing t next brought with
  | nil => exact h
  | cons kind kinds ih =>
    obtain ⟨channel, count, users, rfl⟩ := hkinds kind (by simp)
    have hentry : (EventKind.roster channel true count users :: kinds).filterMap
        Projector.rosterEntry =
      (channel.key, users) :: kinds.filterMap Projector.rosterEntry := rfl
    rw [hentry] at hnodup hkeys hfresh ⊢
    rw [List.map_cons, List.nodup_cons] at hkeys
    obtain ⟨hconforms, hfields⟩ := hpass ⟨next, clock next, .roster channel true count users⟩
      (by simp [numbered])
    have hstored := storeDto_roster session times h hstart hconforms rfl
      (hfresh (channel.key, users) (by simp)) (hfields users rfl)
      (hnodup (channel.key, users) (by simp))
    have hrest := ih (fun kind hkind => hkinds kind (by simp [hkind])) hstored
      (Nat.le_succ_of_le hstart)
      (fun dto hdto => hpass dto (by simp [numbered, hdto]))
      (fun entry hentry => hnodup entry (by simp [hentry])) hkeys.2 fun entry hentry => by
        rw [List.map_cons, List.mem_cons, not_or]
        exact ⟨fun heq => hkeys.1 (heq ▸ List.mem_map_of_mem hentry),
          hfresh entry (by simp [hentry])⟩
    rw [List.reverse_cons, List.append_assoc, List.length_cons, ← Nat.add_assoc,
      Nat.add_right_comm]
    exact hrest

/-- **One reconciliation.** Stored from its `sync_started` to its `session_synced`, it leaves the
store mirroring the projector. -/
theorem mirrors_of_reconciliation {p : Projector} {seq : Nat} (h : Ready t seq)
    (hsound : p.Sound) (hdistinct : p.DistinctChannels)
    (hpass : ∀ dto ∈ numbered clock seq (.syncStarted :: p.reconciliationEvents none ++
      [.sessionSynced]), dto.Passes) :
    Mirrors (storeDtos session times t (numbered clock seq
      (.syncStarted :: p.reconciliationEvents none ++ [.sessionSynced]))) p := by
  set kinds := p.reconciliationEvents none with hkinds
  have hsplit : numbered clock seq (.syncStarted :: kinds ++ [.sessionSynced]) =
      ⟨seq, clock seq, .syncStarted⟩ :: numbered clock (seq + 1) kinds ++
        [⟨seq + 1 + kinds.length, clock (seq + 1 + kinds.length), .sessionSynced⟩] := by
    rw [List.cons_append, numbered, numbered_append]
    rfl
  rw [hsplit] at hpass ⊢
  have hentries : ∀ entry ∈ kinds.filterMap Projector.rosterEntry,
      (entry.2.map (·.handle)).Nodup := fun entry hentry => by
    obtain ⟨index, channel, mirror, -, -, hmirror, rfl⟩ := Projector.mem_sentRosters hentry
    exact Projector.nodup_mirror (hsound.handles index mirror hmirror)
  have hcomplete : ∀ kind ∈ kinds, ∃ channel count users,
      kind = .roster channel true count users := fun kind hkind => by
    obtain ⟨index, channel, mirror, -, -, -, rfl⟩ := Projector.mem_reconciliationEvents hkind
    exact ⟨_, _, _, rfl⟩
  have hfirst := (hpass ⟨seq, clock seq, .syncStarted⟩ (by simp)).1
  have hlast := (hpass ⟨seq + 1 + kinds.length, clock (seq + 1 + kinds.length), .sessionSynced⟩
    (by simp)).1
  have hstarted := storeDto_syncStarted session times h hfirst rfl
  have hrosters := storeDtos_rosters session times clock hcomplete hstarted (Nat.le_succ seq)
    (fun dto hdto => hpass dto (by simp [hdto])) hentries
    (Projector.nodup_sentRosters hdistinct) (by simp)
  obtain ⟨hchannels, hmembers⟩ := storeDto_sessionSynced session times hrosters hlast rfl
  rw [List.append_nil] at hchannels hmembers
  have hstored : storeDtos session times t (⟨seq, clock seq, .syncStarted⟩ ::
      numbered clock (seq + 1) kinds ++
        [⟨seq + 1 + kinds.length, clock (seq + 1 + kinds.length), .sessionSynced⟩]) =
      storeDto session times (storeDtos session times (storeDto session times t
        ⟨seq, clock seq, .syncStarted⟩) (numbered clock (seq + 1) kinds))
        ⟨seq + 1 + kinds.length, clock (seq + 1 + kinds.length), .sessionSynced⟩ := by
    rw [storeDtos, List.foldl_append]
    rfl
  rw [hstored]
  constructor
  · intro key
    rw [hchannels, List.map_reverse, List.mem_reverse, List.mem_map]
    constructor
    · rintro ⟨entry, hentry, rfl⟩
      obtain ⟨index, channel, mirror, hchannel, hsent, -, rfl⟩ :=
        Projector.mem_sentRosters hentry
      exact ⟨index, channel, hchannel, hsent, rfl⟩
    · rintro ⟨index, channel, hchannel, hsent, rfl⟩
      obtain ⟨-, mirror, -, hmirror⟩ := hsound.sent index hsent
      exact ⟨_, Projector.sentRosters_of_sent hchannel hsent hmirror, rfl⟩
  · intro index channel hchannel hsent
    obtain ⟨-, mirror, -, hmirror⟩ := hsound.sent index hsent
    have hentry := Projector.sentRosters_of_sent hchannel hsent hmirror
    refine ⟨mirror, hmirror, hsound.handles index mirror hmirror, ?_⟩
    rw [← Projector.userViews_toList]
    exact hmembers _ (List.mem_reverse.2 hentry)

end SessionTables

/-! ## What a tap emits -/

/-- The events on the channel. -/
def Uplink.emitted (u : Uplink) : List EventDto :=
  (u.channel.filterMap TapMessage.carried).map (·.2)

namespace SessionTap

/-- The session is announced and open, sharing is on, and the channel takes everything. -/
structure Sharing (s : Tapped) : Prop where
  announced : s.1.announced = true
  ended : s.1.ended = false
  pendingDropped : s.1.pendingDropped = 0
  enabled : s.2.config.enabled = true
  room : s.2.room = []

variable {clock : Nat → Nat} {s s' s'' : Tapped}

/-- From `s` to `s'` events of the given kinds have been emitted, and nothing else has happened. -/
structure Emits (clock : Nat → Nat) (s s' : Tapped) (kinds : List EventKind) : Prop where
  sharing : Sharing s'
  projector : s'.1.projector = s.1.projector
  nextSeq : s'.1.nextSeq = s.1.nextSeq + kinds.length
  emitted : s'.2.emitted = s.2.emitted ++ numbered clock s.1.nextSeq kinds

theorem Emits.refl (h : Sharing s) : Emits clock s s [] := ⟨h, rfl, rfl, (List.append_nil _).symm⟩

theorem Emits.trans {kinds kinds' : List EventKind} (h : Emits clock s s' kinds)
    (h' : Emits clock s' s'' kinds') : Emits clock s s'' (kinds ++ kinds') where
  sharing := h'.sharing
  projector := h'.projector.trans h.projector
  nextSeq := by rw [h'.nextSeq, h.nextSeq, List.length_append, Nat.add_assoc]
  emitted := by rw [h'.emitted, h.emitted, h.nextSeq, numbered_append, List.append_assoc]

theorem emits_emit (h : Sharing s) (kind : EventKind) :
    Emits clock s (emit clock kind s) [kind] := by
  obtain ⟨tap, u⟩ := s
  rw [emit_accepted clock h.pendingDropped h.room]
  refine ⟨⟨h.announced, h.ended, h.pendingDropped, h.enabled, rfl⟩, rfl, rfl, ?_⟩
  simp [Uplink.emitted, TapMessage.carried, numbered]

theorem emits_announceAndEmit (h : Sharing s) (kind : EventKind) :
    Emits clock s (announceAndEmit clock kind s) [kind] := by
  have hannounce : announce clock s = (true, s) := by
    rw [announce]
    exact if_pos h.announced
  rw [announceAndEmit, hannounce]
  exact emits_emit h kind

theorem emits_foldl (h : Sharing s) (kinds : List EventKind) :
    Emits clock s (kinds.foldl (fun s kind => emit clock kind s) s) kinds := by
  induction kinds generalizing s with
  | nil => exact Emits.refl h
  | cons kind kinds ih => exact (emits_emit h kind).trans (ih (emits_emit h kind).sharing)

/-- The kinds of one reconciliation. -/
def syncKinds (p : Projector) : List EventKind :=
  if p.reconciliationEvents none = [] then []
  else .syncStarted :: p.reconciliationEvents none ++ [.sessionSynced]

theorem emits_reconcile (h : Sharing s) :
    Emits clock s (reconcile clock s) (syncKinds s.1.projector) := by
  unfold reconcile syncKinds
  dsimp only
  split_ifs
  · exact Emits.refl h
  · have hstarted : Emits clock s _ [.syncStarted] := emits_announceAndEmit h .syncStarted
    have hrosters := hstarted.trans (emits_foldl hstarted.sharing
      (s.1.projector.reconciliationEvents none))
    exact hrosters.trans (emits_emit hrosters.sharing .sessionSynced)

theorem emits_completeSync (h : Sharing s) :
    Emits clock s (completeSync clock s) (syncKinds s.1.projector) := by
  obtain ⟨hsharing, hprojector, hseq, hemitted⟩ :
      Emits clock s _ (syncKinds s.1.projector) := emits_reconcile h
  exact ⟨⟨hsharing.announced, hsharing.ended, hsharing.pendingDropped, hsharing.enabled,
    hsharing.room⟩, hprojector, hseq, hemitted⟩

/-- A kind of event that neither ends the session nor a reconciliation, nor starts a session. -/
def IsPlain (kind : EventKind) : Prop :=
  kind ≠ .sessionEnded ∧ kind ≠ .sessionSynced ∧ kind ≠ .sessionStarted

/-- What an operation emits: nothing, one plain event, or a reconciliation of the projector. -/
inductive Shape (p : Projector) : List EventKind → Prop
  | none : Shape p []
  | plain {kind : EventKind} (h : IsPlain kind) : Shape p [kind]
  | sync (h : p.reconciliationEvents none ≠ []) :
      Shape p (.syncStarted :: p.reconciliationEvents none ++ [.sessionSynced])

theorem shape_syncKinds (p : Projector) : Shape p (syncKinds p) := by
  unfold syncKinds
  split_ifs with h
  · exact .none
  · exact .sync h

/-- An operation of a tap from `s` to `s'`. -/
structure Performs (clock : Nat → Nat) (s s' : Tapped) : Prop where
  sharing : Sharing s'
  sound : s'.1.projector.Sound
  emits : ∃ kinds, Shape s'.1.projector kinds ∧ s'.1.nextSeq = s.1.nextSeq + kinds.length ∧
    s'.2.emitted = s.2.emitted ++ numbered clock s.1.nextSeq kinds

/-- An operation that first changes its own records, then emits. -/
theorem performs_of_emits {s₀ : Tapped} {kinds : List EventKind}
    (h : Emits clock s₀ s' kinds) (hshape : Shape s₀.1.projector kinds)
    (hsound : s₀.1.projector.Sound) (hseq : s₀.1.nextSeq = s.1.nextSeq)
    (hchannel : s₀.2.channel = s.2.channel) : Performs clock s s' where
  sharing := h.sharing
  sound := h.projector ▸ hsound
  emits := ⟨kinds, h.projector ▸ hshape, h.nextSeq.trans (by rw [hseq]),
    h.emitted.trans (by rw [Uplink.emitted, hchannel, hseq]; rfl)⟩

/-- An operation that changes its own records only. -/
theorem performs_quiet (h : Sharing s') (hsound : s'.1.projector.Sound)
    (hseq : s'.1.nextSeq = s.1.nextSeq) (hchannel : s'.2.channel = s.2.channel) :
    Performs clock s s' :=
  performs_of_emits (Emits.refl h) .none hsound hseq hchannel

theorem isPlain_projectRoster {p : Projector} {snapshot : RosterSnapshot}
    {shared : Option (ExtTreeSet String)} {kind : EventKind}
    (h : (p.projectRoster snapshot shared).1 = some kind) : IsPlain kind := by
  unfold Projector.projectRoster at h
  split at h
  · dsimp only at h
    cases hchannel : p.sharedIndex snapshot.channelIndex shared with
    | none =>
      rw [hchannel] at h
      cases h
    | some channel =>
      rw [hchannel] at h
      dsimp only at h
      split at h
      · dsimp only at h
        split at h
        · cases h
        · cases h
          exact ⟨nofun, nofun, nofun⟩
      · cases h
        exact ⟨nofun, nofun, nofun⟩
  · cases h

/-- Projection neither starts nor ends the session, nor ends a reconciliation. -/
theorem isPlain_project {p : Projector} {event : ChatEvent} {enabled : Bool}
    {shared : Option (ExtTreeSet String)} {kind : EventKind}
    (h : (p.project event enabled shared).1 = some kind) : IsPlain kind := by
  unfold Projector.project at h
  dsimp only at h
  split at h
  · cases event with
    | joined index channel handle =>
      obtain ⟨channel, -, rfl⟩ := Option.map_eq_some_iff.1 h
      exact ⟨nofun, nofun, nofun⟩
    | roster snapshot => exact isPlain_projectRoster h
    | memberJoined index user =>
      obtain ⟨channel, -, rfl⟩ := Option.map_eq_some_iff.1 h
      exact ⟨nofun, nofun, nofun⟩
    | memberLeft index user =>
      obtain ⟨channel, -, rfl⟩ := Option.map_eq_some_iff.1 h
      exact ⟨nofun, nofun, nofun⟩
    | removed index =>
      obtain ⟨channel, -, rfl⟩ := Option.map_eq_some_iff.1 h
      exact ⟨nofun, nofun, nofun⟩
    | message index sender body =>
      obtain ⟨channel, -, rfl⟩ := Option.map_eq_some_iff.1 h
      exact ⟨nofun, nofun, nofun⟩
    | groupSummary clubId name =>
      cases name with
      | none => cases h
      | some name =>
        obtain ⟨channel, -, rfl⟩ := Option.map_eq_some_iff.1 h
        exact ⟨nofun, nofun, nofun⟩
    | _ => cases h
  · cases h

theorem shareClubName_frame (event : ChatEvent) (u : Uplink) :
    (shareClubName event u).config = u.config ∧ (shareClubName event u).room = u.room ∧
      (shareClubName event u).channel = u.channel := by
  unfold shareClubName
  split
  · exact ⟨rfl, rfl, rfl⟩
  · exact ⟨rfl, rfl, rfl⟩

/-- Sharing is about a few fields of the tap and of what it shares. -/
theorem Sharing.congr (h : Sharing s) (hannounced : s'.1.announced = s.1.announced)
    (hended : s'.1.ended = s.1.ended) (hdropped : s'.1.pendingDropped = s.1.pendingDropped)
    (hconfig : s'.2.config = s.2.config) (hroom : s'.2.room = s.2.room) : Sharing s' where
  announced := hannounced.trans h.announced
  ended := hended.trans h.ended
  pendingDropped := hdropped.trans h.pendingDropped
  enabled := by rw [hconfig, h.enabled]
  room := hroom.trans h.room

theorem performs_observe (h : Sharing s) (hsound : s.1.projector.Sound) (event : ChatEvent) :
    Performs clock s (observe clock event s) := by
  obtain ⟨tap, u⟩ := s
  obtain ⟨hconfig, hroom, hchannel⟩ := shareClubName_frame event u
  have hprojected := Projector.sound_project hsound event (shareClubName event u).config.enabled
    none
  unfold observe
  dsimp only
  cases hkind : (tap.projector.project event (shareClubName event u).config.enabled none).1 with
  | none =>
    exact performs_quiet (h.congr rfl rfl rfl hconfig hroom) hprojected rfl hchannel
  | some kind =>
    have hplain := isPlain_project hkind
    have htapped : Sharing ({ tap with
        projector := (tap.projector.project event (shareClubName event u).config.enabled none).2 },
        shareClubName event u) :=
      h.congr rfl rfl rfl hconfig hroom
    split
    · rename_i hnone
      cases hnone
    · rename_i channel _ _ _
      have hresolved : Sharing (SessionTap.resolve channel.key { tap with
          projector :=
            (tap.projector.project event (shareClubName event u).config.enabled none).2 },
          shareClubName event u) :=
        htapped.congr rfl rfl rfl rfl rfl
      split_ifs
      · exact performs_of_emits (emits_completeSync hresolved) (shape_syncKinds _) hprojected rfl
          hchannel
      · exact performs_quiet hresolved hprojected rfl hchannel
    · rename_i other _ hother
      cases hother
      exact performs_of_emits (emits_announceAndEmit htapped kind) (.plain hplain) hprojected rfl
        hchannel

theorem performs_heartbeat (h : Sharing s) (hsound : s.1.projector.Sound) :
    Performs clock s (heartbeat clock s) := by
  have hplain : IsPlain .heartbeat := ⟨nofun, nofun, nofun⟩
  have hheartbeat : heartbeat clock s = emit clock .heartbeat s := by
    simp [heartbeat, h.enabled, h.ended, h.announced]
  rw [hheartbeat]
  exact performs_of_emits (emits_emit h .heartbeat) (.plain hplain) hsound rfl rfl

theorem performs_observeLeft (h : Sharing s) (hsound : s.1.projector.Sound) (index : UInt8) :
    Performs clock s (observeLeft clock index s) := by
  obtain ⟨tap, u⟩ := s
  have hleft := Projector.sound_leave hsound index u.config.enabled none
  have htapped : Sharing ({ tap with
      projector := (tap.projector.leave index u.config.enabled none).2 }, u) :=
    h.congr rfl rfl rfl rfl rfl
  unfold observeLeft
  dsimp only
  split
  · exact performs_quiet htapped hleft rfl rfl
  · rename_i channel _
    have hplain : IsPlain (.left channel) := ⟨nofun, nofun, nofun⟩
    exact performs_of_emits (emits_announceAndEmit htapped _) (.plain hplain) hleft rfl rfl

theorem performs_rejectChannel (h : Sharing s) (hsound : s.1.projector.Sound)
    (channel : ChatChannel) : Performs clock s (rejectChannel clock channel s) := by
  obtain ⟨tap, u⟩ := s
  have htapped : Sharing (SessionTap.resolve (channelIdentity channel) tap, u) :=
    h.congr rfl rfl rfl rfl rfl
  unfold rejectChannel
  dsimp only
  split_ifs
  · exact performs_of_emits (emits_completeSync htapped) (shape_syncKinds _) hsound rfl rfl
  · exact performs_quiet htapped hsound rfl rfl

theorem performs_resolvePendingChannels (h : Sharing s) (hsound : s.1.projector.Sound) :
    Performs clock s (resolvePendingChannels clock s) := by
  obtain ⟨tap, u⟩ := s
  have htapped : Sharing ({ tap with
      resolvedChannels := tap.resolvedChannels ∪ tap.pendingChannels
      pendingChannels := ∅ }, u) :=
    h.congr rfl rfl rfl rfl rfl
  unfold resolvePendingChannels
  dsimp only
  split_ifs
  · exact performs_quiet h hsound rfl rfl
  · exact performs_of_emits (emits_completeSync htapped) (shape_syncKinds _) hsound rfl rfl

theorem sound_snapshots (snapshots : List ChatEvent) {p : Projector} (h : p.Sound) :
    (snapshots.foldl (fun p snapshot => (p.project snapshot true none).2) p).Sound := by
  induction snapshots generalizing p with
  | nil => exact h
  | cons snapshot snapshots ih => exact ih (Projector.sound_project h snapshot true none)

theorem performs_reconcileSnapshots (h : Sharing s) (hsound : s.1.projector.Sound)
    (snapshots : List ChatEvent) : Performs clock s (reconcileSnapshots clock snapshots s) := by
  obtain ⟨tap, u⟩ := s
  have hfolded := sound_snapshots snapshots hsound
  have htapped : Sharing ({ tap with
      projector := snapshots.foldl (fun p snapshot => (p.project snapshot true none).2)
        tap.projector }, u) :=
    h.congr rfl rfl rfl rfl rfl
  unfold reconcileSnapshots
  dsimp only
  split_ifs
  · exact performs_quiet h hsound rfl rfl
  · exact performs_of_emits (emits_reconcile htapped) (shape_syncKinds _) hfolded rfl rfl

/-- Every operation but the end of the session. -/
theorem performs_perform (h : Sharing s) (hsound : s.1.projector.Sound) {op : Op}
    (hop : op ≠ .endSession) : Performs clock s (perform clock op s) := by
  cases op with
  | observe event => exact performs_observe h hsound event
  | heartbeat => exact performs_heartbeat h hsound
  | observeLeft index => exact performs_observeLeft h hsound index
  | rejectChannel channel => exact performs_rejectChannel h hsound channel
  | resolvePendingChannels => exact performs_resolvePendingChannels h hsound
  | reconcileSnapshots snapshots => exact performs_reconcileSnapshots h hsound snapshots
  | endSession => exact absurd rfl hop

/-- The end of the session is one event. -/
theorem perform_endSession (h : Sharing s) :
    ∃ s', Emits clock s s' [.sessionEnded] ∧
      perform clock .endSession s = ({ s'.1 with ended := true }, s'.2) := by
  refine ⟨emit clock .sessionEnded s, emits_emit h .sessionEnded, ?_⟩
  simp [perform, endSession, h.announced, h.ended]

end SessionTap

/-! ## Runs of a shared session -/

/-- A tap whose events are stored: the tap, the rows before its last operation, and what that
operation emitted. -/
structure SharedSession where
  tapped : Tapped
  before : SessionTables := {}
  emitted : List EventDto

namespace SharedSession

variable (session : WireSession) (times : Nat → Nat) (clock : Nat → Nat)

/-- The rows with everything emitted so far. -/
def tables (s : SharedSession) : SessionTables := s.before.storeDtos session times s.emitted

/-- A session begun with sharing on. -/
def start (id clientVersion : String) (startedAt : Nat) (channels : List ChatChannel)
    (clubNames : ClubNames) : SharedSession :=
  let tapped := SessionTap.beginSession clock id clientVersion startedAt channels
    { config := { enabled := true }, clubNames }
  { tapped, emitted := tapped.2.emitted }

/-- The tap acts, and what it emits is stored. -/
def step (s : SharedSession) (op : SessionTap.Op) : SharedSession :=
  let tapped := SessionTap.perform clock op (s.tapped.1, { s.tapped.2 with channel := [] })
  { tapped, before := s.tables session times, emitted := tapped.2.emitted }

/-- The session has not been ended, no two open channels have the same identity, and the Worker
takes all of what is emitted. -/
def Admissible (s : SharedSession) (op : SessionTap.Op) : Prop :=
  s.tapped.1.ended = false ∧
    (s.step session times clock op).tapped.1.projector.DistinctChannels ∧
    ∀ dto ∈ (s.step session times clock op).emitted, dto.Passes

instance (s : SharedSession) (op : SessionTap.Op) :
    Decidable (s.Admissible session times clock op) :=
  inferInstanceAs (Decidable (_ ∧ _ ∧ ∀ dto ∈ _, EventDto.Passes dto))

/-- Right after every `session_synced` of the last operation the rows mirror the projector. -/
def MirroredAtSync (s : SharedSession) : Prop :=
  ∀ first dto later, s.emitted = first ++ dto :: later → dto.kind = .sessionSynced →
    Mirrors (s.before.storeDtos session times (first ++ [dto])) s.tapped.1.projector

/-- What operations keep: until the session is ended the tap shares, its projector is sound, and
the store takes the next event. -/
structure Inv (s : SharedSession) : Prop where
  mirrored : s.MirroredAtSync session times
  sharing : s.tapped.1.ended = false → SessionTap.Sharing s.tapped
  sound : s.tapped.1.projector.Sound
  ready : s.tapped.1.ended = false →
    SessionTables.Ready (s.tables session times) s.tapped.1.nextSeq

variable {session times clock} {s : SharedSession}

theorem not_mirrored_of_kinds {seq : Nat} {kinds : List EventKind}
    (hemitted : s.emitted = numbered clock seq kinds) (h : .sessionSynced ∉ kinds) :
    s.MirroredAtSync session times := by
  intro first dto later hsplit hkind
  refine absurd ?_ h
  rw [← kinds_numbered clock seq kinds, ← hemitted, hsplit, ← hkind]
  exact List.mem_map_of_mem (List.mem_append_right first List.mem_cons_self)

/-- Of the kinds an operation emits only the last can be `session_synced`. -/
theorem eq_nil_of_synced {kinds : List EventKind} (h : .sessionSynced ∉ kinds) {seq : Nat}
    {first later : List EventDto} {dto : EventDto} (hkind : dto.kind = .sessionSynced)
    (hsplit : numbered clock seq (kinds ++ [.sessionSynced]) = first ++ dto :: later) :
    later = [] := by
  rcases List.eq_nil_or_concat later with hlater | ⟨later, last, rfl⟩
  · exact hlater
  · rw [numbered_append, List.concat_eq_append, ← List.cons_append, ← List.append_assoc] at hsplit
    have hfirst := (List.append_inj_left' hsplit rfl)
    refine absurd ?_ h
    rw [← kinds_numbered clock seq kinds, hfirst, ← hkind]
    exact List.mem_map_of_mem (List.mem_append_right first List.mem_cons_self)

theorem Inv.step (h : Inv session times s) {op : SessionTap.Op}
    (hop : s.Admissible session times clock op) :
    Inv session times (s.step session times clock op) := by
  obtain ⟨hopen, hdistinct, hpass⟩ := hop
  have hdrained : SessionTap.Sharing (s.tapped.1, { s.tapped.2 with channel := [] }) :=
    (h.sharing hopen).congr rfl rfl rfl rfl rfl
  have hready := h.ready hopen
  by_cases hend : op = .endSession
  · subst hend
    obtain ⟨s', hemits, hperform⟩ : ∃ s', SessionTap.Emits clock _ s' _ ∧ _ :=
      SessionTap.perform_endSession hdrained
    have hemitted := hemits.emitted
    have hstep : s.step session times clock .endSession =
        ⟨({ s'.1 with ended := true }, s'.2), s.tables session times, s'.2.emitted⟩ := by
      rw [SharedSession.step, hperform]
    rw [hstep]
    refine ⟨not_mirrored_of_kinds hemitted (by decide), nofun, ?_, nofun⟩
    exact hemits.projector ▸ h.sound
  · obtain ⟨hsharing, hsound, kinds, hshape, hseq, hemitted⟩ : SessionTap.Performs clock _ _ :=
      SessionTap.performs_perform hdrained h.sound hend
    change (s.step session times clock op).emitted = numbered clock s.tapped.1.nextSeq kinds
      at hemitted
    rw [hemitted] at hpass
    refine ⟨?_, fun _ => hsharing, hsound, fun _ => ?_⟩
    · cases hshape with
      | none => exact not_mirrored_of_kinds hemitted (by simp)
      | plain hplain => exact not_mirrored_of_kinds hemitted (by simpa using hplain.2.1.symm)
      | sync hsent =>
        intro first dto later hsplit hkind
        rw [hemitted] at hsplit
        have hsynced : .sessionSynced ∉ EventKind.syncStarted ::
            (s.step session times clock op).tapped.1.projector.reconciliationEvents none :=
          fun hmem => by
            rcases List.mem_cons.1 hmem with hmem | hmem
            · cases hmem
            · obtain ⟨_, _, _, _, _, _, hroster⟩ := Projector.mem_reconciliationEvents hmem
              cases hroster
        obtain rfl := eq_nil_of_synced hsynced hkind hsplit
        rw [← hsplit]
        exact SessionTables.mirrors_of_reconciliation session times clock hready hsound hdistinct
          hpass
    · have hended : .sessionEnded ∉ kinds := by
        cases hshape with
        | none => simp
        | plain hplain => simpa using hplain.1.symm
        | sync hsent =>
          intro hmem
          simp only [List.cons_append, List.mem_cons, List.mem_append, List.not_mem_nil,
            or_false, reduceCtorEq, false_or] at hmem
          obtain ⟨_, _, _, _, _, _, hroster⟩ := Projector.mem_reconciliationEvents hmem
          cases hroster
      have hstored := SessionTables.ready_storeDtos session times clock hready hpass hended
      rw [← hemitted] at hstored
      exact hseq ▸ hstored

/-- The first event makes the session's row. -/
theorem ready_first {dto : EventDto} (hconforms : dto.Conforms) :
    SessionTables.Ready (SessionTables.storeDto session times {} dto) (dto.seq + 1) := by
  rw [SessionTables.storeDto_eq hconforms fun row hrow => by cases hrow]
  constructor
  · refine ⟨_, by rw [SessionTables.session_statementsFor]; rfl, ?_, ?_⟩
    · rw [SessionTables.sessionUpdate_endedAt]
      exact ite_self none
    · rw [SessionTables.sessionUpdate_lastSeq]
      exact Nat.lt_succ_self dto.seq
  · have hbelow : SessionTables.ChannelsBelow
        (SessionTables.sessionUpkeep session dto.wire (times dto.seq) {}) (dto.seq + 1) := by
      intro key row hrow
      cases hrow
    exact SessionTables.channelsBelow_statementsFor hbelow (Nat.lt_succ_self dto.seq)
      (times dto.seq)

theorem inv_start (id clientVersion : String) (startedAt : Nat) (channels : List ChatChannel)
    (clubNames : ClubNames)
    (hfirst : ∀ dto ∈ (start clock id clientVersion startedAt channels clubNames).emitted,
      dto.Passes) :
    Inv session times (start clock id clientVersion startedAt channels clubNames) := by
  have hemitted : (start clock id clientVersion startedAt channels clubNames).emitted =
      numbered clock 1 [.sessionStarted] := rfl
  refine ⟨not_mirrored_of_kinds hemitted (by decide), fun _ => ⟨rfl, rfl, rfl, rfl, rfl⟩, ?_,
    fun _ => ?_⟩
  · constructor
    · intro index hindex
      exact absurd hindex ExtTreeSet.not_mem_empty
    · intro index mirror hmirror
      cases hmirror
  · exact ready_first (hfirst ⟨1, clock 1, .sessionStarted⟩ (List.mem_singleton.2 rfl)).1

variable (session times clock) in
/-- **The stored rosters at every sync point.** Whatever a shared session's tap observes, right
after every `session_synced` the store mirrors the projector. -/
theorem mirrored_at_sync (id clientVersion : String) (startedAt : Nat)
    (channels : List ChatChannel) (clubNames : ClubNames) (ops : List SessionTap.Op)
    (hfirst : ∀ dto ∈ (start clock id clientVersion startedAt channels clubNames).emitted,
      dto.Passes)
    (hops : StepsMeet (step session times clock) (Admissible session times clock)
      (start clock id clientVersion startedAt channels clubNames) ops) :
    StatesMeet (step session times clock) (MirroredAtSync session times)
      (start clock id clientVersion startedAt channels clubNames) ops :=
  statesMeet_of_stepsMeet (fun _ h => h.mirrored) (fun _ _ h hop => h.step hop)
    (inv_start id clientVersion startedAt channels clubNames hfirst) hops

/-- A roster of two, one of whom leaves, and the roster after a reconnection. -/
def clubVisit : List SessionTap.Op :=
  let local_ : ChatUser := ⟨7, some "Kerrigan", none, none, .available⟩
  let other : ChatUser := ⟨8, some "Raynor", some "UED", none, .away⟩
  [.observe (.joined 1 (.club 5) 7),
    .observe (.roster ⟨1, true, [local_, other]⟩),
    .observe (.memberLeft 1 other),
    .reconcileSnapshots [.roster ⟨1, true, [other]⟩]]

theorem mirrored_at_sync_clubVisit :
    StatesMeet (step ⟨"00000000000000000000000000000000", .sc2, "1", 1⟩ id id)
      (MirroredAtSync ⟨"00000000000000000000000000000000", .sc2, "1", 1⟩ id)
      (start id "00000000000000000000000000000000" "1" 1 [.club 5] ∅) clubVisit :=
  mirrored_at_sync _ id id _ _ _ _ _ _ (by decide +kernel) (by decide +kernel)

end SharedSession

end Superiority
