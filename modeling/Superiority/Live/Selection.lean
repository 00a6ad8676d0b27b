import Superiority.Library.Noninterference
import Superiority.Live.Projector

/-!
# Channel selections

With a selection of channels, the projector sends nothing that depends on what happens in a channel
outside it, although it keeps records of those channels as well.

* **`concerns`** – the inputs that concern a selected channel: those at an index that holds one,
  joins of one, summaries of a selected group, and the catalogue.
* **`Alike`** – the projectors have the same selected channels at the same indices, with the same
  records and names.
* **`no_leak`** – runs that agree on the inputs that concern selected channels give the same events.
-/

namespace Superiority

open Std

namespace Projector

/-- What a projector is given: an event, or the user's leave. -/
inductive Input where
  | event (event : ChatEvent)
  | leave (index : UInt8)
  deriving DecidableEq

/-- The projector after an input. -/
def advance (enabled : Bool) (shared : Option (ExtTreeSet String)) (p : Projector) :
    Input → Projector
  | .event event => (p.project event enabled shared).2
  | .leave index => (p.leave index enabled shared).2

/-- The events that an input gives. -/
def sends (enabled : Bool) (shared : Option (ExtTreeSet String)) (p : Projector) :
    Input → List EventKind
  | .event event => (p.project event enabled shared).1.toList
  | .leave index => ((p.leave index enabled shared).1.map EventKind.left).toList

variable (selection : ExtTreeSet String)

/-- The channel of an index, if it is selected. -/
def selectedAt (p : Projector) (index : UInt8) : Option ChatChannel :=
  p.channels[index]?.filter fun channel => selection.contains (channelIdentity channel)

/-- The input concerns a selected channel, or the catalogue. -/
def concerns (p : Projector) : Input → Bool
  | .event (.joined index channel _) =>
    selection.contains (channelIdentity channel) || (p.selectedAt selection index).isSome
  | .event (.roster snapshot) => (p.selectedAt selection snapshot.channelIndex).isSome
  | .event (.memberJoined index _) | .event (.memberLeft index _) | .event (.removed index)
  | .event (.message index _ _) | .leave index => (p.selectedAt selection index).isSome
  | .event (.groupSummary clubId _) => selection.contains (channelIdentity (.club clubId))
  | .event (.publicChannelCatalog _) => true
  | _ => false

/-- What is kept of an index besides its channel. -/
def record (p : Projector) (index : UInt8) :
    Option UInt32 × Bool × Option RosterMirror × Option (ExtTreeMap UInt32 Nat) × Option Nat :=
  (p.localHandles[index]?, p.rosterSent.contains index, p.rosterState[index]?,
    p.rosterOrder[index]?, p.nextRosterOrder[index]?)

/-- The projectors agree on everything that concerns the selected channels. -/
structure Alike (p q : Projector) : Prop where
  channels : ∀ index, p.selectedAt selection index = q.selectedAt selection index
  clubNames : ∀ clubId, selection.contains (channelIdentity (.club clubId)) →
    p.clubNames[clubId]? = q.clubNames[clubId]?
  publicNames : p.publicNames = q.publicNames
  records : ∀ index, (p.selectedAt selection index).isSome → p.record index = q.record index

variable {selection} {p q : Projector}

theorem Alike.refl (p : Projector) : Alike selection p p :=
  ⟨fun _ => rfl, fun _ _ => rfl, rfl, fun _ _ => rfl⟩

/-- A change of the records of one index only. -/
structure Within (index : UInt8) (p p' : Projector) : Prop where
  channels : p'.channels = p.channels
  clubNames : p'.clubNames = p.clubNames
  publicNames : p'.publicNames = p.publicNames
  records : ∀ other, other ≠ index → p'.record other = p.record other

theorem Within.refl (index : UInt8) (p : Projector) : Within index p p :=
  ⟨rfl, rfl, rfl, fun _ _ => rfl⟩

theorem Within.trans {index : UInt8} {p' p'' : Projector} (h : Within index p p')
    (h' : Within index p' p'') : Within index p p'' where
  channels := h'.channels.trans h.channels
  clubNames := h'.clubNames.trans h.clubNames
  publicNames := h'.publicNames.trans h.publicNames
  records other hother := (h'.records other hother).trans (h.records other hother)

theorem Within.selectedAt {index : UInt8} {p' : Projector} (h : Within index p p')
    (other : UInt8) : p'.selectedAt selection other = p.selectedAt selection other := by
  rw [Projector.selectedAt, h.channels]
  rfl

/-- What changes at an index that holds no selected channel is no matter. -/
theorem Alike.hidden {index : UInt8} {p' : Projector} (h : Alike selection p q)
    (hwithin : Within index p p') (hindex : (p.selectedAt selection index).isSome = false) :
    Alike selection p' q where
  channels other := (hwithin.selectedAt other).trans (h.channels other)
  clubNames clubId hclub := by
    rw [hwithin.clubNames]
    exact h.clubNames clubId hclub
  publicNames := hwithin.publicNames.trans h.publicNames
  records other hother := by
    rw [hwithin.selectedAt] at hother
    have hne : other ≠ index := by
      rintro rfl
      rw [hindex] at hother
      cases hother
    exact (hwithin.records other hne).trans (h.records other hother)

/-- Both projectors change the records of one index to the same. -/
theorem Alike.seen {index : UInt8} {p' q' : Projector} (h : Alike selection p q)
    (hp : Within index p p') (hq : Within index q q') (hrecord : p'.record index = q'.record index) :
    Alike selection p' q' where
  channels other := by rw [hp.selectedAt, hq.selectedAt, h.channels]
  clubNames clubId hclub := by
    rw [hp.clubNames, hq.clubNames]
    exact h.clubNames clubId hclub
  publicNames := by rw [hp.publicNames, hq.publicNames, h.publicNames]
  records other hother := by
    rw [hp.selectedAt] at hother
    by_cases hindex : other = index
    · rw [hindex, hrecord]
    · rw [hp.records other hindex, hq.records other hindex]
      exact h.records other hother

/-! ## Shown channels -/

theorem sharedIndex_eq (index : UInt8) :
    p.sharedIndex index (some selection) =
      (p.selectedAt selection index).map fun channel =>
        channelRef channel p.clubNames p.publicNames := by
  unfold sharedIndex selectedAt sharedChannelRef
  cases p.channels[index]? with
  | none => rfl
  | some channel =>
    dsimp only [Option.bind_some]
    rw [Option.filter_some]
    split_ifs <;> rfl

theorem channelRef_alike (h : Alike selection p q) {channel : ChatChannel}
    (hselected : selection.contains (channelIdentity channel) = true) :
    channelRef channel p.clubNames p.publicNames = channelRef channel q.clubNames q.publicNames := by
  cases channel with
  | club clubId =>
    unfold channelRef
    dsimp only
    rw [h.clubNames clubId hselected]
  | public_ identifier => rw [channelRef, h.publicNames]; rfl
  | private_ name => rfl
  | party => rfl

theorem sharedIndex_alike (h : Alike selection p q) (index : UInt8) :
    p.sharedIndex index (some selection) = q.sharedIndex index (some selection) := by
  rw [sharedIndex_eq, sharedIndex_eq, ← h.channels]
  cases hselected : p.selectedAt selection index with
  | none => rfl
  | some channel =>
    have hcontains := (Option.filter_eq_some_iff.1 hselected).2
    rw [Option.map_some, Option.map_some, channelRef_alike h hcontains]

theorem sharedIndex_hidden {index : UInt8}
    (hindex : (p.selectedAt selection index).isSome = false) :
    p.sharedIndex index (some selection) = none := by
  have hnone : p.selectedAt selection index = none := by simpa using hindex
  rw [sharedIndex_eq, hnone]
  rfl

theorem sharedChannelRef_alike (h : Alike selection p q) (channel : ChatChannel) :
    p.sharedChannelRef channel (some selection) = q.sharedChannelRef channel (some selection) := by
  unfold sharedChannelRef
  dsimp only
  split_ifs with hselected
  · rw [channelRef_alike h hselected]
  · rfl

/-! ## Records of one index -/

theorem within_rosterUserRef (p : Projector) (index : UInt8) (user : ChatUser) :
    Within index p (p.rosterUserRef index user).2 := by
  unfold rosterUserRef joinedOrder
  dsimp only
  split
  · exact Within.refl index p
  · refine ⟨rfl, rfl, rfl, fun other hother => ?_⟩
    have hne : ¬ index = other := Ne.symm hother
    simp [record, ExtTreeMap.getElem?_insert, hne]

/-- What a member is shown with depends on the record of the index only. -/
theorem rosterUserRef_congr {index : UInt8} (h : p.record index = q.record index)
    (user : ChatUser) :
    (p.rosterUserRef index user).1 = (q.rosterUserRef index user).1 ∧
      (p.rosterUserRef index user).2.record index = (q.rosterUserRef index user).2.record index := by
  simp only [record, Prod.mk.injEq] at h
  obtain ⟨hlocal, hsent, hstate, horder, hnext⟩ := h
  cases hfound : q.rosterOrder[index]?.bind (·[user.handle]?) with
  | none =>
    simp only [rosterUserRef, joinedOrder, horder, hfound, hnext, hlocal]
    exact ⟨trivial, by simp [record, hlocal, hsent, hstate]⟩
  | some known =>
    simp only [rosterUserRef, joinedOrder, horder, hfound, hlocal]
    exact ⟨trivial, by simp only [record, hlocal, hsent, hstate, horder, hnext]⟩

theorem within_mirrorOf (index : UInt8) (users : List ChatUser) (mirror : RosterMirror)
    (p : Projector) : Within index p (mirrorOf index users mirror p).2 := by
  induction users generalizing mirror p with
  | nil => exact Within.refl index p
  | cons user users ih => exact (within_rosterUserRef p index user).trans (ih _ _)

theorem mirrorOf_congr {index : UInt8} (users : List ChatUser) (mirror : RosterMirror)
    (h : p.record index = q.record index) :
    (mirrorOf index users mirror p).1 = (mirrorOf index users mirror q).1 ∧
      (mirrorOf index users mirror p).2.record index =
        (mirrorOf index users mirror q).2.record index := by
  induction users generalizing mirror p q with
  | nil => exact ⟨rfl, h⟩
  | cons user users ih =>
    obtain ⟨huser, hrecord⟩ := rosterUserRef_congr h user
    simp only [mirrorOf, huser]
    exact ih _ hrecord

theorem within_projectRoster (p : Projector) (snapshot : RosterSnapshot)
    (shared : Option (ExtTreeSet String)) :
    Within snapshot.channelIndex p (p.projectRoster snapshot shared).2 := by
  obtain ⟨hchannels, hclubs, hpublics, hrecords⟩ :=
    within_mirrorOf snapshot.channelIndex snapshot.users ∅ p
  unfold projectRoster
  by_cases hcomplete : snapshot.initialComplete
  · rw [if_pos hcomplete]
    dsimp only
    cases p.sharedIndex snapshot.channelIndex shared with
    | none => exact Within.refl _ p
    | some ref =>
      dsimp only
      split
      all_goals
        refine ⟨hchannels, hclubs, hpublics, fun other hother => ?_⟩
        rw [← hrecords other hother]
        have hne : ¬ snapshot.channelIndex = other := Ne.symm hother
        simp [record, ExtTreeMap.getElem?_insert, ExtTreeSet.contains_insert, hne]
  · rw [if_neg hcomplete]
    exact Within.refl _ p

theorem projectRoster_congr (h : Alike selection p q) (snapshot : RosterSnapshot)
    (hselected : (p.selectedAt selection snapshot.channelIndex).isSome) :
    (p.projectRoster snapshot (some selection)).1 = (q.projectRoster snapshot (some selection)).1 ∧
      (p.projectRoster snapshot (some selection)).2.record snapshot.channelIndex =
        (q.projectRoster snapshot (some selection)).2.record snapshot.channelIndex := by
  have hrecord := h.records snapshot.channelIndex hselected
  obtain ⟨hmirror, hafter⟩ := mirrorOf_congr snapshot.users ∅ hrecord
  have hparts := hafter
  simp only [record, Prod.mk.injEq] at hparts
  obtain ⟨hlocal, hsent, hstate, horder, hnext⟩ := hparts
  have hshared := sharedIndex_alike h snapshot.channelIndex
  unfold projectRoster
  by_cases hcomplete : snapshot.initialComplete
  · rw [if_pos hcomplete, if_pos hcomplete]
    dsimp only
    cases href : q.sharedIndex snapshot.channelIndex (some selection) with
    | none =>
      rw [hshared.trans href]
      exact ⟨rfl, hrecord⟩
    | some ref =>
      rw [hshared.trans href]
      dsimp only
      rw [hmirror, hsent, hstate]
      split
      · exact ⟨rfl, by simp [record, hlocal, hsent, horder, hnext]⟩
      · exact ⟨rfl, by simp [record, hlocal, horder, hnext]⟩
  · rw [if_neg hcomplete, if_neg hcomplete]
    exact ⟨rfl, hrecord⟩

theorem within_projectMemberJoined (p : Projector) (index : UInt8) (user : ChatUser)
    (shared : Option (ExtTreeSet String)) :
    Within index p (p.projectMemberJoined index user shared).2 := by
  obtain ⟨hchannels, hclubs, hpublics, hrecords⟩ := within_rosterUserRef p index user
  refine ⟨hchannels, hclubs, hpublics, fun other hother => ?_⟩
  rw [← hrecords other hother]
  have hne : ¬ index = other := Ne.symm hother
  simp [record, projectMemberJoined, ExtTreeMap.getElem?_insert, hne]

theorem projectMemberJoined_congr (h : Alike selection p q) {index : UInt8} (user : ChatUser)
    (hselected : (p.selectedAt selection index).isSome) :
    (p.projectMemberJoined index user (some selection)).1 =
        (q.projectMemberJoined index user (some selection)).1 ∧
      (p.projectMemberJoined index user (some selection)).2.record index =
        (q.projectMemberJoined index user (some selection)).2.record index := by
  obtain ⟨huser, hafter⟩ := rosterUserRef_congr (h.records index hselected) user
  have halike := h.seen (within_rosterUserRef p index user) (within_rosterUserRef q index user)
    hafter
  have hshared := sharedIndex_alike halike index
  simp only [record, Prod.mk.injEq] at hafter
  obtain ⟨hlocal, hsent, hstate, horder, hnext⟩ := hafter
  have hkind : ∀ r : Projector, (r.projectMemberJoined index user (some selection)).1 =
      ((r.rosterUserRef index user).2.sharedIndex index (some selection)).map fun channel =>
        .memberJoined channel (r.rosterUserRef index user).1 := fun _ => rfl
  constructor
  · rw [hkind, hkind, hshared, huser]
  · simp [record, projectMemberJoined, huser, hlocal, hsent, hstate, horder, hnext]

theorem within_projectMemberLeft (p : Projector) (index : UInt8) (user : ChatUser)
    (shared : Option (ExtTreeSet String)) :
    Within index p (p.projectMemberLeft index user shared).2 := by
  obtain ⟨hchannels, hclubs, hpublics, hrecords⟩ := within_rosterUserRef p index user
  unfold projectMemberLeft
  dsimp only
  split
  · refine ⟨rfl, rfl, rfl, fun other hother => ?_⟩
    have hne : ¬ index = other := Ne.symm hother
    simp [record, ExtTreeMap.getElem?_insert, hne]
  · refine ⟨hchannels, hclubs, hpublics, fun other hother => ?_⟩
    rw [← hrecords other hother]
    have hne : ¬ index = other := Ne.symm hother
    simp [record, ExtTreeMap.getElem?_insert, hne]

theorem projectMemberLeft_congr (h : Alike selection p q) {index : UInt8} (user : ChatUser)
    (hselected : (p.selectedAt selection index).isSome) :
    (p.projectMemberLeft index user (some selection)).1 =
        (q.projectMemberLeft index user (some selection)).1 ∧
      (p.projectMemberLeft index user (some selection)).2.record index =
        (q.projectMemberLeft index user (some selection)).2.record index := by
  have hrecord := h.records index hselected
  have hshared := sharedIndex_alike h index
  obtain ⟨huser, hafter⟩ := rosterUserRef_congr hrecord user
  have halike := h.seen (within_rosterUserRef p index user) (within_rosterUserRef q index user)
    hafter
  have hshared' := sharedIndex_alike halike index
  simp only [record, Prod.mk.injEq] at hrecord hafter
  obtain ⟨hlocal, hsent, hstate, horder, hnext⟩ := hrecord
  obtain ⟨hlocal', hsent', hstate', horder', hnext'⟩ := hafter
  cases hknown : q.rosterState[index]?.bind (·[user.handle]?) with
  | none =>
    have hknown' := hknown
    rw [← hstate] at hknown'
    simp only [projectMemberLeft, hknown, hknown', huser]
    refine ⟨?_, ?_⟩
    · exact congrArg (Option.map _) hshared'
    · simp [record, hlocal', hsent', hstate', horder', hnext']
  | some known =>
    have hknown' := hknown
    rw [← hstate] at hknown'
    simp only [projectMemberLeft, hknown, hknown']
    refine ⟨?_, ?_⟩
    · exact congrArg (Option.map _) hshared
    · simp [record, hlocal, hsent, hstate, horder, hnext]

/-! ## Channels that come and go -/

theorem selectedAt_joined (p : Projector) (index : UInt8) (channel : ChatChannel)
    (handle : UInt32) (other : UInt8) :
    (p.learn (.joined index channel handle)).selectedAt selection other =
      if index = other then
        (some channel).filter fun channel => selection.contains (channelIdentity channel)
      else p.selectedAt selection other := by
  simp only [selectedAt, learn, forgetRoster, ExtTreeMap.getElem?_insert, Std.compare_eq_iff_eq]
  split_ifs <;> rfl

theorem record_joined (p : Projector) (index : UInt8) (channel : ChatChannel) (handle : UInt32)
    (other : UInt8) :
    (p.learn (.joined index channel handle)).record other =
      if index = other then (some handle, false, none, none, none) else p.record other := by
  simp only [record, learn, forgetRoster, ExtTreeMap.getElem?_insert, ExtTreeMap.getElem?_erase,
    ExtTreeSet.contains_erase, Std.compare_eq_iff_eq]
  by_cases hindex : index = other
  · simp [hindex]
  · simp [hindex]

theorem selectedAt_leave (p : Projector) (index : UInt8) (enabled : Bool)
    (shared : Option (ExtTreeSet String)) (other : UInt8) :
    (p.leave index enabled shared).2.selectedAt selection other =
      if index = other then none else p.selectedAt selection other := by
  simp only [selectedAt, leave, ExtTreeMap.getElem?_erase, Std.compare_eq_iff_eq]
  split_ifs <;> rfl

theorem record_leave (p : Projector) (index : UInt8) (enabled : Bool)
    (shared : Option (ExtTreeSet String)) {other : UInt8} (h : index ≠ other) :
    (p.leave index enabled shared).2.record other = p.record other := by
  simp [record, leave, forgetRoster, ExtTreeMap.getElem?_erase, h]

/-! ## Group names -/

/-- The channel a summary finds is the group's. -/
theorem find_club {clubId : UInt32} {named : ChatChannel}
    (h : (p.channels.toList.map (·.2)).find? (· = .club clubId) = some named) :
    named = .club clubId ∧ ∃ index : UInt8, p.channels[index]? = some (.club clubId) := by
  obtain rfl : named = .club clubId := by simpa using List.find?_some h
  obtain ⟨entry, hentry, hclub⟩ := List.mem_map.1 (List.mem_of_find?_eq_some h)
  exact ⟨rfl, entry.1, hclub ▸ ExtTreeMap.mem_toList_iff_getElem?_eq_some.1 hentry⟩

theorem find_club_of_open {clubId : UInt32} {index : UInt8}
    (h : p.channels[index]? = some (.club clubId)) :
    (p.channels.toList.map (·.2)).find? (· = .club clubId) = some (.club clubId) := by
  cases hfound : (p.channels.toList.map (·.2)).find? (· = .club clubId) with
  | none =>
    have hmem : .club clubId ∈ p.channels.toList.map (·.2) :=
      List.mem_map.2 ⟨(index, .club clubId), ExtTreeMap.mem_toList_iff_getElem?_eq_some.2 h, rfl⟩
    have hne := List.find?_eq_none.1 hfound _ hmem
    exact absurd (decide_eq_true rfl) hne
  | some named => rw [(find_club hfound).1]

theorem namedClub_hidden {clubId : UInt32}
    (h : selection.contains (channelIdentity (.club clubId)) = false) :
    p.namedClub clubId (some selection) = none := by
  unfold namedClub
  cases hfound : (p.channels.toList.map (·.2)).find? (· = .club clubId) with
  | none => rfl
  | some named =>
    rw [Option.bind_some, (find_club hfound).1]
    exact if_neg (by rw [h]; exact Bool.false_ne_true)

/-- A selected group is open in both projectors or in neither. -/
theorem open_alike (h : Alike selection p q) {channel : ChatChannel}
    (hselected : selection.contains (channelIdentity channel) = true) {index : UInt8}
    (hopen : p.channels[index]? = some channel) : q.channels[index]? = some channel := by
  have hat : p.selectedAt selection index = some channel :=
    Option.filter_eq_some_iff.2 ⟨hopen, hselected⟩
  rw [h.channels] at hat
  exact (Option.filter_eq_some_iff.1 hat).1

theorem Alike.symm (h : Alike selection p q) : Alike selection q p where
  channels index := (h.channels index).symm
  clubNames clubId hclub := (h.clubNames clubId hclub).symm
  publicNames := h.publicNames.symm
  records index hindex := (h.records index (by rwa [h.channels])).symm

theorem namedClub_alike (h : Alike selection p q) {clubId : UInt32}
    (hselected : selection.contains (channelIdentity (.club clubId)) = true) :
    p.namedClub clubId (some selection) = q.namedClub clubId (some selection) := by
  unfold namedClub
  have hfind : (p.channels.toList.map (·.2)).find? (· = .club clubId) =
      (q.channels.toList.map (·.2)).find? (· = .club clubId) := by
    cases hp : (p.channels.toList.map (·.2)).find? (· = .club clubId) with
    | some named =>
      obtain ⟨rfl, index, hopen⟩ := find_club hp
      exact (find_club_of_open (open_alike h hselected hopen)).symm
    | none =>
      cases hq : (q.channels.toList.map (·.2)).find? (· = .club clubId) with
      | none => rfl
      | some named =>
        obtain ⟨rfl, index, hopen⟩ := find_club hq
        rw [find_club_of_open (open_alike h.symm hselected hopen)] at hp
        cases hp
  rw [hfind]
  cases (q.channels.toList.map (·.2)).find? (· = .club clubId) with
  | none => rfl
  | some named => exact sharedChannelRef_alike h named

/-! ## Inputs -/

/-- A summary that names a group. -/
theorem alike_learn_groupSummary (h : Alike selection p q) (clubId : UInt32) (name : String) :
    Alike selection (p.learn (.groupSummary clubId (some name)))
      (q.learn (.groupSummary clubId (some name))) where
  channels := h.channels
  clubNames other hother := by
    simp only [learn, ExtTreeMap.getElem?_insert]
    split_ifs
    · rfl
    · exact h.clubNames other hother
  publicNames := h.publicNames
  records := h.records

theorem alike_learn_joined (h : Alike selection p q) (index : UInt8) (channel : ChatChannel)
    (handle : UInt32) :
    Alike selection (p.learn (.joined index channel handle))
      (q.learn (.joined index channel handle)) where
  channels other := by rw [selectedAt_joined, selectedAt_joined, h.channels]
  clubNames := h.clubNames
  publicNames := h.publicNames
  records other hother := by
    rw [selectedAt_joined] at hother
    rw [record_joined, record_joined]
    split_ifs at hother ⊢
    · rfl
    · exact h.records other hother

theorem alike_leave (h : Alike selection p q) (index : UInt8) (enabled : Bool)
    (shared : Option (ExtTreeSet String)) :
    Alike selection (p.leave index enabled shared).2 (q.leave index enabled shared).2 where
  channels other := by rw [selectedAt_leave, selectedAt_leave, h.channels]
  clubNames := h.clubNames
  publicNames := h.publicNames
  records other hother := by
    rw [selectedAt_leave] at hother
    split_ifs at hother with hindex
    · cases hother
    · rw [record_leave p index enabled shared hindex, record_leave q index enabled shared hindex]
      exact h.records other hother

/-- Leaving an index that holds no selected channel. -/
theorem alike_leave_hidden (h : Alike selection p q) {index : UInt8}
    (hindex : (p.selectedAt selection index).isSome = false) (enabled : Bool)
    (shared : Option (ExtTreeSet String)) : Alike selection (p.leave index enabled shared).2 q := by
  have hnone : p.selectedAt selection index = none := by simpa using hindex
  refine ⟨fun other => ?_, h.clubNames, h.publicNames, fun other hother => ?_⟩
  · rw [selectedAt_leave, ← h.channels]
    split_ifs with hother
    · rw [← hother, hnone]
    · rfl
  · rw [selectedAt_leave] at hother
    split_ifs at hother with hne
    · cases hother
    · rw [record_leave p index enabled shared hne]
      exact h.records other hother

theorem projectRoster_hidden {snapshot : RosterSnapshot}
    (hindex : (p.selectedAt selection snapshot.channelIndex).isSome = false) :
    (p.projectRoster snapshot (some selection)).1 = none := by
  simp only [projectRoster, sharedIndex_hidden hindex]
  split_ifs <;> rfl

theorem projectMemberLeft_hidden {index : UInt8} {user : ChatUser}
    (hindex : (p.selectedAt selection index).isSome = false) :
    (p.projectMemberLeft index user (some selection)).1 = none := by
  have hindex' : ((p.rosterUserRef index user).2.selectedAt selection index).isSome = false := by
    rwa [(within_rosterUserRef p index user).selectedAt]
  unfold projectMemberLeft
  dsimp only
  split
  · exact congrArg (Option.map _) (sharedIndex_hidden hindex)
  · exact congrArg (Option.map _) (sharedIndex_hidden hindex')

/-- A hidden event gives nothing. -/
theorem project_hidden {event : ChatEvent} (h : p.concerns selection (.event event) = false) :
    (p.project event true (some selection)).1 = none := by
  cases event with
  | joined index channel handle =>
    have hselected := (Bool.or_eq_false_iff.1 h).1
    have hshared : (p.learn (.joined index channel handle)).sharedChannelRef channel
        (some selection) = none := if_neg (by rw [hselected]; exact Bool.false_ne_true)
    exact congrArg (Option.map _) hshared
  | roster snapshot => exact projectRoster_hidden h
  | memberJoined index user =>
    have hindex : ((p.rosterUserRef index user).2.selectedAt selection index).isSome = false := by
      rw [(within_rosterUserRef p index user).selectedAt]
      exact h
    exact congrArg (Option.map _) (sharedIndex_hidden hindex)
  | memberLeft index user => exact projectMemberLeft_hidden h
  | removed index => exact congrArg (Option.map _) (sharedIndex_hidden h)
  | message index sender body => exact congrArg (Option.map _) (sharedIndex_hidden h)
  | groupSummary clubId name =>
    cases name with
    | none => rfl
    | some name => exact congrArg (Option.map _) (namedClub_hidden h)
  | publicChannelCatalog channels => cases h
  | _ => rfl

/-- A hidden event leaves everything that concerns selected channels. -/
theorem alike_project_hidden (halike : Alike selection p q) {event : ChatEvent}
    (h : p.concerns selection (.event event) = false) :
    Alike selection (p.project event true (some selection)).2 q := by
  cases event with
  | joined index channel handle =>
    obtain ⟨hselected, hindex⟩ := Bool.or_eq_false_iff.1 h
    have hnone : p.selectedAt selection index = none := by simpa using hindex
    refine ⟨fun other => ?_, halike.clubNames, halike.publicNames, fun other hother => ?_⟩
    · show (p.learn (.joined index channel handle)).selectedAt selection other = _
      rw [selectedAt_joined, ← halike.channels]
      split_ifs with hother
      · rw [← hother, hnone, Option.filter_some, if_neg (by rw [hselected]; exact
          Bool.false_ne_true)]
      · rfl
    · change ((p.learn (.joined index channel handle)).selectedAt selection other).isSome = true
        at hother
      show (p.learn (.joined index channel handle)).record other = _
      rw [selectedAt_joined] at hother
      rw [record_joined]
      split_ifs at hother ⊢ with hne
      · rw [Option.filter_some, if_neg (by rw [hselected]; exact Bool.false_ne_true)] at hother
        cases hother
      · exact halike.records other hother
  | roster snapshot => exact halike.hidden (within_projectRoster p snapshot _) h
  | memberJoined index user => exact halike.hidden (within_projectMemberJoined p index user _) h
  | memberLeft index user => exact halike.hidden (within_projectMemberLeft p index user _) h
  | removed index => exact alike_leave_hidden halike h true (some selection)
  | groupSummary clubId name =>
    cases name with
    | none => exact halike
    | some name =>
      refine ⟨halike.channels, fun other hother => ?_, halike.publicNames, halike.records⟩
      have hne : ¬ clubId = other := by
        rintro rfl
        exact Bool.false_ne_true (h.symm.trans hother)
      show (p.clubNames.insert clubId name)[other]? = q.clubNames[other]?
      rw [ExtTreeMap.getElem?_insert, if_neg (by rwa [Std.compare_eq_iff_eq])]
      exact halike.clubNames other hother
  | publicChannelCatalog channels => cases h
  | _ => exact halike

/-- A seen event gives the same in both projectors, and leads to projectors that are alike. -/
theorem project_seen (halike : Alike selection p q) {event : ChatEvent}
    (h : p.concerns selection (.event event) = true) :
    (p.project event true (some selection)).1 = (q.project event true (some selection)).1 ∧
      Alike selection (p.project event true (some selection)).2
        (q.project event true (some selection)).2 := by
  cases event with
  | joined index channel handle =>
    have hlearned := alike_learn_joined halike index channel handle
    exact ⟨congrArg (Option.map _) (sharedChannelRef_alike hlearned channel), hlearned⟩
  | roster snapshot =>
    obtain ⟨hkind, hrecord⟩ := projectRoster_congr halike snapshot h
    exact ⟨hkind, halike.seen (within_projectRoster p snapshot _)
      (within_projectRoster q snapshot _) hrecord⟩
  | memberJoined index user =>
    obtain ⟨hkind, hrecord⟩ := projectMemberJoined_congr halike user h
    exact ⟨hkind, halike.seen (within_projectMemberJoined p index user _)
      (within_projectMemberJoined q index user _) hrecord⟩
  | memberLeft index user =>
    obtain ⟨hkind, hrecord⟩ := projectMemberLeft_congr halike user h
    exact ⟨hkind, halike.seen (within_projectMemberLeft p index user _)
      (within_projectMemberLeft q index user _) hrecord⟩
  | removed index =>
    exact ⟨congrArg (Option.map _) (sharedIndex_alike halike index),
      alike_leave halike index true (some selection)⟩
  | message index sender body =>
    exact ⟨congrArg (Option.map _) (sharedIndex_alike halike index), halike⟩
  | groupSummary clubId name =>
    cases name with
    | none => exact ⟨rfl, halike⟩
    | some name =>
      have hlearned := alike_learn_groupSummary halike clubId name
      exact ⟨congrArg (Option.map _) (namedClub_alike hlearned h), hlearned⟩
  | publicChannelCatalog channels =>
    exact ⟨rfl, halike.channels, halike.clubNames, rfl, halike.records⟩
  | _ => exact ⟨rfl, halike⟩

/-- The projector is a machine whose hidden inputs do not reach the events it gives. -/
theorem unwinding (selection : ExtTreeSet String) :
    Unwinding (advance true (some selection)) (sends true (some selection))
      (fun p input => p.concerns selection input = true) (Alike selection) where
  hidden_out p input hhidden := by
    rw [Bool.not_eq_true] at hhidden
    cases input with
    | event event => exact congrArg Option.toList (project_hidden hhidden)
    | leave index =>
      exact congrArg (fun ref => (Option.map EventKind.left ref).toList)
        (sharedIndex_hidden hhidden)
  hidden_step p q input h hhidden := by
    rw [Bool.not_eq_true] at hhidden
    cases input with
    | event event => exact alike_project_hidden h hhidden
    | leave index => exact alike_leave_hidden h hhidden true (some selection)
  seen_out p q input h hseen := by
    cases input with
    | event event => exact congrArg Option.toList (project_seen h hseen).1
    | leave index =>
      exact congrArg (fun ref => (Option.map EventKind.left ref).toList)
        (sharedIndex_alike h index)
  seen_step p q input h hseen := by
    cases input with
    | event event => exact (project_seen h hseen).2
    | leave index => exact alike_leave h index true (some selection)

/-- The inputs of a run that concern selected channels. -/
def selectedInputs (selection : ExtTreeSet String) (p : Projector) (inputs : List Input) :
    List Input :=
  view (advance true (some selection)) (fun p input => p.concerns selection input = true) p inputs

theorem sends_off (p : Projector) (shared : Option (ExtTreeSet String)) (inputs : List Input) :
    outputs (advance false shared) (sends false shared) p inputs = [] := by
  induction inputs generalizing p with
  | nil => rfl
  | cons input inputs ih =>
    have hnone : p.sends false shared input = [] := by cases input <;> rfl
    rw [outputs, hnone, ih]
    rfl

/-- **No leak.** With a selection of channels, what is sent depends on nothing but the inputs that
concern them; with the switch off, nothing is sent. -/
theorem no_leak (selection : ExtTreeSet String) (p : Projector) (inputs inputs' : List Input) :
    (p.selectedInputs selection inputs = p.selectedInputs selection inputs' →
      outputs (advance true (some selection)) (sends true (some selection)) p inputs =
        outputs (advance true (some selection)) (sends true (some selection)) p inputs') ∧
      ∀ shared, outputs (advance false shared) (sends false shared) p inputs = [] ∧
        outputs (advance false shared) (sends false shared) p inputs' = [] :=
  ⟨outputs_eq_of_view_eq (unwinding selection) (Alike.refl p) (Alike.refl p),
    fun shared => ⟨sends_off p shared inputs, sends_off p shared inputs'⟩⟩

/-- A selected channel beside one that is not, in which different things happen. -/
def mixedRun (between : List ChatEvent) : List Input :=
  let overmind : ChatUser := ⟨7, some "Overmind", none, none, .available⟩
  let opened : List ChatEvent := [.joined 0 (.public_ 1033) 7, .joined 1 (.public_ 52) 7]
  let spoken : List ChatEvent := [.roster ⟨0, true, [overmind]⟩, .message 0 overmind "hi"]
  (opened ++ between ++ spoken).map .event ++ [.leave 1, .leave 0]

theorem no_leak_mixedRun :
    outputs (advance true (some {"public:1033"})) (sends true (some {"public:1033"})) {}
        (mixedRun [.memberJoined 1 ⟨9, some "Raynor", none, none, .busy⟩, .whisper,
          .message 1 ⟨9, some "Raynor", none, none, .busy⟩ "secret"]) =
      outputs (advance true (some {"public:1033"})) (sends true (some {"public:1033"})) {}
        (mixedRun [.friends]) :=
  (no_leak {"public:1033"} {} _ _).1 (by decide +kernel)

end Projector

end Superiority
