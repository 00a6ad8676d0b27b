import Superiority.Gateway.Session

/-!
# The law of the gateway's session

A channel is **awaited** from its activation until its first complete roster, or until it is left,
removed or replaced. `pending_announcement` is the channel that is awaited
(**`pendingAnnouncement_iff`**), so each activation is announced once, or ends first.

* **`stepLaw`** – what one call does, by the kind of the call.
* **`keepsLaw_run`** – the law, for every call at the end of every run.
-/

namespace Superiority.Gateway

open Std Stateful

namespace Session

/-- A join of the channel becomes the active one. -/
def Activating (s : Session) (channel : ChatChannel) : Prop :=
  s.activeChannelIndex = none ∨ s.pendingChannel = some channel

/-- The call makes the channel of the index the active one. -/
def Activates (index : UInt8) (s : Session) : Call → Prop
  | .chat (.joined other channel _ _) => other = index ∧ s.Activating channel
  | _ => False

/-- The call is a complete roster of the channel. -/
def CompletesRoster (index : UInt8) : Call → Prop
  | .chat (.roster snapshot) => snapshot.channelIndex = index ∧ snapshot.initialComplete = true
  | _ => False

/-- The call neither completes the roster of the channel, nor leaves or removes it, nor replaces
it. -/
def Passes (index : UInt8) (s : Session) : Call → Prop
  | .chat (.roster snapshot) =>
    ¬ (snapshot.channelIndex = index ∧ snapshot.initialComplete = true)
  | .chat (.removed other _) => other ≠ index
  | .chat (.joined _ channel _ _) => ¬ s.Activating channel
  | .leaveActiveChannel => False
  | _ => True

/-- The channel has been activated in a run, and nothing has happened to it since. -/
def Awaited (calls : List Call) (index : UInt8) : Prop :=
  ∃ before c between, calls = before ++ c :: between ∧
    Activates index (run step {} before) c ∧
    StepsMeet step (Passes index) (run step {} (before ++ [c])) between

/-! ## What each event changes -/

variable {s : Session}

theorem identifyToon_eq (index : UInt8) (s : Session) :
    identifyToon index s = { s with toonName := (identifyToon index s).toonName } := by
  unfold identifyToon
  split_ifs
  · rfl
  · split <;> rfl

@[simp] theorem identifyToon_active (index : UInt8) (s : Session) :
    (identifyToon index s).activeChannelIndex = s.activeChannelIndex := by
  rw [identifyToon_eq]

@[simp] theorem identifyToon_pendingAnnouncement (index : UInt8) (s : Session) :
    (identifyToon index s).pendingAnnouncement = s.pendingAnnouncement := by
  rw [identifyToon_eq]

@[simp] theorem identifyToon_sent (index : UInt8) (s : Session) :
    (identifyToon index s).sent = s.sent := by
  rw [identifyToon_eq]

@[simp] theorem identifyToon_stateOf (index other : UInt8) (s : Session) :
    (identifyToon index s).stateOf other = s.stateOf other := by
  rw [identifyToon_eq]
  rfl

@[simp] theorem setState_stateOf_self (index : UInt8) (state : ChannelState) (s : Session) :
    (setState index state s).stateOf index = state := by
  simp [stateOf, setState]

theorem setState_stateOf_of_ne {index other : UInt8} (h : index ≠ other) (state : ChannelState)
    (s : Session) : (setState index state s).stateOf other = s.stateOf other := by
  simp only [stateOf, setState]
  rw [getElem?_insert_of_ne h]

/-- The session holds a channel under the index. -/
def Holds (s : Session) (index : UInt8) : Prop := ((s.stateOf index).channel).isSome

theorem holds_iff {index : UInt8} : s.Holds index ↔
    ∃ state channel, s.channels[index]? = some state ∧ state.channel = some channel := by
  unfold Holds stateOf
  cases s.channels[index]? with
  | none => simp
  | some state => simp [Option.isSome_iff_exists]

/-- A state with the channel of before, or a new one, takes none away. -/
theorem Holds.setState {index other : UInt8} {state : ChannelState} (h : s.Holds other)
    (hstate : s.Holds index → state.channel.isSome) :
    (Session.setState index state s).Holds other := by
  by_cases hindex : index = other
  · subst hindex
    simpa [Holds] using hstate h
  · simpa [Holds, setState_stateOf_of_ne hindex] using h

/-- The active channel is held, and none but the active one is awaited. -/
structure Inv (s : Session) : Prop where
  active : ∀ index, s.activeChannelIndex = some index → s.Holds index
  pending : ∀ index, s.pendingAnnouncement = some index → s.activeChannelIndex = some index

theorem shouldActivate_iff {channel : ChatChannel} :
    s.shouldActivate channel = true ↔ s.Activating channel := by
  simp [shouldActivate, Activating]

theorem activate_fields (index : UInt8) (s : Session) :
    (activate index s).activeChannelIndex = some index ∧
      (activate index s).pendingAnnouncement = some index ∧
      (activate index s).channels = s.channels ∧
      (activate index s).sent = s.sent ++
        ((s.activeChannelIndex.filter fun old => old ≠ index).map .leaveChannel).toList := by
  unfold activate
  cases s.activeChannelIndex with
  | none => simp
  | some old =>
    by_cases hold : old = index
    · simp [hold]
    · simp [hold, send, Option.filter]

theorem Inv.setState {index : UInt8} {state : ChannelState} (h : s.Inv)
    (hstate : s.Holds index → state.channel.isSome) :
    (identifyToon index (Session.setState index state s)).Inv where
  active other hactive := by
    rw [identifyToon_active] at hactive
    rw [Holds, identifyToon_stateOf]
    exact (h.active other hactive).setState hstate
  pending other hpending := by
    rw [identifyToon_pendingAnnouncement] at hpending
    rw [identifyToon_active]
    exact h.pending other hpending

theorem Inv.activate {index : UInt8} (hheld : s.Holds index) : (Session.activate index s).Inv := by
  obtain ⟨hactive, hpending, hchannels, -⟩ := activate_fields index s
  refine ⟨fun other hother => ?_, fun other hother => ?_⟩
  · rw [hactive, Option.some.injEq] at hother
    subst hother
    rwa [Holds, stateOf, hchannels]
  · rwa [hactive, ← hpending]

theorem inv_applyJoined (h : s.Inv) (index : UInt8) (channel : ChatChannel) (handle : UInt32) :
    (applyJoined index channel handle s).Inv := by
  have hjoined : (identifyToon index (Session.setState index { s.stateOf index with
      channel := some channel
      localMemberHandle := some handle } s)).Inv := h.setState fun _ => rfl
  unfold applyJoined
  dsimp only
  split_ifs
  · exact Inv.activate (by simp [Holds])
  · exact hjoined

theorem inv_applyRoster (h : s.Inv) (snapshot : Sc2.RosterSnapshot) :
    (applyRoster snapshot s).2.Inv := by
  have hroster (users : Users) : (identifyToon snapshot.channelIndex (Session.setState
      snapshot.channelIndex { s.stateOf snapshot.channelIndex with users } s)).Inv :=
    h.setState id
  unfold applyRoster
  dsimp only
  split_ifs
  · exact hroster _
  · exact ⟨(hroster _).active, fun _ hpending => by simp at hpending⟩
  · exact hroster _
  · exact hroster _
  · exact hroster _

theorem inv_applyMemberJoined (h : s.Inv) (index : UInt8) (joined : Sc2.ChatUser) :
    (applyMemberJoined index joined s).2.Inv := by
  have hjoined : (identifyToon index (Session.setState index { s.stateOf index with
      users := (s.stateOf index).users.insert joined.handle joined } s)).Inv := h.setState id
  unfold applyMemberJoined
  dsimp only
  split_ifs
  · exact hjoined
  · exact hjoined

theorem inv_applyMemberLeft (h : s.Inv) (index : UInt8) (left : Sc2.ChatUser) :
    (applyMemberLeft index left s).2.Inv := by
  unfold applyMemberLeft
  cases hstate : s.channels[index]? with
  | none => exact h
  | some state =>
    have hleft : (Session.setState index
        { state with users := state.users.erase left.handle } s).Inv := by
      refine ⟨fun other hother => (h.active other hother).setState fun hheld => ?_, h.pending⟩
      simpa [Holds, stateOf, hstate] using hheld
    dsimp only
    split
    · split_ifs
      · exact hleft
      · exact hleft
    · exact hleft

/-- A channel is taken away that is not the active one. -/
theorem Inv.erase {index : UInt8} (h : s.Inv) {active : Option UInt8}
    (hactive : ∀ other, active = some other → s.activeChannelIndex = some other ∧ other ≠ index)
    (hnone : s.activeChannelIndex = some index ∨ active = s.activeChannelIndex) :
    Inv { s with
      activeChannelIndex := active
      pendingAnnouncement :=
        if s.pendingAnnouncement = some index then none else s.pendingAnnouncement
      channels := s.channels.erase index } where
  active other hother := by
    obtain ⟨hactive, hne⟩ := hactive other hother
    have hheld := h.active other hactive
    simp only [Holds, stateOf] at hheld ⊢
    rwa [getElem?_erase_of_ne hne.symm]
  pending other hother := by
    dsimp only at hother ⊢
    split_ifs at hother with hpending
    have hactive := h.pending other hother
    rcases hnone with hindex | hsame
    · rw [hindex, Option.some.injEq] at hactive
      subst hactive
      exact absurd hother hpending
    · rwa [hsame]

theorem inv_applyRemoved (h : s.Inv) (index : UInt8) (reason : Option UInt16) :
    (applyRemoved index reason s).2.Inv := by
  unfold applyRemoved
  dsimp only
  by_cases hactive : s.activeChannelIndex ≠ some index
  · rw [if_pos hactive]
    refine h.erase (fun other hother => ⟨hother, ?_⟩) (.inr rfl)
    rintro rfl
    exact hactive hother
  · rw [if_neg hactive]
    exact h.erase (fun _ hother => by simp at hother) (.inl (not_not.1 hactive))

theorem inv_leaveActiveChannel (h : s.Inv) : (leaveActiveChannel s).2.Inv := by
  unfold leaveActiveChannel
  cases hactive : s.activeChannelIndex with
  | none => exact h
  | some index =>
    obtain ⟨hheld, hpending⟩ := @Inv.erase s index h none (fun _ hother => by simp at hother)
      (.inl hactive)
    exact ⟨hheld, hpending⟩

/-! ## What one call does -/

/-- What a call does to a session, and what it outputs. -/
structure StepLaw (s : Session) (c : Call) : Prop where
  inv : (s.step c).Inv
  pending : ∀ index, (s.step c).pendingAnnouncement = some index ↔
    Activates index s c ∨ (s.pendingAnnouncement = some index ∧ Passes index s c)
  announced : ∀ index, s.output c = some (.joined index) ↔
    s.pendingAnnouncement = some index ∧ CompletesRoster index c
  quiet : ∀ event index, s.output c = some event → event.about = some index →
    s.activeChannelIndex = some index ∧ (s.step c).activeChannelIndex = some index
  replaced : ∀ old new, s.activeChannelIndex = some old →
    (s.step c).activeChannelIndex = some new → new ≠ old →
    (s.step c).sent = s.sent ++ [.leaveChannel old]

/-- A call that has nothing to do with what is awaited. -/
def Aside (s : Session) (c : Call) : Prop :=
  ∀ index, ¬ Activates index s c ∧
    (s.pendingAnnouncement = some index → Passes index s c ∧ ¬ CompletesRoster index c)

theorem Aside.stepLaw {c : Call} (haside : s.Aside c) (hinv : (s.step c).Inv)
    (hactive : (s.step c).activeChannelIndex = s.activeChannelIndex)
    (hpending : (s.step c).pendingAnnouncement = s.pendingAnnouncement)
    (houtput : ∀ event, s.output c = some event → (∀ index, event ≠ .joined index) ∧
      ∀ index, event.about = some index → s.activeChannelIndex = some index) :
    StepLaw s c where
  inv := hinv
  pending index := by
    obtain ⟨hactivates, hpasses⟩ := haside index
    rw [hpending]
    constructor
    · intro h
      exact .inr ⟨h, (hpasses h).1⟩
    · rintro (h | h)
      · exact absurd h hactivates
      · exact h.1
  announced index := by
    constructor
    · intro h
      exact absurd rfl ((houtput _ h).1 index)
    · rintro ⟨h, hcompletes⟩
      exact absurd hcompletes ((haside index).2 h).2
  quiet event index hevent habout := by
    have hindex := (houtput event hevent).2 index habout
    exact ⟨hindex, hactive.trans hindex⟩
  replaced old new hold hnew hne := by
    rw [hactive, hold, Option.some.injEq] at hnew
    exact absurd hnew.symm hne

/-- What changes neither the channels nor which of them is active or awaited. -/
theorem Aside.stepLaw_same {c : Call} (haside : s.Aside c) (h : s.Inv)
    (hsame : (s.step c).channels = s.channels ∧
      (s.step c).activeChannelIndex = s.activeChannelIndex ∧
      (s.step c).pendingAnnouncement = s.pendingAnnouncement)
    (houtput : ∀ event, s.output c = some event → (∀ index, event ≠ .joined index) ∧
      ∀ index, event.about = some index → s.activeChannelIndex = some index) :
    StepLaw s c := by
  obtain ⟨hchannels, hactive, hpending⟩ := hsame
  refine haside.stepLaw ⟨fun index hindex => ?_, fun index hindex => ?_⟩ hactive hpending houtput
  · have hheld := h.active index (hactive ▸ hindex)
    rwa [Holds, stateOf, hchannels]
  · rw [hactive]
    exact h.pending index (hpending ▸ hindex)

theorem stepLaw_joined (h : s.Inv) (index : UInt8) (channel : ChatChannel) (handle : UInt32)
    (shard : Option UInt16) : StepLaw s (.chat (.joined index channel handle shard)) := by
  have hinv := inv_applyJoined h index channel handle
  by_cases hactivate : s.Activating channel
  · have hstep : s.step (.chat (.joined index channel handle shard)) =
        activate index (identifyToon index (setState index
          { s.stateOf index with channel := some channel, localMemberHandle := some handle } s)) := by
      simp [step, call, applyChat, applyJoined, shouldActivate_iff.2 hactivate]
    obtain ⟨hactive, hpending, -, hsent⟩ := activate_fields index (identifyToon index (setState index
      { s.stateOf index with channel := some channel, localMemberHandle := some handle } s))
    rw [← hstep] at hactive hpending hsent
    refine ⟨hinv, fun other => ?_, fun other => ?_, fun event other houtput _ => ?_,
      fun old new hold hnew hne => ?_⟩
    · simp [hpending, Activates, Passes, hactivate]
    · simp [output, call, applyChat, CompletesRoster]
    · simp [output, call, applyChat] at houtput
    · rw [hactive, Option.some.injEq] at hnew
      subst hnew
      rw [hsent]
      simp [setState, hold, hne.symm]
  · have hstep : s.step (.chat (.joined index channel handle shard)) =
        identifyToon index (setState index
          { s.stateOf index with channel := some channel, localMemberHandle := some handle } s) := by
      simp [step, call, applyChat, applyJoined, mt shouldActivate_iff.1 hactivate]
    have haside : s.Aside (.chat (.joined index channel handle shard)) := fun other =>
      ⟨fun hactivates => hactivate hactivates.2, fun _ => ⟨hactivate, id⟩⟩
    refine haside.stepLaw hinv ?_ ?_ fun event houtput => ?_
    · simp [hstep, setState]
    · simp [hstep, setState]
    · simp [output, call, applyChat] at houtput

theorem stepLaw_roster (h : s.Inv) (snapshot : Sc2.RosterSnapshot) :
    StepLaw s (.chat (.roster snapshot)) := by
  have hinv := inv_applyRoster h snapshot
  by_cases hcompletes : s.pendingAnnouncement = some snapshot.channelIndex ∧
      snapshot.initialComplete = true
  · obtain ⟨hpending, hcomplete⟩ := hcompletes
    have hactive := h.pending _ hpending
    have houtput : s.output (.chat (.roster snapshot)) = some (.joined snapshot.channelIndex) := by
      simp [output, call, applyChat, applyRoster, setState, hactive, hpending, hcomplete]
    have hpending' : (s.step (.chat (.roster snapshot))).pendingAnnouncement = none := by
      simp [step, call, applyChat, applyRoster, setState, hactive, hpending, hcomplete]
    have hactive' : (s.step (.chat (.roster snapshot))).activeChannelIndex =
        s.activeChannelIndex := by
      simp [step, call, applyChat, applyRoster, setState, hactive, hpending, hcomplete]
    refine ⟨hinv, fun index => ?_, fun index => ?_, fun event index hevent habout => ?_,
      fun old new hold hnew hne => ?_⟩
    · simp [hpending', hpending, Activates, Passes, hcomplete]
    · simp [houtput, hpending, CompletesRoster, hcomplete]
    · rw [houtput, Option.some.injEq] at hevent
      subst hevent
      simp [Event.about] at habout
    · rw [hactive', hold, Option.some.injEq] at hnew
      exact absurd hnew.symm hne
  · have hcall : (s.step (.chat (.roster snapshot))).activeChannelIndex = s.activeChannelIndex ∧
        (s.step (.chat (.roster snapshot))).pendingAnnouncement = s.pendingAnnouncement ∧
        ∀ event, s.output (.chat (.roster snapshot)) = some event →
          event = .rosterChanged snapshot.channelIndex ∧
            s.activeChannelIndex = some snapshot.channelIndex := by
      simp only [step, output, call, applyChat, applyRoster]
      split_ifs with hactive hpending hcomplete
      · simp [setState]
      · simp only [identifyToon_pendingAnnouncement] at hpending
        exact absurd ⟨hpending, hcomplete⟩ hcompletes
      · simp [setState]
      · simp_all [setState]
      · simp [setState]
    obtain ⟨hactive, hpending, houtput⟩ := hcall
    have haside : s.Aside (.chat (.roster snapshot)) := fun index => by
      refine ⟨id, fun hindex => ⟨?_, ?_⟩⟩ <;>
        · rintro ⟨rfl, hcomplete⟩
          exact hcompletes ⟨hindex, hcomplete⟩
    refine haside.stepLaw hinv hactive hpending fun event hevent => ?_
    obtain ⟨rfl, hindex⟩ := houtput event hevent
    refine ⟨fun index => by simp, fun index habout => ?_⟩
    rw [hindex, ← habout]
    rfl

theorem stepLaw_memberJoined (h : s.Inv) (index : UInt8) (joined : Sc2.ChatUser) :
    StepLaw s (.chat (.memberJoined index joined)) := by
  have haside : s.Aside (.chat (.memberJoined index joined)) := fun _ =>
    ⟨id, fun _ => ⟨trivial, id⟩⟩
  have hcall : (s.step (.chat (.memberJoined index joined))).activeChannelIndex =
        s.activeChannelIndex ∧
      (s.step (.chat (.memberJoined index joined))).pendingAnnouncement = s.pendingAnnouncement ∧
      ∀ event, s.output (.chat (.memberJoined index joined)) = some event →
        event = .memberJoined index (user joined) ∧ s.activeChannelIndex = some index := by
    simp only [step, output, call, applyChat, applyMemberJoined]
    split_ifs with hactive
    · simp_all [setState]
    · simp [setState]
  obtain ⟨hactive, hpending, houtput⟩ := hcall
  refine haside.stepLaw (inv_applyMemberJoined h index joined) hactive hpending
    fun event hevent => ?_
  obtain ⟨rfl, hindex⟩ := houtput event hevent
  refine ⟨fun other => by simp, fun other habout => ?_⟩
  rw [hindex, ← habout]
  rfl

theorem stepLaw_memberLeft (h : s.Inv) (index : UInt8) (left : Sc2.ChatUser)
    (reason : Option UInt16) : StepLaw s (.chat (.memberLeft index left reason)) := by
  have haside : s.Aside (.chat (.memberLeft index left reason)) := fun _ =>
    ⟨id, fun _ => ⟨trivial, id⟩⟩
  have hcall : (s.step (.chat (.memberLeft index left reason))).activeChannelIndex =
        s.activeChannelIndex ∧
      (s.step (.chat (.memberLeft index left reason))).pendingAnnouncement =
        s.pendingAnnouncement ∧
      ∀ event, s.output (.chat (.memberLeft index left reason)) = some event →
        ∃ removed, event = .memberLeft index removed ∧ s.activeChannelIndex = some index := by
    simp only [step, output, call, applyChat, applyMemberLeft]
    split
    · simp
    · split
      · split_ifs with hactive
        · simp_all [setState]
        · simp [setState]
      · simp [setState]
  obtain ⟨hactive, hpending, houtput⟩ := hcall
  refine haside.stepLaw (inv_applyMemberLeft h index left) hactive hpending
    fun event hevent => ?_
  obtain ⟨removed, rfl, hindex⟩ := houtput event hevent
  refine ⟨fun other => by simp, fun other habout => ?_⟩
  rw [hindex, ← habout]
  rfl

theorem stepLaw_message (h : s.Inv) (index : UInt8) (sender : Sc2.ChatUser) (body : String) :
    StepLaw s (.chat (.message index sender body)) := by
  have haside : s.Aside (.chat (.message index sender body)) := fun _ =>
    ⟨id, fun _ => ⟨trivial, id⟩⟩
  refine haside.stepLaw_same h ⟨rfl, rfl, rfl⟩ fun event hevent => ?_
  simp only [output, call, applyChat, applyMessage] at hevent
  split_ifs at hevent with hactive
  obtain rfl := Option.some.inj hevent
  refine ⟨fun other => by simp, fun other habout => ?_⟩
  rw [hactive, ← habout]
  rfl

theorem stepLaw_removed (h : s.Inv) (index : UInt8) (reason : Option UInt16) :
    StepLaw s (.chat (.removed index reason)) := by
  have hcall : (s.step (.chat (.removed index reason))).pendingAnnouncement =
        (if s.pendingAnnouncement = some index then none else s.pendingAnnouncement) ∧
      (∀ new, (s.step (.chat (.removed index reason))).activeChannelIndex = some new →
        s.activeChannelIndex = some new) ∧
      ∀ event, s.output (.chat (.removed index reason)) = some event →
        event = .error (removedText reason) := by
    simp only [step, output, call, applyChat, applyRemoved]
    split_ifs <;> simp_all
  obtain ⟨hpending, hactive, houtput⟩ := hcall
  refine ⟨inv_applyRemoved h index reason, fun other => ?_, fun other => ?_,
    fun event other hevent habout => ?_, fun old new hold hnew hne => ?_⟩
  · rw [hpending]
    split_ifs with heq
    · simp only [Activates, Passes, heq, Option.some.injEq, false_or, false_iff]
      rintro ⟨rfl, hne⟩
      exact hne rfl
    · simp only [Activates, Passes, false_or, iff_self_and]
      rintro hother rfl
      exact heq hother
  · simp only [CompletesRoster, and_false, iff_false]
    intro hjoined
    cases houtput _ hjoined
  · rw [houtput event hevent] at habout
    cases habout
  · rw [hactive new hnew, Option.some.injEq] at hold
    exact absurd hold hne

theorem stepLaw_leaveActiveChannel (h : s.Inv) : StepLaw s .leaveActiveChannel := by
  have hcall : (s.step .leaveActiveChannel).pendingAnnouncement = none ∧
      (s.step .leaveActiveChannel).activeChannelIndex = none := by
    simp only [step, call, leaveActiveChannel]
    cases hactive : s.activeChannelIndex with
    | none =>
      refine ⟨Option.eq_none_iff_forall_ne_some.2 fun index hpending => ?_, hactive⟩
      rw [h.pending index hpending] at hactive
      cases hactive
    | some index =>
      refine ⟨?_, rfl⟩
      by_cases hpending : s.pendingAnnouncement = some index
      · exact if_pos hpending
      · refine (if_neg hpending).trans (Option.eq_none_iff_forall_ne_some.2 fun other hother => ?_)
        exact hpending (hother.trans ((h.pending other hother).symm.trans hactive))
  obtain ⟨hpending, hactive⟩ := hcall
  refine ⟨inv_leaveActiveChannel h, fun other => ?_, fun other => ?_, fun event other hevent _ => ?_,
    fun old new _ hnew _ => ?_⟩
  · simp [hpending, Activates, Passes]
  · simp [output, call, CompletesRoster]
  · simp [output, call] at hevent
  · rw [hactive] at hnew
    cases hnew

/-- A join that is sent. -/
theorem join_cases (requested : String) (s : Session) : (join requested s).2 = s ∨
    ∃ channel, (join requested s).2 =
      { send (.joinChannel channel) s with pendingChannel := some channel } := by
  unfold join
  dsimp only
  split_ifs
  · exact .inl rfl
  · simp only [bind_apply, read_apply]
    split_ifs
    · exact .inl rfl
    · exact .inr ⟨_, rfl⟩

theorem stepLaw_join (h : s.Inv) (requested : String) : StepLaw s (.join requested) := by
  have haside : s.Aside (.join requested) := fun _ => ⟨id, fun _ => ⟨trivial, id⟩⟩
  refine haside.stepLaw_same h ?_ fun event hevent => ?_
  · simp only [step, call]
    obtain heq | ⟨channel, heq⟩ := join_cases requested s
    · rw [heq]
      exact ⟨rfl, rfl, rfl⟩
    · rw [heq]
      exact ⟨rfl, rfl, rfl⟩
  · simp [output, call] at hevent

/-- An event that says nothing of a channel. -/
theorem stepLaw_other (h : s.Inv) {event : Sc2.ChatEvent}
    (haside : s.Aside (.chat event))
    (hsame : (applyChat event s).2.channels = s.channels ∧
      (applyChat event s).2.activeChannelIndex = s.activeChannelIndex ∧
      (applyChat event s).2.pendingAnnouncement = s.pendingAnnouncement)
    (houtput : ∀ told, (applyChat event s).1 = some told →
      (∀ index, told ≠ .joined index) ∧ told.about = none) : StepLaw s (.chat event) := by
  refine haside.stepLaw_same h hsame fun told htold => ⟨(houtput told htold).1, fun index habout => ?_⟩
  rw [(houtput told htold).2] at habout
  cases habout

theorem stepLaw (h : s.Inv) (c : Call) : StepLaw s c := by
  cases c with
  | join requested => exact stepLaw_join h requested
  | leaveActiveChannel => exact stepLaw_leaveActiveChannel h
  | chat event =>
    cases event with
    | joined index channel handle shard => exact stepLaw_joined h index channel handle shard
    | roster snapshot => exact stepLaw_roster h snapshot
    | memberJoined index joined => exact stepLaw_memberJoined h index joined
    | memberLeft index left reason => exact stepLaw_memberLeft h index left reason
    | removed index reason => exact stepLaw_removed h index reason
    | message index sender body => exact stepLaw_message h index sender body
    | friends friends =>
      refine stepLaw_other h (fun _ => ⟨id, fun _ => ⟨trivial, id⟩⟩) ?_ fun told htold => ?_
      · simp only [applyChat, applyFriends]
        split_ifs
        · exact ⟨rfl, rfl, rfl⟩
        · exact ⟨rfl, rfl, rfl⟩
      · simp only [applyChat, applyFriends] at htold
        split_ifs at htold
        obtain rfl := Option.some.inj htold
        exact ⟨fun _ => by simp, rfl⟩
    | _ =>
      refine stepLaw_other h (fun _ => ⟨id, fun _ => ⟨trivial, id⟩⟩) ⟨rfl, rfl, rfl⟩
        fun told htold => ?_
      simp only [applyChat, Option.some.injEq, reduceCtorEq] at htold
      try
        subst htold
        exact ⟨fun _ => by simp, rfl⟩

/-! ## Runs -/

theorem inv_initial : Inv {} where
  active _ h := by cases h
  pending _ h := by cases h

theorem inv_run (calls : List Call) : (run step {} calls).Inv := by
  refine run_invariant' (fun s c h => ?_) inv_initial calls
  exact (stepLaw h c).inv

/-- The channel is awaited after one more call if the call activates it, or passes by. -/
theorem awaited_snoc {calls : List Call} {c : Call} {index : UInt8} :
    Awaited (calls ++ [c]) index ↔ Activates index (run step {} calls) c ∨
      (Awaited calls index ∧ Passes index (run step {} calls) c) := by
  constructor
  · rintro ⟨before, activation, between, heq, hactivates, hpasses⟩
    rcases List.eq_nil_or_concat between with rfl | ⟨between, last, rfl⟩
    · obtain ⟨rfl, hlast⟩ := List.append_inj' heq rfl
      obtain rfl := List.singleton_injective hlast
      exact .inl hactivates
    · rw [List.concat_eq_append, ← List.cons_append, ← List.append_assoc] at heq
      obtain ⟨rfl, hlast⟩ := List.append_inj' heq rfl
      obtain rfl := List.singleton_injective hlast
      rw [List.concat_eq_append, stepsMeet_append] at hpasses
      refine .inr ⟨⟨before, activation, between, rfl, hactivates, hpasses.1⟩, ?_⟩
      have hlast := hpasses.2.1
      rwa [← run_append, List.append_assoc] at hlast
  · rintro (hactivates | ⟨⟨before, activation, between, rfl, hactivates, hpasses⟩, hlast⟩)
    · exact ⟨calls, c, [], rfl, hactivates, trivial⟩
    · refine ⟨before, activation, between ++ [c], by simp, hactivates, ?_⟩
      rw [stepsMeet_append]
      refine ⟨hpasses, ?_, trivial⟩
      rwa [← run_append, List.append_assoc]

/-- **Awaiting.** The channel whose announcement is pending is the one that is awaited. -/
theorem pendingAnnouncement_iff (calls : List Call) (index : UInt8) :
    (run step {} calls).pendingAnnouncement = some index ↔ Awaited calls index := by
  induction calls using List.reverseRecOn with
  | nil =>
    simp only [run_nil, reduceCtorEq, false_iff]
    rintro ⟨before, c, between, heq, -⟩
    simp at heq
  | append_singleton calls c ih =>
    rw [awaited_snoc, ← ih, run_append, run_cons, run_nil]
    exact (stepLaw (inv_run calls) c).pending index

/-- What a legacy client is promised of the session after the calls, and of one more. -/
structure KeepsLaw (calls : List Call) (c : Call) : Prop where
  /-- The active channel is one of the session's. -/
  active : ∀ index, (run step {} calls).activeChannelIndex = some index →
    ∃ state channel, (run step {} calls).channels[index]? = some state ∧
      state.channel = some channel
  /-- Only the active channel is still to be announced. -/
  pending : ∀ index, (run step {} calls).pendingAnnouncement = some index →
    (run step {} calls).activeChannelIndex = some index
  /-- A channel is announced by the first complete roster after its activation, unless it is left,
  removed or replaced first. -/
  announced : ∀ index, (run step {} calls).output c = some (.joined index) ↔
    Awaited calls index ∧ CompletesRoster index c
  /-- Nothing is told of a channel that is not active. -/
  quiet : ∀ event index, (run step {} calls).output c = some event → event.about = some index →
    (run step {} calls).activeChannelIndex = some index ∧
      (run step {} (calls ++ [c])).activeChannelIndex = some index
  /-- An active channel that is replaced is left. -/
  replaced : ∀ old new, (run step {} calls).activeChannelIndex = some old →
    (run step {} (calls ++ [c])).activeChannelIndex = some new → new ≠ old →
    (run step {} (calls ++ [c])).sent = (run step {} calls).sent ++ [.leaveChannel old]

/-- **The law of the session**, whatever happens to it. -/
theorem keepsLaw_run (calls : List Call) (c : Call) : KeepsLaw calls c := by
  have hinv := inv_run calls
  have hlaw := stepLaw hinv c
  refine ⟨fun index hindex => holds_iff.1 (hinv.active index hindex), hinv.pending, fun index => ?_,
    fun event index => ?_, fun old new => ?_⟩
  · rw [← pendingAnnouncement_iff]
    exact hlaw.announced index
  · rw [run_append]
    exact hlaw.quiet event index
  · rw [run_append]
    exact hlaw.replaced old new

end Session

end Superiority.Gateway
