import Superiority.Library.Run
import Superiority.Scr.Session

/-!
# The channels, and the one the session is in

Four callbacks and the answers to joins put channels into the chat state and take them out. What is
there is always what the updates leave, the last one of each channel deciding
(**`channels_run`**). Two things do not always follow: that `roster_revision` moves with the map, and
that the session's own channel is in it. **`roster_bookkeeping`** says when they do.
-/

namespace Superiority.Scr

open Std

/-! ## Updates of channels -/

namespace ChannelUpdate

/-- What an update leaves of its channel. -/
def left : ChannelUpdate → Option ChatChannel
  | put channel => some channel
  | removed _ => none

theorem getElem?_perform (channels : ExtTreeMap UInt32 ChatChannel) (update : ChannelUpdate)
    (channelId : UInt32) :
    (perform channels update)[channelId]? =
      if update.channelId = channelId then update.left else channels[channelId]? := by
  cases update with
  | put channel =>
    by_cases hid : channel.channelId = channelId
    · simp [perform, ChannelUpdate.channelId, left, hid]
    · simp [perform, ChannelUpdate.channelId, hid, getElem?_insert_of_ne hid]
  | removed gone =>
    by_cases hid : gone = channelId
    · simp [perform, ChannelUpdate.channelId, left, hid]
    · simp [perform, ChannelUpdate.channelId, hid, getElem?_erase_of_ne hid]

end ChannelUpdate

/-- The last update of a channel. -/
def lastUpdate (updates : List ChannelUpdate) (channelId : UInt32) : Option ChannelUpdate :=
  updates.reverse.find? fun update => update.channelId = channelId

/-- What is left of a channel: what its last update leaves, or what was there. -/
def leftOf (updates : List ChannelUpdate) (channels : ExtTreeMap UInt32 ChatChannel)
    (channelId : UInt32) : Option ChatChannel :=
  match lastUpdate updates channelId with
  | some update => update.left
  | none => channels[channelId]?

theorem getElem?_foldl_perform (updates : List ChannelUpdate)
    (channels : ExtTreeMap UInt32 ChatChannel) (channelId : UInt32) :
    (updates.foldl ChannelUpdate.perform channels)[channelId]? =
      leftOf updates channels channelId := by
  induction updates using List.reverseRecOn with
  | nil => rfl
  | append_singleton updates update ih =>
    rw [List.foldl_append, List.foldl_cons, List.foldl_nil, ChannelUpdate.getElem?_perform, ih]
    unfold leftOf lastUpdate
    rw [List.reverse_append, List.reverse_singleton, List.singleton_append, List.find?_cons]
    by_cases hid : update.channelId = channelId
    · simp [hid]
    · simp [hid]

/-- The updates of channels in a callback. -/
def updatesIn : Callback → List ChannelUpdate
  | .channels updates => updates
  | .left channelId => [.removed channelId]
  | .forced channel => [.put channel]
  | _ => []

theorem ChatState.channels_keepFriend (s : ChatState) (key : String) (entry : ChatFriend) :
    (s.keepFriend key entry).channels = s.channels ∧
      (s.keepFriend key entry).rosterRevision = s.rosterRevision := by
  unfold keepFriend
  split_ifs <;> exact ⟨rfl, rfl⟩

theorem ChatState.channels_perform (s : ChatState) (callback : Callback) :
    (s.perform callback).channels = (updatesIn callback).foldl ChannelUpdate.perform s.channels := by
  cases callback with
  | update update => exact (channels_keepFriend _ _ _).1
  | notice entry text => exact (channels_keepFriend _ _ _).1
  | _ => rfl

/-- The revision moves with the lists of channels and with the forced joins. -/
theorem ChatState.rosterRevision_perform (s : ChatState) (callback : Callback) :
    (s.perform callback).rosterRevision = match callback with
      | .channels _ | .forced _ => s.rosterRevision + 1
      | _ => s.rosterRevision := by
  cases callback with
  | update update => exact (channels_keepFriend _ _ _).2
  | notice entry text => exact (channels_keepFriend _ _ _).2
  | _ => rfl

/-! ## Runs -/

/-- A frame that comes in, or a room that the answer to a join names. -/
inductive RosterInput where
  | frame (now : Nat) (localToon : String) (frame : Frame)
  | adopted (channel : ChatChannel)

/-- The updates of channels in an input. -/
def RosterInput.updates : RosterInput → List ChannelUpdate
  | .frame _ _ received => updatesIn (callbackOf received)
  | .adopted channel => [.put channel]

namespace ClassicSession

/-- `join_named_with` adopts the room that the answer names, and `join_named` moves there. -/
def adopt (s : ClassicSession) (channel : ChatChannel) : ClassicSession :=
  { s with
    state := s.state.adoptChannel channel
    channel := channel.channelId }

def roster (s : ClassicSession) : RosterInput → ClassicSession
  | .frame now localToon frame => (s.applyClassicFrame now localToon frame).2
  | .adopted channel => s.adopt channel

/-- The session is in no channel, or in one that is there. -/
def Placed (s : ClassicSession) : Prop := s.channel = 0 ∨ s.channel ∈ s.state.channels

/-- What an input keeps of the books. -/
structure Kept (s : ClassicSession) (i : RosterInput) : Prop where
  folded : (s.roster i).state.channels = i.updates.foldl ChannelUpdate.perform s.state.channels
  told : (s.roster i).state.channels ≠ s.state.channels →
    (s.roster i).state.rosterRevision ≠ s.state.rosterRevision
  placed : (s.roster i).Placed

/-- No channel leaves by `LeftChannel`, and no list of channels takes away the session's own. -/
def LeavesPlace (s : ClassicSession) : Callback → Prop
  | .left channelId => channelId ∉ s.state.channels
  | .channels updates =>
    s.channel = 0 ∨ ∀ update ∈ lastUpdate updates s.channel, update.left ≠ none
  | _ => True

/-- So it is with the callback of a frame. -/
def KeepsPlace (s : ClassicSession) : RosterInput → Prop
  | .frame _ _ frame => s.LeavesPlace (callbackOf frame)
  | .adopted _ => True

/-- The books after a frame, by what it carries. -/
theorem roster_frame (s : ClassicSession) (now : Nat) (localToon : String) (frame : Frame) :
    (s.roster (.frame now localToon frame)).state.channels =
        (s.state.perform (callbackOf frame)).channels ∧
      (s.roster (.frame now localToon frame)).state.rosterRevision =
        (s.state.perform (callbackOf frame)).rosterRevision ∧
      (s.roster (.frame now localToon frame)).channel =
        (match callbackOf frame with
          | .forced channel => channel.channelId
          | _ => s.channel) := by
  obtain ⟨hstate, -, hchannel⟩ := s.applyClassicFrame_heard now localToon frame
  refine ⟨?_, ?_, hchannel⟩
  · change (s.applyClassicFrame now localToon frame).2.state.channels = _
    rw [hstate]
    split_ifs
    · rw [state_retractEcho]
    · rfl
  · change (s.applyClassicFrame now localToon frame).2.state.rosterRevision = _
    rw [hstate]
    split_ifs
    · rw [state_retractEcho]
    · rfl

/-- The channels are what the updates leave. -/
theorem channels_roster (s : ClassicSession) (i : RosterInput) :
    (s.roster i).state.channels = i.updates.foldl ChannelUpdate.perform s.state.channels := by
  cases i with
  | frame now localToon frame =>
    rw [(s.roster_frame now localToon frame).1, ChatState.channels_perform]
    rfl
  | adopted channel => rfl

/-- **The channels are the fold of their updates**, in a whole run. -/
theorem channels_run (s : ClassicSession) (inputs : List RosterInput) :
    (run roster s inputs).state.channels =
      (inputs.flatMap RosterInput.updates).foldl ChannelUpdate.perform s.state.channels := by
  induction inputs generalizing s with
  | nil => rfl
  | cons i inputs ih =>
    rw [run_cons, ih, channels_roster, List.flatMap_cons, List.foldl_append]

theorem mem_channels_iff {channels : ExtTreeMap UInt32 ChatChannel} {channelId : UInt32} :
    channelId ∈ channels ↔ channels[channelId]? ≠ none := by
  rw [ExtTreeMap.mem_iff_isSome_getElem?, Option.isSome_iff_ne_none]

theorem placed_roster_list {s : ClassicSession} (h : s.Placed) {updates : List ChannelUpdate} :
    (s.channel = 0 ∨ s.channel ∈ updates.foldl ChannelUpdate.perform s.state.channels) ↔
      (s.channel = 0 ∨ ∀ update ∈ lastUpdate updates s.channel, update.left ≠ none) := by
  rw [mem_channels_iff, getElem?_foldl_perform]
  unfold leftOf
  cases hlast : lastUpdate updates s.channel with
  | none =>
    rw [← mem_channels_iff]
    simpa [Placed] using h
  | some update => simp

/-- A session that is placed keeps its books exactly through the inputs that keep its place. -/
theorem kept_iff {s : ClassicSession} (h : s.Placed) (i : RosterInput) :
    s.Kept i ↔ s.KeepsPlace i := by
  have hfolded := s.channels_roster i
  cases i with
  | adopted channel =>
    refine iff_of_true ⟨hfolded, ?_, Or.inr ?_⟩ trivial
    · intro _
      change s.state.rosterRevision + 1 ≠ _
      simp
    · exact ExtTreeMap.mem_insert_self
  | frame now localToon frame =>
    obtain ⟨hchannels, hrevision, hchannel⟩ := s.roster_frame now localToon frame
    rw [ChatState.rosterRevision_perform] at hrevision
    change _ ↔ s.LeavesPlace (callbackOf frame)
    cases hcallback : callbackOf frame with
    | left channelId =>
      rw [hcallback] at hchannels hrevision hchannel
      constructor
      · intro hkept hmem
        apply hkept.told _ hrevision
        intro hsame
        rw [hsame] at hchannels
        rw [mem_channels_iff, hchannels] at hmem
        exact hmem ExtTreeMap.getElem?_erase_self
      · intro (hgone : channelId ∉ s.state.channels)
        have hsame : (s.state.channels.erase channelId) = s.state.channels := by
          apply ExtTreeMap.ext_getElem?
          intro k
          by_cases hk : channelId = k
          · subst hk
            rw [ExtTreeMap.getElem?_erase_self]
            rw [mem_channels_iff, not_not] at hgone
            exact hgone.symm
          · exact getElem?_erase_of_ne hk
        have hsame : (s.roster (.frame now localToon frame)).state.channels =
          s.state.channels := hchannels.trans hsame
        refine ⟨hfolded, fun hchanged => absurd hsame hchanged, ?_⟩
        unfold Placed
        rw [hsame, hchannel]
        exact h
    | channels updates =>
      rw [hcallback] at hchannels hrevision hchannel
      change _ ↔ (s.channel = 0 ∨ ∀ update ∈ lastUpdate updates s.channel, update.left ≠ none)
      rw [← placed_roster_list h]
      constructor
      · intro hkept
        have hplaced := hkept.placed
        unfold Placed at hplaced
        rw [hchannels, hchannel] at hplaced
        exact hplaced
      · intro hplaced
        refine ⟨hfolded, ?_, ?_⟩
        · intro _
          rw [hrevision]
          simp
        · unfold Placed
          rw [hchannels, hchannel]
          exact hplaced
    | forced channel =>
      rw [hcallback] at hchannels hrevision hchannel
      refine iff_of_true ⟨hfolded, ?_, Or.inr ?_⟩ trivial
      · intro _
        rw [hrevision]
        simp
      · rw [hchannels, hchannel]
        exact ExtTreeMap.mem_insert_self
    | _ =>
      rw [hcallback] at hchannel hchannels
      have hsame : (s.roster (.frame now localToon frame)).state.channels = s.state.channels := by
        rw [hchannels, ChatState.channels_perform]
        rfl
      refine iff_of_true ⟨hfolded, fun hchanged => absurd hsame hchanged, ?_⟩ trivial
      unfold Placed
      rw [hsame, hchannel]
      exact h

/-- **The books of a run.** The channels are the fold of the updates, each step that changes them
moves the revision, and the session's channel is among them, exactly when no channel leaves by
`LeftChannel` and no list of channels takes the session's own away. -/
theorem roster_bookkeeping (s : ClassicSession) (h : s.Placed) (inputs : List RosterInput) :
    (StepsMeet roster Kept s inputs ∧
        ∀ channelId, (run roster s inputs).state.channels[channelId]? =
          leftOf (inputs.flatMap RosterInput.updates) s.state.channels channelId) ↔
      StepsMeet roster KeepsPlace s inputs := by
  have hlast (channelId : UInt32) : (run roster s inputs).state.channels[channelId]? =
      leftOf (inputs.flatMap RosterInput.updates) s.state.channels channelId := by
    rw [channels_run, getElem?_foldl_perform]
  rw [and_iff_left hlast]
  exact stepsMeet_congr (fun s i h _ => kept_iff h i)
    (fun s i h _ hplace => ((kept_iff h i).2 hplace).placed) h (stepsMeet_true roster s inputs)

/-- A forced join, to a channel named by one letter. -/
def forceFrame (channelId letter : UInt8) : Frame where
  header := { serviceId := Service.legacyChat, methodId := Method.forceJoinChannel }
  body := [0x12, 5, 0x08, channelId, 0x12, 1, letter]

def leftFrame (channelId : UInt8) : Frame where
  header := { serviceId := Service.legacyChat, methodId := Method.leftChannel }
  body := [0x08, channelId]

/-- A list that takes one channel away. -/
def removalFrame (channelId letter : UInt8) : Frame where
  header := { serviceId := Service.legacyChat, methodId := Method.channelsUpdated }
  body := [0x0A, 9, 0x08, 1, 0x12, 5, 0x08, channelId, 0x12, 1, letter]

/-- The session is forced from a channel to another, and the first is taken off the list. -/
theorem roster_bookkeeping_moved :
    let inputs := [.frame 0 "" (forceFrame 7 65), .frame 0 "" (forceFrame 8 66),
      .frame 0 "" (removalFrame 7 65)]
    StepsMeet roster Kept {} inputs ∧
      ∀ channelId, (run roster {} inputs).state.channels[channelId]? =
        leftOf (inputs.flatMap RosterInput.updates) ∅ channelId := by
  refine (roster_bookkeeping {} (Or.inl rfl) _).2 ?_
  refine ⟨trivial, trivial, ?_, trivial⟩
  have hcallback : callbackOf (removalFrame 7 65) = .channels [.removed 7] := by decide +kernel
  change LeavesPlace _ (callbackOf (removalFrame 7 65))
  rw [hcallback]
  refine Or.inr ?_
  have hchannel : (run roster {} [.frame 0 "" (forceFrame 7 65),
      .frame 0 "" (forceFrame 8 66)]).channel = 8 := by decide +kernel
  change ∀ update ∈ lastUpdate [.removed 7] (run roster {} [.frame 0 "" (forceFrame 7 65),
      .frame 0 "" (forceFrame 8 66)]).channel, _
  rw [hchannel]
  exact fun _ h => nomatch h

/-- The session's channel leaves: the map changes, the revision does not, and the session stays in a
channel that is gone. -/
theorem not_roster_bookkeeping :
    ¬ ∀ (s : ClassicSession), s.Placed → ∀ inputs : List RosterInput, StepsMeet roster Kept s inputs := by
  intro h
  obtain ⟨-, hlast, -⟩ := h {} (Or.inl rfl) [.frame 0 "" (forceFrame 7 65), .frame 0 "" (leftFrame 7)]
  let s := roster {} (.frame 0 "" (forceFrame 7 65))
  have hbefore : (s.state.channels[(7 : UInt32)]?).isSome = true := by decide +kernel
  have hafter : ((s.roster (.frame 0 "" (leftFrame 7))).state.channels[(7 : UInt32)]?).isSome =
      false := by decide +kernel
  have hrevision : (s.roster (.frame 0 "" (leftFrame 7))).state.rosterRevision =
      s.state.rosterRevision := by decide +kernel
  apply hlast.told _ hrevision
  intro hsame
  rw [hsame, hbefore] at hafter
  cases hafter

end ClassicSession

end Superiority.Scr
