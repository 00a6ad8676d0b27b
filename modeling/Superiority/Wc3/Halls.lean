import Superiority.Library.Keyed
import Superiority.Live.Chat
import Superiority.Wc3.Messages

/-!
# Warcraft III's halls on the desktop

The halls in the strip, in their order, and what the session's events and snapshots do to them. A
hall is opened by an event and filled by a snapshot; its face is what a reader sees of it besides
its transcript.

* **`byKey_faces_appendEvent`** – an event opens the hall of its id, closes it or leaves every face.
* **`byKey_faces_applyChannel`** – a snapshot sets the face of its id.
-/

namespace Superiority.Wc3

/-! ## Members -/

/-- `number.parse::<u16>()` of three digits. -/
def decimal (digits : List Char) : Nat :=
  digits.foldl (fun n c => 10 * n + (c.toNat - '0'.toNat)) 0

def isCatalogueId (id : String) : Bool :=
  match id.toList with
  | 'p' :: number =>
    number.length = 3 ∧ number.all (fun c => '0' ≤ c ∧ c ≤ '9') ∧
      (1 ≤ decimal number ∧ decimal number ≤ 62 ∨ 68 ≤ decimal number ∧ decimal number ≤ 207)
  | _ => false

/-- The portrait of an avatar; an avatar outside the catalogue has the Peon's. -/
def portraitSource (id : Option String) : String :=
  "images/products/wc3/portraits/" ++ ((id.map trim).filter isCatalogueId).getD "p003" ++ ".png"

structure Wc3Member where
  handle : UInt64
  name : String
  presence : ChatPresence
  portrait : String
  clanAbbreviation : Option String
  deriving DecidableEq

/-- `Wc3Member::from`. -/
def Wc3Member.of (member : ChatMember) : Wc3Member where
  handle := member.handle
  name := member.name
  presence := member.presence
  portrait := portraitSource member.avatarId
  clanAbbreviation := member.clanAbbreviation

/-! ## Halls -/

inductive TranscriptLine where
  | sessionStart (time channel : String) (online : Nat)
  | message (time : String) (sender : Option String) (text : String)
  | notice (time text : String)
  /-- An error, shown by its text, or a text of its own. -/
  | error (time : String) (reason : Error ⊕ String)
  deriving DecidableEq

structure Wc3ChannelState where
  id : UInt8
  name : String
  members : List Wc3Member
  transcript : List TranscriptLine
  unread : Bool
  deriving DecidableEq

/-- What is seen of a hall besides its transcript. -/
structure Face where
  id : UInt8
  name : String
  members : List Wc3Member
  deriving DecidableEq

def Wc3ChannelState.face (hall : Wc3ChannelState) : Face := ⟨hall.id, hall.name, hall.members⟩

/-- The face a snapshot gives. -/
def ChatChannel.face (channel : ChatChannel) : Face :=
  ⟨channel.id, channel.name, channel.members.map Wc3Member.of⟩

structure Wc3SessionUi where
  channels : List Wc3ChannelState
  activeChannel : Nat

namespace Wc3SessionUi

def new : Wc3SessionUi := ⟨[], 0⟩

def position (ui : Wc3SessionUi) (id : UInt8) : Option Nat := ui.channels.findIdx? (·.id = id)

def active (ui : Wc3SessionUi) : Option Wc3ChannelState := ui.channels[ui.activeChannel]?

def modify (ui : Wc3SessionUi) (index : Nat) (f : Wc3ChannelState → Wc3ChannelState) :
    Wc3SessionUi := { ui with channels := ui.channels.modify index f }

def push (ui : Wc3SessionUi) (hall : Wc3ChannelState) : Wc3SessionUi where
  channels := ui.channels ++ [hall]
  activeChannel := ui.channels.length

def applyChannel (ui : Wc3SessionUi) (channel : ChatChannel) (time : String) : Wc3SessionUi :=
  let members := channel.members.map Wc3Member.of
  match ui.position channel.id with
  | some index => ui.modify index fun hall => { hall with name := channel.name, members := members }
  | none => ui.push {
      id := channel.id
      name := channel.name
      members := members
      transcript := [.sessionStart time channel.name channel.members.length]
      unread := false }

def removeChannel (ui : Wc3SessionUi) (index : Nat) : Option UInt8 × Wc3SessionUi :=
  match ui.channels[index]? with
  | none => (none, ui)
  | some hall =>
    let channels := ui.channels.eraseIdx index
    (some hall.id, {
      channels := channels
      activeChannel := if channels.isEmpty then 0
        else if ui.activeChannel > index ∨ ui.activeChannel = channels.length then
          ui.activeChannel - 1
        else ui.activeChannel })

/-- A line at the end of the transcript of the hall of an id. -/
def writeLine (ui : Wc3SessionUi) (id : UInt8) (line : TranscriptLine) : Wc3SessionUi :=
  { ui with channels := modifyFirst (·.id = id) (fun hall => { hall with
    transcript := hall.transcript ++ [line] }) ui.channels }

/-- A line at the end of the transcript of the hall in front. -/
def writeActive (ui : Wc3SessionUi) (line : TranscriptLine) : Wc3SessionUi :=
  ui.modify ui.activeChannel fun hall => { hall with transcript := hall.transcript ++ [line] }

def appendEvent (ui : Wc3SessionUi) (event : ChatEvent) (time : String) : Wc3SessionUi :=
  match event with
  | .channelJoined id name memberCount =>
    match ui.position id with
    | some index => { ui.modify index fun hall => { hall with name := name, unread := false } with
        activeChannel := index }
    | none => ui.push {
        id := id
        name := name
        members := []
        transcript := [.sessionStart time name memberCount]
        unread := false }
  | .channelLeft id =>
    match ui.position id with
    | some index => (ui.removeChannel index).2
    | none => ui
  | .memberJoined id name =>
    ui.writeLine id (.notice time (stripCharacterCode name ++ " entered the channel."))
  | .memberLeft id name =>
    ui.writeLine id (.notice time (match name with
      | none => "A player left the channel."
      | some name => stripCharacterCode name ++ " left the channel."))
  | .message id body =>
    let inactive : Bool := ui.active.all (·.id ≠ id)
    { ui with channels := modifyFirst (·.id = id) (fun hall => { hall with
      transcript := hall.transcript ++ [.message time none body]
      unread := hall.unread || inactive }) ui.channels }
  | .whisper .. => ui
  | .notice text => ui.writeActive (.notice time text)

def appendError (ui : Wc3SessionUi) (time : String) (reason : Error ⊕ String) :
    Wc3SessionUi := ui.writeActive (.error time reason)

def selectChannel (ui : Wc3SessionUi) (index : Nat) : Wc3SessionUi :=
  if index ≥ ui.channels.length ∨ index = ui.activeChannel then ui
  else { ui.modify index fun hall => { hall with unread := false } with activeChannel := index }

/-- Where the tab in front ends up once a tab has moved. -/
def reorderedActive (active start stop : Nat) : Nat :=
  if active = start then stop
  else if start < active ∧ active ≤ stop then active - 1
  else if stop ≤ active ∧ active < start then active + 1
  else active

/-- A tab that has been dragged lands. -/
def reorder (ui : Wc3SessionUi) (start stop : Nat) : Wc3SessionUi :=
  match ui.channels[start]? with
  | none => ui
  | some carried =>
    if stop ≥ ui.channels.length ∨ start = stop then ui
    else {
      channels := (ui.channels.eraseIdx start).insertIdx stop carried
      activeChannel := reorderedActive ui.activeChannel start stop }

/-! ## Faces -/

def faces (ui : Wc3SessionUi) : List Face := ui.channels.map (·.face)

def ids (ui : Wc3SessionUi) : List UInt8 := ui.channels.map (·.id)

/-- The face of the hall of an id. -/
def face (ui : Wc3SessionUi) (id : UInt8) : Option Face := byKey Face.id id ui.faces

theorem map_id_faces (ui : Wc3SessionUi) : ui.faces.map (·.id) = ui.ids := by
  simp [faces, ids, Wc3ChannelState.face]

theorem position_eq_none {ui : Wc3SessionUi} {id : UInt8} :
    ui.position id = none ↔ ui.face id = none := by
  rw [position, List.findIdx?_eq_none_iff, face, byKey_eq_none]
  simp [faces, Wc3ChannelState.face]

theorem position_isSome {ui : Wc3SessionUi} {id : UInt8} {index : Nat}
    (h : ui.position id = some index) : ∃ face, ui.face id = some face := by
  rw [← Option.isSome_iff_exists, Option.isSome_iff_ne_none, ne_eq, ← position_eq_none, h]
  exact nofun

/-- A change of the hall at a position is a change of the first hall of the id. -/
theorem modify_position {ui : Wc3SessionUi} {id : UInt8} {index : Nat}
    (h : ui.position id = some index) (f : Wc3ChannelState → Wc3ChannelState) :
    (ui.modify index f).channels = modifyFirst (·.id = id) f ui.channels := by
  obtain ⟨channels, active⟩ := ui
  simp only [position, modify] at h ⊢
  induction channels generalizing index with
  | nil => simp at h
  | cons hall channels ih =>
    rw [List.findIdx?_cons] at h
    by_cases hid : hall.id = id
    · obtain rfl : 0 = index := by simpa [hid] using h
      simp [modifyFirst, hid]
    · obtain ⟨index, hindex, rfl⟩ :
          ∃ i, channels.findIdx? (·.id = id) = some i ∧ i + 1 = index := by
        simpa [hid] using h
      simp [modifyFirst, hid, ih hindex]

theorem faces_modifyFirst {ui : Wc3SessionUi} {id : UInt8} {f : Wc3ChannelState → Wc3ChannelState}
    {g : Face → Face} (h : ∀ hall, (f hall).face = g hall.face) :
    (modifyFirst (·.id = id) f ui.channels).map (·.face) = modifyFirst (·.id = id) g ui.faces :=
  map_modifyFirst (by intro hall; rfl) h ui.channels

theorem faces_push (ui : Wc3SessionUi) (hall : Wc3ChannelState) :
    (ui.push hall).faces = ui.faces ++ [hall.face] := by
  simp [faces, push]

/-- What writes into a hall leaves its face. -/
theorem faces_modify_of_eq (ui : Wc3SessionUi) (index : Nat)
    {f : Wc3ChannelState → Wc3ChannelState} (h : ∀ hall, (f hall).face = hall.face) :
    (ui.modify index f).faces = ui.faces := by
  refine List.ext_getElem? fun i => ?_
  simp only [faces, modify, List.getElem?_map, List.getElem?_modify]
  cases ui.channels[i]? with
  | none => rfl
  | some hall =>
    by_cases hi : index = i
    · simp [hi, h]
    · simp [hi]

@[simp] theorem faces_writeActive (ui : Wc3SessionUi) (line : TranscriptLine) :
    (ui.writeActive line).faces = ui.faces := faces_modify_of_eq ui _ fun _ => rfl

@[simp] theorem faces_writeLine (ui : Wc3SessionUi) (id : UInt8) (line : TranscriptLine) :
    (ui.writeLine id line).faces = ui.faces :=
  map_modifyFirst_of_eq (by intro hall; rfl) ui.channels

@[simp] theorem faces_appendError (ui : Wc3SessionUi) (time : String)
    (reason : Error ⊕ String) : (ui.appendError time reason).faces = ui.faces :=
  faces_writeActive ui _

@[simp] theorem faces_selectChannel (ui : Wc3SessionUi) (index : Nat) :
    (ui.selectChannel index).faces = ui.faces := by
  unfold selectChannel
  split
  · rfl
  · exact faces_modify_of_eq ui index fun _ => rfl

/-- A tab that lands elsewhere is still there. -/
theorem faces_reorder_perm (ui : Wc3SessionUi) (start stop : Nat) :
    (ui.reorder start stop).faces.Perm ui.faces := by
  unfold reorder
  split
  · exact List.Perm.refl _
  · next carried hget =>
    split
    · exact List.Perm.refl _
    · next hbounds =>
      obtain ⟨hlt, rfl⟩ := List.getElem?_eq_some_iff.1 hget
      have hstop : stop ≤ (ui.channels.eraseIdx start).length := by
        rw [List.length_eraseIdx_of_lt hlt]
        omega
      refine List.Perm.map _ ((List.perm_insertIdx _ _ hstop).trans ?_)
      exact (List.getElem_cons_eraseIdx_perm hlt)

/-- A tab that is closed takes its face with it. -/
theorem faces_removeChannel {ui : Wc3SessionUi} (hnodup : ui.ids.Nodup) {index : Nat} {id : UInt8}
    (h : (ui.channels[index]?).map (·.id) = some id) :
    (ui.removeChannel index).2.faces = ui.faces.filter (·.id ≠ id) := by
  obtain ⟨hall, hget, rfl⟩ := Option.map_eq_some_iff.1 h
  have hface : ui.faces[index]? = some hall.face := by simp [faces, hget]
  have herase : ui.faces.eraseIdx index = ui.faces.filter (·.id ≠ hall.face.id) :=
    eraseIdx_eq_filter (by rwa [map_id_faces]) hface
  rw [← show hall.face.id = hall.id from rfl, ← herase, removeChannel, hget]
  exact (List.eraseIdx_map ..).symm

theorem faces_channelLeft {ui : Wc3SessionUi} (hnodup : ui.ids.Nodup) (id : UInt8)
    (time : String) : (ui.appendEvent (.channelLeft id) time).faces =
      ui.faces.filter (·.id ≠ id) := by
  dsimp only [appendEvent]
  split
  · next index hindex =>
    obtain ⟨hlt, hid, -⟩ := List.findIdx?_eq_some_iff_getElem.1 hindex
    refine faces_removeChannel hnodup ?_
    simpa [hlt] using hid
  · next hnone =>
    rw [position_eq_none, face, byKey_eq_none] at hnone
    exact (List.filter_eq_self.2 fun face hface => decide_eq_true (hnone face hface)).symm

/-! ## What is seen under an id -/

/-- A hall of an id keeps its members when it is joined again. -/
def joinedFace (id : UInt8) (name : String) (before : Option Face) : Face :=
  ⟨id, name, (before.map Face.members).getD []⟩

theorem face_channelJoined (ui : Wc3SessionUi) (id : UInt8) (name : String) (count : Nat)
    (time : String) (k : UInt8) : (ui.appendEvent (.channelJoined id name count) time).face k =
      if k = id then some (joinedFace id name (ui.face id)) else ui.face k := by
  dsimp only [appendEvent]
  split
  · next index hindex =>
    obtain ⟨before, hbefore⟩ := position_isSome hindex
    have hfaces := (congrArg (List.map Wc3ChannelState.face) (modify_position hindex
      fun hall => { hall with name := name, unread := false })).trans
      (faces_modifyFirst (g := fun face => { face with name := name }) fun _ => rfl)
    refine (congrArg (byKey Face.id k) hfaces).trans
      ((byKey_modifyFirst (by intro face; rfl)).trans ?_)
    by_cases hk : k = id
    · have hid := key_of_byKey hbefore
      rw [face] at hbefore
      simp [hk, face, hbefore, joinedFace, hid]
    · simp [hk, face]
  · next hnone =>
    rw [position_eq_none] at hnone
    rw [face, faces_push, byKey_append, ← face]
    by_cases hk : k = id
    · simp [hk, hnone, joinedFace, Wc3ChannelState.face]
    · have hne : ¬ id = k := fun h => hk h.symm
      simp [hk, hne, Wc3ChannelState.face]

theorem face_channelLeft {ui : Wc3SessionUi} (hnodup : ui.ids.Nodup) (id : UInt8) (time : String)
    (k : UInt8) : (ui.appendEvent (.channelLeft id) time).face k =
      if k = id then none else ui.face k := by
  rw [face, faces_channelLeft hnodup, byKey_filter_ne, face]

theorem face_removeChannel {ui : Wc3SessionUi} (hnodup : ui.ids.Nodup) {index : Nat} {id : UInt8}
    (h : (ui.channels[index]?).map (·.id) = some id) (k : UInt8) :
    (ui.removeChannel index).2.face k = if k = id then none else ui.face k := by
  rw [face, faces_removeChannel hnodup h, byKey_filter_ne, face]

theorem face_applyChannel (ui : Wc3SessionUi) (channel : ChatChannel) (time : String)
    (k : UInt8) : (ui.applyChannel channel time).face k =
      if k = channel.id then some channel.face else ui.face k := by
  dsimp only [applyChannel]
  split
  · next index hindex =>
    obtain ⟨before, hbefore⟩ := position_isSome hindex
    have hfaces := (congrArg (List.map Wc3ChannelState.face) (modify_position hindex
      fun hall => { hall with
        name := channel.name
        members := channel.members.map Wc3Member.of })).trans
      (faces_modifyFirst (g := fun face => { face with
        name := channel.name
        members := channel.members.map Wc3Member.of }) fun _ => rfl)
    refine (congrArg (byKey Face.id k) hfaces).trans
      ((byKey_modifyFirst (by intro face; rfl)).trans ?_)
    by_cases hk : k = channel.id
    · have hid := key_of_byKey hbefore
      rw [face] at hbefore
      simp [hk, hbefore, ChatChannel.face, hid]
    · simp [hk, face]
  · next hnone =>
    rw [position_eq_none] at hnone
    rw [face, faces_push, byKey_append, ← face]
    by_cases hk : k = channel.id
    · simp [hk, hnone, ChatChannel.face, Wc3ChannelState.face]
    · have hne : ¬ channel.id = k := fun h => hk h.symm
      simp [hk, hne, Wc3ChannelState.face]

/-- Events that neither open nor close a hall leave the faces. -/
theorem faces_appendEvent_of_other (ui : Wc3SessionUi) {event : ChatEvent} (time : String)
    (hjoined : ∀ id name count, event ≠ .channelJoined id name count)
    (hleft : ∀ id, event ≠ .channelLeft id) : (ui.appendEvent event time).faces = ui.faces := by
  cases event with
  | channelJoined id name count => exact absurd rfl (hjoined id name count)
  | channelLeft id => exact absurd rfl (hleft id)
  | memberJoined id name => exact faces_writeLine ui id _
  | memberLeft id name => exact faces_writeLine ui id _
  | message id body => exact map_modifyFirst_of_eq (by intro hall; rfl) ui.channels
  | whisper => rfl
  | notice text => exact faces_writeActive ui _

/-! ## One hall of each id -/

theorem nodup_of_faces {ui ui' : Wc3SessionUi} (hnodup : ui.ids.Nodup)
    (h : ui'.faces = ui.faces) : ui'.ids.Nodup := by
  rwa [← map_id_faces, h, map_id_faces]

theorem nodup_push {ui : Wc3SessionUi} (hnodup : ui.ids.Nodup) {hall : Wc3ChannelState}
    (h : ui.face hall.id = none) : (ui.push hall).ids.Nodup := by
  rw [← map_id_faces, faces_push]
  exact nodup_keys_append (by rwa [map_id_faces]) h

theorem nodup_modify {ui : Wc3SessionUi} (hnodup : ui.ids.Nodup) (index : Nat)
    {f : Wc3ChannelState → Wc3ChannelState} (h : ∀ hall, (f hall).id = hall.id) :
    (ui.modify index f).ids.Nodup := by
  have heq : (ui.modify index f).ids = ui.ids := by
    refine List.ext_getElem? fun i => ?_
    simp only [ids, modify, List.getElem?_map, List.getElem?_modify]
    cases ui.channels[i]? with
    | none => rfl
    | some hall =>
      by_cases hi : index = i
      · simp [hi, h]
      · simp [hi]
  rwa [heq]

theorem nodup_applyChannel {ui : Wc3SessionUi} (hnodup : ui.ids.Nodup) (channel : ChatChannel)
    (time : String) : (ui.applyChannel channel time).ids.Nodup := by
  dsimp only [applyChannel]
  split
  · exact nodup_modify hnodup _ fun _ => rfl
  · next hnone => exact nodup_push hnodup (position_eq_none.1 hnone)

theorem nodup_removeChannel {ui : Wc3SessionUi} (hnodup : ui.ids.Nodup) (index : Nat) :
    (ui.removeChannel index).2.ids.Nodup := by
  unfold removeChannel
  split
  · exact hnodup
  · exact hnodup.sublist ((List.eraseIdx_sublist _ _).map _)

theorem nodup_appendEvent {ui : Wc3SessionUi} (hnodup : ui.ids.Nodup) (event : ChatEvent)
    (time : String) : (ui.appendEvent event time).ids.Nodup := by
  cases event with
  | channelJoined id name count =>
    dsimp only [appendEvent]
    split
    · exact nodup_modify hnodup _ fun _ => rfl
    · next hnone => exact nodup_push hnodup (position_eq_none.1 hnone)
  | channelLeft id =>
    dsimp only [appendEvent]
    split
    · exact nodup_removeChannel hnodup _
    · exact hnodup
  | memberJoined id name =>
    exact nodup_of_faces hnodup (faces_appendEvent_of_other ui time (by simp) (by simp))
  | memberLeft id name =>
    exact nodup_of_faces hnodup (faces_appendEvent_of_other ui time (by simp) (by simp))
  | message id body =>
    exact nodup_of_faces hnodup (faces_appendEvent_of_other ui time (by simp) (by simp))
  | whisper account peer body outgoing => exact hnodup
  | notice text =>
    exact nodup_of_faces hnodup (faces_appendEvent_of_other ui time (by simp) (by simp))

end Wc3SessionUi

end Superiority.Wc3
