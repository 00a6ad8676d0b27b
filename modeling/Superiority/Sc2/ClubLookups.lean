import Superiority.Library.Run
import Superiority.Sc2.Frames

/-!
# Lookups of groups

`enqueue_club_lookups` and `request_next_club_lookup` of `chat/session.rs`. The ids of groups wait
in batches; the answer to one lookup sends the next. That nothing waits is taken as a sign that
nothing is under way, but the batch under way has left the queue, and an invitation sends a lookup
of its own whose answer takes a batch from the queue too.

* **`LookingUp`** – a session together with the lookups that are not answered yet and the ids that
  were put into the queue and taken from it.
* **`StaysAlone`** – what a step has to meet so that no second batch is sent beside the first.
* **`statesMeet_oneAtATime`** – in a run of such steps at most one batch is under way, exactly one
  while others wait, and when all is answered each id has been asked for once.
-/

namespace Superiority.Sc2

open Std

namespace LiveChat

open Stateful

/-! ## Chunks -/

theorem flatten_map_range_take {α : Type} (items : List α) (size count : Nat) :
    ((List.range count).map fun i => (items.drop (i * size)).take size).flatten
      = items.take (count * size) := by
  induction count with
  | zero => simp
  | succ count ih =>
    rw [List.range_succ, List.map_append, List.flatten_append, ih, Nat.succ_mul, List.take_add]
    simp

/-- No item is lost by cutting a list into chunks. -/
theorem flatten_chunks {α : Type} {size : Nat} (hsize : 0 < size) (items : List α) :
    (chunks size items).flatten = items := by
  rw [chunks, flatten_map_range_take]
  apply List.take_of_length_le
  have h := Nat.div_add_mod (items.length + size - 1) size
  have hmod := Nat.mod_lt (items.length + size - 1) hsize
  rw [Nat.mul_comm] at h
  omega

/-! ## What is seen of lookups -/

/-- The ids that a request looks up. -/
def lookupIds : Request → Option (List UInt32)
  | .clubInfo _ clubIds => some clubIds
  | _ => none

/-- The queue, and the lookups sent so far. -/
@[ext] structure LookupView where
  queue : List (List UInt32)
  asked : List (List UInt32)

def lookupView (s : LiveChat) : LookupView where
  queue := s.pendingClubLookups
  asked := s.sent.filterMap lookupIds

variable {V : Type} {view : LiveChat → V} {asks : Request → Prop} {tells : ChatEvent → Prop}

/-- Whatever leaves the queue alone and looks nothing up is not seen. -/
theorem keeps_lookupView {α : Type} {x : Chat α} (hx : Within (Frame view asks tells) x)
    (g : V → List (List UInt32)) (hview : ∀ s, s.pendingClubLookups = g (view s))
    (hasks : ∀ r, asks r → lookupIds r = none) : Within (Keeps lookupView) x := by
  intro s
  have h := hx s
  refine LookupView.ext ?_ (h.sent.filterMap_eq hasks)
  show (x s).2.pendingClubLookups = s.pendingClubLookups
  rw [hview, hview, h.kept]

variable (tables : Tables) (m : Moment)

theorem keeps_rooms {α : Type} {x : Chat α} (hx : Within Rooms x) :
    Within (Keeps lookupView) x :=
  keeps_lookupView hx (·.pendingClubLookups) (fun _ => rfl) fun request h => by
    cases request <;> first | rfl | exact h.elim

theorem keeps_subscribes {α : Type} {x : Chat α} (hx : Within Subscribes x) :
    Within (Keeps lookupView) x :=
  keeps_lookupView hx (·.pendingClubLookups) (fun _ => rfl) fun request h => by
    cases request <;> first | rfl | exact h.elim

theorem keeps_aside {α : Type} {x : Chat α} (hx : Within Aside x) :
    Within (Keeps lookupView) x :=
  keeps_lookupView hx (·.pendingClubLookups) (fun _ => rfl) fun request h => by
    cases request <;> first | rfl | exact h.elim

theorem keeps_settle (payload : Payload) : Within (Keeps lookupView) (settle tables m payload) :=
  keeps_lookupView (settles_settle tables m payload) (·.pendingClubLookups) (fun _ => rfl)
    fun request h => by
      cases request <;> first | rfl | exact h.elim (fun h => h.elim) fun h => h.elim

theorem keeps_befriends {α : Type} {x : Chat α} (hx : Within Befriends x) :
    Within (Keeps lookupView) x :=
  keeps_lookupView hx (·.pendingClubLookups) (fun _ => rfl) fun _ h => h.elim

theorem keeps_firstSummary (route : Route) (clubs : List Native.ClubSummary) (member : Bool) :
    Within (Keeps lookupView) (firstSummary route clubs member) := by
  cases clubs with
  | nil => exact within_pure _
  | cons club rest => exact within_bind (fun s => rfl) fun _ => within_pure _

/-! ## What the service says of groups -/

/-- What a record is to the lookups: groups to be looked up, the answer to a lookup, or an
invitation to a group, which is looked up by itself. -/
inductive GroupNews where
  | listed (clubIds : List UInt32)
  | answered
  | invited (clubId : UInt32)
  | none
  deriving DecidableEq

def groupNews : Payload → GroupNews
  | .clubSummaries clubs => .listed (clubs.map (·.clubId))
  | .clubSearch clubIds => .listed clubIds
  | .clubInfo _ => .answered
  | .clubInviteAction action => .invited action.clubId
  | _ => .none

/-- The next batch leaves the queue and is asked for. -/
def LookupView.pull (v : LookupView) : LookupView :=
  match v.queue.getLast? with
  | none => v
  | some batch => {
    queue := v.queue.dropLast
    asked := v.asked ++ [batch] }

/-- The batches of a list of ids, in the order in which they are pushed. -/
def batchesOf (clubIds : List UInt32) : List (List UInt32) :=
  (chunks clubLookupBatch clubIds).reverse

/-- Ids are put into the queue; the first batch is asked for if nothing else waits. -/
def LookupView.enqueue (v : LookupView) (clubIds : List UInt32) : LookupView :=
  if clubIds = [] then v
  else
    let queued := { v with queue := v.queue ++ batchesOf clubIds }
    if v.queue.isEmpty then queued.pull else queued

/-- The lookup of the batch whose turn it is can be sent. -/
def CanPull (m : Moment) (sent : List Request) (queue : List (List UInt32)) : Prop :=
  ∀ batch, queue.getLast? = some batch → m.transmit sent (.clubInfo 0 batch) = .ok ()

theorem lookupView_requestNextClubLookup {s : LiveChat}
    (h : CanPull m s.sent s.pendingClubLookups) :
    lookupView (requestNextClubLookup m s).2 = (lookupView s).pull := by
  unfold requestNextClubLookup
  rw [bind_of_ok (read_apply s)]
  have hpull : (lookupView s).pull = match s.pendingClubLookups.getLast? with
      | none => lookupView s
      | some batch => {
        queue := s.pendingClubLookups.dropLast
        asked := s.sent.filterMap lookupIds ++ [batch] } := rfl
  rw [hpull]
  cases hlast : s.pendingClubLookups.getLast? with
  | none => rfl
  | some batch =>
    dsimp only
    rw [bind_of_ok (change_apply _ s), ignore_apply, send]
    dsimp only
    rw [h batch hlast]
    simp [lookupView, lookupIds]

theorem lookupView_enqueueClubLookups {s : LiveChat} {clubIds : List UInt32}
    (h : clubIds ≠ [] → s.pendingClubLookups = [] → CanPull m s.sent (batchesOf clubIds)) :
    lookupView (enqueueClubLookups m clubIds s).2 = (lookupView s).enqueue clubIds := by
  unfold enqueueClubLookups LookupView.enqueue
  rw [bind_of_ok (read_apply s)]
  by_cases hnil : clubIds = []
  · rw [if_pos hnil, if_pos hnil]
    rfl
  · rw [if_neg hnil, if_neg hnil]
    dsimp only
    rw [bind_of_ok (change_apply _ s)]
    by_cases hidle : s.pendingClubLookups.isEmpty
    · have hqueue := List.isEmpty_iff.1 hidle
      rw [if_pos hidle, if_pos (show (lookupView s).queue.isEmpty = true from hidle),
        lookupView_requestNextClubLookup m]
      · rfl
      · show CanPull m s.sent (s.pendingClubLookups ++ batchesOf clubIds)
        rw [hqueue]
        exact h hnil hqueue
    · rw [if_neg hidle, if_neg (show ¬(lookupView s).queue.isEmpty = true from hidle)]
      rfl

/-- What a record does to the lookups when what it sends can be sent. -/
def LookupView.hear (v : LookupView) : GroupNews → LookupView
  | .listed clubIds => v.enqueue clubIds
  | .answered => v.pull
  | .invited _ | .none => v

/-- What a record sends to look up a batch can be sent. -/
def CanHear (m : Moment) (sent : List Request) (queue : List (List UInt32)) : GroupNews → Prop
  | .listed clubIds => clubIds ≠ [] → queue = [] → CanPull m sent (batchesOf clubIds)
  | .answered => CanPull m sent queue
  | .invited _ | .none => True

theorem keeps_handleRecord {record : Record} (h : groupNews record.value = .none) :
    Within (Keeps lookupView) (handleRecord tables m record) := by
  unfold handleRecord
  cases hvalue : record.value with
  | clubSummaries clubs => simp [hvalue, groupNews] at h
  | clubSearch clubIds => simp [hvalue, groupNews] at h
  | clubInfo clubs => simp [hvalue, groupNews] at h
  | clubInviteAction action => simp [hvalue, groupNews] at h
  | chatMembership membership =>
    exact keeps_rooms (rooms_of_moves (moves_receiveMembership m membership))
  | chatMessage message => exact keeps_rooms (rooms_receiveMessage m _ message)
  | chatInvite invite => exact keeps_rooms (rooms_of_moves (moves_receiveInvite invite))
  | friends updates => exact keeps_befriends (befriends_receiveFriends tables _)
  | friendToons entries => exact keeps_befriends (befriends_receiveFriends tables _)
  | accountBlocks entries => exact keeps_befriends (befriends_receiveAccountBlocks tables _)
  | chatWhisperEcho whisper => exact keeps_aside (aside_receiveWhisperEcho m _ whisper)
  | _ => exact within_pure _

/-- An invitation looks its group up, and the queue stays as it is. -/
theorem lookupView_receiveClubInvite (action : ClubInviteAction) (s : LiveChat) :
    ∃ own, lookupView (receiveClubInvite m action s).2
      = { lookupView s with asked := (lookupView s).asked ++ own }
        ∧ (own = [] ∨ own = [[action.clubId]]) := by
  unfold receiveClubInvite
  rw [bind_of_ok (change_apply _ s), bind_of_ok (ignore_apply _ _), send]
  dsimp only
  cases m.transmit s.sent (.clubInfo action.clubId [action.clubId]) with
  | error e => exact ⟨[], by simp [lookupView], Or.inl rfl⟩
  | ok _ => exact ⟨[[action.clubId]], by simp [lookupView, lookupIds], Or.inr rfl⟩

theorem lookupView_handleRecord {record : Record} {s : LiveChat}
    (hcan : CanHear m s.sent s.pendingClubLookups (groupNews record.value)) :
    ∃ own, lookupView (handleRecord tables m record s).2
      = { (lookupView s).hear (groupNews record.value) with
          asked := ((lookupView s).hear (groupNews record.value)).asked ++ own }
        ∧ (own = [] ∨ ∃ clubId, groupNews record.value = .invited clubId ∧ own = [[clubId]]) := by
  by_cases hnone : groupNews record.value = .none
  · refine ⟨[], ?_, Or.inl rfl⟩
    rw [hnone, List.append_nil]
    exact keeps_handleRecord tables m hnone s
  · unfold handleRecord
    cases hvalue : record.value with
    | clubSummaries clubs =>
      rw [hvalue] at hcan
      refine ⟨[], ?_, Or.inl rfl⟩
      rw [List.append_nil]
      show lookupView (receiveClubSummaries m _ clubs s).2 = _
      exact (view_bind (fun _ => keeps_firstSummary _ clubs true) s).trans
        (lookupView_enqueueClubLookups m hcan)
    | clubSearch clubIds =>
      rw [hvalue] at hcan
      refine ⟨[], ?_, Or.inl rfl⟩
      rw [List.append_nil]
      show lookupView (receiveClubSearch m clubIds s).2 = _
      exact (view_bind (fun _ => within_pure _) s).trans (lookupView_enqueueClubLookups m hcan)
    | clubInfo clubs =>
      rw [hvalue] at hcan
      refine ⟨[], ?_, Or.inl rfl⟩
      rw [List.append_nil]
      show lookupView (receiveClubInfo m _ clubs s).2 = _
      unfold receiveClubInfo
      rw [bind_of_ok (change_apply _ s)]
      exact (view_bind (fun _ => keeps_firstSummary _ clubs false) _).trans
        (lookupView_requestNextClubLookup m hcan)
    | clubInviteAction action =>
      obtain ⟨own, hview, hown⟩ := lookupView_receiveClubInvite m action s
      refine ⟨own, hview, ?_⟩
      rcases hown with hown | hown
      · exact Or.inl hown
      · exact Or.inr ⟨action.clubId, rfl, hown⟩
    | _ => simp [hvalue, groupNews] at hnone

theorem keeps_observe (payload : Payload) :
    Within (Keeps lookupView) (take (observe tables payload) : Chat Observed) := fun _ => rfl

/-- What follows the arm of a record is not seen. -/
theorem lookupView_receiveRecord {record : Record} {s : LiveChat} :
    lookupView (receiveRecord tables m record s).2
      = lookupView (handle tables m record (observe tables record.value s).2).2 := by
  unfold receiveRecord
  rw [bind_of_ok (take_apply _ s)]
  refine view_bind (fun handled => ?_) _
  cases handled with
  | done event => exact within_pure _
  | more event =>
    exact within_bind (keeps_settle tables m _) fun _ =>
      keeps_befriends (befriends_refreshFriends tables _ event)

/-- **What a record does to the lookups**, all that it brings about included. -/
theorem lookupView_of_read {record : Record} {s : LiveChat}
    (hcan : CanHear m s.sent s.pendingClubLookups (groupNews record.value)) :
    ∃ own, lookupView (receiveRecord tables m record s).2
      = { (lookupView s).hear (groupNews record.value) with
          asked := ((lookupView s).hear (groupNews record.value)).asked ++ own }
        ∧ (own = [] ∨ ∃ clubId, groupNews record.value = .invited clubId ∧ own = [[clubId]]) := by
  rw [lookupView_receiveRecord]
  by_cases hjoin : ∃ result, record.value = .chatJoin result
  · obtain ⟨result, hresult⟩ := hjoin
    refine ⟨[], ?_, Or.inl rfl⟩
    have hkeeps := keeps_rooms (rooms_of_moves (moves_receiveJoin tables m record.route result))
      (observe tables record.value s).2
    unfold handle
    rw [hresult] at hkeeps ⊢
    rw [List.append_nil]
    exact hkeeps
  · have hhandle : handle tables m record =
        handleRecord tables m record >>= fun event => pure (.more event) := by
      unfold handle
      cases hvalue : record.value with
      | chatJoin result => exact absurd ⟨result, hvalue⟩ hjoin
      | _ => rfl
    have hsame : lookupView ((handleRecord tables m record >>= fun event =>
        (pure (.more event) : Chat Handled)) (observe tables record.value s).2).2
          = lookupView (handleRecord tables m record (observe tables record.value s).2).2 :=
      view_bind (fun _ => within_pure _) _
    obtain ⟨own, hview, hown⟩ := lookupView_handleRecord tables m
      (s := (observe tables record.value s).2) hcan
    rw [hhandle]
    exact ⟨own, hsame.trans hview, hown⟩

/-- A call that reads no record does nothing to the lookups. -/
theorem lookupView_of_readBy_eq_none {s : LiveChat} {c : Call} (h : readBy m s c = none) :
    lookupView (call tables m c s).2 = lookupView s := by
  cases c with
  | join draws channel =>
    exact within_bind (keeps_rooms (rooms_of_moves (moves_joinChannel m draws channel)))
      (fun _ => within_pure _) s
  | leave channelIndex =>
    exact within_bind (keeps_rooms (rooms_leaveChannel m channelIndex)) (fun _ => within_pure _) s
  | message channelIndex body =>
    exact within_bind (keeps_rooms (rooms_sendMessage m channelIndex body))
      (fun _ => within_pure _) s
  | whisper target displayName body =>
    exact within_bind (keeps_aside (aside_sendWhisper m target displayName body))
      (fun _ => within_pure _) s
  | answerParty channelIndex accept =>
    exact within_bind
      (keeps_rooms (rooms_of_moves (moves_answerPartyInvitation m channelIndex accept)))
      (fun _ => within_pure _) s
  | answerGroup clubId accept =>
    exact within_bind (keeps_subscribes (subscribes_answerGroupInvitation m clubId accept))
      (fun _ => within_pure _) s
  | search query =>
    exact within_bind (keeps_subscribes (subscribes_searchGroups m query))
      (fun _ => within_pure _) s
  | receive arrived =>
    have hreceive : lookupView (receive tables m arrived s).2 = lookupView s := by
      cases hevents : s.pendingEvents with
      | cons event rest =>
        rw [receive_of_waiting hevents]
        rfl
      | nil =>
        obtain ⟨e, he⟩ := receive_of_readBy_eq_none h hevents
        rw [he]
        exact keeps_subscribes (subscribes_requestClubsWhenIdle m) s
    exact (view_bind (fun _ => within_pure _) s).trans hreceive

/-- The state in which a record is read has the lookups of the one before. -/
theorem lookupView_of_readBy {s t : LiveChat} {c : Call} {record : Record}
    (h : readBy m s c = some (record, t)) : lookupView t = lookupView s := by
  obtain ⟨-, -, hidle⟩ := readBy_eq_some.1 h
  have hkeeps := keeps_subscribes (subscribes_requestClubsWhenIdle m) s
  rw [hidle] at hkeeps
  exact hkeeps

/-! ## Sessions and their lookups -/

/-- A lookup that is not answered yet. -/
inductive Lookup where
  | batch
  | invitation
  deriving DecidableEq

/-- A session, its lookups that are not answered yet, oldest first, the ids that were put into the
queue, and those that were asked for out of it. -/
structure LookingUp where
  chat : LiveChat
  unanswered : List Lookup := []
  queued : List UInt32 := []
  requested : List UInt32 := []

namespace LookingUp

/-- The lookups of the queue that are not answered yet. -/
def batches (w : LookingUp) : Nat := w.unanswered.count .batch

/-- What the record that a call reads says of groups. -/
def news (w : LookingUp) (m : Moment) (c : Call) : GroupNews :=
  (readBy m w.chat c).elim .none fun read => groupNews read.1.value

/-- The lookups that a call sends. -/
def newLookups (w : LookingUp) (after : LiveChat) : List (List UInt32) :=
  (lookupView after).asked.drop (lookupView w.chat).asked.length

def answer (unanswered : List Lookup) : GroupNews → List Lookup
  | .answered => unanswered.tail
  | _ => unanswered

def idsOf : GroupNews → List UInt32
  | .listed clubIds => clubIds
  | _ => []

/-- Every lookup is of the queue, but for those of invitations. -/
def lookupOf : GroupNews → Lookup
  | .invited _ => .invitation
  | _ => .batch

/-- A call of the host. A club-info record answers the oldest lookup. -/
def step (tables : Tables) (w : LookingUp) (i : Moment × Call) : LookingUp :=
  let after := (call tables i.1 i.2 w.chat).2
  let news := w.news i.1 i.2
  let sent := w.newLookups after
  { chat := after
    unanswered := answer w.unanswered news ++ sent.map fun _ => lookupOf news
    queued := w.queued ++ idsOf news
    requested := w.requested ++ if lookupOf news = .batch then sent.flatten else [] }

/-- Every club-info record answers a lookup. -/
def Answers (w : LookingUp) (i : Moment × Call) : Prop :=
  w.news i.1 i.2 = .answered → w.unanswered ≠ []

instance decidableAnswers (w : LookingUp) (i : Moment × Call) : Decidable (Answers w i) :=
  inferInstanceAs (Decidable (w.news i.1 i.2 = .answered → w.unanswered ≠ []))

/-- A step that sends no batch beside another: nothing is put into an empty queue while a batch is
under way, no invitation's lookup is answered while a batch waits, and a lookup that is due can be
sent. -/
def StaysAlone (w : LookingUp) (i : Moment × Call) : Prop :=
  match readBy i.1 w.chat i.2 with
  | none => True
  | some (record, t) =>
    CanHear i.1 t.sent t.pendingClubLookups (groupNews record.value) ∧
    match groupNews record.value with
    | .listed clubIds => clubIds ≠ [] → t.pendingClubLookups = [] → w.batches = 0
    | .answered => w.unanswered.head? = some .invitation → t.pendingClubLookups = []
    | .invited _ | .none => True

/-- At most one batch is under way, one if others wait, and when nothing is under way every id
that was put into the queue has been asked for once. -/
structure OneAtATime (w : LookingUp) : Prop where
  atMostOne : w.batches ≤ 1
  draining : w.chat.pendingClubLookups ≠ [] → w.batches = 1
  asked : w.unanswered = [] → w.requested.Perm w.queued

/-- What a run of such steps keeps: nothing is lost between the queue and the requests. -/
structure Draining (w : LookingUp) : Prop where
  atMostOne : w.batches ≤ 1
  draining : w.chat.pendingClubLookups ≠ [] → w.batches = 1
  conserved : (w.requested ++ w.chat.pendingClubLookups.flatten).Perm w.queued

theorem Draining.oneAtATime {w : LookingUp} (h : Draining w) : OneAtATime w where
  atMostOne := h.atMostOne
  draining := h.draining
  asked hnone := by
    have hqueue : w.chat.pendingClubLookups = [] := by
      by_contra hne
      have hone := h.draining hne
      simp [batches, hnone] at hone
    simpa [hqueue] using h.conserved

variable {tables : Tables} {w : LookingUp} {i : Moment × Call}

/-- What a step does to the bookkeeping, by the lookups that were sent in it. -/
theorem step_of_asked (asked : List (List UInt32))
    (h : (lookupView (call tables i.1 i.2 w.chat).2).asked = (lookupView w.chat).asked ++ asked) :
    w.step tables i = {
      chat := (call tables i.1 i.2 w.chat).2
      unanswered := answer w.unanswered (w.news i.1 i.2)
        ++ asked.map fun _ => lookupOf (w.news i.1 i.2)
      queued := w.queued ++ idsOf (w.news i.1 i.2)
      requested := w.requested
        ++ if lookupOf (w.news i.1 i.2) = .batch then asked.flatten else [] } := by
  have hnew : w.newLookups (call tables i.1 i.2 w.chat).2 = asked := by
    rw [newLookups, h, List.drop_left]
  rw [step, hnew]

theorem perm_flatten_batchesOf (clubIds : List UInt32) :
    (batchesOf clubIds).flatten.Perm clubIds := by
  have h : (batchesOf clubIds).flatten.Perm (chunks clubLookupBatch clubIds).flatten :=
    (List.reverse_perm _).flatten
  rwa [flatten_chunks (by decide)] at h

theorem batchesOf_ne_nil {clubIds : List UInt32} (h : clubIds ≠ []) : batchesOf clubIds ≠ [] := by
  intro hnil
  have hperm := perm_flatten_batchesOf clubIds
  rw [hnil] at hperm
  exact h (List.nil_perm.1 hperm)

/-- A batch that leaves the queue is asked for, and the others stay. -/
theorem pull_of_ne_nil {v : LookupView} (h : v.queue ≠ []) :
    ∃ batch, v.pull.asked = v.asked ++ [batch] ∧ v.queue = v.pull.queue ++ [batch] := by
  refine ⟨v.queue.getLast h, ?_⟩
  rw [LookupView.pull, List.getLast?_eq_some_getLast h]
  exact ⟨rfl, (List.dropLast_append_getLast h).symm⟩

theorem pull_of_nil {v : LookupView} (h : v.queue = []) : v.pull = v := by
  rw [LookupView.pull, h]
  rfl

/-- A step in which the queue stays as it is, and no batch is asked for or answered. -/
theorem draining_of_same (h : Draining w) (asked : List (List UInt32))
    (hview : lookupView (call tables i.1 i.2 w.chat).2
      = { lookupView w.chat with asked := (lookupView w.chat).asked ++ asked })
    (hcount : (answer w.unanswered (w.news i.1 i.2)
      ++ asked.map fun _ => lookupOf (w.news i.1 i.2)).count .batch = w.batches)
    (hflat : (if lookupOf (w.news i.1 i.2) = .batch then asked.flatten else []) = [])
    (hids : idsOf (w.news i.1 i.2) = []) : Draining (w.step tables i) := by
  have hqueue : (call tables i.1 i.2 w.chat).2.pendingClubLookups = w.chat.pendingClubLookups :=
    congrArg LookupView.queue hview
  rw [step_of_asked asked (congrArg LookupView.asked hview), hflat, hids, List.append_nil,
    List.append_nil]
  refine ⟨?_, ?_, ?_⟩
  · exact hcount.trans_le h.atMostOne
  · intro hne
    exact hcount.trans (h.draining (hqueue ▸ hne))
  · show (w.requested ++ (call tables i.1 i.2 w.chat).2.pendingClubLookups.flatten).Perm w.queued
    rw [hqueue]
    exact h.conserved

/-- A step in which a batch leaves the queue, when no other one is under way after it. -/
theorem draining_of_pull (h : Draining w) (queue : List (List UInt32)) (hne : queue ≠ [])
    (hview : lookupView (call tables i.1 i.2 w.chat).2
      = LookupView.pull { queue, asked := (lookupView w.chat).asked })
    (hcount : (answer w.unanswered (w.news i.1 i.2)).count .batch = 0)
    (hnews : lookupOf (w.news i.1 i.2) = .batch)
    (hflat : queue.flatten.Perm (w.chat.pendingClubLookups.flatten ++ idsOf (w.news i.1 i.2))) :
    Draining (w.step tables i) := by
  obtain ⟨batch, hasked, hqueue⟩ := pull_of_ne_nil (v := ⟨queue, (lookupView w.chat).asked⟩) hne
  rw [← hview] at hasked hqueue
  rw [step_of_asked [batch] hasked, hnews]
  have hone : (answer w.unanswered (w.news i.1 i.2) ++ [Lookup.batch]).count .batch = 1 := by
    rw [List.count_append, hcount]
    rfl
  refine ⟨hone.le, fun _ => hone, ?_⟩
  show (w.requested ++ [batch].flatten ++ (lookupView _).queue.flatten).Perm (w.queued ++ _)
  have hrest : ([batch].flatten ++ (lookupView (call tables i.1 i.2 w.chat).2).queue.flatten).Perm
      (w.chat.pendingClubLookups.flatten ++ idsOf (w.news i.1 i.2)) := by
    refine List.Perm.trans ?_ hflat
    have hqueue : queue = _ ++ [batch] := hqueue
    rw [hqueue, List.flatten_append]
    exact List.perm_append_comm
  have hkept := (hrest.append_left w.requested).trans
    ((List.append_assoc ..).symm ▸ h.conserved.append_right (idsOf (w.news i.1 i.2)) :
      (w.requested ++ (w.chat.pendingClubLookups.flatten ++ idsOf (w.news i.1 i.2))).Perm _)
  rwa [← List.append_assoc] at hkept

/-- A record that lists groups. -/
theorem draining_of_listed (h : Draining w) {clubIds : List UInt32}
    (hnews : w.news i.1 i.2 = .listed clubIds)
    (hview : lookupView (call tables i.1 i.2 w.chat).2 = (lookupView w.chat).enqueue clubIds)
    (halone : clubIds ≠ [] → w.chat.pendingClubLookups = [] → w.batches = 0) :
    Draining (w.step tables i) := by
  by_cases hnil : clubIds = []
  · rw [LookupView.enqueue, if_pos hnil] at hview
    refine draining_of_same h [] ?_ ?_ ?_ ?_
    · rw [hview, List.append_nil]
    · rw [hnews]
      simp [answer, batches]
    · simp
    · rw [hnews]
      exact hnil
  · rw [LookupView.enqueue, if_neg hnil] at hview
    by_cases hidle : w.chat.pendingClubLookups = []
    · have hempty : (lookupView w.chat).queue.isEmpty = true := List.isEmpty_iff.2 hidle
      rw [if_pos hempty] at hview
      refine draining_of_pull h ((lookupView w.chat).queue ++ batchesOf clubIds) ?_ hview
        ?_ ?_ ?_
      · exact fun hnone => batchesOf_ne_nil hnil (List.append_eq_nil_iff.1 hnone).2
      · rw [hnews]
        exact halone hnil hidle
      · rw [hnews]
        rfl
      · rw [hnews, List.flatten_append]
        exact (perm_flatten_batchesOf clubIds).append_left _
    · have hbusy : ¬(lookupView w.chat).queue.isEmpty = true :=
        fun hempty => hidle (List.isEmpty_iff.1 hempty)
      rw [if_neg hbusy] at hview
      have hone := h.draining hidle
      rw [step_of_asked [] (by rw [hview, List.append_nil]), hnews]
      refine ⟨?_, fun _ => ?_, ?_⟩
      · simpa [batches, answer] using h.atMostOne
      · simpa [batches, answer] using hone
      · have hqueue : (call tables i.1 i.2 w.chat).2.pendingClubLookups
            = w.chat.pendingClubLookups ++ batchesOf clubIds := congrArg LookupView.queue hview
        show (w.requested ++ _ ++ (call tables i.1 i.2 w.chat).2.pendingClubLookups.flatten).Perm
          (w.queued ++ clubIds)
        rw [hqueue, List.flatten_append]
        simpa [lookupOf] using h.conserved.append (perm_flatten_batchesOf clubIds)

/-- A record that answers a lookup. -/
theorem draining_of_answered (h : Draining w) (hnews : w.news i.1 i.2 = .answered)
    (hview : lookupView (call tables i.1 i.2 w.chat).2 = (lookupView w.chat).pull)
    (hanswers : w.unanswered ≠ [])
    (halone : w.unanswered.head? = some .invitation → w.chat.pendingClubLookups = []) :
    Draining (w.step tables i) := by
  by_cases hqueue : w.chat.pendingClubLookups = []
  · -- nothing waits: the answered lookup is one less, or was none of the queue
    rw [pull_of_nil hqueue] at hview
    rw [step_of_asked [] (by rw [hview, List.append_nil]), hnews]
    have hkept : (call tables i.1 i.2 w.chat).2.pendingClubLookups = [] :=
      (congrArg LookupView.queue hview).trans hqueue
    refine ⟨?_, fun hne => absurd hkept hne, ?_⟩
    · show (w.unanswered.tail ++ []).count Lookup.batch ≤ 1
      rw [List.append_nil]
      exact ((List.tail_sublist _).count_le _).trans h.atMostOne
    · show (w.requested ++ _ ++ (call tables i.1 i.2 w.chat).2.pendingClubLookups.flatten).Perm _
      rw [hkept]
      simpa [hqueue, lookupOf, idsOf] using h.conserved
  · -- a batch waits, so the answered lookup was the batch under way
    have hone : w.unanswered.count Lookup.batch = 1 := h.draining hqueue
    refine draining_of_pull h w.chat.pendingClubLookups hqueue hview ?_ ?_ ?_
    · rw [hnews]
      show w.unanswered.tail.count .batch = 0
      cases hlist : w.unanswered with
      | nil => exact absurd hlist hanswers
      | cons lookup rest =>
        rw [hlist] at hone halone
        cases lookup with
        | batch =>
          rw [List.count_cons_self] at hone
          exact Nat.succ.inj hone
        | invitation => exact absurd (halone rfl) hqueue
    · rw [hnews]
      rfl
    · rw [hnews]
      simp [idsOf]

/-- **One step.** -/
theorem draining_step (h : Draining w) (hanswers : Answers w i) (halone : StaysAlone w i) :
    Draining (w.step tables i) := by
  unfold StaysAlone at halone
  cases hread : readBy i.1 w.chat i.2 with
  | none =>
    have hnews : w.news i.1 i.2 = .none := by rw [news, hread]; rfl
    refine draining_of_same h [] ?_ ?_ ?_ ?_
    · rw [lookupView_of_readBy_eq_none tables i.1 hread, List.append_nil]
    · rw [hnews]
      simp [answer, batches]
    · simp
    · rw [hnews]
      rfl
  | some read =>
    obtain ⟨record, t⟩ := read
    rw [hread] at halone
    obtain ⟨hcan, halone⟩ := halone
    have hnews : w.news i.1 i.2 = groupNews record.value := by rw [news, hread]; rfl
    have ht := lookupView_of_readBy i.1 hread
    have hqueue : t.pendingClubLookups = w.chat.pendingClubLookups :=
      congrArg LookupView.queue ht
    obtain ⟨own, hview, hown⟩ := lookupView_of_read tables i.1 hcan
    rw [← call_of_readBy hread, ht] at hview
    rw [← hnews] at hview hown halone
    rw [hqueue] at halone
    cases hkind : w.news i.1 i.2 with
    | listed clubIds =>
      rw [hkind] at hview hown halone
      obtain rfl : own = [] := by simpa using hown
      rw [List.append_nil] at hview
      exact draining_of_listed h hkind hview halone
    | answered =>
      rw [hkind] at hview hown halone
      obtain rfl : own = [] := by simpa using hown
      rw [List.append_nil] at hview
      exact draining_of_answered h hkind hview (hanswers hkind) halone
    | invited clubId =>
      rw [hkind] at hview
      refine draining_of_same h own hview ?_ ?_ ?_
      · rw [hkind]
        simp [answer, batches, lookupOf, List.count_eq_zero]
      · rw [hkind]
        rfl
      · rw [hkind]
        rfl
    | none =>
      rw [hkind] at hview hown
      obtain rfl : own = [] := by simpa using hown
      refine draining_of_same h [] hview ?_ ?_ ?_
      · rw [hkind]
        simp [answer, batches]
      · simp
      · rw [hkind]
        rfl

/-- **One lookup at a time.** When each club-info record answers a lookup and no step sends a batch
beside another, then from a session whose queue is empty at most one batch is ever under way, one
is while others wait, and whenever nothing is under way each id that was put into the queue has
been asked for once. -/
theorem statesMeet_oneAtATime (tables : Tables) (chat : LiveChat)
    (hstart : chat.pendingClubLookups = []) (inputs : List (Moment × Call))
    (hanswers : StepsMeet (step tables) Answers { chat } inputs)
    (halone : StepsMeet (step tables) StaysAlone { chat } inputs) :
    StatesMeet (step tables) OneAtATime { chat } inputs := by
  have hfirst : Draining { chat } := by
    refine ⟨Nat.zero_le 1, fun hne => absurd hstart hne, ?_⟩
    show ([] ++ chat.pendingClubLookups.flatten).Perm []
    rw [hstart]
    rfl
  exact statesMeet_of_stepsMeet (C := fun w i => Answers w i ∧ StaysAlone w i)
    (fun _ h => h.oneAtATime) (fun _ _ h hsteps => draining_step h hsteps.1 hsteps.2) hfirst
    (StepsMeet.imp₂ (fun _ _ ha hb => ⟨ha, hb⟩) hanswers halone)

/-! ## Runs -/

theorem canHear_calm (sent : List Request) (queue : List (List UInt32)) (news : GroupNews) :
    CanHear calm sent queue news := by
  cases news with
  | listed clubIds => exact fun _ _ _ _ => rfl
  | answered => exact fun _ _ => rfl
  | invited clubId => trivial
  | none => trivial

/-- Ten groups are found, and both of their batches are answered. -/
def searchRun : List (Moment × Call) :=
  [heard (.clubSearch [1, 2, 3, 4, 5, 6, 7, 8, 9, 10]), heard (.clubInfo []), heard (.clubInfo [])]

theorem statesMeet_oneAtATime_searchRun :
    StatesMeet (step noTables) OneAtATime { chat := { defaultChannelIndex := 0 } } searchRun := by
  refine statesMeet_oneAtATime noTables { defaultChannelIndex := 0 } rfl searchRun
    (by decide +kernel) ⟨⟨canHear_calm _ _ _, ?_⟩, ⟨canHear_calm _ _ _, ?_⟩,
      ⟨canHear_calm _ _ _, ?_⟩, trivial⟩
  · exact fun _ _ => rfl
  · exact fun hfirst => absurd hfirst (by decide +kernel)
  · exact fun hfirst => absurd hfirst (by decide +kernel)

/-- A second search comes before the first is answered. -/
theorem not_statesMeet_oneAtATime : ¬ ∀ (tables : Tables) (chat : LiveChat),
    chat.pendingClubLookups = [] → ∀ inputs : List (Moment × Call),
      StepsMeet (step tables) Answers { chat } inputs →
        StatesMeet (step tables) OneAtATime { chat } inputs := by
  intro h
  have hmeet := h noTables { defaultChannelIndex := 0 } rfl
    [heard (.clubSearch [1]), heard (.clubSearch [2])] (by decide +kernel)
  have htwo := hmeet.last.atMostOne
  revert htwo
  decide +kernel

end LookingUp

end LiveChat

end Superiority.Sc2
