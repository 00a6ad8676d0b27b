import Mathlib.Data.List.Forall2
import Superiority.Sc2.WhisperFates

/-!
# Own messages and their echoes

A message that is sent is shown at once, and the service sends it back to everybody in the channel,
its author included. So a session remembers what it has sent and hides, for ten seconds, one message
for each: the one of its own channel, handle and text.

Over whole runs this hides nobody else. Every message that is hidden is paired with a message that
was sent from the same place in the ten seconds before, no message that was sent hides two, and
what is shown is what was sent and what was read without being hidden.

* `echoAccount_afterCall` – what one call does with the echoes that are expected;
* `speaks_afterCall` – what one call shows of what is said;
* `echoes_accounted` – every run of calls.
-/

namespace Superiority.Sc2

namespace LiveChat

open Stateful

/-! ## What is sent, hidden and shown -/

/-- The echo that a message is going to have, if it can be sent. -/
def echoOf (m : Moment) (s : LiveChat) (channelIndex : UInt8) (body : String) :
    Option PendingLocalEcho := do
  let place ← (s.messageChannel channelIndex).toOption
  let handle ← (readyHandle place.2).toOption
  some {
    channelIndex := place.1
    memberHandle := handle
    body
    sentAt := m.now }

/-- The echo that is expected after a call: that of a message that was sent. -/
def expected (tables : Tables) (s : LiveChat) (i : Moment × Call) : List PendingLocalEcho :=
  match i.2 with
  | .message channelIndex body =>
    if (call tables i.1 i.2 s).1.isOk then (echoOf i.1 s channelIndex body).toList else []
  | _ => []

/-- The message that a record carries. -/
def messageOf : Payload → Option ChatMessage
  | .chatMessage message => some message
  | _ => none

/-- The message that a call reads, and whether an echo is found for it. -/
def arrival (s : LiveChat) (i : Moment × Call) : Option (ChatMessage × Bool) :=
  (readBy i.1 s i.2).bind fun (record, t) => (messageOf record.value).map fun message =>
    (message, (consumeLocalEcho i.1 message t).1)

/-- The message that a call reads and hides, with the time. -/
def hidden (s : LiveChat) (i : Moment × Call) : List (Nat × ChatMessage) :=
  match arrival s i with
  | some (message, true) => [(i.1.now, message)]
  | _ => []

/-- The message that a call reads and does not hide, unless something else fails. -/
def overheard (tables : Tables) (s : LiveChat) (i : Moment × Call) : List (UInt32 × String) :=
  match arrival s i with
  | some (message, false) =>
    if (call tables i.1 i.2 s).1.isOk then [(message.memberHandle, message.body)] else []
  | _ => []

/-- What an event shows of what is said: the handle of the member, and the text. -/
def said : ChatEvent → Option (UInt32 × String)
  | .message _ sender body => some (sender.handle, body)
  | _ => none

/-- A message is the echo of one that was sent, and comes in time. -/
structure Hides (heard : Nat × ChatMessage) (echo : PendingLocalEcho) : Prop where
  fits : PendingLocalEcho.matches echo heard.2 = true
  sent : echo.sentAt ≤ heard.1
  inTime : heard.1 - echo.sentAt ≤ echoWindow

/-- What is done with the echoes that are expected. -/
def EchoAccount (expected before after : List PendingLocalEcho)
    (hidden : List (Nat × ChatMessage)) : Prop :=
  ∃ taken gone, Balanced expected (taken ++ gone) before after ∧ List.Forall₂ Hides hidden taken

/-- What a call shows is what it has sent and what it has read and not hidden. -/
def Speaks (tables : Tables) (s : LiveChat) (i : Moment × Call) : Prop :=
  (told tables s i).filterMap said
    = (expected tables s i).map (fun echo => (echo.memberHandle, echo.body)) ++ overheard tables s i

/-- The echoes stand in the order in which their messages were sent, none of them later. -/
structure Ordered (echoes : List PendingLocalEcho) (now : Nat) : Prop where
  sorted : echoes.Pairwise fun first second => first.sentAt ≤ second.sentAt
  past : ∀ echo ∈ echoes, echo.sentAt ≤ now

theorem echoAccount_kept (echoes : List PendingLocalEcho) : EchoAccount [] echoes echoes [] :=
  ⟨[], [], .refl _, .nil⟩

theorem EchoAccount.trans {expected expected' before mid after : List PendingLocalEcho}
    {hidden hidden' : List (Nat × ChatMessage)} (h : EchoAccount expected before mid hidden)
    (k : EchoAccount expected' mid after hidden') :
    EchoAccount (expected ++ expected') before after (hidden ++ hidden') := by
  obtain ⟨taken, gone, hbalanced, hhides⟩ := h
  obtain ⟨taken', gone', hbalanced', hhides'⟩ := k
  refine ⟨taken ++ taken', gone ++ gone', (hbalanced.trans hbalanced').congr ?_,
    List.rel_append hhides hhides'⟩
  rw [List.perm_iff_count]
  intro echo
  simp only [List.count_append]
  omega

variable {tables : Tables} {m : Moment} {s t : LiveChat}

/-! ## Looking for an echo -/

theorem consumeLocalEcho_of_none {message : ChatMessage}
    (h : (s.pendingLocalEchoes.dropWhile fun echo => echoWindow < m.now - echo.sentAt).findIdx?
      (PendingLocalEcho.matches · message) = none) :
    consumeLocalEcho m message s = (false, { s with
      pendingLocalEchoes := s.pendingLocalEchoes.dropWhile fun echo =>
        echoWindow < m.now - echo.sentAt }) := by
  unfold consumeLocalEcho
  dsimp only
  rw [h]

theorem consumeLocalEcho_of_some {message : ChatMessage} {place : Nat}
    (h : (s.pendingLocalEchoes.dropWhile fun echo => echoWindow < m.now - echo.sentAt).findIdx?
      (PendingLocalEcho.matches · message) = some place) :
    consumeLocalEcho m message s = (true, { s with
      pendingLocalEchoes := (s.pendingLocalEchoes.dropWhile fun echo =>
        echoWindow < m.now - echo.sentAt).eraseIdx place }) := by
  unfold consumeLocalEcho
  dsimp only
  rw [h]

/-- The echoes that have expired go, and the first that fits is taken. -/
theorem echoAccount_consumeLocalEcho (hs : Ordered s.pendingLocalEchoes m.now)
    (message : ChatMessage) :
    EchoAccount [] s.pendingLocalEchoes (consumeLocalEcho m message s).2.pendingLocalEchoes
      (if (consumeLocalEcho m message s).1 then [(m.now, message)] else []) := by
  let late (echo : PendingLocalEcho) : Bool := echoWindow < m.now - echo.sentAt
  have hexpired := Balanced.dropWhile late s.pendingLocalEchoes
  cases hfind : (s.pendingLocalEchoes.dropWhile late).findIdx?
      (PendingLocalEcho.matches · message) with
  | none =>
    rw [consumeLocalEcho_of_none hfind]
    exact ⟨[], _, hexpired, .nil⟩
  | some place =>
    rw [consumeLocalEcho_of_some hfind]
    obtain ⟨hlt, hmatches, -⟩ := List.findIdx?_eq_some_iff_getElem.1 hfind
    let echo := (s.pendingLocalEchoes.dropWhile late)[place]
    have hmem : echo ∈ s.pendingLocalEchoes.dropWhile late := List.getElem_mem hlt
    have hinTime : late echo = false := by
      refine not_of_mem_dropWhile (hs.sorted.imp fun hle hlate => ?_) echo hmem
      have hlate := of_decide_eq_true hlate
      exact decide_eq_true (by omega)
    have hpast : echo.sentAt ≤ m.now := hs.past echo ((List.dropWhile_sublist late).subset hmem)
    refine ⟨[echo], s.pendingLocalEchoes.takeWhile late, ?_,
      .cons ⟨hmatches, hpast, Nat.le_of_not_lt (of_decide_eq_false hinTime)⟩ .nil⟩
    exact (hexpired.trans (Balanced.eraseIdx (List.getElem?_eq_getElem hlt))).congr
      List.perm_append_comm

/-- The echoes decide whether a message is hidden, and what is left of them. -/
theorem consumeLocalEcho_congr (h : t.pendingLocalEchoes = s.pendingLocalEchoes)
    (message : ChatMessage) :
    (consumeLocalEcho m message t).1 = (consumeLocalEcho m message s).1 ∧
      (consumeLocalEcho m message t).2.pendingLocalEchoes
        = (consumeLocalEcho m message s).2.pendingLocalEchoes := by
  unfold consumeLocalEcho
  dsimp only
  rw [h]
  split <;> exact ⟨rfl, rfl⟩

/-! ## What is mute -/

/-- The event shows nothing that is said. -/
abbrev Silent (event : ChatEvent) : Prop := said event = none

/-- The echoes stay as they are, and nothing that is said is shown. -/
abbrev Mute := Frame pendingLocalEchoes (fun _ => True) Silent

theorem silent_of_isMoveEvent {event : ChatEvent} (h : IsMoveEvent event) : Silent event := by
  cases event <;> first | rfl | exact h.elim

theorem silent_of_unroomed {event : ChatEvent} (h : Unroomed event) : Silent event := by
  cases event <;> first | rfl | exact (h trivial).elim

section Mute

variable {α : Type} {x : Chat α}

theorem mute_moves (hx : Within Moves x) : Within Mute x :=
  within_mono hx (·.pendingLocalEchoes) (fun _ => rfl) (fun _ _ => trivial) fun _ =>
    silent_of_isMoveEvent

theorem mute_elsewhere (hx : Within Elsewhere x) : Within Mute x :=
  within_mono hx (·.pendingLocalEchoes) (fun _ => rfl) (fun _ _ => trivial) fun _ =>
    silent_of_unroomed

theorem mute_settles (hx : Within Settles x) : Within Mute x :=
  within_mono hx (·.pendingLocalEchoes) (fun _ => rfl) (fun _ _ => trivial) fun event h => by
    cases event <;> first | rfl | exact h.elim

end Mute

variable (tables m)

theorem mute_finish (payload : Payload) (observed : Observed) (handled : Handled) :
    Within Mute (finish tables m payload observed handled) := by
  cases handled with
  | done event => exact within_pure event
  | more event =>
    refine within_bind (mute_settles (settles_settle tables m payload)) fun _ => ?_
    exact mute_elsewhere (elsewhere_befriends (befriends_refreshFriends tables observed event))

theorem silent_receiveMembership (membership : ChatMembership) :
    Yields Silent (receiveMembership m membership) := fun s event t h =>
  silent_of_isMoveEvent (yields_receiveMembership m membership s event t h)

theorem silent_receiveJoin (route : Route) (result : ChatJoin) :
    Yields (fun handled => Silent handled.event) (receiveJoin tables m route result) := by
  refine yields_receiveJoin tables m (fun _ => ?_) (fun _ _ _ _ => ?_) (fun _ _ => ?_) route result
  all_goals rfl

/-- Every record but a message is mute. -/
theorem mute_handle {record : Record} (h : messageOf record.value = none) :
    Within Mute (handle tables m record) ∧
      Yields (fun handled => Silent handled.event) (handle tables m record) := by
  by_cases hroom : isRoomRecord record.value = true
  · unfold handle
    cases hvalue : record.value with
    | chatJoin result =>
      exact ⟨mute_moves (moves_receiveJoin tables m _ result), silent_receiveJoin tables m _ result⟩
    | chatMembership membership =>
      dsimp only
      unfold handleRecord
      rw [hvalue]
      exact ⟨within_bind (mute_moves (moves_receiveMembership m membership)) fun _ => within_pure _,
        yields_bind_yields (silent_receiveMembership m membership) fun _ hevent =>
          yields_pure hevent⟩
    | chatInvite invite =>
      dsimp only
      unfold handleRecord
      rw [hvalue]
      refine ⟨within_bind (mute_moves (moves_receiveInvite invite)) fun _ => within_pure _, ?_⟩
      refine yields_bind_yields (P := Silent) ?_ fun _ hevent => yields_pure hevent
      exact yields_bind fun _ => yields_bind fun _ => yields_bind fun s => yields_pure rfl
    | chatMessage message =>
      rw [hvalue] at h
      cases h
    | _ =>
      rw [hvalue] at hroom
      cases hroom
  · rw [Bool.not_eq_true] at hroom
    obtain ⟨hwithin, hevent⟩ := elsewhere_handle tables m hroom
    exact ⟨mute_elsewhere hwithin, fun s handled t hhandled =>
      silent_of_unroomed (hevent s handled t hhandled)⟩

theorem mute_receiveRecord {record : Record} (h : messageOf record.value = none) :
    Within Mute (receiveRecord tables m record) ∧
      Yields Silent (receiveRecord tables m record) := by
  obtain ⟨hwithin, hevent⟩ := mute_handle tables m h
  constructor
  · refine within_bind (mute_elsewhere (elsewhere_observes (observes_observe tables record.value)))
      fun observed => ?_
    exact within_bind hwithin fun handled => mute_finish tables m _ _ _
  · refine yields_bind fun observed => ?_
    exact yields_bind_yields hevent fun handled hhandled =>
      yields_finish tables m (fun _ => rfl) _ _ hhandled

/-! ## A message that is read -/

theorem eq_chatMessage_of_messageOf {payload : Payload} {message : ChatMessage}
    (h : messageOf payload = some message) : payload = .chatMessage message := by
  cases payload with
  | chatMessage other => exact congrArg _ (Option.some.inj h)
  | _ => cases h

/-- To read a message is to look for its echo. -/
theorem receiveRecord_of_message {record : Record} {message : ChatMessage}
    (h : messageOf record.value = some message) {v : LiveChat}
    (hv : (observe tables record.value s).2 = v) :
    receiveRecord tables m record s
      = finish tables m record.value (observe tables record.value s).1
        (.more (if (consumeLocalEcho m message v).1 then .activity record.route
          else (consumeLocalEcho m message v).2.messageEvent message))
        (consumeLocalEcho m message v).2 := by
  subst hv
  unfold receiveRecord
  rw [bind_of_ok (take_apply _ s)]
  refine bind_of_ok ?_
  unfold handle handleRecord
  rw [eq_chatMessage_of_messageOf h]
  dsimp only
  refine bind_of_ok ?_
  unfold receiveMessage
  rw [bind_of_ok (take_apply _ _), bind_of_ok (read_apply _)]
  rfl

/-! ## Sending -/

/-- To send a message either fails and changes nothing, or puts it on the wire, shows it, and
expects its echo. -/
theorem sendMessage_cases (channelIndex : UInt8) (body : String) (s : LiveChat) :
    (∃ e, sendMessage m channelIndex body s = (.error e, s)) ∨
    ∃ echo sender t, echoOf m s channelIndex body = some echo
      ∧ sendMessage m channelIndex body s = (.ok (), t)
      ∧ t.pendingEvents = s.pendingEvents ++ [.message channelIndex sender body]
      ∧ t.pendingLocalEchoes = keepLast echoLimit (s.pendingLocalEchoes ++ [echo])
      ∧ sender.handle = echo.memberHandle ∧ echo.body = body := by
  unfold sendMessage
  rw [bind_of_ok (read_apply s)]
  cases hplace : s.messageChannel channelIndex with
  | error e => exact Or.inl ⟨e, bind_of_error rfl⟩
  | ok place =>
    rw [bind_of_ok (ofExcept_apply _ s)]
    dsimp only
    cases hhandle : readyHandle place.2 with
    | error e => exact Or.inl ⟨e, bind_of_error rfl⟩
    | ok handle =>
      rw [bind_of_ok (ofExcept_apply _ s)]
      cases htransmit : m.transmit s.sent (.chatMessage place.1 body) with
      | error e =>
        refine Or.inl ⟨e, bind_of_error ?_⟩
        simp only [send, htransmit]
      | ok _ =>
        have hsend : send m (.chatMessage place.1 body) s
            = (.ok (), { s with sent := s.sent ++ [.chatMessage place.1 body] }) := by
          simp only [send, htransmit]
        refine Or.inr ⟨_, _, _, ?_, bind_of_ok hsend, rfl, rfl, rfl, rfl⟩
        simp only [echoOf, hplace, hhandle, Except.toOption, Option.bind_eq_bind, Option.bind_some]

/-- An echo that is expected is that of a message that was sent now. -/
theorem sentAt_of_mem_expected {i : Moment × Call} {echo : PendingLocalEcho}
    (h : echo ∈ expected tables s i) : echo.sentAt = i.1.now := by
  obtain ⟨m, c⟩ := i
  cases c with
  | message channelIndex body =>
    unfold expected at h
    dsimp only at h
    split at h
    · simp only [echoOf, Option.mem_toList, Option.bind_eq_bind, Option.bind_eq_some_iff] at h
      obtain ⟨place, -, handle, -, hecho⟩ := h
      exact (congrArg PendingLocalEcho.sentAt (Option.some.inj hecho)).symm
    · exact absurd h List.not_mem_nil
  | _ => exact absurd h List.not_mem_nil

/-! ## Calls -/

/-- What a call does with echoes and shows of what is said. -/
structure Step (tables : Tables) (s : LiveChat) (i : Moment × Call) : Prop where
  account : EchoAccount (expected tables s i) s.pendingLocalEchoes
    (afterCall tables s i).pendingLocalEchoes (hidden s i)
  speaks : Speaks tables s i

section Silent

variable {tables m}

theorem filterMap_said_of_grows {events : List ChatEvent}
    (h : Grows Silent events t.pendingEvents) :
    (t.pendingEvents.drop events.length).filterMap said = [] := by
  obtain ⟨added, hadded, hsilent⟩ := h
  rw [hadded, List.drop_left]
  exact List.filterMap_eq_nil_iff.2 hsilent

theorem told_of_readBy_eq_none {i : Moment × Call} (h : readBy i.1 s i.2 = none) :
    told tables s i = (afterCall tables s i).pendingEvents.drop s.pendingEvents.length := by
  rw [told, h]
  rfl

/-- A call that sends no message and reads none, and is silent. -/
theorem step_of_silent {i : Moment × Call} (hexpected : expected tables s i = [])
    (harrival : arrival s i = none) (htold : (told tables s i).filterMap said = [])
    (haccount : EchoAccount [] s.pendingLocalEchoes (afterCall tables s i).pendingLocalEchoes []) :
    Step tables s i where
  account := by
    rw [hexpected, hidden, harrival]
    exact haccount
  speaks := by
    rw [Speaks, htold, hexpected, overheard, harrival]
    rfl

theorem arrival_of_readBy_eq_none {i : Moment × Call} (h : readBy i.1 s i.2 = none) :
    arrival s i = none := by
  rw [arrival, h]
  rfl

/-- A call that sends no message and reads no record, and is mute. -/
theorem step_of_mute {i : Moment × Call} (hexpected : expected tables s i = [])
    (hread : readBy i.1 s i.2 = none) (hmute : Mute s (afterCall tables s i)) :
    Step tables s i := by
  refine step_of_silent hexpected (arrival_of_readBy_eq_none hread) ?_ ?_
  · rw [told_of_readBy_eq_none hread]
    exact filterMap_said_of_grows hmute.told
  · rw [hmute.kept]
    exact echoAccount_kept _

end Silent

/-- A call that is done when a mute computation is. -/
theorem step_of_within {c : Call} {x : Chat Unit} (hx : Within Mute x)
    (hcall : call tables m c = (x >>= fun _ => pure none))
    (hexpected : expected tables s (m, c) = []) (hread : readBy m s c = none) :
    Step tables s (m, c) := by
  refine step_of_mute hexpected hread ?_
  show Mute s (call tables m c s).2
  rw [hcall]
  exact within_bind hx (fun _ => within_pure none) s

theorem step_message (channelIndex : UInt8) (body : String) (s : LiveChat) :
    Step tables s (m, .message channelIndex body) := by
  have hread : readBy m s (.message channelIndex body) = none := rfl
  rcases sendMessage_cases m channelIndex body s with
    ⟨e, h⟩ | ⟨echo, sender, t, hecho, h, hqueued, hechoes, hhandle, hbody⟩
  · have hcall : call tables m (.message channelIndex body) s = (.error e, s) := bind_of_error h
    have hexpected : expected tables s (m, .message channelIndex body) = [] := by
      unfold expected
      dsimp only
      rw [hcall]
      rfl
    refine step_of_mute hexpected hread ?_
    rw [afterCall, hcall]
    exact Std.Refl.refl s
  · have hcall : call tables m (.message channelIndex body) s = (.ok none, t) := bind_of_ok h
    have hexpected : expected tables s (m, .message channelIndex body) = [echo] := by
      unfold expected
      dsimp only
      rw [hcall, hecho]
      rfl
    constructor
    · -- The oldest echoes go when there are too many.
      rw [hexpected, afterCall, hcall, hechoes]
      have hkept := (Balanced.enter s.pendingLocalEchoes [echo]).trans (Balanced.drop
        ((s.pendingLocalEchoes ++ [echo]).length - echoLimit) _)
      exact ⟨[], _, hkept, .nil⟩
    · rw [Speaks, told_of_readBy_eq_none hread, afterCall, hcall, hexpected, hqueued,
        List.drop_left, overheard, arrival_of_readBy_eq_none hread]
      show [(sender.handle, body)] = [(echo.memberHandle, echo.body)]
      rw [hhandle, hbody]

/-- To leave a room is to expect no echo of it. -/
theorem echoAccount_leaveChannel (channelIndex : UInt8) (s : LiveChat) :
    EchoAccount [] s.pendingLocalEchoes
      (leaveChannel m channelIndex s).2.pendingLocalEchoes [] := by
  unfold leaveChannel
  by_cases hparty : channelIndex = partyUiChannelIndex
  · rw [if_pos hparty, (mute_moves (moves_leaveParty m) s).kept]
    exact echoAccount_kept _
  · rw [if_neg hparty]
    unfold leaveRoom
    rw [bind_of_ok (read_apply s)]
    by_cases hroom : s.channels.contains channelIndex
    · rw [if_pos hroom]
      cases htransmit : m.transmit s.sent (.chatLeave channelIndex) with
      | error e =>
        have hsend : send m (.chatLeave channelIndex) s = (.error e, s) := by
          simp only [send, htransmit]
        rw [bind_of_error hsend]
        exact echoAccount_kept _
      | ok _ =>
        have hsend : send m (.chatLeave channelIndex) s
            = (.ok (), { s with sent := s.sent ++ [.chatLeave channelIndex] }) := by
          simp only [send, htransmit]
        rw [bind_of_ok hsend]
        exact ⟨[], _, Balanced.filter _ _, .nil⟩
    · rw [if_neg hroom]
      exact echoAccount_kept _

theorem silent_leaveChannel (channelIndex : UInt8) :
    Within (Frame (fun _ => ()) (fun _ => True) Silent) (leaveChannel m channelIndex) := by
  refine within_ite (within_mono (mute_moves (moves_leaveParty m)) (fun _ => ()) (fun _ => rfl)
    (fun _ h => h) fun _ h => h) ?_
  refine within_bind within_read fun s => within_ite ?_ (within_fail _)
  refine within_bind (within_send trivial fun _ _ => rfl) fun _ => ?_
  exact within_unseen (fun _ => rfl) (fun _ => rfl) fun _ => rfl

theorem step_leave (channelIndex : UInt8) (s : LiveChat) :
    Step tables s (m, .leave channelIndex) := by
  have hafter : afterCall tables s (m, .leave channelIndex)
      = (leaveChannel m channelIndex s).2 := by
    show ((leaveChannel m channelIndex >>= fun _ => pure none) s).2 = _
    rw [bind_apply]
    rcases leaveChannel m channelIndex s with ⟨e | _, t⟩ <;> rfl
  refine step_of_silent rfl rfl ?_ ?_
  · rw [told_of_readBy_eq_none rfl, hafter]
    exact filterMap_said_of_grows (silent_leaveChannel m channelIndex s).told
  · rw [hafter]
    exact echoAccount_leaveChannel m channelIndex s

/-! ## Reading -/

theorem mute_requestClubsWhenIdle : Within Mute (requestClubsWhenIdle m) :=
  mute_elsewhere (elsewhere_subscribes (subscribes_requestClubsWhenIdle m))

/-- A message that is not hidden is what its record is answered with. -/
theorem yields_finish_message (payload : Payload) (observed : Observed) (channelIndex : UInt8)
    (sender : ChatUser) (body : String) :
    Yields (fun event => said event = some (sender.handle, body))
      (finish tables m payload observed (.more (.message channelIndex sender body))) := by
  refine yields_bind fun _ => yields_bind fun s => yields_ite ?_ (yields_pure rfl)
  exact yields_bind fun _ => yields_bind fun _ => yields_pure rfl

theorem messageEvent_eq (s : LiveChat) (message : ChatMessage) :
    ∃ channelIndex sender, s.messageEvent message = .message channelIndex sender message.body
      ∧ sender.handle = message.memberHandle := by
  unfold messageEvent
  split
  · exact ⟨_, _, rfl, rfl⟩
  · exact ⟨_, _, rfl, rfl⟩

theorem filterMap_eventOf {result : Except Failure ChatEvent} {voice : Option (UInt32 × String)}
    (h : ∀ event, result = .ok event → said event = voice) :
    (eventOf result).filterMap said = if result.isOk then voice.toList else [] := by
  cases result with
  | error e => rfl
  | ok event =>
    rw [eventOf, List.filterMap_cons, h event rfl]
    cases voice <;> rfl

/-- What is said in what a record tells, when nothing is said in the events that it queues. -/
theorem filterMap_told {i : Moment × Call} {record : Record}
    (hread : readBy i.1 s i.2 = some (record, t))
    (voice : Option (UInt32 × String))
    (hqueued : Grows Silent t.pendingEvents (receiveRecord tables i.1 record t).2.pendingEvents)
    (hevent : ∀ event u, receiveRecord tables i.1 record t = (.ok event, u) → said event = voice) :
    (told tables s i).filterMap said
      = if (call tables i.1 i.2 s).1.isOk then voice.toList else [] := by
  obtain ⟨hcall, hempty, hidle⟩ := readBy_eq_some.1 hread
  have hpending : t.pendingEvents = [] := by
    obtain ⟨added, hadded, hfalse⟩ := (subscribes_requestClubsWhenIdle i.1 s).told
    rw [hidle, hempty] at hadded
    rw [hadded, List.nil_append]
    exact List.eq_nil_iff_forall_not_mem.2 hfalse
  have hok : (call tables i.1 i.2 s).1.isOk = (receiveRecord tables i.1 record t).1.isOk := by
    rw [hcall] at hread ⊢
    show ((receive tables i.1 (.ok record) >>= fun event => pure (some event)) s).1.isOk = _
    rw [bind_apply, receive_of_readBy hread]
    rcases receiveRecord tables i.1 record t with ⟨e | event, u⟩ <;> rfl
  have hsilent := filterMap_said_of_grows hqueued
  rw [hpending] at hsilent
  rw [told_of_readBy hread, List.filterMap_append, hok, ← List.drop_zero
    (l := (receiveRecord tables i.1 record t).2.pendingEvents)]
  rw [show ([] : List ChatEvent).length = 0 from rfl] at hsilent
  rw [hsilent, List.append_nil]
  exact filterMap_eventOf fun event h => hevent event _ (Prod.ext h rfl)

/-- A record that carries no message. -/
theorem step_other {i : Moment × Call} {record : Record}
    (hread : readBy i.1 s i.2 = some (record, t)) (h : messageOf record.value = none) :
    Step tables s i := by
  obtain ⟨hcall, -, hidle⟩ := readBy_eq_some.1 hread
  obtain ⟨hwithin, hevent⟩ := mute_receiveRecord tables i.1 h
  refine step_of_silent ?_ ?_ ?_ ?_
  · rw [expected, hcall]
  · rw [arrival, hread]
    simp [h]
  · rw [filterMap_told tables hread none (hwithin t).told fun event u => hevent t event u]
    exact ite_self _
  · have hmute := mute_requestClubsWhenIdle i.1 s
    rw [hidle] at hmute
    rw [afterCall, call_of_readBy hread, (hwithin t).kept, hmute.kept]
    exact echoAccount_kept _

/-- A record that carries a message. -/
theorem step_spoken {i : Moment × Call} {record : Record} {message : ChatMessage}
    (hs : Ordered s.pendingLocalEchoes i.1.now)
    (hread : readBy i.1 s i.2 = some (record, t)) (h : messageOf record.value = some message) :
    Step tables s i := by
  obtain ⟨hcall, -, hidle⟩ := readBy_eq_some.1 hread
  have hexpected : expected tables s i = [] := by
    rw [expected, hcall]
  have hechoes : t.pendingLocalEchoes = s.pendingLocalEchoes := by
    have hmute := mute_requestClubsWhenIdle i.1 s
    rw [hidle] at hmute
    exact hmute.kept
  have harrival : arrival s i = some (message, (consumeLocalEcho i.1 message t).1) := by
    rw [arrival, hread]
    simp [h]
  let v := (observe tables record.value t).2
  obtain ⟨hown, hleft⟩ := consumeLocalEcho_congr (m := i.1) (s := t) (t := v) rfl message
  have hreceive := receiveRecord_of_message tables i.1 h (s := t) (v := v) rfl
  have hmute := mute_finish tables i.1 record.value (observe tables record.value t).1
    (.more (if (consumeLocalEcho i.1 message v).1 then .activity record.route
      else (consumeLocalEcho i.1 message v).2.messageEvent message))
    (consumeLocalEcho i.1 message v).2
  rw [← hreceive] at hmute
  constructor
  · have haccount := echoAccount_consumeLocalEcho (m := i.1) (s := t) (hechoes ▸ hs) message
    rw [hexpected, afterCall, call_of_readBy hread, hmute.kept, hleft, ← hechoes, hidden, harrival]
    cases hhides : (consumeLocalEcho i.1 message t).1 with
    | true =>
      rw [hhides] at haccount
      exact haccount
    | false =>
      rw [hhides] at haccount
      exact haccount
  · have hqueued : Grows Silent t.pendingEvents
        (receiveRecord tables i.1 record t).2.pendingEvents := by
      have hsame : (consumeLocalEcho i.1 message v).2.pendingEvents = t.pendingEvents := by
        rw [consumeLocalEcho_eq]
        rfl
      rw [← hsame]
      exact hmute.told
    rw [Speaks, hexpected, overheard, harrival, List.map_nil, List.nil_append]
    cases hhides : (consumeLocalEcho i.1 message t).1 with
    | true =>
      rw [hhides] at hown
      rw [filterMap_told tables hread none hqueued fun event u hevent => ?_]
      · exact ite_self _
      · rw [hreceive, hown] at hevent
        exact yields_finish tables i.1 (Q := Silent) (fun _ => rfl) _ _ rfl _ event u hevent
    | false =>
      rw [hhides] at hown
      refine filterMap_told tables hread (some _) hqueued fun event u hevent => ?_
      obtain ⟨channelIndex, sender, heq, hhandle⟩ :=
        messageEvent_eq (consumeLocalEcho i.1 message v).2 message
      rw [hreceive, hown, if_neg Bool.false_ne_true, heq] at hevent
      rw [← hhandle]
      exact yields_finish_message tables i.1 _ _ channelIndex sender _ _ event u hevent

theorem step_receive (arrived : Except Failure Record) (hs : Ordered s.pendingLocalEchoes m.now) :
    Step tables s (m, .receive arrived) := by
  cases hread : readBy m s (.receive arrived) with
  | some read =>
    cases hmessage : messageOf read.1.value with
    | none => exact step_other tables (i := (m, .receive arrived)) (t := read.2) hread hmessage
    | some message =>
      exact step_spoken tables (i := (m, .receive arrived)) (t := read.2) hs hread hmessage
  | none =>
    have hcall : afterCall tables s (m, .receive arrived) = (receive tables m arrived s).2 := by
      show ((receive tables m arrived >>= fun event => pure (some event)) s).2 = _
      rw [bind_apply]
      rcases receive tables m arrived s with ⟨e | _, t⟩ <;> rfl
    cases hevents : s.pendingEvents with
    | nil =>
      obtain ⟨e, hfails⟩ :
          ∃ e, receive tables m arrived s = (.error e, (requestClubsWhenIdle m s).2) :=
        receive_of_readBy_eq_none hread hevents
      refine step_of_mute rfl hread ?_
      rw [hcall, hfails]
      exact mute_requestClubsWhenIdle m s
    | cons event rest =>
      rw [receive_of_waiting hevents] at hcall
      refine step_of_silent rfl (arrival_of_readBy_eq_none hread) ?_ ?_
      · rw [told_of_readBy_eq_none hread, hcall, hevents]
        show (rest.drop (rest.length + 1)).filterMap said = []
        rw [List.drop_eq_nil_of_le (Nat.le_succ rest.length)]
        rfl
      · rw [hcall]
        exact echoAccount_kept _

/-- What one call does. -/
theorem step_afterCall (i : Moment × Call) (hs : Ordered s.pendingLocalEchoes i.1.now) :
    Step tables s i := by
  obtain ⟨m, c⟩ := i
  cases c with
  | join draws channel =>
    exact step_of_within tables m (mute_moves (moves_joinChannel m draws channel)) rfl rfl rfl
  | leave channelIndex => exact step_leave tables m channelIndex s
  | message channelIndex body => exact step_message tables m channelIndex body s
  | whisper target displayName body =>
    have hmute := mute_elsewhere (elsewhere_aside (aside_sendWhisper m target displayName body))
    exact step_of_within tables m hmute rfl rfl rfl
  | answerParty channelIndex accept =>
    have hmute := mute_moves (moves_answerPartyInvitation m channelIndex accept)
    exact step_of_within tables m hmute rfl rfl rfl
  | answerGroup clubId accept =>
    have hmute := mute_elsewhere (elsewhere_subscribes
      (subscribes_answerGroupInvitation m clubId accept))
    exact step_of_within tables m hmute rfl rfl rfl
  | search query =>
    have hmute := mute_elsewhere (elsewhere_subscribes (subscribes_searchGroups m query))
    exact step_of_within tables m hmute rfl rfl rfl
  | receive arrived => exact step_receive tables m arrived hs

/-! ## Runs -/

/-- What is expected after an account stands in order. -/
theorem ordered_of_echoAccount {expected before after : List PendingLocalEcho}
    {hidden : List (Nat × ChatMessage)} {now later : Nat} (hbefore : Ordered before now)
    (hle : now ≤ later) (hexpected : ∀ echo ∈ expected, echo.sentAt = later)
    (h : EchoAccount expected before after hidden) : Ordered after later := by
  obtain ⟨taken, gone, hbalanced, -⟩ := h
  have hall : Ordered (before ++ expected) later := by
    constructor
    · refine List.pairwise_append.2 ⟨hbefore.sorted, ?_, fun first hfirst second hsecond => ?_⟩
      · refine List.pairwise_of_forall_mem_list fun first hfirst second hsecond => ?_
        rw [hexpected first hfirst, hexpected second hsecond]
      · rw [hexpected second hsecond]
        exact (hbefore.past first hfirst).trans hle
    · intro echo hecho
      rcases List.mem_append.1 hecho with hecho | hecho
      · exact (hbefore.past echo hecho).trans hle
      · exact (hexpected echo hecho).le
  exact ⟨hall.sorted.sublist hbalanced.ordered, fun echo hecho =>
    hall.past echo (hbalanced.ordered.subset hecho)⟩

/-- **Only echoes are hidden, each of a message of its own.** Whatever the host calls and whatever
the service sends, in the order of time: of the messages that were sent and those whose echoes were
expected before, each hides one message at most, of its own channel, handle and text and sent back
within the window; and everything else that is said is shown, once. -/
theorem echoes_accounted (now : Nat) {calls : List (Moment × Call)}
    (hs : Ordered s.pendingLocalEchoes now)
    (htime : (now :: calls.map fun i => i.1.now).Pairwise (· ≤ ·)) :
    EchoAccount (outputs (afterCall tables) (expected tables) s calls) s.pendingLocalEchoes
        (run (afterCall tables) s calls).pendingLocalEchoes
        (outputs (afterCall tables) hidden s calls)
      ∧ StepsMeet (afterCall tables) (Speaks tables) s calls := by
  induction calls generalizing s now with
  | nil => exact ⟨echoAccount_kept _, trivial⟩
  | cons i is ih =>
    obtain ⟨hnow, hlater⟩ := List.pairwise_cons.1 htime
    have hle : now ≤ i.1.now := hnow i.1.now List.mem_cons_self
    have hstep := step_afterCall tables (s := s) i
      ⟨hs.sorted, fun echo hecho => (hs.past echo hecho).trans hle⟩
    have hafter := ordered_of_echoAccount hs hle
      (fun echo hecho => sentAt_of_mem_expected tables hecho) hstep.account
    obtain ⟨haccount, hspeaks⟩ := ih i.1.now hafter hlater
    exact ⟨hstep.account.trans haccount, hstep.speaks, hspeaks⟩

/-- Somebody in a party who says what another says too: the own message comes back twice. -/
def chorus : List (Moment × Call) :=
  [(calm, .message partyUiChannelIndex "gl"), (calm, .receive (.error (.io "closed"))),
    heard (.chatMessage ⟨4, 6, "gl"⟩), heard (.chatMessage ⟨4, 5, "gl"⟩),
    heard (.chatMessage ⟨4, 5, "gl"⟩)]

/-- The party of the chorus. -/
def choir : LiveChat where
  defaultChannelIndex := 0
  party := some {
    wireChannelIndex := 4
    state := { localMemberHandle := some 5, initialRosterComplete := true } }

theorem echoes_accounted_chorus :
    outputs (afterCall noTables) hidden choir chorus = [(0, ⟨4, 5, "gl"⟩)]
      ∧ EchoAccount (outputs (afterCall noTables) (expected noTables) choir chorus) []
        (run (afterCall noTables) choir chorus).pendingLocalEchoes
        (outputs (afterCall noTables) hidden choir chorus)
      ∧ StepsMeet (afterCall noTables) (Speaks noTables) choir chorus :=
  ⟨by decide +kernel,
    echoes_accounted noTables (s := choir) 0 ⟨.nil, by simp [choir]⟩ (by decide)⟩

end LiveChat

end Superiority.Sc2
