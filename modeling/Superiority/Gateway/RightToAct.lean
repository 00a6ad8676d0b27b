import Superiority.Gateway.Relay
import Superiority.Gateway.SessionLaw
import Superiority.Gateway.Standing

/-!
# The right to act

Which packets of a legacy client bring about a command of the session. A packet asks for one action
at most (`asks_handle`); every action leaves the logon of the client alone and sends one command at
most (`Brings`); a poll makes the session leave channels and nothing more (`leaves_poll`).

**`keepsRight_run`** – whatever packets and polls come, `logged_on` and `entered_chat` say of the
packets so far that the client is entitled and that it has entered, and a command is sent only for a
client that may. A logon that fails withdraws joining and leaving by a packet, but not what is asked
by a chat command: whoever has entered may still talk, whisper and join.
-/

namespace Superiority.Gateway

open Stateful

variable {p : Packet}

/-! ## What a packet asks -/

/-- The packets whose actions have to do with the session. -/
def Asks (p : Packet) : Action → Prop
  | .enterChat _ => p.id = sidEnterChat
  | .joinChannel _ _ => p.id = sidJoinChannel
  | .leaveChat => p.id = sidLeaveChat
  | .chatCommand _ => p.id = sidChatCommand
  | _ => True

/-- At most one action, of the packet's own kind. -/
def OneAction (p : Packet) (actions : List Action) : Prop :=
  actions = [] ∨ ∃ action, actions = [action] ∧ Asks p action

namespace LegacyPeer

theorem asks_answering (x : Peering Unit) : Yields (OneAction p) (answering x) :=
  yields_bind fun _ => yields_pure (.inl rfl)

theorem asks_whenLoggedOn {x : Peering (List Action)} (h : Yields (OneAction p) x) :
    Yields (OneAction p) (whenLoggedOn x) :=
  yields_bind fun _ => yields_ite h (yields_pure (.inl rfl))

theorem asks_lengthOnly {expected : Nat} {action : Action} (h : Asks p action) :
    Yields (OneAction p) (lengthOnly p expected action) :=
  yields_bind fun _ => yields_pure (.inr ⟨action, rfl, h⟩)

theorem asks_handleEnterChat (h : p.id = sidEnterChat) :
    Yields (OneAction p) (handleEnterChat p) :=
  yields_bind fun _ => yields_bind fun _ => yields_pure (.inr ⟨_, rfl, h⟩)

theorem asks_handleJoinChannel (h : p.id = sidJoinChannel) :
    Yields (OneAction p) (handleJoinChannel p) := by
  refine yields_bind fun flags => yields_bind fun channel => yields_bind fun _ => ?_
  exact yields_pure (.inr ⟨_, rfl, h⟩)

theorem asks_handleChatCommand (h : p.id = sidChatCommand) :
    Yields (OneAction p) (handleChatCommand p) := by
  refine yields_bind fun command => yields_pure ?_
  cases command with
  | none => exact .inl rfl
  | some command => exact .inr ⟨_, rfl, h⟩

theorem asks_handlePingReply (m : Moment) (p : Packet) :
    Yields (OneAction p) (handlePingReply m p) :=
  yields_bind fun _ => yields_bind fun _ => yields_pure (.inr ⟨_, rfl, trivial⟩)

/-- An arm of `handle`, knowing the id that it is for. -/
theorem yields_arm {Q : List Action → Prop} {c : Prop} [Decidable c] {x y : Peering (List Action)}
    (hx : c → Yields Q x) (hy : Yields Q y) : Yields Q (if c then x else y) := by
  by_cases hc : c
  · rw [if_pos hc]
    exact hx hc
  · rw [if_neg hc]
    exact hy

theorem asks_handle (m : Moment) (p : Packet) : Yields (OneAction p) (handle m p) := by
  unfold handle
  refine yields_ite (asks_answering _) (yields_ite (asks_answering _) ?_)
  refine yields_ite (asks_answering _) (yields_ite (asks_answering _) ?_)
  refine yields_ite (asks_answering _) (yields_ite (asks_answering _) ?_)
  refine yields_ite (asks_answering _) (yields_ite (asks_answering _) ?_)
  refine yields_ite (asks_answering _) (yields_ite (asks_answering _) ?_)
  refine yields_ite (asks_answering _) (yields_ite (asks_answering _) ?_)
  refine yields_ite (asks_answering _) (yields_ite (asks_answering _) ?_)
  refine yields_ite (asks_answering _) (yields_ite (asks_answering _) ?_)
  refine yields_arm (fun h => asks_whenLoggedOn (asks_handleEnterChat h)) ?_
  refine yields_ite (asks_lengthOnly trivial) ?_
  refine yields_arm (fun h => asks_whenLoggedOn (asks_handleJoinChannel h)) ?_
  refine yields_arm (fun h => asks_whenLoggedOn (asks_lengthOnly h)) ?_
  refine yields_arm (fun h => asks_handleChatCommand h) ?_
  refine yields_ite (asks_whenLoggedOn (asks_lengthOnly trivial)) ?_
  refine yields_ite (asks_handlePingReply m p) ?_
  refine yields_ite (yields_bind fun _ => yields_pure (.inr ⟨_, rfl, trivial⟩)) ?_
  refine yields_ite (yields_ite (yields_fail _) (yields_pure (.inl rfl))) ?_
  exact yields_ite (asks_whenLoggedOn (asks_answering _)) (yields_pure (.inl rfl))

/-- Nobody who is not logged on enters chat, joins or leaves by a packet. -/
theorem handle_stranger (m : Moment) {peer : LegacyPeer} (h : peer.loggedOn = false)
    (hp : p.id = sidEnterChat ∨ p.id = sidJoinChannel ∨ p.id = sidLeaveChat) :
    handle m p peer = (.ok [], peer) := by
  have hguard (x : Peering (List Action)) : whenLoggedOn x peer = (.ok [], peer) := by
    unfold whenLoggedOn
    rw [bind_of_ok (read_apply peer), h]
    rfl
  unfold handle
  rcases hp with hp | hp | hp
  · simp only [hp]
    exact hguard _
  · simp only [hp]
    exact hguard _
  · simp only [hp]
    exact hguard _

end LegacyPeer

/-! ## What an action does -/

/-- What a computation that only tells the client something leaves as it is. -/
def told (c : Connection) : Session × Bool × (String × Bool × Bool) :=
  (c.session, c.state.enteredChat, c.peer.right)

theorem told_onWriter {α : Type} (x : Stateful (List UInt8) IoError α) :
    Within (Keeps told) (onPeer (LegacyPeer.onWriter x)) := fun _ => rfl

theorem told_setView (view : Option ChannelView) : Within (Keeps told) (setView view) :=
  within_change fun _ => rfl

theorem told_sendChannelSnapshot (toonName : String) :
    Within (Keeps told) (sendChannelSnapshot toonName) := by
  refine within_bind within_read fun c => ?_
  cases c.session.activeChannel.map channelView with
  | none => exact told_onWriter _
  | some current =>
    refine within_bind (told_onWriter _) fun _ => ?_
    exact within_bind (within_each (fun user => told_onWriter _) _) fun _ => told_setView _

theorem told_sendFriendsSnapshot : Within (Keeps told) sendFriendsSnapshot :=
  within_bind within_read fun _ => within_bind (told_onWriter _) fun _ =>
    within_change fun _ => rfl

theorem told_handleWho : Within (Keeps told) handleWho :=
  within_bind within_read fun _ => within_ite (told_onWriter _) (told_onWriter _)

theorem told_handleRejoin (toonName : String) : Within (Keeps told) (handleRejoin toonName) :=
  within_bind within_read fun _ =>
    within_ite (told_sendChannelSnapshot toonName) (told_onWriter _)

/-- From here the computation brings about one command at most, and leaves the standing of the
client. -/
def BringsAt (P : ClientCommand → Prop) {α : Type} (x : Serving α) (c : Connection) : Prop :=
  (x c).2.state.enteredChat = c.state.enteredChat ∧ (x c).2.peer.right = c.peer.right ∧
    ∃ added : Option ClientCommand, (x c).2.session.sent = c.session.sent ++ added.toList ∧
      ∀ command ∈ added, P command

def Brings (P : Connection → ClientCommand → Prop) {α : Type} (x : Serving α) : Prop :=
  ∀ c, BringsAt (P c) x c

namespace Brings

variable {P Q : Connection → ClientCommand → Prop} {α : Type}

theorem of_told {x : Serving α} (h : Within (Keeps told) x) : Brings P x := by
  intro c
  obtain ⟨hsession, hentered, hright⟩ : (x c).2.session = c.session ∧
      (x c).2.state.enteredChat = c.state.enteredChat ∧ (x c).2.peer.right = c.peer.right := by
    simpa [Keeps, told] using h c
  exact ⟨hentered, hright, none, by simp [hsession], by simp⟩

theorem mono {x : Serving α} (h : Brings P x) (hPQ : ∀ c command, P c command → Q c command) :
    Brings Q x := by
  intro c
  obtain ⟨hentered, hright, added, hsent, hadded⟩ := h c
  exact ⟨hentered, hright, added, hsent, fun command hc => hPQ c command (hadded command hc)⟩

theorem read {f : Connection → Serving α} (h : ∀ c, Brings P (f c)) :
    Brings P (Stateful.read >>= f) := fun c => h c c

theorem ite {b : Prop} [Decidable b] {x y : Serving α} (hx : Brings P x) (hy : Brings P y) :
    Brings P (if b then x else y) := by
  by_cases hb : b
  · rw [if_pos hb]
    exact hx
  · rw [if_neg hb]
    exact hy

/-- A call on the session whose result is told to the client. -/
theorem attempt {call : Stateful Session Error Unit} {f : Except Error Unit → Serving α}
    (hcall : ∀ c : Connection, ∃ added : Option ClientCommand,
      (call c.session).2.sent = c.session.sent ++ added.toList ∧ ∀ command ∈ added, P c command)
    (hf : ∀ result, Within (Keeps told) (f result)) : Brings P (attemptSession call >>= f) := by
  intro c
  have htold := hf (call c.session).1 { c with session := (call c.session).2 }
  obtain ⟨hsession, hentered, hright⟩ := by simpa [Keeps, told] using htold
  obtain ⟨added, hsent, hadded⟩ := hcall c
  refine ⟨hentered, hright, added, ?_, hadded⟩
  exact (congrArg Session.sent hsession).trans hsent

end Brings

/-- Calls that only send or refuse. -/
theorem join_sent (requested : String) (s : Session) :
    ∃ added : Option ClientCommand, (Session.join requested s).2.sent = s.sent ++ added.toList ∧
      ∀ command ∈ added, ∃ channel, command = .joinChannel channel := by
  unfold Session.join
  dsimp only
  split_ifs
  · exact ⟨none, by simp, by simp⟩
  · rw [bind_of_ok (read_apply s)]
    split_ifs
    · exact ⟨none, by simp, by simp⟩
    · exact ⟨some (.joinChannel (s.resolveChannel (trim requested))), rfl, by simp⟩

theorem sendMessage_sent (body : String) (s : Session) :
    ∃ added : Option ClientCommand, (Session.sendMessage body s).2.sent = s.sent ++ added.toList ∧
      ∀ command ∈ added, ∃ index body, s.activeChannelIndex = some index ∧
        command = .sendMessage index body := by
  unfold Session.sendMessage
  split_ifs
  · exact ⟨none, by simp, by simp⟩
  · rw [bind_of_ok (read_apply s)]
    cases hactive : s.activeChannelIndex with
    | none => exact ⟨none, by simp [orFail, bind_apply], by simp⟩
    | some index => exact ⟨some (.sendMessage index (trim body)), rfl, by simp⟩

theorem sendWhisper_sent (target body : String) (s : Session) :
    ∃ added : Option ClientCommand,
      (Session.sendWhisper target body s).2.sent = s.sent ++ added.toList ∧
      ∀ command ∈ added, ∃ target name body, command = .sendWhisper target name body := by
  unfold Session.sendWhisper
  split_ifs
  · exact ⟨none, by simp, by simp⟩
  · exact ⟨some _, rfl, by simp⟩

/-- The command joins a channel. -/
def Joins (_ : Connection) (command : ClientCommand) : Prop :=
  ∃ channel, command = .joinChannel channel

/-- The command is for the channel that the client is in, for a peer, or joins a channel. -/
def Talks (c : Connection) (command : ClientCommand) : Prop :=
  Joins c command ∨ (∃ target name body, command = .sendWhisper target name body) ∨
    ∃ index body, c.session.activeChannelIndex = some index ∧ command = .sendMessage index body

theorem told_result (result : Except Error Unit) (text : String) :
    Within (Keeps told) (match result with
      | .error error => onPeer (LegacyPeer.sendError (text ++ displayError error))
      | .ok () => pure ()) := by
  cases result with
  | error error => exact told_onWriter _
  | ok _ => exact within_pure _

theorem brings_joinOrTell (requested text : String) :
    Brings Joins (joinOrTell (Session.join requested) text) :=
  Brings.attempt (fun c => join_sent requested c.session) fun result => told_result result text

theorem brings_handleJoinRequest (toonName : String) (flags : UInt32) (channel : String) :
    Brings Joins (handleJoinRequest toonName flags channel) := by
  unfold handleJoinRequest
  cases normalizeChannelName channel with
  | error message => exact .of_told (told_onWriter _)
  | ok channel =>
    refine .read fun c => .ite ?_ (.ite ?_ (.ite ?_ ?_))
    · exact .of_told (within_ite (told_sendChannelSnapshot toonName) (told_onWriter _))
    · exact .ite (.of_told (told_sendChannelSnapshot toonName)) (brings_joinOrTell _ _)
    · exact brings_joinOrTell _ _
    · exact .of_told (told_onWriter _)

theorem brings_handleJoinCommand (requested : String) :
    Brings Joins (handleJoinCommand requested) := by
  unfold handleJoinCommand
  cases normalizeChannelName requested with
  | error message => exact .of_told (told_onWriter _)
  | ok channel => exact brings_joinOrTell _ _

theorem brings_sendOrTell (body text : String) : Brings Talks (sendOrTell body text) := by
  refine Brings.attempt (fun c => ?_) fun result => told_result result text
  obtain ⟨added, hsent, hadded⟩ := sendMessage_sent body c.session
  exact ⟨added, hsent, fun command hc => .inr (.inr (hadded command hc))⟩

theorem brings_handleWhisper (argument : String) : Brings Talks (handleWhisper argument) := by
  refine Brings.attempt (fun c => ?_) fun result => told_result result _
  obtain ⟨added, hsent, hadded⟩ := sendWhisper_sent _ _ c.session
  exact ⟨added, hsent, fun command hc => .inr (.inl (hadded command hc))⟩

theorem brings_handleEmote (toonName argument : String) :
    Brings Talks (handleEmote toonName argument) := by
  refine .read fun c => .ite (.of_told (told_onWriter _)) ?_
  exact .ite (.of_told (told_onWriter _)) (brings_sendOrTell _ _)

theorem brings_handleSlashCommand (toonName command : String) :
    Brings Talks (handleSlashCommand toonName command) := by
  refine .ite ((brings_handleJoinCommand _).mono fun _ _ => .inl) ?_
  refine .ite (.of_told (told_handleRejoin _)) (.ite (.of_told told_handleWho) ?_)
  refine .ite (.of_told (told_onWriter _)) (.ite (brings_handleWhisper _) ?_)
  refine .ite (brings_handleEmote _ _) (.ite (.of_told (told_onWriter _)) ?_)
  exact .of_told (told_onWriter _)

theorem brings_handleChatCommand (toonName command : String) :
    Brings Talks (handleChatCommand toonName command) := by
  unfold handleChatCommand
  split
  · exact brings_handleSlashCommand _ _
  · exact .read fun c => .ite (.of_told (told_onWriter _)) (brings_sendOrTell _ _)

/-- What the actions other than entering chat bring about. -/
def Acts (c : Connection) (command : ClientCommand) : Action → Prop
  | .joinChannel _ _ => c.state.enteredChat = true ∧ Joins c command
  | .chatCommand _ => c.state.enteredChat = true ∧ Talks c command
  | .leaveChat => ∃ index, c.session.activeChannelIndex = some index ∧
      command = .leaveChannel index
  | _ => False

theorem BringsAt.of_entered {P : ClientCommand → Prop} {c : Connection} {x y : Serving Unit}
    (hx : BringsAt P x c) (hy : Within (Keeps told) y) :
    BringsAt (fun command => c.state.enteredChat = true ∧ P command)
      (if c.state.enteredChat then x else y) c := by
  by_cases hentered : c.state.enteredChat = true
  · rw [if_pos hentered]
    obtain ⟨hkept, hright, added, hsent, hadded⟩ := hx
    exact ⟨hkept, hright, added, hsent, fun command hc => ⟨hentered, hadded command hc⟩⟩
  · rw [if_neg hentered]
    exact Brings.of_told (P := fun _ command => _ ∧ P command) hy c

theorem leaveActiveChannel_sent (s : Session) :
    ∃ added : Option ClientCommand,
      (Session.leaveActiveChannel s).2.sent = s.sent ++ added.toList ∧
      ∀ command ∈ added, ∃ index, s.activeChannelIndex = some index ∧
        command = .leaveChannel index := by
  unfold Session.leaveActiveChannel
  cases hactive : s.activeChannelIndex with
  | none => exact ⟨none, by simp, by simp⟩
  | some index => exact ⟨some (.leaveChannel index), rfl, by simp⟩

theorem bringsAt_handleAction {action : Action} (h : ∀ name, action ≠ .enterChat name)
    (c : Connection) : BringsAt (fun command => Acts c command action) (handleAction action) c := by
  cases action with
  | enterChat name => exact absurd rfl (h name)
  | requestChannelList => exact Brings.of_told (P := fun _ _ => False) (told_onWriter _) c
  | joinChannel flags channel =>
    exact BringsAt.of_entered (brings_handleJoinRequest _ flags channel c) (told_onWriter _)
  | leaveChat => exact ⟨rfl, rfl, leaveActiveChannel_sent c.session⟩
  | chatCommand command =>
    exact BringsAt.of_entered (brings_handleChatCommand _ command c) (told_onWriter _)
  | requestFriendsList => exact Brings.of_told (P := fun _ _ => False) told_sendFriendsSnapshot c
  | pong roundTrip =>
    exact Brings.of_told (P := fun _ _ => False)
      (within_bind within_read fun _ => within_pure _) c
  | udpCapability supported =>
    exact Brings.of_told (P := fun _ _ => False)
      (within_bind within_read fun _ => within_pure _) c

/-- Entering chat brings about nothing. -/
theorem handleAction_enterChat (name : String) (c : Connection) :
    (handleAction (.enterChat name) c).2.session = c.session ∧
      (handleAction (.enterChat name) c).2.peer.right = c.peer.right ∧
      ((handleAction (.enterChat name) c).1 = .ok () →
        (handleAction (.enterChat name) c).2.state.enteredChat = true) := by
  have htold := told_onWriter (sendEnterChat c.state.toonName defaultStats) c
  unfold handleAction
  rw [bind_of_ok (read_apply c)]
  dsimp only
  rw [bind_apply]
  rcases hsend : onPeer (LegacyPeer.onWriter (sendEnterChat c.state.toonName defaultStats)) c with
    ⟨error | _, c'⟩
  all_goals
    rw [hsend] at htold
    obtain ⟨hsession, -, hright⟩ := by simpa [Keeps, told] using htold
  · exact ⟨hsession, hright, fun h => nomatch h⟩
  · exact ⟨hsession, hright, fun _ => rfl⟩

/-! ## What a round of the loop does -/

/-- A command that a packet or a poll may bring about. -/
def MayBring (expected : String) (packets : List Packet) (c : Connection) :
    Input → ClientCommand → Prop
  | .packet _ p, command =>
    (p.id = sidJoinChannel ∧ Entitled expected packets ∧ Entered expected packets ∧
        Joins c command) ∨
      (p.id = sidChatCommand ∧ Entered expected packets ∧ Talks c command) ∨
      (p.id = sidLeaveChat ∧ Entitled expected packets ∧
        ∃ index, c.session.activeChannelIndex = some index ∧ command = .leaveChannel index)
  -- the session leaves the channel that another replaces
  | .poll _ _, command => ∃ index, command = .leaveChannel index

/-- The fields of a connection say of the packets so far who the client is. -/
structure Knows (expected : String) (packets : List Packet) (c : Connection) : Prop where
  stands : Stands expected packets c.peer
  entered : c.state.enteredChat = true ↔ Entered expected packets

namespace LegacyPeer

theorem asksEnterChat_handleEnterChat (p : Packet) :
    Yields (fun actions => ∃ name, actions = [Action.enterChat name]) (handleEnterChat p) :=
  yields_bind fun _ => yields_bind fun _ => yields_pure ⟨_, rfl⟩

/-- Who is logged on and asks to enter chat does, and nobody else. -/
theorem handle_enterChat_iff {m : Moment} {peer peer' : LegacyPeer} {actions : List Action}
    (h : handle m p peer = (.ok actions, peer')) :
    (∃ name, actions = [.enterChat name]) ↔ p.id = sidEnterChat ∧ peer.loggedOn = true := by
  constructor
  · rintro ⟨name, rfl⟩
    rcases asks_handle m p peer _ _ h with hnone | ⟨action, haction, hasks⟩
    · exact absurd hnone (List.cons_ne_nil _ _)
    · obtain rfl := (List.cons.inj haction).1
      refine ⟨hasks, ?_⟩
      by_contra hlogged
      rw [handle_stranger m (Bool.not_eq_true _ ▸ hlogged) (.inl hasks)] at h
      cases h
  · rintro ⟨hp, hlogged⟩
    have henter : handle m p peer = handleEnterChat p peer := by
      unfold handle
      simp only [hp]
      show whenLoggedOn (handleEnterChat p) peer = _
      unfold whenLoggedOn
      rw [bind_of_ok (read_apply peer), hlogged]
      rfl
    exact asksEnterChat_handleEnterChat p peer actions peer' (henter.symm.trans h)

end LegacyPeer

section round

variable {expected : String} {packets : List Packet} {c : Connection}

/-- A connection after a round that may have failed: the next connection, what is known of it when
the round succeeded, and what was sent. -/
structure Round (expected : String) (packets packets' : List Packet) (c : Connection)
    (input : Input) : Prop where
  knows : (serve input c).1 = .ok () → Knows expected packets' (serve input c).2
  sends : ∃ added, (serve input c).2.session.sent = c.session.sent ++ added ∧
    (∀ command ∈ added, MayBring expected packets c input command) ∧
    ∀ m p, input = .packet m p → added.length ≤ 1

/-- What an action brings about, its packet may. -/
theorem mayBring_of_acts (h : Knows expected packets c) {m : Moment} {p : Packet}
    {peer : LegacyPeer} {action : Action} {command : ClientCommand}
    (hhandle : LegacyPeer.handle m p c.peer = (.ok [action], peer)) (hasks : Asks p action)
    (hacts : Acts c command action) : MayBring expected packets c (.packet m p) command := by
  have hentitled (hp : p.id = sidEnterChat ∨ p.id = sidJoinChannel ∨ p.id = sidLeaveChat) :
      Entitled expected packets := by
    rw [← h.stands.loggedOn]
    by_contra hlogged
    rw [LegacyPeer.handle_stranger m (Bool.not_eq_true _ ▸ hlogged) hp] at hhandle
    cases hhandle
  cases action with
  | joinChannel flags channel =>
    exact .inl ⟨hasks, hentitled (.inr (.inl hasks)), h.entered.1 hacts.1, hacts.2⟩
  | chatCommand text => exact .inr (.inl ⟨hasks, h.entered.1 hacts.1, hacts.2⟩)
  | leaveChat => exact .inr (.inr ⟨hasks, hentitled (.inr (.inr hasks)), hacts⟩)
  | _ => exact hacts.elim

theorem each_singleton (action : Action) (c : Connection) :
    each handleAction [action] c = handleAction action c := by
  show (handleAction action >>= fun _ => pure ()) c = _
  rw [bind_apply]
  rcases handleAction action c with ⟨_ | _, _⟩ <;> rfl

/-- A packet: the peer handles it, and what it asks is done. -/
theorem round_packet (h : Knows expected packets c) (m : Moment) (p : Packet) :
    Round expected packets (packets ++ [p]) c (.packet m p) := by
  have hstands := stands_handle h.stands m p
  rcases hhandle : LegacyPeer.handle m p c.peer with ⟨error | actions, peer⟩
  · have hserve : serve (.packet m p) c = (.error (.client error), { c with peer }) := by
      show (onPeer (LegacyPeer.handle m p) >>= each handleAction) c = _
      rw [bind_apply, onPeer, hhandle]
      rfl
    refine ⟨fun hok => ?_, [], ?_, by simp, fun _ _ _ => Nat.zero_le _⟩
    · rw [hserve] at hok
      cases hok
    · rw [hserve, List.append_nil]
  · rw [hhandle] at hstands
    have henter := LegacyPeer.handle_enterChat_iff hhandle
    rw [h.stands.loggedOn] at henter
    have hserve : serve (.packet m p) c = each handleAction actions { c with peer } := by
      show (onPeer (LegacyPeer.handle m p) >>= each handleAction) c = _
      rw [bind_apply, onPeer, hhandle]
      rfl
    rcases LegacyPeer.asks_handle m p c.peer actions peer hhandle with rfl | ⟨action, rfl, hasks⟩
    · refine ⟨fun _ => ⟨?_, ?_⟩, [], ?_, by simp, fun _ _ _ => Nat.zero_le _⟩
      · rw [hserve]
        exact hstands
      · rw [hserve, entered_snoc, ← henter, or_iff_left (by simp)]
        exact h.entered
      · rw [hserve, List.append_nil]
        rfl
    · rw [each_singleton] at hserve
      by_cases hname : ∃ name, action = .enterChat name
      · obtain ⟨name, rfl⟩ := hname
        obtain ⟨hsession, hright, hentered⟩ := handleAction_enterChat name { c with peer }
        rw [← hserve] at hsession hright hentered
        refine ⟨fun hok => ⟨hstands.of_right hright, ?_⟩, [], ?_, by simp,
          fun _ _ _ => Nat.zero_le _⟩
        · rw [hentered hok, entered_snoc, ← henter]
          exact ⟨fun _ => .inr ⟨name, rfl⟩, fun _ => rfl⟩
        · rw [hsession, List.append_nil]
      · obtain ⟨hentered, hright, added, hsent, hadded⟩ :=
          bringsAt_handleAction (fun name h => hname ⟨name, h⟩) { c with peer }
        rw [← hserve] at hentered hright hsent
        refine ⟨fun _ => ⟨hstands.of_right hright, ?_⟩, added.toList, hsent, fun command hc => ?_,
          fun _ _ _ => by cases added <;> simp⟩
        · rw [hentered, entered_snoc, ← henter]
          simpa [hname] using h.entered
        · exact mayBring_of_acts h hhandle hasks (hadded command (by simpa using hc))

/-! ## Polls -/

theorem setState_sent (index : UInt8) (state : ChannelState) (s : Session) :
    (Session.identifyToon index (Session.setState index state s)).sent = s.sent := by
  rw [Session.identifyToon_sent]
  rfl

/-- The session has sent nothing in between but that it leaves channels. -/
def Leaves (s t : Session) : Prop :=
  Grows (fun command => ∃ index, command = ClientCommand.leaveChannel index) s.sent t.sent

instance : Std.Refl Leaves where
  refl s := Grows.refl _ s.sent

instance : IsTrans Session Leaves where
  trans _ _ _ h k := Grows.trans h k

theorem Leaves.of_same {s t : Session} (h : t.sent = s.sent) : Leaves s t := by
  rw [Leaves, h]
  exact .refl _ _

/-- An event of the chat makes the session leave a channel at most. -/
theorem applyChat_sent (event : Sc2.ChatEvent) (s : Session) :
    Leaves s (Session.applyChat event s).2 := by
  cases event with
  | joined index channel handle shard =>
    unfold Session.applyChat Session.applyJoined
    dsimp only
    split_ifs
    · rw [Leaves, (Session.activate_fields _ _).2.2.2, setState_sent]
      refine .append _ fun command hcommand => ?_
      obtain ⟨index, -, hindex⟩ := Option.map_eq_some_iff.1 (Option.mem_toList.1 hcommand)
      exact ⟨index, hindex.symm⟩
    · exact .of_same (setState_sent _ _ _)
  | roster snapshot =>
    refine .of_same ?_
    unfold Session.applyChat Session.applyRoster
    dsimp only
    split_ifs <;> exact setState_sent _ _ _
  | memberJoined index joined =>
    refine .of_same ?_
    unfold Session.applyChat Session.applyMemberJoined
    dsimp only
    split_ifs <;> exact setState_sent _ _ _
  | memberLeft index left reason =>
    refine .of_same ?_
    unfold Session.applyChat Session.applyMemberLeft
    dsimp only
    split
    · rfl
    · split
      · split_ifs <;> rfl
      · rfl
  | removed index reason =>
    refine .of_same ?_
    unfold Session.applyChat Session.applyRemoved
    dsimp only
    split_ifs <;> rfl
  | friends friends =>
    refine .of_same ?_
    unfold Session.applyChat Session.applyFriends
    dsimp only
    split_ifs <;> rfl
  | _ => exact .of_same rfl

theorem leaves_handleClientEvent (event : ClientEvent) :
    Within Leaves (Session.handleClientEvent event) := by
  cases event with
  | chat event => exact within_take (applyChat_sent event)
  | stage stage => cases stage <;> first | exact within_fail _ | exact within_pure _
  | commandError message => exact within_pure _
  | error message => exact within_fail _
  | other => exact within_pure _

theorem leaves_poll (events : List ClientEvent) : Within Leaves (Session.poll events) := by
  induction events with
  | nil => exact within_pure _
  | cons event events ih =>
    refine within_bind (leaves_handleClientEvent event) fun output => ?_
    exact within_bind ih fun _ => within_pure _

theorem keeps_serviceKeepalive (m : Moment) :
    Within (Keeps LegacyPeer.right) (LegacyPeer.serviceKeepalive m) := by
  refine within_bind within_read fun peer => within_ite (within_pure _) ?_
  refine within_bind ?_ fun _ => within_bind ?_ fun _ => within_pure _
  · refine within_bind within_read fun peer => within_ite ?_ (within_pure _)
    refine within_bind (LegacyPeer.keeps_send _ _) fun _ => ?_
    exact within_bind (within_change fun _ => rfl) fun _ => within_pure _
  · refine within_bind within_read fun peer => within_ite ?_ (within_pure _)
    exact within_bind (LegacyPeer.keeps_sendPing m) fun _ => within_pure _

theorem told_onPeer {α : Type} {x : Peering α} (h : Within (Keeps LegacyPeer.right) x) :
    Within (Keeps told) (onPeer x) := fun c => by
  simpa [Keeps, told, onPeer] using h c.peer

theorem told_relayEvent (toonName : String) (event : Event) :
    Within (Keeps told) (relayEvent toonName event) := by
  cases event with
  | joined index => exact told_sendChannelSnapshot toonName
  | message index sender body outgoing =>
    refine within_bind within_read fun c => within_ite (within_pure _) ?_
    exact within_ite (told_onWriter _) (within_pure _)
  | whisper peer body outgoing => exact told_onWriter _
  | error message => exact told_onWriter _
  | _ => exact within_pure _

theorem told_relayEvents (outputs : List Event) : Within (Keeps told) (relayEvents outputs) :=
  within_bind within_read fun _ =>
    within_ite (within_each (told_relayEvent _) outputs) (within_pure _)

theorem told_keepalive (m : Moment) : Within (Keeps told) (keepalive m) :=
  within_bind (told_onPeer (keeps_serviceKeepalive m)) fun _ => within_pure _

/-- A poll: the session takes its events, and the client is told. -/
theorem round_poll (h : Knows expected packets c) (m : Moment) (events : List ClientEvent) :
    Round expected packets packets c (.poll m events) := by
  have hsent := leaves_poll events c.session
  have htold : Keeps told { c with session := (Session.poll events c.session).2 }
      (serve (.poll m events) c).2 := by
    show Keeps told _ (servePoll m events c).2
    unfold servePoll
    rw [bind_apply, attemptSession]
    dsimp only
    cases (Session.poll events c.session).1 with
    | error error => rfl
    | ok outputs => exact within_bind (told_relayEvents outputs) (fun _ => told_keepalive m) _
  obtain ⟨hsession, hentered, hright⟩ := by simpa [Keeps, told] using htold
  obtain ⟨added, hadded, hleave⟩ := hsent
  refine ⟨fun _ => ⟨h.stands.of_right hright, ?_⟩, added, ?_, hleave, fun _ _ hinput => ?_⟩
  · rw [hentered]
    exact h.entered
  · rw [hsession, hadded]
  · cases hinput

end round

/-! ## Runs -/

/-- The packets of a client among the inputs. -/
def packetsOf (inputs : List Input) : List Packet :=
  inputs.filterMap fun
    | .packet _ p => some p
    | .poll _ _ => none

/-- The law for a client that has been served these inputs, and the next one. -/
structure KeepsRight (expected : String) (inputs : List Input) (c : Connection) (input : Input) :
    Prop where
  loggedOn : c.peer.loggedOn = true ↔ Entitled expected (packetsOf inputs)
  enteredChat : c.state.enteredChat = true ↔ Entered expected (packetsOf inputs)
  sends : ∃ added, (serve input c).2.session.sent = c.session.sent ++ added ∧
    (∀ command ∈ added, MayBring expected (packetsOf inputs) c input command) ∧
    ∀ m p, input = .packet m p → added.length ≤ 1

/-- What a round does, for either input. -/
theorem round_serve {expected : String} {inputs : List Input} {c : Connection}
    (h : Knows expected (packetsOf inputs) c) (input : Input) :
    Round expected (packetsOf inputs) (packetsOf (inputs ++ [input])) c input := by
  cases input with
  | packet m p =>
    have hround := round_packet h m p
    simpa [packetsOf] using hround
  | poll m events =>
    have hround := round_poll h m events
    simpa [packetsOf] using hround

/-- As long as there is no error, the fields of the connection say who the client is. -/
theorem knows_run (session : Session) (now : Nat) (inputs : List Input)
    (h : (run Client.step (Client.start session now) inputs).ended = none) :
    Knows session.toonName (packetsOf inputs)
      (run Client.step (Client.start session now) inputs).connection := by
  induction inputs using List.reverseRecOn with
  | nil =>
    refine ⟨stands_new now session.toonName, ?_⟩
    simp [Client.start, Entered, packetsOf]
  | append_singleton inputs input ih =>
    rw [run_append, run_cons, run_nil, Client.step] at h ⊢
    split_ifs at h ⊢ with hended
    · rw [h] at hended
      cases hended
    · have hknows := ih (by simpa using hended)
      have hround := (round_serve hknows input).knows
      rcases hserve : serve input (run Client.step (Client.start session now) inputs).connection
        with ⟨error | _, c'⟩
      · rw [hserve] at h
        cases h
      · rw [hserve] at hround
        exact hround rfl

/-- A client that logged on and entered chat, and whose next logon fails, whispers. -/
def relogon : List Input :=
  let m : Moment := ⟨0, 0, 0⟩
  let logon := fun account => Input.packet m
    ⟨sidLogonResponse2, List.replicate 28 0 ++ cString account⟩
  [logon "raynor", .packet m ⟨sidEnterChat, cString "raynor" ++ cString ""⟩, logon "kerrigan"]

end Superiority.Gateway
