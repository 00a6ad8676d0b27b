import Superiority.Library.Balance
import Superiority.Library.Noninterference
import Superiority.Sc2.Frames

/-!
# What becomes of a whisper

Whoever writes a whisper sees it sent, sees it fail, or waits. A whisper that waits is looked at
with every record, in five places of `chat/session.rs`, and each of them takes it out of the queue
in the middle. Here the queue is kept an account of, over whole runs of calls: every whisper that
was posted has been put on the wire once, with one event that shows it, or has failed with one
event, or waits still, in the order in which it was posted. Only a call that returns an error loses
a whisper without a word, and no more than one.

* `Accounts` – the account between two states;
* `Settling` – a computation that keeps it, whatever it returns;
* `settling_call` – every call of the host is one;
* `whispers_accounted` – and so is every run.
-/

namespace Superiority.Sc2

/-- A whisper, by its peer and its text. -/
abbrev Whispered := String × String

/-! ## The account -/

namespace LiveChat

open Stateful

/-- The whisper of an entry of the queue. -/
def whispered (pending : PendingWhisper) : Whispered := (pending.displayName, pending.body)

/-- The whispers that wait. -/
def waiting (s : LiveChat) : List Whispered := s.pendingWhispers.map whispered

/-- The text that a request puts on the wire for somebody. -/
def wired : Request → Option String
  | .chatWhisper _ body => some body
  | _ => none

/-- The whisper of our own that an event shows. -/
def shown : ChatEvent → Option Whispered
  | .whisper peer body true => some (peer, body)
  | _ => none

/-- The peer whom an event says a whisper has not reached. -/
def refused : ChatEvent → Option String
  | .whisperFailed peer _ => some peer
  | _ => none

/-- The whispers that have left the queue, by the way they went. -/
structure Fates where
  delivered : List Whispered := []
  failed : List Whispered := []
  lost : List Whispered := []

namespace Fates

def all (fates : Fates) : List Whispered := fates.delivered ++ fates.failed ++ fates.lost

def and (first second : Fates) : Fates where
  delivered := first.delivered ++ second.delivered
  failed := first.failed ++ second.failed
  lost := first.lost ++ second.lost

theorem all_and (first second : Fates) :
    (first.all ++ second.all).Perm (first.and second).all := by
  rw [List.perm_iff_count]
  intro whisper
  simp only [all, and, List.count_append]
  omega

end Fates

/-- The requests and the events of a stretch say what the account says. -/
structure Tells (fates : Fates) (requests : List Request) (events : List ChatEvent) : Prop where
  wired : requests.filterMap wired = fates.delivered.map (·.2)
  shown : events.filterMap shown = fates.delivered
  refused : events.filterMap refused = fates.failed.map (·.1)

theorem tells_nothing : Tells {} [] [] := ⟨rfl, rfl, rfl⟩

theorem Tells.and {first second : Fates} {requests requests' : List Request}
    {events events' : List ChatEvent} (h : Tells first requests events)
    (k : Tells second requests' events') :
    Tells (first.and second) (requests ++ requests') (events ++ events') where
  wired := by rw [List.filterMap_append, h.wired, k.wired, Fates.and, List.map_append]
  shown := by rw [List.filterMap_append, h.shown, k.shown, Fates.and]
  refused := by rw [List.filterMap_append, h.refused, k.refused, Fates.and, List.map_append]

/-- Between the states the whispers have been posted, and these are their fates. -/
structure Accounts (posted : List Whispered) (fates : Fates) (s t : LiveChat) : Prop where
  balanced : Balanced posted fates.all (waiting s) (waiting t)
  told : ∃ requests events, t.sent = s.sent ++ requests
    ∧ t.pendingEvents = s.pendingEvents ++ events ∧ Tells fates requests events

theorem Accounts.trans {posted posted' : List Whispered} {first second : Fates}
    {s t u : LiveChat} (h : Accounts posted first s t) (k : Accounts posted' second t u) :
    Accounts (posted ++ posted') (first.and second) s u where
  balanced := (h.balanced.trans k.balanced).congr (Fates.all_and first second)
  told := by
    obtain ⟨requests, events, hsent, hqueued, htells⟩ := h.told
    obtain ⟨requests', events', hsent', hqueued', htells'⟩ := k.told
    refine ⟨requests ++ requests', events ++ events', ?_, ?_, htells.and htells'⟩
    · rw [hsent', hsent, List.append_assoc]
    · rw [hqueued', hqueued, List.append_assoc]

/-- The error that a result is. -/
def failures {α : Type} : Except Failure α → List Failure
  | .ok _ => []
  | .error e => [e]

/-- From the state, the computation accounts for the whispers it is given and for those that wait.
Only an error loses one. -/
def Settling {α : Type} (posted : List Whispered) (x : Chat α) (s : LiveChat) : Prop :=
  ∃ fates, Accounts posted fates s (x s).2 ∧ fates.lost.length ≤ (failures (x s).1).length

section Rules

variable {α β : Type} {posted : List Whispered} {s t : LiveChat}

/-- What goes before, if it loses nothing. -/
theorem settling_after {fates : Fates} {x y : Chat α} (h : Accounts posted fates s t)
    (hlost : fates.lost = []) (heq : x s = y t) (hy : Settling [] y t) :
    Settling posted x s := by
  obtain ⟨rest, haccounts, hrest⟩ := hy
  refine ⟨fates.and rest, ?_, ?_⟩
  · rw [heq, ← List.append_nil posted]
    exact h.trans haccounts
  · rw [heq]
    simpa [Fates.and, hlost] using hrest

theorem settling_change {fates : Fates} {f : LiveChat → LiveChat} {g : Unit → Chat α}
    (h : Accounts posted fates s (f s)) (hlost : fates.lost = [])
    (hg : Settling [] (g ()) (f s)) : Settling posted (change f >>= g) s :=
  settling_after h hlost rfl hg

theorem settling_bind {x : Chat α} {f : α → Chat β} (hx : Settling posted x s)
    (hf : ∀ a t, x s = (.ok a, t) → Settling [] (f a) t) : Settling posted (x >>= f) s := by
  obtain ⟨fates, haccounts, hlost⟩ := hx
  rcases hxs : x s with ⟨e | a, t⟩
  · rw [hxs] at haccounts hlost
    refine ⟨fates, ?_, ?_⟩
    · rw [bind_of_error hxs]
      exact haccounts
    · rw [bind_of_error hxs]
      exact hlost
  · rw [hxs] at haccounts hlost
    exact settling_after haccounts (List.length_eq_zero_iff.1 (Nat.le_zero.1 hlost))
      (bind_of_ok hxs) (hf a t hxs)

theorem settling_read {f : LiveChat → Chat α} (hf : Settling posted (f s) s) :
    Settling posted (read >>= f) s := hf

theorem settling_ite {c : Prop} [Decidable c] {x y : Chat α} (hx : c → Settling posted x s)
    (hy : ¬ c → Settling posted y s) : Settling posted (if c then x else y) s := by
  by_cases hc : c
  · rw [if_pos hc]
    exact hx hc
  · rw [if_neg hc]
    exact hy hc

/-- What is kept about whispers that wait, with requests and events that are about no whisper. -/
abbrev Unwhispered := Frame pendingWhispers (fun request => wired request = none)
  fun event => shown event = none ∧ refused event = none

theorem accounts_of_unwhispered (h : Unwhispered s t) : Accounts [] {} s t where
  balanced := by
    rw [waiting, waiting, h.kept]
    exact Balanced.refl _
  told := by
    obtain ⟨requests, hsent, hrequests⟩ := h.sent
    obtain ⟨events, hqueued, hevents⟩ := h.told
    refine ⟨requests, events, hsent, hqueued, ?_, ?_, ?_⟩
    · exact List.filterMap_eq_nil_iff.2 hrequests
    · exact List.filterMap_eq_nil_iff.2 fun event hevent => (hevents event hevent).1
    · exact List.filterMap_eq_nil_iff.2 fun event hevent => (hevents event hevent).2

theorem settling_of_within {x : Chat α} (hx : Within Unwhispered x) (s : LiveChat) :
    Settling [] x s :=
  ⟨{}, accounts_of_unwhispered (hx s), Nat.zero_le _⟩

theorem settling_pure (a : α) (s : LiveChat) : Settling [] (pure a) s :=
  settling_of_within (within_pure a) s

/-- What the host is given back in the end is no matter. -/
theorem settling_giving {x : Chat α} {f : α → β} (hx : Settling posted x s) :
    Settling posted (x >>= fun a => pure (f a)) s :=
  settling_bind hx fun a t _ => settling_pure (f a) t

end Rules

variable (tables : Tables) (m : Moment)

/-! ## What is not about whispers -/

section Elsewhere

variable {α : Type} {x : Chat α}

theorem unwhispered_moves (hx : Within Moves x) : Within Unwhispered x :=
  within_mono hx pendingWhispers (fun _ => rfl)
    (fun request h => by cases request <;> first | rfl | exact h.elim)
    fun event h => by cases event <;> first | exact ⟨rfl, rfl⟩ | exact h.elim

theorem unwhispered_rooms (hx : Within Rooms x) : Within Unwhispered x :=
  within_mono hx pendingWhispers (fun _ => rfl)
    (fun request h => by cases request <;> first | rfl | exact h.elim)
    fun event h => by cases event <;> first | exact ⟨rfl, rfl⟩ | exact h.elim

theorem unwhispered_subscribes (hx : Within Subscribes x) : Within Unwhispered x :=
  within_mono hx pendingWhispers (fun _ => rfl)
    (fun request h => by cases request <;> first | rfl | exact h.elim) fun _ h => h.elim

theorem unwhispered_looksUp (hx : Within LooksUp x) : Within Unwhispered x :=
  within_mono hx pendingWhispers (fun _ => rfl)
    (fun request h => by cases request <;> first | rfl | exact h.elim)
    fun event h => by cases event <;> first | exact ⟨rfl, rfl⟩ | exact h.elim

theorem unwhispered_befriends (hx : Within Befriends x) : Within Unwhispered x :=
  within_mono hx pendingWhispers (fun _ => rfl) (fun _ h => h.elim)
    fun event h => by cases event <;> first | exact ⟨rfl, rfl⟩ | exact h.elim

theorem unwhispered_observes (hx : Within Observes x) : Within Unwhispered x :=
  within_mono hx pendingWhispers (fun _ => rfl) (fun _ h => h.elim) fun _ h => h.elim

end Elsewhere

theorem unwhispered_receiveWhisperEcho (route : Route) (whisper : ChatWhisper) :
    Within Unwhispered (receiveWhisperEcho m route whisper) := by
  refine within_bind (within_unseen_take (fun s => ?_) (fun s => ?_) fun s => ?_) fun own =>
    within_pure _
  all_goals
    unfold consumeWhisperEcho
    dsimp only
    split <;> rfl

theorem unwhispered_handleRecord (record : Record) :
    Within Unwhispered (handleRecord tables m record) := by
  unfold handleRecord
  cases record.value with
  | chatMembership membership => exact unwhispered_moves (moves_receiveMembership m membership)
  | chatMessage message => exact unwhispered_rooms (rooms_receiveMessage m _ message)
  | chatInvite invite => exact unwhispered_moves (moves_receiveInvite invite)
  | chatWhisperEcho whisper => exact unwhispered_receiveWhisperEcho m _ whisper
  | clubSummaries clubs => exact unwhispered_looksUp (looksUp_receiveClubSummaries m _ clubs)
  | clubSearch clubIds => exact unwhispered_looksUp (looksUp_receiveClubSearch m clubIds)
  | clubInfo clubs => exact unwhispered_looksUp (looksUp_receiveClubInfo m _ clubs)
  | clubInviteAction action => exact unwhispered_looksUp (looksUp_receiveClubInvite m action)
  | accountBlocks entries =>
    exact unwhispered_befriends (befriends_receiveAccountBlocks tables entries)
  | friends updates => exact unwhispered_befriends (befriends_receiveFriends tables _)
  | friendToons entries => exact unwhispered_befriends (befriends_receiveFriends tables _)
  | _ => exact within_pure _

theorem unwhispered_handle (record : Record) : Within Unwhispered (handle tables m record) := by
  unfold handle
  cases record.value with
  | chatJoin result => exact unwhispered_moves (moves_receiveJoin tables m _ result)
  | _ => exact within_bind (unwhispered_handleRecord tables m record) fun _ => within_pure _

theorem unwhispered_synchronizeRosters :
    Within Unwhispered (change synchronizeRosters : Chat Unit) := by
  intro s
  refine ⟨rfl, .refl _ _, ?_⟩
  show Grows _ s.pendingEvents (s.pendingEvents ++ _ ++ _)
  rw [List.append_assoc]
  refine .append _ fun event hevent => ?_
  rcases List.mem_append.1 hevent with hevent | hevent
  · obtain ⟨entry, -, rfl⟩ := List.mem_map.1 hevent
    exact ⟨rfl, rfl⟩
  · rw [Option.mem_toList, Option.map_eq_some_iff] at hevent
    obtain ⟨party, -, rfl⟩ := hevent
    exact ⟨rfl, rfl⟩

theorem unwhispered_pump : Within Unwhispered (pump m) := by
  intro s
  have h := Resolving.pumps_pump m { sent := s.sent, profiles := s.profiles }
  refine ⟨rfl, h.sent.mono fun request hrequest => ?_, .refl _ _⟩
  cases request <;> first | rfl | exact hrequest.elim

/-! ## Requests about whispers -/

theorem unwhispered_send {request : Request} (h : wired request = none) :
    Within Unwhispered (send m request) :=
  within_send h fun _ _ => rfl

theorem unwhispered_requestWhisperFriendToons (accountId : UInt32) :
    Within Unwhispered (requestWhisperFriendToons m accountId) := by
  refine within_bind within_read fun s => within_ite (within_pure ()) ?_
  refine within_bind (within_unseen (fun _ => rfl) (fun _ => rfl) fun _ => rfl) fun _ => ?_
  exact unwhispered_send m rfl

theorem unwhispered_requestToonResolution (name : ToonFullName) :
    Within Unwhispered (requestToonResolution m name) := by
  refine within_bind within_read fun s => within_ite (within_pure ()) ?_
  refine within_bind (within_unseen (fun _ => rfl) (fun _ => rfl) fun _ => rfl) fun _ => ?_
  exact unwhispered_send m rfl

theorem unwhispered_requestTemporaryPresence (handle : ToonHandle) :
    Within Unwhispered (requestTemporaryPresence m handle) := by
  refine within_bind within_read fun s => within_ite (within_pure ()) ?_
  refine within_bind (within_unseen (fun _ => rfl) (fun _ => rfl) fun _ => rfl) fun _ => ?_
  exact unwhispered_send m rfl

theorem unwhispered_requestCharacter (pending : PendingWhisper) :
    Within Unwhispered (requestCharacter m pending) := by
  unfold requestCharacter
  cases pending.toonHandle with
  | some handle => exact unwhispered_requestTemporaryPresence m handle
  | none =>
    cases pending.toonName with
    | none => exact within_pure ()
    | some name => exact unwhispered_requestToonResolution m name

/-! ## Sending -/

/-- To send a whisper either fails and changes nothing, or puts it on the wire and shows it. -/
theorem sendResolvedWhisper_cases (displayName : String) (presenceId : UInt32) (body : String)
    (s : LiveChat) :
    (∃ e, sendResolvedWhisper m displayName presenceId body s = (.error e, s)) ∨
    ∃ t, sendResolvedWhisper m displayName presenceId body s = (.ok (), t)
      ∧ t.sent = s.sent ++ [.chatWhisper presenceId body]
      ∧ t.pendingEvents = s.pendingEvents ++ [.whisper displayName body true]
      ∧ t.pendingWhispers = s.pendingWhispers := by
  unfold sendResolvedWhisper
  cases htransmit : m.transmit s.sent (.chatWhisper presenceId body) with
  | error e =>
    refine Or.inl ⟨e, bind_of_error ?_⟩
    simp only [send, htransmit]
  | ok _ =>
    have hsend : send m (.chatWhisper presenceId body) s
        = (.ok (), { s with sent := s.sent ++ [.chatWhisper presenceId body] }) := by
      simp only [send, htransmit]
    exact Or.inr ⟨_, bind_of_ok hsend, rfl, rfl, rfl⟩

/-- A whisper that has left the queue and is sent is delivered, or lost with the error. -/
theorem settling_sending {α : Type} {posted : List Whispered} {s t : LiveChat}
    {displayName body : String} (presenceId : UInt32) {x : Chat α} (f : Unit → Chat α)
    (hleaves : Balanced posted [(displayName, body)] (waiting s) (waiting t))
    (hsent : t.sent = s.sent) (hqueued : t.pendingEvents = s.pendingEvents)
    (heq : x s = (sendResolvedWhisper m displayName presenceId body >>= f) t)
    (hf : ∀ u, u.pendingWhispers = t.pendingWhispers → Settling [] (f ()) u) :
    Settling posted x s := by
  rcases sendResolvedWhisper_cases m displayName presenceId body t with
    ⟨e, h⟩ | ⟨u, h, husent, huqueued, huwaiting⟩
  · rw [bind_of_error h] at heq
    refine ⟨{ lost := [(displayName, body)] }, ?_, ?_⟩
    · rw [heq]
      exact ⟨hleaves, [], [], by simp [hsent], by simp [hqueued], rfl, rfl, rfl⟩
    · rw [heq]
      exact Nat.le_refl 1
  · rw [bind_of_ok h] at heq
    have hdelivered : Accounts posted { delivered := [(displayName, body)] } s u := by
      refine ⟨?_, _, _, hsent ▸ husent, hqueued ▸ huqueued, rfl, rfl, rfl⟩
      rw [show waiting u = waiting t from congrArg (List.map whispered) huwaiting]
      exact hleaves
    exact settling_after hdelivered rfl heq (hf u huwaiting)

theorem settling_sendResolvedWhisper (displayName : String) (presenceId : UInt32) (body : String)
    (s : LiveChat) :
    Settling [(displayName, body)] (sendResolvedWhisper m displayName presenceId body) s := by
  have hgone : Balanced [(displayName, body)] [(displayName, body)] (waiting s) (waiting s) := by
    simpa using (Balanced.enter (waiting s) [(displayName, body)]).trans
      (Balanced.leave (waiting s) (displayName, body) [])
  refine settling_sending m presenceId pure hgone rfl rfl ?_ fun u _ => settling_pure () u
  rw [bind_apply]
  rcases sendResolvedWhisper m displayName presenceId body s with ⟨e | _, t⟩ <;> rfl

theorem settling_queueWhisper (pending : PendingWhisper) (s : LiveChat) {whisper : Whispered}
    (hwhisper : whispered pending = whisper) :
    Settling [whisper] (queueWhisper m pending) s := by
  subst hwhisper
  refine settling_read ?_
  cases pending.toonHandle.bind s.profiles.presence.presenceForToonHandle with
  | some presenceId => exact settling_sendResolvedWhisper m _ presenceId _ s
  | none =>
    have henter : Accounts [whispered pending] {} s
        { s with pendingWhispers := s.pendingWhispers ++ [pending] } := by
      refine ⟨?_, [], [], by simp, by simp, tells_nothing⟩
      rw [waiting, waiting, List.map_append]
      exact Balanced.enter _ _
    refine settling_change henter rfl (settling_of_within ?_ _)
    refine within_bind (unwhispered_requestCharacter m pending) fun _ => ?_
    cases pending.accountId with
    | none => exact within_pure ()
    | some accountId => exact unwhispered_requestWhisperFriendToons m accountId

/-- The whisper that a call hands over: nothing blank, and nobody of another game. -/
def posted (s : LiveChat) : Call → List Whispered
  | .whisper target displayName body =>
    if trim body = "" then []
    else
      match resolveTarget s.friends target with
      | .warcraftAccount _ => []
      | _ => [(displayName, trim body)]
  | _ => []

theorem settling_sendWhisper (target : WhisperTarget) (displayName body : String)
    (s : LiveChat) :
    Settling (posted s (.whisper target displayName body))
      (sendWhisper m target displayName body) s := by
  refine settling_read ?_
  rw [posted]
  by_cases hblank : trim body = ""
  · rw [if_pos hblank, if_pos hblank]
    exact settling_of_within (within_fail _) s
  · rw [if_neg hblank, if_neg hblank]
    refine settling_read ?_
    cases resolveTarget s.friends target with
    | presence presenceId => exact settling_sendResolvedWhisper m _ presenceId _ s
    | toonHandle handle => exact settling_queueWhisper m _ s rfl
    | toonName name => exact settling_queueWhisper m _ s rfl
    | warcraftAccount id => exact settling_of_within (within_fail _) s
    | name name => exact settling_queueWhisper m _ s rfl
    | account accountId =>
      dsimp only
      cases s.accountPresenceId accountId with
      | some presenceId => exact settling_sendResolvedWhisper m _ presenceId _ s
      | none => exact settling_queueWhisper m _ s rfl

/-! ## Waiting -/

theorem whispered_lookUpFriend (friends : Friends) (pending : PendingWhisper) :
    whispered (lookUpFriend friends pending) = whispered pending := by
  unfold lookUpFriend
  split
  · rfl
  · split
    · rfl
    · split <;> rfl

theorem whispered_adoptToonName (friends : Friends) (pending : PendingWhisper) :
    whispered (adoptToonName friends pending) = whispered pending := by
  unfold adoptToonName
  split
  · rfl
  · split <;> rfl

/-- Whatever is found out about the whispers that wait, they are the same whispers. -/
theorem accounts_resolve {f : PendingWhisper → PendingWhisper}
    (hf : ∀ pending, whispered (f pending) = whispered pending) (s : LiveChat) :
    Accounts [] {} s { s with pendingWhispers := s.pendingWhispers.map f } := by
  refine ⟨?_, [], [], by simp, by simp, tells_nothing⟩
  have hsame : whispered ∘ f = whispered := funext hf
  rw [waiting, waiting, List.map_map, hsame]
  exact Balanced.refl _

theorem settling_receiveToonName (resolved : ToonNameResolved) (s : LiveChat) :
    Settling [] (receiveToonName tables m resolved) s := by
  have hforget : Within Unwhispered (change fun s => { s with
      pendingToonResolutions := s.pendingToonResolutions.erase resolved.name } : Chat Unit) :=
    within_unseen (fun _ => rfl) (fun _ => rfl) fun _ => rfl
  refine settling_bind (settling_of_within hforget s) fun _ t _ => ?_
  refine settling_ite (fun _ => ?_) fun _ => ?_
  · cases resolved.handle with
    | none => exact settling_pure () t
    | some handle =>
      refine settling_change (accounts_resolve (fun pending => ?_) t) rfl
        (settling_of_within (unwhispered_requestTemporaryPresence m handle) _)
      split <;> rfl
  · -- The whispers to the name leave the queue together, each with an event of its own.
    let refusals := t.pendingWhispers.filter (·.toonName = some resolved.name)
    refine ⟨{ failed := refusals.map whispered }, ?_, Nat.zero_le _⟩
    refine ⟨?_, [], _, by simp, rfl, rfl, ?_, ?_⟩
    · have hfilter := (Balanced.filter (fun pending : PendingWhisper =>
        decide (pending.toonName ≠ some resolved.name)) t.pendingWhispers).map
          whispered
      simpa [Fates.all, waiting, refusals] using hfilter
    · exact List.filterMap_eq_nil_iff.2 fun event hevent => by
        obtain ⟨pending, -, rfl⟩ := List.mem_map.1 hevent
        rfl
    · rw [List.filterMap_map, List.map_map]
      exact congrFun List.filterMap_eq_map' _

theorem settling_receiveResolved (payload : Payload) (s : LiveChat) :
    Settling [] (receiveResolved tables m payload) s := by
  cases payload with
  | toonNameResolved resolved => exact settling_receiveToonName tables m resolved s
  | _ => exact settling_pure () s

/-- The loop: what stands before the index stays, and of the others each goes its way. -/
theorem settling_deliverWhispers (kept whispers : List PendingWhisper) (s : LiveChat)
    (hqueue : s.pendingWhispers = kept ++ whispers) :
    Settling [] (deliverWhispers m kept whispers) s := by
  induction whispers generalizing kept s with
  | nil => exact settling_pure () s
  | cons pending rest ih =>
    have hleaves : Balanced [] [whispered pending] (waiting s)
        ((kept ++ rest).map whispered) := by
      rw [waiting, hqueue]
      exact (Balanced.leave kept pending rest).map whispered
    refine settling_read ?_
    cases delivery m s.profiles.presence pending with
    | waits =>
      refine ih (kept ++ [pending]) s ?_
      rw [hqueue, List.append_assoc, List.singleton_append]
    | failed =>
      have hfails (t : LiveChat) (ht : t = { s with
          pendingWhispers := kept ++ rest
          pendingEvents := s.pendingEvents ++
            [.whisperFailed pending.displayName "Battle.net identity could not be resolved"] }) :
          Accounts [] { failed := [whispered pending] } s t := by
        subst ht
        exact ⟨hleaves, [], _, (List.append_nil _).symm, rfl, rfl, rfl, rfl⟩
      exact settling_after (hfails _ rfl) rfl rfl (ih kept _ rfl)
    | sent presenceId handle =>
      refine settling_sending (t := { s with pendingWhispers := kept ++ rest }) m presenceId _
        hleaves rfl rfl rfl fun u hu => ?_
      exact settling_change (accounts_of_unwhispered ⟨rfl, .refl _ _, .refl _ _⟩) rfl
        (ih kept _ hu)

theorem settling_advancePendingWhispers (payload : Payload) (s : LiveChat) :
    Settling [] (advancePendingWhispers tables m payload) s := by
  refine settling_change (accounts_resolve (fun pending => ?_) s) rfl ?_
  · rw [whispered_adoptToonName, whispered_lookUpFriend]
  refine settling_bind (settling_receiveResolved tables m payload _) fun _ t _ => ?_
  refine settling_read (settling_bind (settling_of_within (within_each
    (unwhispered_requestWhisperFriendToons m) _) t) fun _ t _ => ?_)
  refine settling_read (settling_bind (settling_of_within (within_each
    (unwhispered_requestToonResolution m) _) t) fun _ t _ => ?_)
  refine settling_read (settling_bind (settling_of_within (within_each
    (unwhispered_requestTemporaryPresence m) _) t) fun _ t _ => ?_)
  exact settling_read (settling_deliverWhispers m [] _ t rfl)

/-! ## Calls and runs -/

theorem settling_finish (payload : Payload) (observed : Observed) (handled : Handled)
    (s : LiveChat) : Settling [] (finish tables m payload observed handled) s := by
  cases handled with
  | done event => exact settling_pure event s
  | more event =>
    refine settling_bind (settling_bind (settling_advancePendingWhispers tables m payload s)
      fun _ t _ => settling_of_within ?_ t) fun _ t _ => settling_of_within ?_ t
    · refine within_bind unwhispered_synchronizeRosters fun _ => ?_
      refine within_bind ?_ fun _ => unwhispered_pump m
      exact within_unseen (fun _ => rfl) (fun _ => rfl) fun _ => rfl
    · exact unwhispered_befriends (befriends_refreshFriends tables observed event)

theorem settling_receiveRecord (record : Record) (s : LiveChat) :
    Settling [] (receiveRecord tables m record) s := by
  refine settling_bind (settling_of_within
    (unwhispered_observes (observes_observe tables record.value)) s) fun observed t _ => ?_
  refine settling_bind (settling_of_within (unwhispered_handle tables m record) t)
    fun handled t _ => ?_
  exact settling_finish tables m record.value observed handled t

/-- The event that a call hands over, if one waits. -/
def handed (s : LiveChat) : Call → List ChatEvent
  | .receive _ => s.pendingEvents.head?.toList
  | _ => []

/-- What a call accounts for; the event that it hands over leaves the queue of events. -/
structure CallAccounts (s t : LiveChat) (c : Call) (fates : Fates) : Prop where
  balanced : Balanced (posted s c) fates.all (waiting s) (waiting t)
  told : ∃ requests events, t.sent = s.sent ++ requests
    ∧ s.pendingEvents ++ events = handed s c ++ t.pendingEvents ∧ Tells fates requests events

theorem callAccounts_of_accounts {s t : LiveChat} {c : Call} {fates : Fates}
    (h : Accounts (posted s c) fates s t) (hhanded : handed s c = []) :
    CallAccounts s t c fates where
  balanced := h.balanced
  told := by
    obtain ⟨requests, events, hsent, hqueued, htells⟩ := h.told
    exact ⟨requests, events, hsent, by rw [hhanded, hqueued, List.nil_append], htells⟩

theorem settling_call {s : LiveChat} {c : Call} (h : handed s c = []) :
    Settling (posted s c) (call tables m c) s := by
  cases c with
  | join draws channel =>
    exact settling_giving (settling_of_within (unwhispered_moves (moves_joinChannel m _ _)) s)
  | leave channelIndex =>
    exact settling_giving (settling_of_within (unwhispered_rooms (rooms_leaveChannel m _)) s)
  | message channelIndex body =>
    exact settling_giving (settling_of_within (unwhispered_rooms (rooms_sendMessage m _ _)) s)
  | whisper target displayName body =>
    exact settling_giving (settling_sendWhisper m target displayName body s)
  | answerParty channelIndex accept =>
    exact settling_giving
      (settling_of_within (unwhispered_moves (moves_answerPartyInvitation m _ _)) s)
  | answerGroup clubId accept =>
    exact settling_giving
      (settling_of_within (unwhispered_subscribes (subscribes_answerGroupInvitation m _ _)) s)
  | search query =>
    exact settling_giving
      (settling_of_within (unwhispered_subscribes (subscribes_searchGroups m query)) s)
  | receive arrived =>
    have hempty : s.pendingEvents = [] := by
      cases hevents : s.pendingEvents with
      | nil => rfl
      | cons event rest => simp [handed, hevents] at h
    refine settling_giving (settling_read ?_)
    rw [hempty]
    refine settling_bind (settling_of_within
      (unwhispered_subscribes (subscribes_requestClubsWhenIdle m)) s) fun _ t _ => ?_
    refine settling_bind (settling_of_within (within_ofExcept arrived) t) fun record t _ => ?_
    exact settling_receiveRecord tables m record t

/-- What a run of calls leads to. -/
def afterCall (tables : Tables) (s : LiveChat) (i : Moment × Call) : LiveChat :=
  (call tables i.1 i.2 s).2

/-- The account of one call. -/
theorem callAccounts_afterCall (tables : Tables) (s : LiveChat) (i : Moment × Call) :
    ∃ fates, CallAccounts s (afterCall tables s i) i.2 fates
      ∧ fates.lost.length ≤ (failures (call tables i.1 i.2 s).1).length := by
  by_cases hhanded : handed s i.2 = []
  · obtain ⟨fates, haccounts, hlost⟩ := settling_call tables i.1 hhanded
    exact ⟨fates, callAccounts_of_accounts haccounts hhanded, hlost⟩
  · -- An event that waits is handed over, and nothing else happens.
    obtain ⟨m, c⟩ := i
    cases c with
    | receive arrived =>
      cases hevents : s.pendingEvents with
      | nil => simp [handed, hevents] at hhanded
      | cons event rest =>
        have hcall : afterCall tables s (m, .receive arrived)
            = { s with pendingEvents := rest } := by
          show ((receive tables m arrived >>= fun event => pure (some event)) s).2 = _
          rw [bind_of_ok (receive_of_waiting hevents arrived)]
          rfl
        refine ⟨{}, ⟨?_, [], [], ?_, ?_, tells_nothing⟩, Nat.zero_le _⟩
        · rw [hcall]
          exact Balanced.refl _
        · rw [hcall]
          exact (List.append_nil _).symm
        · rw [hcall, handed, hevents, List.append_nil]
          rfl
    | _ => exact absurd rfl hhanded

/-- The account of a run: of the whispers that were posted, the requests that were sent, the events
that were handed over, and the errors. -/
structure RunAccounts (tables : Tables) (s : LiveChat) (calls : List (Moment × Call))
    (fates : Fates) : Prop where
  balanced : Balanced (outputs (afterCall tables) (fun s i => posted s i.2) s calls) fates.all
    (waiting s) (waiting (run (afterCall tables) s calls))
  told : ∃ requests events, (run (afterCall tables) s calls).sent = s.sent ++ requests
    ∧ s.pendingEvents ++ events = outputs (afterCall tables) (fun s i => handed s i.2) s calls
      ++ (run (afterCall tables) s calls).pendingEvents
    ∧ Tells fates requests events
  lost : fates.lost.length ≤ (outputs (afterCall tables)
    (fun s i => failures (call tables i.1 i.2 s).1) s calls).length

/-- **Every whisper has one fate.** Whatever the host calls and whatever the service sends, the
whispers that were posted and those that waited are, each once, on the wire and shown, or failed
with an event, or lost with an error, or waiting still, and those that wait do so in their order. -/
theorem whispers_accounted (tables : Tables) (s : LiveChat) (calls : List (Moment × Call)) :
    ∃ fates, RunAccounts tables s calls fates := by
  induction calls generalizing s with
  | nil =>
    exact ⟨{}, Balanced.refl _, ⟨[], [], (List.append_nil _).symm, List.append_nil _,
      tells_nothing⟩, Nat.zero_le _⟩
  | cons i is ih =>
    obtain ⟨first, hfirst, hlost⟩ := callAccounts_afterCall tables s i
    obtain ⟨rest, hrest⟩ := ih (afterCall tables s i)
    obtain ⟨requests, events, hsent, hqueued, htells⟩ := hfirst.told
    obtain ⟨requests', events', hsent', hqueued', htells'⟩ := hrest.told
    refine ⟨first.and rest, ?_, ⟨requests ++ requests', events ++ events', ?_, ?_,
      htells.and htells'⟩, ?_⟩
    · exact (hfirst.balanced.trans hrest.balanced).congr (Fates.all_and first rest)
    · rw [run_cons, hsent', hsent, List.append_assoc]
    · rw [run_cons, outputs, ← List.append_assoc, hqueued, List.append_assoc, hqueued',
        List.append_assoc]
    · rw [outputs, List.length_append, Fates.and, List.length_append]
      exact Nat.add_le_add hlost hrest.lost

end LiveChat

end Superiority.Sc2
