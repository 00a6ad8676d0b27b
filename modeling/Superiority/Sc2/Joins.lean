import Superiority.Library.Run
import Superiority.Sc2.Frames

/-!
# Answers to joins

A join is asked for under a token, and its answer brings the token back, or no token at all; then
`take_requested_join` looks for the one request that the answer can be to, and does not guess
between several.

* **`JoinAnswer`** – what the decoder makes of an answer: a rejection names neither an index nor a
  public channel.
* **`AnswersItsRequest`** – what one answer does to the requests that wait, and what it announces.
* **`answersItsRequest_answer`**, **`nodup_consumedIn`** – every answer meets it, and no request is
  consumed by two answers of a run.
-/

namespace Superiority.Sc2

open Std

/-! ## Answers -/

/-- `Chat.JoinNotify2`. -/
inductive JoinAnswer where
  | accepted (channelIndex : UInt8) (memberHandle : UInt32) (channelType : UInt8)
      (channelNameId channelShardIndex : Option UInt16) (token : Option UInt32)
  | rejected (reason : UInt16) (channelType : Option UInt8) (token : Option UInt32)
  deriving DecidableEq, Repr

/-- The `ChatJoin` that `chat_join` builds. -/
def JoinAnswer.toChatJoin : JoinAnswer → ChatJoin
  | accepted channelIndex memberHandle channelType channelNameId channelShardIndex token => {
    success := true
    channelIndex := some channelIndex
    memberHandle := some memberHandle
    channelType := some channelType
    channelNameId
    channelShardIndex
    reason := none
    token }
  | rejected reason channelType token => {
    success := false
    channelIndex := none
    memberHandle := none
    channelType
    channelNameId := none
    channelShardIndex := none
    reason := some reason
    token }

namespace LiveChat

open Stateful

/-- The answer can be to a request for the channel: its type is that of the channel, and a public
channel that it names is the one that was asked for. -/
def Compatible (result : ChatJoin) : ChatChannel → Prop
  | .public_ identifier => result.channelType = some publicChannelType ∧
      ∀ actual, result.channelNameId = some actual → actual = identifier
  | .private_ _ => result.channelType = some namedChannelType
  | .club _ => result.channelType = some clubChannelType
  | .party => result.channelType = some partyChannelType

/-- What one answer may do to the requests that wait for one, and announce. -/
structure AnswersItsRequest (result : ChatJoin) (pending after : PendingJoins)
    (event : Except Failure ChatEvent) : Prop where
  byToken : ∀ token, result.token = some token → after = pending ∨ after = pending.erase token
  byKind : result.token = none → after = pending ∨
    ∃ (token : UInt32) (join : ChatChannel × Nat), pending[token]? = some join ∧
      Compatible result join.1 ∧
      (∀ (other : UInt32) (join' : ChatChannel × Nat), pending[other]? = some join' →
        Compatible result join'.1 → other = token) ∧
      after = pending.erase token
  joined : ∀ channelIndex identifier handle shard,
    event = .ok (.joined channelIndex (.public_ identifier) handle shard) →
      ∀ actual, result.channelNameId = some actual → actual = identifier

theorem joinResultMatchesChannel_iff (answer : JoinAnswer) (channel : ChatChannel) :
    joinResultMatchesChannel answer.toChatJoin channel = true ↔
      Compatible answer.toChatJoin channel := by
  cases channel with
  | public_ identifier =>
    cases answer with
    | accepted channelIndex memberHandle channelType channelNameId shard token =>
      cases channelNameId <;> simp [joinResultMatchesChannel, Compatible, JoinAnswer.toChatJoin]
    | rejected reason channelType token =>
      cases channelType <;> simp [joinResultMatchesChannel, Compatible, JoinAnswer.toChatJoin]
  | private_ name => simp [joinResultMatchesChannel, Compatible]
  | club clubId => simp [joinResultMatchesChannel, Compatible]
  | party => simp [joinResultMatchesChannel, Compatible]

/-- With a token, the request of the token is taken, if there is one. -/
theorem takeRequestedJoin_of_token {pending : PendingJoins} {result : ChatJoin} {token : UInt32}
    (h : result.token = some token) :
    takeRequestedJoin pending result = .ok (pending[token]?.map (·.1), pending.erase token) := by
  rw [takeRequestedJoin, h]

/-- Without one, no request is taken, or the only one that the answer can be to. -/
theorem takeRequestedJoin_of_no_token {pending : PendingJoins} {answer : JoinAnswer}
    (h : answer.toChatJoin.token = none) {requested : Option ChatChannel} {after : PendingJoins}
    (htake : takeRequestedJoin pending answer.toChatJoin = .ok (requested, after)) :
    after = pending ∨
      ∃ (token : UInt32) (join : ChatChannel × Nat), pending[token]? = some join ∧
        Compatible answer.toChatJoin join.1 ∧
        (∀ (other : UInt32) (join' : ChatChannel × Nat), pending[other]? = some join' →
          Compatible answer.toChatJoin join'.1 → other = token) ∧
        after = pending.erase token := by
  have hmem (token : UInt32) (join : ChatChannel × Nat) :
      (token, join) ∈ pending.toList.filter (fun join =>
        joinResultMatchesChannel answer.toChatJoin join.2.1) ↔
          pending[token]? = some join ∧ Compatible answer.toChatJoin join.1 := by
    rw [List.mem_filter, ExtTreeMap.mem_toList_iff_getElem?_eq_some, joinResultMatchesChannel_iff]
  rw [takeRequestedJoin, h] at htake
  dsimp only at htake
  split at htake
  · cases htake
    exact Or.inl rfl
  · next token hlist =>
    cases htake
    refine Or.inr ?_
    obtain ⟨entry, hentry, rfl⟩ : ∃ entry ∈ pending.toList.filter (fun join =>
        joinResultMatchesChannel answer.toChatJoin join.2.1), entry.1 = token :=
      List.mem_map.1 (hlist ▸ List.mem_singleton_self token)
    obtain ⟨hpending, hcompatible⟩ := (hmem entry.1 entry.2).1 hentry
    refine ⟨entry.1, entry.2, hpending, hcompatible, fun other join' hother hjoin' => ?_, rfl⟩
    have hother := List.mem_map_of_mem (f := Prod.fst) ((hmem other join').2 ⟨hother, hjoin'⟩)
    rw [hlist] at hother
    exact List.mem_singleton.1 hother
  · cases htake

/-! ## The arm -/

/-- A public channel that is joined is the one the answer names, if it names one. -/
def NamesItsChannel (result : ChatJoin) (event : ChatEvent) : Prop :=
  ∀ channelIndex identifier handle shard,
    event = .joined channelIndex (.public_ identifier) handle shard →
      ∀ actual, result.channelNameId = some actual → actual = identifier

theorem namesItsChannel_of_not_joined {result : ChatJoin} {event : ChatEvent}
    (h : ∀ channelIndex identifier handle shard,
      event ≠ .joined channelIndex (.public_ identifier) handle shard) :
    NamesItsChannel result event :=
  fun channelIndex identifier handle shard heq => absurd heq (h channelIndex identifier handle shard)

variable (tables : Tables) (m : Moment) (route : Route)

/-- A party is no public channel. -/
theorem namesItsChannel_receivePartyJoin (result : ChatJoin) :
    Yields (NamesItsChannel result) (receivePartyJoin tables m route result) := by
  refine yields_bind fun s => yields_bind fun place => yields_bind fun _ => yields_bind fun _ =>
    yields_bind fun _ => yields_bind fun _ => yields_pure ?_
  apply namesItsChannel_of_not_joined
  intro channelIndex identifier handle shard
  split <;> exact nofun

theorem validatePublicJoin_eq_ok {answer : JoinAnswer} {identifier : UInt16}
    (hsuccess : answer.toChatJoin.success = true)
    (h : validatePublicJoin (.public_ identifier) answer.toChatJoin = .ok ()) :
    ∀ actual, answer.toChatJoin.channelNameId = some actual → actual = identifier := by
  intro actual hactual
  rw [validatePublicJoin, hsuccess, hactual] at h
  by_contra hne
  simp [hne] at h

/-- The event of a channel that is entered: with a channel that was requested it names that, and
otherwise what the answer names. -/
theorem namesItsChannel_enterChannel {answer : JoinAnswer} {requested : Option ChatChannel}
    (h : ∀ channel, requested = some channel →
      validatePublicJoin channel answer.toChatJoin = .ok ())
    (hsuccess : answer.toChatJoin.success = true) (channelIndex : UInt8) (handle : UInt32) :
    Yields (NamesItsChannel answer.toChatJoin)
      (enterChannel route requested answer.toChatJoin channelIndex handle) := by
  refine yields_bind fun s => ?_
  cases hjoined : s.joinedChannel requested answer.toChatJoin channelIndex with
  | none => exact yields_bind fun _ => yields_pure (namesItsChannel_of_not_joined nofun)
  | some joined =>
    refine yields_bind fun _ => yields_pure ?_
    intro index identifier handle' shard heq actual hactual
    cases heq
    cases hrequested : requested with
    | some channel =>
      rw [joinedChannel, hrequested] at hjoined
      obtain rfl : channel = .public_ identifier := by simpa using hjoined
      exact validatePublicJoin_eq_ok hsuccess (h _ hrequested) actual hactual
    | none =>
      rw [joinedChannel, hrequested, hactual] at hjoined
      simpa using hjoined

theorem namesItsChannel_receiveRoomJoin (answer : JoinAnswer) :
    Yields (fun handled => NamesItsChannel answer.toChatJoin handled.event)
      (receiveRoomJoin tables route answer.toChatJoin) := by
  refine yields_bind fun s => yields_bind fun taken => yields_bind fun _ => ?_
  by_cases hsuccess : (!answer.toChatJoin.success) = true
  · rw [if_pos hsuccess]
    exact yields_pure (namesItsChannel_of_not_joined nofun)
  · rw [if_neg hsuccess]
    intro t handled u h
    obtain ⟨_, t', hvalid, h⟩ := bind_eq_ok.1 h
    have hvalid : taken.1.elim (.ok ()) (fun requested =>
        validatePublicJoin requested answer.toChatJoin) = .ok () := congrArg Prod.fst hvalid
    obtain ⟨place, t'', -, h⟩ := bind_eq_ok.1 h
    obtain ⟨event, t''', henter, h⟩ := bind_eq_ok.1 h
    cases h
    refine namesItsChannel_enterChannel route (fun channel hchannel => ?_) (by simpa using hsuccess)
      place.1 place.2 _ _ _ henter
    rw [hchannel] at hvalid
    exact hvalid

theorem namesItsChannel_receiveJoin (answer : JoinAnswer) :
    Yields (fun handled => NamesItsChannel answer.toChatJoin handled.event)
      (receiveJoin tables m route answer.toChatJoin) := by
  refine yields_bind fun _ => yields_bind fun s => yields_ite ?_
    (namesItsChannel_receiveRoomJoin tables route answer)
  intro t handled u h
  obtain ⟨event, t', hparty, h⟩ := bind_eq_ok.1 h
  cases h
  exact namesItsChannel_receivePartyJoin tables m route _ _ _ _ hparty

/-- Whatever the refresh of the friends hands over, it announces no other channel. -/
theorem namesItsChannel_refreshFriends {result : ChatJoin} {event : ChatEvent}
    (h : NamesItsChannel result event) (observed : Observed) :
    Yields (NamesItsChannel result) (refreshFriends tables observed event) := by
  refine yields_bind fun s => yields_ite (yields_bind fun _ => ?_) (yields_pure h)
  cases event with
  | activity route => exact yields_pure (namesItsChannel_of_not_joined nofun)
  | _ => exact yields_bind fun _ => yields_pure h

/-! ## The requests -/

abbrev KeepsJoins : LiveChat → LiveChat → Prop := Keeps LiveChat.pendingJoins

theorem keepsJoins_of_frame {α V : Type} {view : LiveChat → V} {asks : Request → Prop}
    {tells : ChatEvent → Prop} {x : Chat α} (hx : Within (Frame view asks tells) x)
    (g : V → PendingJoins) (hview : ∀ s, s.pendingJoins = g (view s)) : Within KeepsJoins x := by
  intro s
  show (x s).2.pendingJoins = s.pendingJoins
  rw [hview, hview, (hx s).kept]

theorem keepsJoins_send (request : Request) : Within KeepsJoins (send m request) := by
  intro s
  unfold send
  cases m.transmit s.sent request <;> rfl

theorem keepsJoins_publishPartyOnlineIfReady (channelIndex : UInt8) :
    Within KeepsJoins (publishPartyOnlineIfReady m channelIndex) := by
  refine within_bind within_read fun s => within_ite (within_pure ()) ?_
  refine within_bind (fun t => by rw [change_apply, identifyInvitedPartyMember_eq]; rfl) fun _ => ?_
  refine within_bind within_read fun s => ?_
  cases (s.partyAt channelIndex).bind (·.state.localMemberHandle) with
  | none => exact within_pure ()
  | some handle => exact within_bind (keepsJoins_send m _) fun _ t => rfl

theorem keepsJoins_receivePartyJoin (result : ChatJoin) :
    Within KeepsJoins (receivePartyJoin tables m route result) := by
  refine within_bind within_read fun s => within_bind (within_ofExcept _) fun place => ?_
  refine within_bind (fun t => rfl) fun _ => within_bind (fun t => rfl) fun _ => ?_
  refine within_bind (keepsJoins_publishPartyOnlineIfReady m _) fun _ => ?_
  exact within_bind (fun t => rfl) fun _ => within_pure _

theorem keepsJoins_enterChannel (requested : Option ChatChannel) (result : ChatJoin)
    (channelIndex : UInt8) (handle : UInt32) :
    Within KeepsJoins (enterChannel route requested result channelIndex handle) := by
  refine within_bind within_read fun s => ?_
  cases s.joinedChannel requested result channelIndex with
  | none => exact within_bind (fun t => rfl) fun _ => within_pure _
  | some joined => exact within_bind (fun t => rfl) fun _ => within_pure _

/-- An answer that is not about a party leaves what `take_requested_join` leaves. -/
theorem pendingJoins_receiveRoomJoin (result : ChatJoin) (s : LiveChat) :
    (∃ e, takeRequestedJoin s.pendingJoins result = .error e ∧
      (receiveRoomJoin tables route result s).2.pendingJoins = s.pendingJoins) ∨
    ∃ requested after, takeRequestedJoin s.pendingJoins result = .ok (requested, after) ∧
      (receiveRoomJoin tables route result s).2.pendingJoins = after := by
  unfold receiveRoomJoin
  rw [bind_of_ok (read_apply s)]
  rcases htake : takeRequestedJoin s.pendingJoins result with e | ⟨requested, after⟩
  · exact Or.inl ⟨e, rfl, by rw [bind_of_error (ofExcept_apply _ s)]⟩
  · refine Or.inr ⟨requested, after, rfl, ?_⟩
    rw [bind_of_ok (ofExcept_apply _ s)]
    refine (view_bind (fun _ => ?_) s : Stateful.Keeps LiveChat.pendingJoins _ _)
    refine within_ite (within_pure _) (within_bind (within_ofExcept _) fun _ => ?_)
    refine within_bind (within_ofExcept _) fun place => ?_
    exact within_bind (keepsJoins_enterChannel _ _ _ _ _) fun event => within_pure _

/-! ## Reading an answer -/

/-- What follows the arm of a record is nothing to the requests. -/
theorem keepsJoins_aftermath (payload : Payload) (observed : Observed) (event : ChatEvent) :
    Within KeepsJoins (settle tables m payload >>= fun _ => refreshFriends tables observed event) :=
  within_bind (keepsJoins_of_frame (settles_settle tables m payload) (·.pendingJoins) fun _ => rfl)
    fun _ => keepsJoins_of_frame (befriends_refreshFriends tables observed event)
      (·.pendingJoins) fun _ => rfl

/-- `receive` of an answer. -/
def readAnswer (answer : JoinAnswer) : Chat ChatEvent :=
  receiveRecord tables m {
    route
    value := .chatJoin answer.toChatJoin }

/-- The requests that still wait for an answer at the time. -/
def openJoins (s : LiveChat) : PendingJoins := (expirePendingJoins m.now s).pendingJoins

theorem pendingJoins_readAnswer (answer : JoinAnswer) (s : LiveChat) :
    (readAnswer tables m route answer s).2.pendingJoins
      = (receiveJoin tables m route answer.toChatJoin s).2.pendingJoins := by
  unfold readAnswer receiveRecord
  rw [bind_of_ok (take_apply _ s)]
  refine view_bind (fun handled => ?_) _
  cases handled with
  | done event => exact within_pure _
  | more event => exact keepsJoins_aftermath tables m _ _ event

theorem namesItsChannel_readAnswer (answer : JoinAnswer) :
    Yields (NamesItsChannel answer.toChatJoin) (readAnswer tables m route answer) := by
  intro s event t h
  obtain ⟨observed, s', -, h⟩ := bind_eq_ok.1 h
  obtain ⟨handled, s'', hhandle, h⟩ := bind_eq_ok.1 h
  have hnames := namesItsChannel_receiveJoin tables m route answer s' handled s'' hhandle
  cases handled with
  | done event => exact yields_pure hnames _ _ _ h
  | more event =>
    exact yields_bind (fun _ => namesItsChannel_refreshFriends tables hnames observed) _ _ _ h

/-- **One answer.** With a token it takes the request of the token or none, without a token the
only request that it can be to or none, and a public channel that it announces is not another than
the one it names. -/
theorem answersItsRequest_readAnswer (answer : JoinAnswer) (s : LiveChat) :
    AnswersItsRequest answer.toChatJoin (openJoins m s)
      (readAnswer tables m route answer s).2.pendingJoins
      (readAnswer tables m route answer s).1 := by
  have hafter : (readAnswer tables m route answer s).2.pendingJoins = openJoins m s ∨
      ∃ requested, takeRequestedJoin (openJoins m s) answer.toChatJoin
        = .ok (requested, (readAnswer tables m route answer s).2.pendingJoins) := by
    rw [pendingJoins_readAnswer]
    unfold receiveJoin
    rw [bind_of_ok (change_apply _ s), bind_of_ok (read_apply _)]
    by_cases hparty : (expirePendingJoins m.now s).joinsParty answer.toChatJoin
    · rw [if_pos hparty]
      exact Or.inl (within_bind (keepsJoins_receivePartyJoin tables m route _)
        (fun event => within_pure (Handled.more event)) (expirePendingJoins m.now s))
    · rw [if_neg hparty]
      rcases pendingJoins_receiveRoomJoin tables route answer.toChatJoin
        (expirePendingJoins m.now s) with ⟨e, -, hsame⟩ | ⟨requested, after, htake, hsame⟩
      · exact Or.inl hsame
      · exact Or.inr ⟨requested, by rw [hsame]; exact htake⟩
  refine ⟨fun token htoken => ?_, fun hnone => ?_, fun index identifier handle shard hevent => ?_⟩
  · rcases hafter with hsame | ⟨requested, htake⟩
    · exact Or.inl hsame
    · rw [takeRequestedJoin_of_token htoken] at htake
      exact Or.inr (Prod.mk.inj (Except.ok.inj htake)).2.symm
  · rcases hafter with hsame | ⟨requested, htake⟩
    · exact Or.inl hsame
    · exact takeRequestedJoin_of_no_token hnone htake
  · exact namesItsChannel_readAnswer tables m route answer s _ _
      (Prod.ext hevent rfl : readAnswer tables m route answer s = (.ok _, _)) index identifier
        handle shard rfl

/-! ## Runs of answers -/

/-- An answer, the time at which it is read, and its route. -/
abbrev Answered := Moment × Route × JoinAnswer

def answer (s : LiveChat) (i : Answered) : LiveChat := (readAnswer tables i.1 i.2.1 i.2.2 s).2

/-- The tokens of the requests that an answer takes. -/
def consumed (s : LiveChat) (i : Answered) : List UInt32 :=
  ((openJoins i.1 s).toList.map (·.1)).filter fun token =>
    !(answer tables s i).pendingJoins.contains token

/-- The tokens of the requests that are taken in a run. -/
def consumedIn : LiveChat → List Answered → List UInt32
  | _, [] => []
  | s, i :: is => consumed tables s i ++ consumedIn (answer tables s i) is

variable {tables}

theorem mem_openJoins {s : LiveChat} {token : UInt32} (h : token ∈ openJoins m s) :
    token ∈ s.pendingJoins :=
  ExtTreeMap.mem_of_mem_filter h

/-- No request is added by an answer. -/
theorem mem_of_mem_answer {s : LiveChat} {i : Answered} {token : UInt32}
    (h : token ∈ (answer tables s i).pendingJoins) : token ∈ openJoins i.1 s := by
  have hanswer := answersItsRequest_readAnswer tables i.1 i.2.1 i.2.2 s
  have hafter : (answer tables s i).pendingJoins = openJoins i.1 s ∨
      ∃ taken, (answer tables s i).pendingJoins = (openJoins i.1 s).erase taken := by
    cases htoken : i.2.2.toChatJoin.token with
    | some taken => exact (hanswer.byToken taken htoken).imp_right fun h => ⟨taken, h⟩
    | none => exact (hanswer.byKind htoken).imp_right fun ⟨taken, _, _, _, _, h⟩ => ⟨taken, h⟩
  rcases hafter with hsame | ⟨taken, hsame⟩
  · exact hsame ▸ h
  · exact ExtTreeMap.mem_of_mem_erase (hsame ▸ h)

theorem mem_consumed {s : LiveChat} {i : Answered} {token : UInt32}
    (h : token ∈ consumed tables s i) :
    token ∈ s.pendingJoins ∧ token ∉ (answer tables s i).pendingJoins := by
  obtain ⟨hopen, hgone⟩ := List.mem_filter.1 h
  obtain ⟨entry, hentry, rfl⟩ := List.mem_map.1 hopen
  have hentry := ExtTreeMap.mem_toList_iff_getElem?_eq_some.1 hentry
  refine ⟨mem_openJoins i.1 (ExtTreeMap.mem_iff_isSome_getElem?.2 (by rw [hentry]; rfl)), ?_⟩
  intro hmem
  rw [show (answer tables s i).pendingJoins.contains entry.1 = true from hmem] at hgone
  cases hgone

theorem nodup_consumed (s : LiveChat) (i : Answered) : (consumed tables s i).Nodup := by
  have hkeys : ((openJoins i.1 s).toList.map (·.1)).Nodup := by
    refine List.pairwise_map.2 (ExtTreeMap.distinct_keys_toList.imp fun hne hsame => hne ?_)
    rw [hsame]
    exact Std.ReflCmp.compare_self
  exact hkeys.filter _

theorem mem_of_mem_consumedIn {answers : List Answered} {s : LiveChat} {token : UInt32}
    (h : token ∈ consumedIn tables s answers) : token ∈ s.pendingJoins := by
  induction answers generalizing s with
  | nil => exact absurd h List.not_mem_nil
  | cons i is ih =>
    rcases List.mem_append.1 h with h | h
    · exact (mem_consumed h).1
    · exact mem_openJoins i.1 (mem_of_mem_answer (ih h))

/-- No request is taken twice. -/
theorem nodup_consumedIn (s : LiveChat) (answers : List Answered) :
    (consumedIn tables s answers).Nodup := by
  induction answers generalizing s with
  | nil => exact List.nodup_nil
  | cons i is ih =>
    refine (nodup_consumed s i).append (ih _) fun token hfirst hlater => ?_
    exact (mem_consumed hfirst).2 (mem_of_mem_consumedIn hlater)

/-- **Every join answer goes to the request that caused it.** Whatever requests wait, no sequence
of answers takes a request twice, and every answer takes the request of its token or none, without a
token the only request that it can be to or none, and announces no public channel but the one it
names. -/
theorem answers_reach_their_requests (tables : Tables) (s : LiveChat) (answers : List Answered) :
    (consumedIn tables s answers).Nodup ∧
      StepsMeet (answer tables) (fun s i => AnswersItsRequest i.2.2.toChatJoin (openJoins i.1 s)
        (answer tables s i).pendingJoins (readAnswer tables i.1 i.2.1 i.2.2 s).1) s answers := by
  refine ⟨nodup_consumedIn s answers, ?_⟩
  induction answers generalizing s with
  | nil => trivial
  | cons i is ih => exact ⟨answersItsRequest_readAnswer tables i.1 i.2.1 i.2.2 s, ih _⟩

end LiveChat

end Superiority.Sc2
