import Superiority.Library.Run
import Superiority.Live.Worker

/-!
# The ledger of events

Every event a tap has put on the channel should be in one place: on the channel, in its session's
batcher, delivered, or given up and counted. The worker keeps this up at every step but one: an
event of a session it does not know, or no longer knows, goes nowhere.

* **`Sends`** – what any operation of a tap does to the shared record.
* **`Ledger`** – the balance, event by event, together with the counter `stats.dropped`.
* **`ledger_iff_receivable`** – the balance holds throughout a run exactly when the worker never
  takes an event of a session that is not in its map.
-/

namespace Superiority

open Std

/-! ## What taps do to the channel -/

/-- From `u` to `u'` messages have been put on the channel, and refusals counted. -/
structure Sends (u u' : Uplink) : Prop where
  placed : ∃ messages, u'.channel = u.channel ++ messages ∧
    u'.trace.placed = u.trace.placed ++ messages.filterMap TapMessage.carried
  counted : ∃ n, u'.stats.dropped = u.stats.dropped + n ∧ u'.trace.refused = u.trace.refused + n
  delivered : u'.trace.delivered = u.trace.delivered
  discarded : u'.trace.discarded = u.trace.discarded

namespace Sends

/-- Nothing the ledger looks at has changed. -/
theorem of_eq {u u' : Uplink} (hchannel : u'.channel = u.channel) (htrace : u'.trace = u.trace)
    (hstats : u'.stats = u.stats) : Sends u u' where
  placed := ⟨[], by simp [hchannel, htrace]⟩
  counted := ⟨0, by simp [htrace, hstats]⟩
  delivered := by rw [htrace]
  discarded := by rw [htrace]

theorem refl (u : Uplink) : Sends u u := of_eq rfl rfl rfl

/-- What room the sends find is no matter. -/
theorem of_room {u u' : Uplink} {room : List Bool} (h : Sends { u with room } u') : Sends u u' :=
  ⟨h.placed, h.counted, h.delivered, h.discarded⟩

theorem trans {u v w : Uplink} (h : Sends u v) (h' : Sends v w) : Sends u w := by
  obtain ⟨sent, hchannel, hplaced⟩ := h.placed
  obtain ⟨sent', hchannel', hplaced'⟩ := h'.placed
  obtain ⟨n, hdropped, hrefused⟩ := h.counted
  obtain ⟨n', hdropped', hrefused'⟩ := h'.counted
  refine ⟨⟨sent ++ sent', ?_, ?_⟩, ⟨n + n', ?_, ?_⟩, h'.delivered.trans h.delivered,
    h'.discarded.trans h.discarded⟩
  · rw [hchannel', hchannel, List.append_assoc]
  · rw [hplaced', hplaced, List.append_assoc, List.filterMap_append]
  · rw [hdropped', hdropped, Nat.add_assoc]
  · rw [hrefused', hrefused, Nat.add_assoc]

end Sends

/-- A message is either taken, or refused once. -/
theorem trySend_cases (u : Uplink) (message : TapMessage) :
    ((u.trySend message).1 = true ∧ Sends u (u.trySend message).2) ∨
      ((u.trySend message).1 = false ∧ Sends u ((u.trySend message).2.noteDropped 1)) := by
  unfold Uplink.trySend
  split_ifs
  · refine Or.inl ⟨rfl, ⟨⟨[message], rfl, ?_⟩, ⟨0, rfl, rfl⟩, rfl, rfl⟩⟩
    cases message <;> rfl
  · exact Or.inr ⟨rfl, ⟨[], (List.append_nil _).symm, (List.append_nil _).symm⟩, ⟨1, rfl, rfl⟩,
      rfl, rfl⟩

namespace SessionTap

variable (clock : Nat → Nat) {tap : SessionTap} {u : Uplink}

theorem sends_place (kind : EventKind) : Sends u (place clock kind (tap, u)).2.2 := by
  unfold place
  rcases trySend_cases u (.event tap.info.id ⟨tap.nextSeq, clock tap.nextSeq, kind⟩) with
    ⟨hsent, h⟩ | ⟨hsent, h⟩
  · simpa [hsent] using h
  · simpa [hsent] using h

theorem sends_emit (kind : EventKind) : Sends u (emit clock kind (tap, u)).2 := by
  unfold emit
  dsimp only
  split_ifs
  · exact (sends_place clock (.dropped tap.pendingDropped)).trans (sends_place clock kind)
  · exact (sends_place clock (.dropped tap.pendingDropped)).trans (sends_place clock kind)
  · exact sends_place clock kind

theorem sends_announce : Sends u (announce clock (tap, u)).2.2 := by
  unfold announce
  dsimp only
  split_ifs with hannounced hsent
  · exact Sends.refl u
  · rcases trySend_cases u (.session tap.info) with ⟨-, h⟩ | ⟨hsent', -⟩
    · exact h.trans (sends_emit clock .sessionStarted)
    · rw [hsent'] at hsent
      cases hsent
  · rcases trySend_cases u (.session tap.info) with ⟨hsent', -⟩ | ⟨-, h⟩
    · exact absurd hsent' hsent
    · exact h

theorem sends_announceAndEmit (kind : EventKind) :
    Sends u (announceAndEmit clock kind (tap, u)).2 := by
  unfold announceAndEmit
  dsimp only
  split_ifs
  · exact (sends_announce clock).trans (sends_emit clock kind)
  · exact sends_announce clock

theorem sends_foldl_emit (kinds : List EventKind) :
    Sends u (kinds.foldl (fun s kind => emit clock kind s) (tap, u)).2 := by
  induction kinds generalizing tap u with
  | nil => exact Sends.refl u
  | cons kind kinds ih => exact (sends_emit clock kind).trans ih

theorem sends_reconcile : Sends u (reconcile clock (tap, u)).2 := by
  unfold reconcile
  dsimp only
  split_ifs
  · exact Sends.refl u
  · have hstarted : Sends u (announceAndEmit clock .syncStarted (tap, u)).2 :=
      sends_announceAndEmit clock .syncStarted
    exact (hstarted.trans (sends_foldl_emit clock _)).trans (sends_emit clock .sessionSynced)

theorem sends_completeSync : Sends u (completeSync clock (tap, u)).2 := sends_reconcile clock

theorem sends_shareClubName (event : ChatEvent) : Sends u (shareClubName event u) := by
  unfold shareClubName
  split
  · exact Sends.of_eq rfl rfl rfl
  · exact Sends.refl u

theorem sends_observe (event : ChatEvent) : Sends u (observe clock event (tap, u)).2 := by
  refine (sends_shareClubName event).trans ?_
  unfold observe
  dsimp only
  split
  · exact Sends.refl _
  · split_ifs
    · exact sends_completeSync clock
    · exact Sends.refl _
  · exact sends_announceAndEmit clock _

theorem sends_endSession : Sends u (endSession clock (tap, u)).2 := by
  unfold endSession
  split_ifs
  · exact sends_emit clock .sessionEnded
  · exact Sends.refl u

theorem sends_heartbeat : Sends u (heartbeat clock (tap, u)).2 := by
  unfold heartbeat
  dsimp only
  split_ifs
  · exact sends_endSession clock
  · exact (sends_emit clock .sessionStarted).trans (sends_reconcile clock)
  · exact sends_emit clock .heartbeat
  · exact Sends.refl u

theorem sends_observeLeft (channelIndex : UInt8) :
    Sends u (observeLeft clock channelIndex (tap, u)).2 := by
  unfold observeLeft
  dsimp only
  split
  · exact Sends.refl u
  · exact sends_announceAndEmit clock _

theorem sends_rejectChannel (channel : ChatChannel) :
    Sends u (rejectChannel clock channel (tap, u)).2 := by
  unfold rejectChannel
  dsimp only
  split_ifs
  · exact sends_completeSync clock
  · exact Sends.refl u

theorem sends_resolvePendingChannels :
    Sends u (resolvePendingChannels clock (tap, u)).2 := by
  unfold resolvePendingChannels
  dsimp only
  split_ifs
  · exact Sends.refl u
  · exact sends_completeSync clock

theorem sends_reconcileSnapshots (snapshots : List ChatEvent) :
    Sends u (reconcileSnapshots clock snapshots (tap, u)).2 := by
  unfold reconcileSnapshots
  dsimp only
  split_ifs
  · exact Sends.refl u
  · exact sends_reconcile clock

/-- Whatever a tap does, it puts messages on the channel and counts refusals. -/
theorem sends_perform (op : Op) : Sends u (perform clock op (tap, u)).2 := by
  cases op with
  | observe event => exact sends_observe clock event
  | heartbeat => exact sends_heartbeat clock
  | observeLeft channelIndex => exact sends_observeLeft clock channelIndex
  | rejectChannel channel => exact sends_rejectChannel clock channel
  | resolvePendingChannels => exact sends_resolvePendingChannels clock
  | reconcileSnapshots snapshots => exact sends_reconcileSnapshots clock snapshots
  | endSession => exact sends_endSession clock

theorem sends_beginSession (id clientVersion : String) (startedAt : Nat)
    (channels : List ChatChannel) :
    Sends u (beginSession clock id clientVersion startedAt channels u).2 := by
  unfold beginSession
  dsimp only
  split_ifs
  · exact sends_announce clock
  · exact Sends.refl u

end SessionTap

/-! ## The balance -/

/-- The events on the channel. -/
def Uplink.inChannel (u : Uplink) : List (String × EventDto) :=
  u.channel.filterMap TapMessage.carried

/-- The events in the batcher of a session. -/
def Worker.buffered (w : Worker) (session : String) : List EventDto :=
  (w.sessions[session]?.map (·.batcher.pending)).getD []

/-- How often an event is on the channel, in its session's batcher, delivered or given up. -/
def held (s : Working) (session : String) (dto : EventDto) : Nat :=
  s.2.inChannel.count (session, dto) + (s.1.buffered session).count dto +
    s.2.trace.delivered.count (session, dto) + s.2.trace.discarded.count (session, dto)

/-- Every event is held as often as it was placed; what was given up or refused is what
`stats.dropped` counts. -/
structure Ledger (s : Working) : Prop where
  each : ∀ session dto, s.2.trace.placed.count (session, dto) = held s session dto
  counted : s.2.stats.dropped = s.2.trace.refused + s.2.trace.discarded.length

theorem count_tagged (session session' : String) (dto : EventDto) (batch : List EventDto) :
    (batch.map (session, ·)).count (session', dto) =
      if session = session' then batch.count dto else 0 := by
  induction batch with
  | nil => simp
  | cons event batch ih =>
    rw [List.map_cons, List.count_cons, List.count_cons, ih]
    by_cases hsession : session = session' <;> simp [hsession]

theorem buffered_insert (w : Worker) (session session' : String) (sink : SessionSink) :
    Worker.buffered { w with sessions := w.sessions.insert session sink } session' =
      if session = session' then sink.batcher.pending else w.buffered session' := by
  simp only [Worker.buffered, ExtTreeMap.getElem?_insert, Std.compare_eq_iff_eq]
  split_ifs <;> rfl

theorem buffered_of_sink {w : Worker} {session : String} {sink : SessionSink}
    (h : w.sessions[session]? = some sink) : w.buffered session = sink.batcher.pending := by
  simp [Worker.buffered, h]

variable {s : Working}

/-- Taps keep the balance. -/
theorem Ledger.sends {u : Uplink} (h : Ledger s) (hsends : Sends s.2 u) : Ledger (s.1, u) := by
  obtain ⟨messages, hchannel, hplaced⟩ := hsends.placed
  obtain ⟨n, hdropped, hrefused⟩ := hsends.counted
  constructor
  · intro session dto
    have heach := h.each session dto
    simp only [held, Uplink.inChannel] at heach ⊢
    rw [hplaced, hchannel, hsends.delivered, hsends.discarded, List.filterMap_append,
      List.count_append, List.count_append, heach]
    omega
  · have hcounted := h.counted
    show u.stats.dropped = u.trace.refused + u.trace.discarded.length
    rw [hdropped, hrefused, hsends.discarded]
    omega

/-! ## The worker's steps -/

namespace Worker

/-- A session that is announced again keeps its batcher. -/
theorem buffered_receiveSession (info : SessionMeta) (w : Worker) (session : String) :
    (receiveSession info w).buffered session = w.buffered session := by
  unfold receiveSession
  rw [buffered_insert]
  split_ifs with hsession
  · subst hsession
    cases hsink : w.sessions[info.id]? with
    | none => simp [buffered, hsink]
    | some sink => rw [buffered_of_sink hsink]
  · rfl

theorem ledger_receiveSession {info : SessionMeta} {channel : List TapMessage} (h : Ledger s)
    (hchannel : s.2.channel = .session info :: channel) :
    Ledger (receiveSession info s.1, { s.2 with channel }) := by
  refine ⟨fun session dto => ?_, h.counted⟩
  have heach := h.each session dto
  rw [held, Uplink.inChannel, hchannel] at heach
  rw [held, buffered_receiveSession]
  exact heach

theorem inChannel_event {u : Uplink} {session : String} {dto : EventDto}
    {channel : List TapMessage} (h : u.channel = .event session dto :: channel) :
    u.inChannel = (session, dto) :: channel.filterMap TapMessage.carried := by
  rw [Uplink.inChannel, h]
  rfl

/-- Pushing an event into its session's batcher, which may give up the oldest, keeps the
balance. -/
theorem ledger_push {session : String} {dto : EventDto} {channel : List TapMessage}
    {sink : SessionSink} (h : Ledger s) (hchannel : s.2.channel = .event session dto :: channel)
    (hsink : s.1.sessions[session]? = some sink) {dropped : Nat} {batcher : Batcher}
    (hpending : sink.batcher.pending.take dropped ++ batcher.pending =
      sink.batcher.pending ++ [dto])
    (hlength : (sink.batcher.pending.take dropped).length = dropped) (ended : Bool) :
    Ledger
      ({ s.1 with sessions := s.1.sessions.insert session { sink with batcher, ended } },
        { Uplink.noteDropped { s.2 with channel } dropped with
          trace := { s.2.trace with
            discarded := s.2.trace.discarded ++
              (sink.batcher.pending.take dropped).map (session, ·) } }) := by
  constructor
  · intro session' dto'
    have heach := h.each session' dto'
    have hcount := congrArg (List.count dto') hpending
    rw [List.count_append, List.count_append, List.count_singleton] at hcount
    rw [held, inChannel_event hchannel, List.count_cons] at heach
    simp only [held, Uplink.inChannel, Uplink.noteDropped, buffered_insert, List.count_append,
      count_tagged, heach]
    by_cases hsession : session = session'
    · subst hsession
      have hsame : ((session, dto) == (session, dto')) = (dto == dto') := by simp
      rw [buffered_of_sink hsink, if_pos rfl, if_pos rfl, hsame]
      omega
    · have hother : ((session, dto) == (session', dto')) = false := by simp [hsession]
      rw [if_neg hsession, if_neg hsession, hother]
      simp
  · have hcounted := h.counted
    show s.2.stats.dropped + dropped = s.2.trace.refused + (s.2.trace.discarded ++ _).length
    rw [List.length_append, List.length_map, hlength]
    omega

/-- An event of a known session moves from the channel into its batcher. -/
theorem ledger_receiveEvent {session : String} {dto : EventDto} {channel : List TapMessage}
    {sink : SessionSink} (h : Ledger s) (hchannel : s.2.channel = .event session dto :: channel)
    (hsink : s.1.sessions[session]? = some sink) (now : Nat) :
    Ledger (receiveEvent session dto now (s.1, { s.2 with channel })) := by
  simp only [receiveEvent, hsink]
  exact ledger_push h hchannel hsink (sink.batcher.push_pending dto now)
    (sink.batcher.length_take_push dto now) _

/-- An event of an unknown session leaves the balance. -/
theorem not_ledger_receiveEvent {session : String} {dto : EventDto} {channel : List TapMessage}
    (h : Ledger s) (hchannel : s.2.channel = .event session dto :: channel)
    (hsink : s.1.sessions[session]? = none) (now : Nat) :
    ¬ Ledger (receiveEvent session dto now (s.1, { s.2 with channel })) := by
  intro hafter
  have heach := h.each session dto
  have hafter := hafter.each session dto
  simp only [receiveEvent, hsink, held, Uplink.inChannel] at hafter
  rw [held, inChannel_event hchannel, List.count_cons_self] at heach
  omega

variable {env : Environment}

/-- The batch of a flush is restored, delivered or given up. -/
structure Moves (session : String) (batch : List EventDto) (batcher : Batcher) (s : Working)
    (batcher' : Batcher) (s' : Working) : Prop where
  sessions : s'.1.sessions = s.1.sessions
  channel : s'.2.channel = s.2.channel
  placed : s'.2.trace.placed = s.2.trace.placed
  refused : s'.2.trace.refused = s.2.trace.refused
  moved : ∃ kept sent gone, batch = kept ++ sent ++ gone ∧
    batcher'.pending = kept ++ batcher.pending ∧
    s'.2.trace.delivered = s.2.trace.delivered ++ sent.map (session, ·) ∧
    s'.2.trace.discarded = s.2.trace.discarded ++ gone.map (session, ·) ∧
    s'.2.stats.dropped = s.2.stats.dropped + gone.length

theorem moves_post (a : Attempt) (session : String) (batch : List EventDto) (batcher : Batcher)
    (s : Working) :
    Moves session batch batcher s (post env a session batch batcher s).2.1
      (post env a session batch batcher s).2.2 := by
  have hgone : ∀ u : Uplink, u.channel = s.2.channel → u.trace = s.2.trace →
      u.stats.dropped = s.2.stats.dropped →
      Moves session batch batcher s batcher (s.1, noteBatchDropped session batch u) :=
    fun u hchannel htrace hdropped => by
      refine ⟨rfl, hchannel, ?_, ?_, [], [], batch, rfl, rfl, ?_, ?_, ?_⟩
      · show u.trace.placed = s.2.trace.placed
        rw [htrace]
      · show u.trace.refused = s.2.trace.refused
        rw [htrace]
      · exact (congrArg Trace.delivered htrace).trans (List.append_nil _).symm
      · exact congrArg (Trace.discarded · ++ _) htrace
      · exact congrArg (· + batch.length) hdropped
  have hkept : ∀ (w : Worker) (u : Uplink), w.sessions = s.1.sessions →
      u.channel = s.2.channel → u.trace = s.2.trace → u.stats.dropped = s.2.stats.dropped →
      Moves session batch batcher s (batcher.restore batch a.restoredAt) (w, u) :=
    fun w u hsessions hchannel htrace hdropped =>
      ⟨hsessions, hchannel, congrArg Trace.placed htrace, congrArg Trace.refused htrace,
        batch, [], [], by simp, rfl, by simp [htrace], by simp [htrace], hdropped⟩
  unfold post
  dsimp only
  split_ifs
  · exact hgone s.2 rfl rfl rfl
  · exact hkept _ s.2 rfl rfl rfl rfl
  · split
    · exact hgone _ rfl rfl rfl
    · cases a.answer with
      | accepted =>
        exact ⟨rfl, rfl, rfl, rfl, [], batch, [], by simp, rfl, rfl, (List.append_nil _).symm, rfl⟩
      | retryable message => exact hkept _ _ rfl rfl rfl rfl
      | rejected message => exact hgone _ rfl rfl rfl
      | fatal message => exact hgone _ rfl rfl rfl
      | unauthorized => exact hkept _ _ rfl rfl rfl rfl

theorem takeDue_pending (a : Attempt) (force : Bool) (w : Worker) (b : Batcher) :
    (takeDue a force w b).1.getD [] ++ (takeDue a force w b).2.pending = b.pending := by
  unfold takeDue
  dsimp only
  split_ifs with hforce hempty hearly
  · have hpending := b.takeNow_pending a.takenAt
    rwa [hempty] at hpending
  · exact b.takeNow_pending a.takenAt
  · rfl
  · cases htaken : b.takeBatch a.now a.takenAt with
    | none => rfl
    | some taken => exact Batcher.takeBatch_pending htaken

/-- Moving a batch that came from the session's batcher keeps the balance. -/
theorem ledger_of_moves {s' : Working} {session : String} {sink : SessionSink}
    {batch : List EventDto} {batcher batcher' : Batcher} (h : Ledger s)
    (hsink : s.1.sessions[session]? = some sink)
    (hbatch : batch ++ batcher.pending = sink.batcher.pending)
    (hmoves : Moves session batch batcher s batcher' s') :
    Ledger ({ s'.1 with
      sessions := s'.1.sessions.insert session { sink with batcher := batcher' } }, s'.2) := by
  obtain ⟨kept, sent, gone, hsplit, hpending, hdelivered, hdiscarded, hdropped⟩ := hmoves.moved
  constructor
  · intro session' dto
    have heach := h.each session' dto
    show s'.2.trace.placed.count (session', dto) = s'.2.inChannel.count (session', dto) +
      (buffered { s'.1 with sessions := s'.1.sessions.insert session _ } session').count dto +
      s'.2.trace.delivered.count (session', dto) + s'.2.trace.discarded.count (session', dto)
    have hothers : s'.1.buffered session' = s.1.buffered session' := by
      rw [buffered, buffered, hmoves.sessions]
    rw [held, Uplink.inChannel] at heach
    rw [buffered_insert, hmoves.placed, Uplink.inChannel, hmoves.channel, hdelivered, hdiscarded,
      List.count_append, List.count_append, count_tagged, count_tagged, heach, hothers]
    by_cases hsession : session = session'
    · subst hsession
      have hcount := congrArg (List.count dto) hbatch
      simp only [hsplit, List.count_append] at hcount
      simp only [buffered_of_sink hsink, if_true, hpending, List.count_append]
      omega
    · simp only [if_neg hsession]
      omega
  · have hcounted := h.counted
    show s'.2.stats.dropped = s'.2.trace.refused + s'.2.trace.discarded.length
    rw [hdropped, hmoves.refused, hdiscarded, List.length_append, List.length_map]
    omega

theorem ledger_flush (env : Environment) (h : Ledger s) (a : Attempt) (force : Bool) (session : String) :
    Ledger (flush env a force session s).2 := by
  unfold flush
  cases hsink : s.1.sessions[session]? with
  | none => exact h
  | some sink =>
    have hpending := takeDue_pending a force s.1 sink.batcher
    dsimp only
    cases hbatch : (takeDue a force s.1 sink.batcher).1 with
    | none =>
      rw [hbatch] at hpending
      exact ledger_of_moves h hsink hpending ⟨rfl, rfl, rfl, rfl, [], [], [], rfl, rfl,
        (List.append_nil _).symm, (List.append_nil _).symm, rfl⟩
    | some batch =>
      rw [hbatch] at hpending
      exact ledger_of_moves h hsink hpending (moves_post a session batch _ s)

/-- Only drained sinks are pruned. -/
theorem ledger_prune (h : Ledger s) : Ledger (s.1.prune, s.2) := by
  refine ⟨fun session dto => ?_, h.counted⟩
  have hbuffered : s.1.prune.buffered session = s.1.buffered session := by
    simp only [buffered, prune, ExtTreeMap.getElem?_filter']
    cases s.1.sessions[session]? with
    | none => rfl
    | some sink =>
      rw [Option.filter_some]
      split_ifs with hkept
      · rfl
      · simp only [Bool.not_eq_true, Bool.not_eq_false', Bool.and_eq_true] at hkept
        exact (List.isEmpty_iff.1 hkept.2).symm
  rw [held, hbuffered]
  exact h.each session dto

theorem ledger_flushUntil (session : String) (attempts : List Attempt) (h : Ledger s) :
    Ledger (flushUntil env session attempts s) := by
  induction attempts generalizing s with
  | nil => exact h
  | cons a attempts ih =>
    have hflush := ledger_flush env h a true session
    unfold flushUntil
    dsimp only
    split_ifs
    · exact ih hflush
    · exact hflush

theorem ledger_drainAsDropped (session : String) (h : Ledger s) :
    Ledger (drainAsDropped session s) := by
  unfold drainAsDropped
  cases hsink : s.1.sessions[session]? with
  | none => exact h
  | some sink =>
    have hmoves : Moves session sink.batcher.pending {} s {}
        (s.1, noteBatchDropped session sink.batcher.pending s.2) :=
      ⟨rfl, rfl, rfl, rfl, [], [], _, rfl, rfl, (List.append_nil _).symm, rfl, rfl⟩
    exact ledger_of_moves h hsink (List.append_nil _) hmoves

theorem ledger_shutdown (attempts : String → List Attempt) (h : Ledger s) :
    Ledger (shutdown env attempts s) := by
  unfold shutdown
  generalize s.1.sessions.keys = keys
  induction keys generalizing s with
  | nil => exact h
  | cons session keys ih =>
    exact ih (ledger_drainAsDropped session (ledger_flushUntil session _ h))

/-- Whatever the worker takes, the balance is kept as long as the session is known. -/
theorem ledger_receive (h : Ledger s) (now : Nat)
    (hknown : ∀ session dto, s.2.channel.head? = some (.event session dto) →
      session ∈ s.1.sessions) : Ledger (receive now s) := by
  unfold receive
  split
  · exact h
  · rename_i info channel hchannel
    exact ledger_receiveSession h hchannel
  · rename_i session dto channel hchannel
    have hmem := hknown session dto (by rw [hchannel]; rfl)
    rw [ExtTreeMap.mem_iff_isSome_getElem?, Option.isSome_iff_exists] at hmem
    obtain ⟨sink, hsink⟩ := hmem
    exact ledger_receiveEvent h hchannel hsink now

end Worker

/-! ## Runs -/

namespace UplinkSystem

variable (env : Environment)

/-- When the worker takes an event, the event's session is in its map. -/
def Receivable (s : UplinkSystem) : UplinkAct → Prop
  | .receive _ => s.running = true → ∀ session dto,
      s.uplink.channel.head? = some (.event session dto) → session ∈ s.worker.sessions
  | _ => True

theorem ledger_act {s : UplinkSystem} (h : Ledger s.working) (i : Nat) (room : List Bool)
    {f : Tapped → Tapped} (hf : ∀ tap u, Sends u (f (tap, u)).2) :
    Ledger (s.act i room f).working := by
  unfold act
  split
  · exact h
  · exact h.sends (Sends.of_room (hf _ { s.uplink with room }))

theorem ledger_step {s : UplinkSystem} (h : Ledger s.working) {a : UplinkAct}
    (ha : Receivable s a) : Ledger (s.step env a).working := by
  unfold step
  split_ifs with hrunning
  swap
  · exact h
  cases a with
  | beginSession id clientVersion startedAt channels clock room =>
    have hsends := SessionTap.sends_beginSession clock id clientVersion startedAt channels
      (u := { s.uplink with room })
    exact h.sends hsends.of_room
  | tap i op clock room => exact ledger_act h i room fun _ _ => SessionTap.sends_perform clock op
  | dropTap i clock room => exact ledger_act h i room fun _ _ => SessionTap.sends_endSession clock
  | setConfig config => exact h.sends (Sends.of_eq rfl rfl rfl)
  | receive now => exact Worker.ledger_receive h now (ha hrunning)
  | flush session a => exact Worker.ledger_flush env h a false session
  | prune => exact Worker.ledger_prune h
  | shutdown attempts =>
    show Ledger (working (if _ then _ else s))
    split_ifs
    · exact Worker.ledger_shutdown attempts h
    · exact h

/-- An event taken for a session the worker does not know is lost at once. -/
theorem not_ledger_step {s : UplinkSystem} (h : Ledger s.working) {a : UplinkAct}
    (ha : ¬ Receivable s a) : ¬ Ledger (s.step env a).working := by
  cases a with
  | receive now =>
    simp only [Receivable, not_forall] at ha
    obtain ⟨hrunning, session, dto, hhead, hunknown⟩ := ha
    rw [List.head?_eq_some_iff] at hhead
    obtain ⟨channel, hchannel⟩ := hhead
    have hsink : s.worker.sessions[session]? = none := by
      rwa [ExtTreeMap.mem_iff_isSome_getElem?, Option.not_isSome_iff_eq_none] at hunknown
    have hstep : (s.step env (.receive now)).working =
        Worker.receiveEvent session dto now (s.worker, { s.uplink with channel }) := by
      rw [step, if_pos hrunning]
      show Worker.receive now (s.worker, s.uplink) = _
      simp only [Worker.receive, hchannel]
    rw [hstep]
    exact Worker.not_ledger_receiveEvent h hchannel hsink now
  | _ => exact absurd trivial ha

theorem ledger_empty : Ledger (working {}) := ⟨fun _ _ => rfl, rfl⟩

/-- **No event is lost silently, exactly when every event the worker takes has a sink.** Over any
interleaving of taps, toggles, worker steps and answers, the ledger balances in every state of a
run if and only if the worker never takes an event of a session that is not in its map. -/
theorem ledger_iff_receivable (acts : List UplinkAct) :
    StatesMeet (step env) (fun s => Ledger s.working) {} acts ↔
      StepsMeet (step env) Receivable {} acts :=
  statesMeet_iff_stepsMeet (I := fun s : UplinkSystem => Ledger s.working) (fun _ h => h)
    (fun _ _ h ha => ledger_step env h ha) (fun _ _ h ha => not_ledger_step env h ha) ledger_empty

/-! ### A resumed session -/

/-- Accepts every endpoint. -/
def openEnvironment : Environment := { validateEndpoint := fun _ => .ok () }

/-- Sharing is switched off, the keepalive ends the session, the worker drains and prunes it, and
the keepalive after sharing is on again resumes it. -/
def resumedRun : List UplinkAct :=
  [.setConfig { enabled := true, token := some "t" },
    .beginSession "a" "1" 1 [] id [], .receive 0, .receive 0,
    .setConfig { enabled := false, token := some "t" },
    .tap 0 .heartbeat id [], .receive 1, .flush "a" ⟨600, 600, 600, .accepted, id⟩, .prune,
    .setConfig { enabled := true, token := some "t" },
    .tap 0 .heartbeat id [], .receive 700]

/-- The resumed session's start is on the channel once, and then nowhere. -/
theorem resumedRun_loses : ¬ Ledger (run (step openEnvironment) {} resumedRun).working := fun h =>
  absurd (h.each "a" ⟨3, 3, .sessionStarted⟩) (by decide +kernel)

end UplinkSystem

end Superiority
