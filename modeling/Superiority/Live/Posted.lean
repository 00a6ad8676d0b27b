import Superiority.Live.Accepted

/-!
# Every posted batch is accepted

The batches that the uplink worker takes out of its sinks, on a flush or while it shuts down, hold
consecutive events of one session with growing numbers; when the taps have brought nothing outside
the ingest Worker's limits, its check accepts each of them whole.

* **`Shrinks`** – a step of the worker only takes events out of the lines of the sessions.
* **`batches_accepted`** – in every run whose operations fit, every batch is accepted.
-/

namespace Superiority

open Std

/-! ## The line of a session -/

/-- The events of a session on the channel. -/
def Uplink.waiting (u : Uplink) (id : String) : List EventDto :=
  (u.inChannel.filter (·.1 = id)).map (·.2)

/-- The events of a session that are still to be handed out, the oldest first. -/
def line (s : Working) (id : String) : List EventDto := s.1.buffered id ++ s.2.waiting id

/-- Steps of the worker take events out of the lines, and keep the session records and the
switch. -/
structure Shrinks (s s' : Working) : Prop where
  lines : ∀ id, (line s' id).Sublist (line s id)
  sinks : ∀ (id : String) (sink : SessionSink), s'.1.sessions[id]? = some sink →
    (∃ old : SessionSink, s.1.sessions[id]? = some old ∧ old.info = sink.info) ∨
      .session sink.info ∈ s.2.channel
  sessions : ∀ info, .session info ∈ s'.2.channel → .session info ∈ s.2.channel
  enabled : s'.2.config.enabled = s.2.config.enabled

namespace Shrinks

theorem refl (s : Working) : Shrinks s s :=
  ⟨fun _ => List.Sublist.refl _, fun _ sink h => .inl ⟨sink, h, rfl⟩, fun _ h => h, rfl⟩

theorem trans {s s' s'' : Working} (h : Shrinks s s') (h' : Shrinks s' s'') : Shrinks s s'' where
  lines id := (h'.lines id).trans (h.lines id)
  sinks id sink hsink := by
    rcases h'.sinks id sink hsink with ⟨old, hold, hinfo⟩ | hmessage
    · rw [← hinfo]
      exact h.sinks id old hold
    · exact .inr (h.sessions _ hmessage)
  sessions info hinfo := h.sessions info (h'.sessions info hinfo)
  enabled := h'.enabled.trans h.enabled

/-- A new batcher for one session, with fewer events. -/
theorem of_insert {w : Worker} {u u' : Uplink} {id : String} {sink sink' : SessionSink}
    (hsink : w.sessions[id]? = some sink) (hinfo : sink'.info = sink.info)
    (hpending : sink'.batcher.pending.Sublist sink.batcher.pending)
    (hchannel : u'.channel = u.channel) (henabled : u'.config.enabled = u.config.enabled)
    {w' : Worker} (hsessions : w'.sessions = w.sessions.insert id sink') : Shrinks (w, u) (w', u') where
  lines other := by
    have hwaiting : u'.waiting other = u.waiting other := by
      rw [Uplink.waiting, Uplink.inChannel, hchannel]
      rfl
    have hbuffered : w'.buffered other =
        Worker.buffered { w with sessions := w.sessions.insert id sink' } other := by
      rw [Worker.buffered, hsessions]
      rfl
    refine List.Sublist.append ?_ (by rw [hwaiting])
    rw [hbuffered, buffered_insert]
    split_ifs with hid
    · subst hid
      rw [buffered_of_sink hsink]
      exact hpending
    · exact List.Sublist.refl _
  sinks other new hnew := by
    simp only [hsessions, ExtTreeMap.getElem?_insert, Std.compare_eq_iff_eq] at hnew
    by_cases hid : id = other
    · subst hid
      rw [if_pos rfl, Option.some.injEq] at hnew
      exact .inl ⟨sink, hsink, by rw [← hnew, hinfo]⟩
    · rw [if_neg hid] at hnew
      exact .inl ⟨new, hnew, rfl⟩
  sessions info h := by
    rwa [hchannel] at h
  enabled := henabled

end Shrinks

namespace Worker

variable {env : Environment} {s : Working}

/-- Moving a batch that came from the session's batcher leaves fewer events. -/
theorem shrinks_of_moves {s' : Working} {session : String} {sink : SessionSink}
    {batch : List EventDto} {batcher batcher' : Batcher}
    (hsink : s.1.sessions[session]? = some sink)
    (hbatch : batch ++ batcher.pending = sink.batcher.pending)
    (hmoves : Moves session batch batcher s batcher' s')
    (henabled : s'.2.config.enabled = s.2.config.enabled) :
    Shrinks s ({ s'.1 with
      sessions := s'.1.sessions.insert session { sink with batcher := batcher' } }, s'.2) := by
  obtain ⟨kept, sent, gone, hsplit, hpending, -⟩ := hmoves.moved
  have hsublist : batcher'.pending.Sublist sink.batcher.pending := by
    rw [hpending, ← hbatch, hsplit, List.append_assoc kept, List.append_assoc kept]
    exact (List.sublist_append_right (sent ++ gone) _).append_left kept
  have hsessions : s'.1.sessions.insert session { sink with batcher := batcher' } =
      s.1.sessions.insert session { sink with batcher := batcher' } := by rw [hmoves.sessions]
  have hinfo : ({ sink with batcher := batcher' } : SessionSink).info = sink.info := rfl
  exact Shrinks.of_insert hsink hinfo hsublist hmoves.channel henabled hsessions

theorem enabled_post (a : Attempt) (session : String) (batch : List EventDto) (batcher : Batcher)
    (s : Working) :
    (post env a session batch batcher s).2.2.2.config.enabled = s.2.config.enabled := by
  unfold post
  dsimp only
  split_ifs
  · rfl
  · rfl
  · split
    · rfl
    · cases a.answer <;> rfl

theorem shrinks_flush (env : Environment) (a : Attempt) (force : Bool) (session : String)
    (s : Working) : Shrinks s (flush env a force session s).2 := by
  unfold flush
  cases hsink : s.1.sessions[session]? with
  | none => exact Shrinks.refl s
  | some sink =>
    have hpending := takeDue_pending a force s.1 sink.batcher
    dsimp only
    cases hbatch : (takeDue a force s.1 sink.batcher).1 with
    | none =>
      rw [hbatch] at hpending
      exact shrinks_of_moves hsink hpending ⟨rfl, rfl, rfl, rfl, [], [], [], rfl, rfl,
        (List.append_nil _).symm, (List.append_nil _).symm, rfl⟩ rfl
    | some batch =>
      rw [hbatch] at hpending
      exact shrinks_of_moves hsink hpending (moves_post a session batch _ s)
        (enabled_post a session batch _ s)

theorem shrinks_flushUntil (session : String) (attempts : List Attempt) (s : Working) :
    Shrinks s (flushUntil env session attempts s) := by
  induction attempts generalizing s with
  | nil => exact Shrinks.refl s
  | cons a attempts ih =>
    have hflush := shrinks_flush env a true session s
    unfold flushUntil
    dsimp only
    split_ifs
    · exact hflush.trans (ih _)
    · exact hflush

theorem shrinks_drainAsDropped (session : String) (s : Working) :
    Shrinks s (drainAsDropped session s) := by
  unfold drainAsDropped
  cases hsink : s.1.sessions[session]? with
  | none => exact Shrinks.refl s
  | some sink =>
    have hmoves : Moves session sink.batcher.pending {} s {}
        (s.1, noteBatchDropped session sink.batcher.pending s.2) :=
      ⟨rfl, rfl, rfl, rfl, [], [], _, rfl, rfl, (List.append_nil _).symm, rfl, rfl⟩
    exact shrinks_of_moves hsink (List.append_nil _) hmoves rfl

/-- `shutdown_flush_all` over some of the sessions. -/
def shutdownOver (env : Environment) (attempts : String → List Attempt) (sessions : List String)
    (s : Working) : Working :=
  sessions.foldl
    (fun s session => drainAsDropped session (flushUntil env session (attempts session) s)) s

theorem shrinks_shutdownOver (attempts : String → List Attempt) (sessions : List String)
    (s : Working) : Shrinks s (shutdownOver env attempts sessions s) := by
  induction sessions generalizing s with
  | nil => exact Shrinks.refl s
  | cons session sessions ih =>
    exact ((shrinks_flushUntil session _ s).trans (shrinks_drainAsDropped session _)).trans (ih _)

theorem shrinks_prune (s : Working) : Shrinks s (s.1.prune, s.2) where
  lines id := by
    have hbuffered : (s.1.prune.buffered id).Sublist (s.1.buffered id) := by
      simp only [buffered, prune, ExtTreeMap.getElem?_filter']
      cases s.1.sessions[id]? with
      | none => exact List.Sublist.refl _
      | some sink =>
        rw [Option.filter_some]
        split_ifs
        · exact List.Sublist.refl _
        · exact List.nil_sublist _
    exact hbuffered.append_right _
  sinks id sink hsink := by
    simp only [prune, ExtTreeMap.getElem?_filter'] at hsink
    exact .inl ⟨sink, (Option.filter_eq_some_iff.1 hsink).1, rfl⟩
  sessions _ h := h
  enabled := rfl

/-- The rest of the channel, once its first message has gone nowhere. -/
theorem shrinks_tail {message : TapMessage} {channel : List TapMessage}
    (hchannel : s.2.channel = message :: channel) : Shrinks s (s.1, { s.2 with channel }) where
  lines id := by
    refine List.Sublist.append (List.Sublist.refl _) ?_
    have hrest : channel.Sublist s.2.channel := hchannel ▸ List.sublist_cons_self message channel
    exact ((hrest.filterMap _).filter _).map _
  sinks id sink hsink := .inl ⟨sink, hsink, rfl⟩
  sessions info h := hchannel ▸ List.mem_cons_of_mem message h
  enabled := rfl

theorem shrinks_receiveSession {info : SessionMeta} {channel : List TapMessage}
    (hchannel : s.2.channel = .session info :: channel) :
    Shrinks s (receiveSession info s.1, { s.2 with channel }) := by
  have hmessage : .session info ∈ s.2.channel := hchannel ▸ List.mem_cons_self
  have htail := shrinks_tail hchannel
  refine ⟨fun id => ?_, fun id sink hsink => ?_, htail.sessions, htail.enabled⟩
  · have hlines := htail.lines id
    rwa [line, buffered_receiveSession]
  · simp only [receiveSession, ExtTreeMap.getElem?_insert, Std.compare_eq_iff_eq] at hsink
    by_cases hid : info.id = id
    · rw [if_pos hid, Option.some.injEq] at hsink
      have hinfo : sink.info = info := by
        rw [← hsink]
        cases s.1.sessions[info.id]? <;> rfl
      exact .inr (hinfo ▸ hmessage)
    · rw [if_neg hid] at hsink
      exact .inl ⟨sink, hsink, rfl⟩

/-- Pushing an event into its session's batcher may give up the oldest. -/
theorem shrinks_push {session : String} {dto : EventDto} {channel : List TapMessage}
    {sink : SessionSink} (hchannel : s.2.channel = .event session dto :: channel)
    (hsink : s.1.sessions[session]? = some sink) {dropped : Nat} {batcher : Batcher}
    (hpending : sink.batcher.pending.take dropped ++ batcher.pending =
      sink.batcher.pending ++ [dto]) (ended : Bool) :
    Shrinks s
      ({ s.1 with sessions := s.1.sessions.insert session { sink with batcher, ended } },
        { Uplink.noteDropped { s.2 with channel } dropped with
          trace := { s.2.trace with
            discarded := s.2.trace.discarded ++
              (sink.batcher.pending.take dropped).map (session, ·) } }) := by
  have htail := shrinks_tail hchannel
  refine ⟨fun id => ?_, fun id sink' hsink' => ?_, htail.sessions, htail.enabled⟩
  · dsimp only [line]
    rw [buffered_insert, Uplink.waiting, Uplink.waiting, inChannel_event hchannel]
    by_cases hid : session = id
    · subst hid
      rw [if_pos rfl, buffered_of_sink hsink, List.filter_cons_of_pos (by simp), List.map_cons,
        ← List.singleton_append, ← List.append_assoc, ← hpending]
      exact (List.sublist_append_right _ _).append_right _
    · rw [if_neg hid, List.filter_cons_of_neg (by simpa using hid)]
      exact List.Sublist.refl _
  · simp only [ExtTreeMap.getElem?_insert, Std.compare_eq_iff_eq] at hsink'
    by_cases hid : session = id
    · subst hid
      rw [if_pos rfl, Option.some.injEq] at hsink'
      exact .inl ⟨sink, hsink, by rw [← hsink']⟩
    · rw [if_neg hid] at hsink'
      exact .inl ⟨sink', hsink', rfl⟩

theorem shrinks_receive (s : Working) (now : Nat) : Shrinks s (receive now s) := by
  unfold receive
  split
  · exact Shrinks.refl s
  · rename_i info channel hchannel
    exact shrinks_receiveSession hchannel
  · rename_i session dto channel hchannel
    simp only [receiveEvent]
    cases hsink : s.1.sessions[session]? with
    | none => exact shrinks_tail hchannel
    | some sink => exact shrinks_push hchannel hsink (sink.batcher.push_pending dto now) _

end Worker

/-! ## Batches -/

/-- A batch that is ready has between 1 and 64 events. -/
theorem readyCount_bounds {b : Batcher} {count : Nat} (h : b.readyCount = some count) :
    1 ≤ count ∧ count ≤ maxBatchEvents ∧ count ≤ b.pending.length := by
  unfold Batcher.readyCount at h
  dsimp only at h
  split at h
  · split_ifs at h
    cases h
    omega
  · rename_i syncStart hfound
    have hstart : syncStart < min b.pending.length maxBatchEvents := by
      have hlt := (List.findIdx?_eq_some_iff_findIdx_eq.1 hfound).1
      rw [List.length_take] at hlt
      omega
    split_ifs at h <;> cases h <;> omega

theorem takeDue_bounds {a : Attempt} {force : Bool} {w : Worker} {b : Batcher}
    {batch : List EventDto} (h : (Worker.takeDue a force w b).1 = some batch) :
    1 ≤ batch.length ∧ batch.length ≤ maxEventsPerPost := by
  have hmax : maxBatchEvents = maxEventsPerPost := rfl
  have htake : ∀ count, b.readyCount = some count →
      1 ≤ (b.pending.take count).length ∧ (b.pending.take count).length ≤ maxEventsPerPost := by
    intro count hcount
    obtain ⟨hpos, hlimit, hlength⟩ := readyCount_bounds hcount
    rw [List.length_take]
    omega
  unfold Worker.takeDue at h
  dsimp only at h
  split_ifs at h with hforce hempty hearly
  · cases h
    cases hready : b.readyCount with
    | none =>
      refine absurd ?_ hempty
      simp [Batcher.takeNow, Batcher.takeCount, hready]
    | some count =>
      simp only [Batcher.takeNow, Batcher.takeCount, hready, Option.getD_some]
      exact htake count hready
  · cases htaken : b.takeBatch a.now a.takenAt with
    | none =>
      rw [htaken] at h
      cases h
    | some taken =>
      rw [htaken] at h
      cases h
      unfold Batcher.takeBatch at htaken
      dsimp only at htaken
      split_ifs at htaken
      obtain ⟨count, hcount, rfl⟩ := Option.map_eq_some_iff.1 htaken
      exact htake count hcount

/-! ## Runs -/

/-- Thirty-two hexadecimal digits. -/
def IsHexId (id : String) : Prop :=
  id.toList.length = 32 ∧ ∀ c ∈ id.toList, c ∈ "0123456789abcdef".toList

instance (id : String) : Decidable (IsHexId id) :=
  have := List.decidableBAll (· ∈ "0123456789abcdef".toList) id.toList
  inferInstanceAs (Decidable (_ ∧ _))

/-- The times of events are positive and safe integers of JavaScript. -/
def ClockFits (clock : Nat → Nat) : Prop := ∀ seq, 0 < clock seq ∧ clock seq ≤ maxSafeInteger

/-- What the Worker's check says of every batch that can be taken from a sink. -/
def BatchesAccepted (s : Working) : Prop :=
  ∀ (id : String) (sink : SessionSink), s.1.sessions[id]? = some sink → ∀ a force batch,
    (Worker.takeDue a force s.1 sink.batcher).1 = some batch →
      ∃ envelope, validateEnvelope (envelopeJs sink.info batch) = .ok envelope

namespace UplinkSystem

/-- No tap, sink or event has the id. -/
structure IsNew (s : UplinkSystem) (id : String) : Prop where
  taps : ∀ tap ∈ s.taps, tap.info.id ≠ id
  line : line s.working id = []

/-- What the environment and the user bring is within the Worker's limits; sharing stays on. -/
def Fits (s : UplinkSystem) : UplinkAct → Prop
  | .beginSession id clientVersion startedAt _ clock _ =>
    s.IsNew id ∧ IsHexId id ∧ utf16Length clientVersion ≤ 32 ∧
      (0 < startedAt ∧ startedAt ≤ maxSafeInteger) ∧ ClockFits clock
  | .tap i op clock _ =>
    ClockFits clock ∧ ∀ tap ∈ s.taps[i]?, SessionTap.OpFits (tap, s.uplink) op
  | .dropTap i clock _ =>
    ClockFits clock ∧ ∀ tap ∈ s.taps[i]?, tap.nextSeq + 520 ≤ maxSafeInteger
  | .setConfig config => config.enabled = true
  | _ => True

/-- Every batch is accepted: now, and at every point of a shutdown. -/
def AlwaysAccepted (env : Environment) (s : UplinkSystem) : Prop :=
  ∀ attempts sessions session attempts', BatchesAccepted (Worker.flushUntil env session attempts'
    (Worker.shutdownOver env attempts sessions s.working))

/-- What the worker has: session records that conform, and lines of conforming events with
growing numbers. -/
structure Lined (s : Working) : Prop where
  sinks : ∀ (id : String) (sink : SessionSink), s.1.sessions[id]? = some sink → sink.info.Conforms
  sessions : ∀ info, .session info ∈ s.2.channel → info.Conforms
  conforms : ∀ id, ∀ dto ∈ line s id, dto.Conforms
  ordered : ∀ id, (line s id).Pairwise (·.seq < ·.seq)

/-- What the taps have besides. -/
structure Inv (s : UplinkSystem) : Prop where
  enabled : s.uplink.config.enabled = true
  lined : Lined s.working
  counted : ∀ tap ∈ s.taps, tap.pendingDropped < tap.nextSeq
  openFit : ∀ tap ∈ s.taps, tap.projector.OpenFit
  info : ∀ tap ∈ s.taps, tap.info.Conforms
  newer : ∀ tap ∈ s.taps, ∀ dto ∈ line s.working tap.info.id, dto.seq < tap.nextSeq
  distinct : (s.taps.map (·.info.id)).Nodup

theorem Lined.shrink {s s' : Working} (h : Lined s) (hs : Shrinks s s') : Lined s' where
  sinks id sink hsink := by
    rcases hs.sinks id sink hsink with ⟨old, hold, hinfo⟩ | hmessage
    · exact hinfo ▸ h.sinks id old hold
    · exact h.sessions _ hmessage
  sessions info hinfo := h.sessions info (hs.sessions info hinfo)
  conforms id dto hdto := h.conforms id dto ((hs.lines id).subset hdto)
  ordered id := (h.ordered id).sublist (hs.lines id)

/-- Lines of conforming events give batches that are accepted. -/
theorem Lined.accepted {s : Working} (h : Lined s) : BatchesAccepted s := by
  intro id sink hsink a force batch hbatch
  obtain ⟨hpos, hmax⟩ := takeDue_bounds hbatch
  have hpending := Worker.takeDue_pending a force s.1 sink.batcher
  rw [hbatch, Option.getD_some] at hpending
  have hsublist : batch.Sublist (line s id) := by
    rw [line, buffered_of_sink hsink, ← hpending]
    exact (List.sublist_append_left batch _).trans (List.sublist_append_left _ _)
  exact ⟨_, validateEnvelope_batch (h.sinks id sink hsink)
    (fun dto hdto => h.conforms id dto (hsublist.subset hdto)) ((h.ordered id).sublist hsublist)
    hpos hmax⟩

theorem Inv.alwaysAccepted {s : UplinkSystem} (env : Environment) (h : Inv s) :
    AlwaysAccepted env s := by
  intro attempts sessions session attempts'
  have hshutdown : Lined (Worker.shutdownOver env attempts sessions s.working) :=
    h.lined.shrink (Worker.shrinks_shutdownOver attempts sessions s.working)
  exact (hshutdown.shrink (Worker.shrinks_flushUntil session attempts' _)).accepted

/-! ## Steps of taps -/

/-- A tap adds to the line of its own session only. -/
theorem line_of_puts {clock : Nat → Nat} {n : Nat} {s s' : Tapped}
    (h : SessionTap.Puts clock n s s') (w : Worker) (id : String) :
    ∃ events, line (w, s'.2) id = line (w, s.2) id ++ events ∧
      (id ≠ s.1.info.id → events = []) ∧ events.Pairwise (·.seq < ·.seq) ∧
      ∀ dto ∈ events, s.1.nextSeq ≤ dto.seq ∧ dto.seq < s'.1.nextSeq ∧ dto.ts = clock dto.seq ∧
        dto.Allowed := by
  obtain ⟨messages, hchannel, -, hevents, hordered⟩ := h.messages
  refine ⟨((messages.filterMap TapMessage.carried).filter (·.1 = id)).map (·.2), ?_, ?_, ?_, ?_⟩
  · rw [line, line, Uplink.waiting, Uplink.waiting, Uplink.inChannel, Uplink.inChannel, hchannel,
      List.filterMap_append, List.filter_append, List.map_append, List.append_assoc]
  · intro hid
    rw [List.map_eq_nil_iff, List.filter_eq_nil_iff]
    intro event hevent hsame
    obtain ⟨hown, -⟩ := hevents event.1 event.2 (SessionTap.mem_carried.1 hevent)
    exact hid ((of_decide_eq_true hsame).symm.trans hown)
  · exact List.pairwise_map.2 (hordered.sublist List.filter_sublist)
  · intro dto hdto
    obtain ⟨event, hevent, rfl⟩ := List.mem_map.1 hdto
    exact (hevents event.1 event.2 (SessionTap.mem_carried.1 (List.mem_of_mem_filter hevent))).2

theorem conforms_of_allowed {dto : EventDto} (h : dto.Allowed) (hseq : dto.seq ≤ maxSafeInteger)
    (hts : 0 < dto.ts ∧ dto.ts ≤ maxSafeInteger) : dto.Conforms := by
  rcases h with h | ⟨count, hcount, hkind⟩
  · exact conforms_of_sendable h hseq hts
  · exact conforms_of_sendable (hkind ▸ sendable_dropped (by omega)) hseq hts

/-- The lines after a tap has sent, and the session records. -/
theorem Lined.puts {clock : Nat → Nat} {n : Nat} {w : Worker} {s s' : Tapped}
    (h : Lined (w, s.2)) (hputs : SessionTap.Puts clock n s s') (hclock : ClockFits clock)
    (hnumbers : s.1.nextSeq + n ≤ maxSafeInteger) (hinfo : s.1.info.Conforms)
    (hnewer : ∀ dto ∈ line (w, s.2) s.1.info.id, dto.seq < s.1.nextSeq) :
    Lined (w, s'.2) ∧ (∀ id, id ≠ s.1.info.id → line (w, s'.2) id = line (w, s.2) id) ∧
      ∀ dto ∈ line (w, s'.2) s.1.info.id, dto.seq < s'.1.nextSeq := by
  have hseq := hputs.nextSeq
  refine ⟨⟨h.sinks, ?_, ?_, ?_⟩, ?_, ?_⟩
  · intro info hmessage
    obtain ⟨messages, hchannel, hsessions, -⟩ := hputs.messages
    rw [hchannel, List.mem_append] at hmessage
    rcases hmessage with hmessage | hmessage
    · exact h.sessions info hmessage
    · exact hsessions info hmessage ▸ hinfo
  · intro id dto hdto
    obtain ⟨events, hline, -, -, hevents⟩ := line_of_puts hputs w id
    rw [hline, List.mem_append] at hdto
    rcases hdto with hdto | hdto
    · exact h.conforms id dto hdto
    · obtain ⟨-, hbelow, hts, hallowed⟩ := hevents dto hdto
      exact conforms_of_allowed hallowed (by omega) (hts ▸ hclock dto.seq)
  · intro id
    obtain ⟨events, hline, hother, hordered, hevents⟩ := line_of_puts hputs w id
    rw [hline, List.pairwise_append]
    refine ⟨h.ordered id, hordered, fun dto hdto dto' hdto' => ?_⟩
    by_cases hid : id = s.1.info.id
    · have hold := hnewer dto (hid ▸ hdto)
      have hnew := (hevents dto' hdto').1
      omega
    · rw [hother hid] at hdto'
      cases hdto'
  · intro id hid
    obtain ⟨events, hline, hother, -⟩ := line_of_puts hputs w id
    rw [hline, hother hid, List.append_nil]
  · intro dto hdto
    obtain ⟨events, hline, -, -, hevents⟩ := line_of_puts hputs w s.1.info.id
    rw [hline, List.mem_append] at hdto
    rcases hdto with hdto | hdto
    · have hold := hnewer dto hdto
      omega
    · exact (hevents dto hdto).2.1

variable {s : UplinkSystem}

/-- A tap that serves an operation keeps the invariant. -/
theorem Inv.serve (h : Inv s) {i : Nat} {tap tap' : SessionTap} {u u' : Uplink}
    (htap : s.taps[i]? = some tap) (hconfig : u.config = s.uplink.config)
    (hchannel : u.channel = s.uplink.channel) {clock : Nat → Nat} (hclock : ClockFits clock)
    (hnumbers : tap.nextSeq + 520 ≤ maxSafeInteger)
    (hserves : SessionTap.Serves clock (tap, u) (tap', u')) :
    Inv { s with taps := s.taps.set i tap', uplink := u' } := by
  obtain ⟨⟨⟨tap₀, u₀⟩, hputs, hinfo, hseq, hpending, hchannel₀, hconfig₀⟩, hopen⟩ := hserves
  dsimp only at hinfo hseq hpending hchannel₀ hconfig₀
  have hmem : tap ∈ s.taps := List.mem_of_getElem? htap
  have hinfo' : tap'.info = tap.info := hputs.info.trans hinfo
  have hline : ∀ id, line (s.worker, u₀) id = line s.working id := by
    intro id
    rw [line, line, Uplink.waiting, Uplink.inChannel, hchannel₀, hchannel]
    rfl
  have hlined : Lined (s.worker, u₀) := by
    refine ⟨h.lined.sinks, ?_, fun id => hline id ▸ h.lined.conforms id,
      fun id => hline id ▸ h.lined.ordered id⟩
    intro info hmessage
    rw [hchannel₀, hchannel] at hmessage
    exact h.lined.sessions info hmessage
  have hnewer : ∀ dto ∈ line (s.worker, u₀) tap₀.info.id, dto.seq < tap₀.nextSeq := by
    intro dto hdto
    rw [hline, hinfo] at hdto
    rw [hseq]
    exact h.newer tap hmem dto hdto
  obtain ⟨hlined', hothers, hnewer'⟩ := hlined.puts hputs hclock (hseq ▸ hnumbers)
    (hinfo ▸ h.info tap hmem) hnewer
  have hids : (s.taps.set i tap').map (·.info.id) = s.taps.map (·.info.id) := by
    rw [List.map_set, hinfo']
    refine List.ext_getElem? fun j => ?_
    rw [List.getElem?_set]
    split_ifs with hj hlt
    · rw [← hj, List.getElem?_map, htap]
      rfl
    · rw [← hj]
      exact (List.getElem?_eq_none (by omega)).symm
    · rfl
  have hcounted : tap'.pendingDropped < tap'.nextSeq := by
    have hgrowth := hputs.pendingDropped
    have hbefore := h.counted tap hmem
    dsimp only at hgrowth
    omega
  have htaps : ∀ {P : SessionTap → Prop}, (∀ other ∈ s.taps, P other) → P tap' →
      ∀ other ∈ s.taps.set i tap', P other := by
    intro P hothers hnew other hother
    rcases List.mem_or_eq_of_mem_set hother with hother | rfl
    · exact hothers other hother
    · exact hnew
  refine ⟨?_, hlined', htaps h.counted hcounted, htaps h.openFit hopen,
    htaps h.info (hinfo' ▸ h.info tap hmem), ?_, hids ▸ h.distinct⟩
  · show u'.config.enabled = true
    rw [hputs.enabled, hconfig₀, hconfig]
    exact h.enabled
  · intro other hother dto hdto
    by_cases hid : other.info.id = tap'.info.id
    · obtain rfl : other = tap' := by
        have hdistinct : ((s.taps.set i tap').map (·.info.id)).Nodup := hids ▸ h.distinct
        obtain ⟨hi, -⟩ := List.getElem?_eq_some_iff.1 htap
        exact List.inj_on_of_nodup_map hdistinct hother (List.mem_set hi tap') hid
      refine hnewer' dto ?_
      rwa [hinfo, ← hinfo']
    · have hold : other ∈ s.taps := by
        rcases List.mem_or_eq_of_mem_set hother with hother | rfl
        · exact hother
        · exact absurd rfl hid
      refine h.newer other hold dto ?_
      have hsame := hothers other.info.id (by rw [hinfo, ← hinfo']; exact hid)
      rw [← hline, ← hsame]
      exact hdto

/-- A tap that goes takes nothing along. -/
theorem Inv.eraseIdx (h : Inv s) (i : Nat) : Inv { s with taps := s.taps.eraseIdx i } := by
  have hsub : (s.taps.eraseIdx i).Sublist s.taps := List.eraseIdx_sublist s.taps i
  exact ⟨h.enabled, h.lined, fun tap htap => h.counted tap (hsub.subset htap),
    fun tap htap => h.openFit tap (hsub.subset htap), fun tap htap => h.info tap (hsub.subset htap),
    fun tap htap => h.newer tap (hsub.subset htap), h.distinct.sublist (hsub.map _)⟩

theorem utf16Length_hexId {id : String} (h : IsHexId id) : utf16Length id = 32 := by
  have hunits : ∀ c ∈ id.toList, utf16Units c = 1 := by
    have hdigits : ("0123456789abcdef".toList.all fun c => utf16Units c = 1) = true := by decide
    exact fun c hc => of_decide_eq_true (List.all_eq_true.1 hdigits c (h.2 c hc))
  rw [utf16Length, List.map_congr_left hunits]
  simp [h.1]

/-- A tap with a new id. -/
theorem Inv.add (h : Inv s) {tap : SessionTap} {u : Uplink} (henabled : u.config.enabled = true)
    (hlined : Lined (s.worker, u)) (hcounted : tap.pendingDropped < tap.nextSeq)
    (hopen : tap.projector.OpenFit) (hinfo : tap.info.Conforms)
    (hnewer : ∀ dto ∈ line (s.worker, u) tap.info.id, dto.seq < tap.nextSeq)
    (hids : ∀ other ∈ s.taps, other.info.id ≠ tap.info.id)
    (hothers : ∀ id, id ≠ tap.info.id → line (s.worker, u) id = line s.working id) :
    Inv { s with taps := s.taps ++ [tap], uplink := u } := by
  have htaps : ∀ {P : SessionTap → Prop}, (∀ other ∈ s.taps, P other) → P tap →
      ∀ other ∈ s.taps ++ [tap], P other := by
    intro P hold hnew other hother
    rcases List.mem_append.1 hother with hother | hother
    · exact hold other hother
    · exact List.mem_singleton.1 hother ▸ hnew
  refine ⟨henabled, hlined, htaps h.counted hcounted, htaps h.openFit hopen, htaps h.info hinfo,
    htaps (fun other hother dto hdto => ?_) hnewer, ?_⟩
  · refine h.newer other hother dto ?_
    rw [← hothers other.info.id (hids other hother)]
    exact hdto
  · rw [List.map_append, List.nodup_append]
    refine ⟨h.distinct, List.nodup_singleton _, ?_⟩
    intro id hid id' hid' heq
    obtain ⟨other, hother, rfl⟩ := List.mem_map.1 hid
    exact hids other hother (heq.trans (List.mem_singleton.1 hid'))

variable (env : Environment)

/-- A session that begins. -/
theorem Inv.begin (h : Inv s) {id clientVersion : String} {startedAt : Nat}
    {channels : List ChatChannel} {clock : Nat → Nat} {room : List Bool}
    (hfits : s.Fits (.beginSession id clientVersion startedAt channels clock room)) :
    Inv (s.stepRunning env (.beginSession id clientVersion startedAt channels clock room)) := by
  obtain ⟨⟨hids, hempty⟩, hhex, hversion, hstarted, hclock⟩ := hfits
  have henabled : ({ s.uplink with room } : Uplink).config.enabled = true := h.enabled
  obtain ⟨tap, hbegin, hinfo, hseq, hpending, hprojector⟩ : ∃ tap : SessionTap,
      SessionTap.beginSession clock id clientVersion startedAt channels { s.uplink with room } =
        (SessionTap.announce clock (tap, { s.uplink with room })).2 ∧
      tap.info = ⟨id, "sc2", clientVersion, startedAt⟩ ∧ tap.nextSeq = 1 ∧
      tap.pendingDropped = 0 ∧ ∃ clubNames, tap.projector = .withClubNames clubNames :=
    ⟨_, if_pos henabled, rfl, rfl, rfl, _, rfl⟩
  have hcounted : SessionTap.Counted (tap, { s.uplink with room }) := by
    show tap.pendingDropped < tap.nextSeq
    omega
  have hputs : SessionTap.Puts clock 2 _ _ := SessionTap.puts_announce hcounted
  have hconforms : tap.info.Conforms := by
    have hid := utf16Length_hexId hhex
    rw [hinfo]
    exact ⟨by dsimp only; omega, rfl, hversion, hstarted⟩
  have hopen : tap.projector.OpenFit := by
    obtain ⟨clubNames, hprojector⟩ := hprojector
    intro index channel hchannel
    rw [hprojector] at hchannel
    simp [Projector.withClubNames] at hchannel
  have hid : tap.info.id = id := by rw [hinfo]
  have hline : line (s.worker, { s.uplink with room }) = line s.working := rfl
  have hempty' : line (s.worker, { s.uplink with room }) tap.info.id = [] := by
    rw [hline, hid, hempty]
  have hlined : Lined (s.worker, { s.uplink with room }) :=
    ⟨h.lined.sinks, h.lined.sessions, h.lined.conforms, h.lined.ordered⟩
  have hnumbers : tap.nextSeq + 2 ≤ maxSafeInteger := by
    rw [hseq]
    decide
  obtain ⟨hlined', hothers, hnewer'⟩ := hlined.puts hputs hclock hnumbers hconforms
    fun dto hdto => by
      rw [hempty'] at hdto
      cases hdto
  have hstep : s.stepRunning env
      (.beginSession id clientVersion startedAt channels clock room) =
      { s with
        taps := s.taps ++ [(SessionTap.announce clock (tap, { s.uplink with room })).2.1]
        uplink := (SessionTap.announce clock (tap, { s.uplink with room })).2.2 } := by
    rw [stepRunning, hbegin]
  rw [hstep]
  have hinfo' := hputs.info
  have henabled' := (congrArg UplinkConfig.enabled hputs.enabled).trans henabled
  have hopen' := hopen
  rw [← hputs.projector] at hopen'
  rw [← hinfo'] at hnewer' hothers hconforms hid
  exact h.add henabled' hlined' (hputs.counted hcounted) hopen' hconforms hnewer'
    (fun other hother => hid ▸ hids other hother) hothers

/-- An operation of some tap. -/
theorem Inv.act (h : Inv s) {clock : Nat → Nat} (hclock : ClockFits clock) (i : Nat)
    (room : List Bool) {f : Tapped → Tapped}
    (hf : ∀ tap, s.taps[i]? = some tap → tap.nextSeq + 520 ≤ maxSafeInteger ∧
      SessionTap.Serves clock (tap, { s.uplink with room }) (f (tap, { s.uplink with room }))) :
    Inv (s.act i room f) := by
  unfold UplinkSystem.act
  cases htap : s.taps[i]? with
  | none => exact h
  | some tap =>
    obtain ⟨hnumbers, hserves⟩ := hf tap htap
    have hconfig : ({ s.uplink with room } : Uplink).config = s.uplink.config := rfl
    have hchannel : ({ s.uplink with room } : Uplink).channel = s.uplink.channel := rfl
    exact h.serve htap hconfig hchannel hclock hnumbers hserves

/-- A step of the worker. -/
theorem Inv.shrink (h : Inv s) {s' : Working} (hs : Shrinks s.working s') :
    Inv (s.withWorking s') := by
  refine ⟨hs.enabled.trans h.enabled, h.lined.shrink hs, h.counted, h.openFit, h.info, ?_,
    h.distinct⟩
  intro tap htap dto hdto
  exact h.newer tap htap dto ((hs.lines tap.info.id).subset hdto)

theorem inv_step (h : Inv s) {a : UplinkAct} (ha : s.Fits a) : Inv (s.step env a) := by
  unfold step
  split_ifs
  swap
  · exact h
  cases a with
  | beginSession id clientVersion startedAt channels clock room => exact h.begin env ha
  | tap i op clock room =>
    refine h.act ha.1 i room fun tap htap => ?_
    have hmem := List.mem_of_getElem? htap
    have hfits := ha.2 tap htap
    have hcounted : SessionTap.Counted (tap, { s.uplink with room }) := h.counted tap hmem
    exact ⟨hfits.numbers, SessionTap.serves_perform hcounted h.enabled (h.openFit tap hmem)
      (hfits.congr rfl)⟩
  | dropTap i clock room =>
    refine Inv.eraseIdx (h.act ha.1 i room fun tap htap => ?_) i
    have hmem := List.mem_of_getElem? htap
    have hcounted : SessionTap.Counted (tap, { s.uplink with room }) := h.counted tap hmem
    exact ⟨ha.2 tap htap, SessionTap.serves_endSession hcounted (h.openFit tap hmem)⟩
  | setConfig config =>
    exact ⟨ha, ⟨h.lined.sinks, h.lined.sessions, h.lined.conforms, h.lined.ordered⟩, h.counted,
      h.openFit, h.info, h.newer, h.distinct⟩
  | receive now => exact h.shrink (Worker.shrinks_receive s.working now)
  | flush session a => exact h.shrink (Worker.shrinks_flush env a false session s.working)
  | prune => exact h.shrink (Worker.shrinks_prune s.working)
  | shutdown attempts =>
    show Inv (if _ then _ else s)
    split_ifs
    · have hshut : Shrinks s.working (Worker.shutdown env attempts s.working) :=
        Worker.shrinks_shutdownOver attempts _ s.working
      obtain ⟨henabled, hlined, hcounted, hopen, hinfo, hnewer, hdistinct⟩ := h.shrink hshut
      exact ⟨henabled, hlined, hcounted, hopen, hinfo, hnewer, hdistinct⟩
    · exact h

theorem inv_start {config : UplinkConfig} (henabled : config.enabled = true) :
    Inv { uplink := { config } } := by
  have hline : ∀ id, line (working { uplink := { config } }) id = [] := by
    intro id
    simp [line, working, Worker.buffered, Uplink.waiting, Uplink.inChannel]
  refine ⟨henabled, ⟨?_, ?_, ?_, ?_⟩, ?_, ?_, ?_, ?_, List.nodup_nil⟩
  · intro id sink hsink
    simp [working] at hsink
  · intro info hmessage
    cases hmessage
  · intro id dto hdto
    rw [hline] at hdto
    cases hdto
  · intro id
    rw [hline]
    exact List.Pairwise.nil
  all_goals
    intro tap htap
    cases htap

/-- A group is joined and a message sent in it. -/
def clubRun : List UplinkAct :=
  [.beginSession "00000000000000000000000000000000" "1.0.0" 1 [.club 5] (fun _ => 1) [],
    .tap 0 (.observe (.joined 1 (.club 5) 7)) (fun _ => 1) [],
    .tap 0 (.observe (.message 1 ⟨8, some "Raynor#123", none, none, .unknown⟩ "Привет 🙂"))
      (fun _ => 1) [],
    .receive 0, .receive 0, .receive 0,
    .flush "00000000000000000000000000000000" ⟨600, 600, 600, .accepted, id⟩]

/-- The party is joined. -/
def partyRun : List UplinkAct :=
  [.beginSession "00000000000000000000000000000000" "1.0.0" 1 [] (fun _ => 1) [],
    .tap 0 (.observe (.joined 1 .party 7)) (fun _ => 1) [],
    .receive 0, .receive 0, .receive 0]

end UplinkSystem

end Superiority
