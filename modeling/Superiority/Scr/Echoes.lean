import Superiority.Library.Run
import Superiority.Scr.Session

/-!
# Our own talk

LegacyChat acknowledges what we say and does not send it back, so the session writes our lines into
the transcript itself, and remembers them for ten seconds in case an echo comes after all.

* **`absorb_eq`** – an echo is of the first line that was written with its text in the last ten
  seconds.
* **`own_talk_once`** – what is handed out is what was recorded and what came in, without the echoes,
  exactly when nothing but a line ever arrives as a change while the newest line that waits is a
  remembered one of our own.
-/

namespace Superiority.Scr

open Std

/-! ## Remembered lines -/

namespace Watch

theorem fresh_of_le {now later : Nat} (h : now ≤ later) {line : String × Nat}
    (hfresh : Fresh later line = true) : Fresh now line = true := by
  unfold Fresh at *
  rw [decide_eq_true_eq] at *
  omega

/-- The lines are in the order in which they were written. -/
def Ordered (w : Watch) : Prop := w.pending.Pairwise fun first second => first.2 ≤ second.2

/-- What is forgotten stands in front, so pruning leaves the fresh lines. -/
theorem pending_prune {w : Watch} (h : w.Ordered) (now : Nat) :
    (w.prune now).pending = w.pending.filter (Fresh now) := by
  have hstale : (fun line : String × Nat => decide (now - line.2 > echoWindow)) =
      fun line => !Fresh now line := by
    funext line
    rw [Fresh, ← decide_not]
    exact decide_eq_decide.2 Nat.not_le.symm
  unfold prune
  unfold Ordered at h
  dsimp only
  rw [hstale]
  generalize w.pending = lines at h
  induction lines with
  | nil => rfl
  | cons line lines ih =>
    obtain ⟨hle, hlines⟩ := List.pairwise_cons.1 h
    by_cases hfresh : Fresh now line = true
    · have hall : ∀ other ∈ lines, Fresh now other = true := by
        intro other hmem
        have hother := hle other hmem
        unfold Fresh at *
        rw [decide_eq_true_eq] at *
        omega
      rw [List.dropWhile_cons, hfresh, List.filter_eq_self.2 (by simpa [hfresh] using hall)]
      rfl
    · rw [List.filter_cons_of_neg hfresh, ← ih hlines]
      rw [Bool.not_eq_true] at hfresh
      rw [List.dropWhile_cons, hfresh]
      rfl

/-- **An echo** is of the first fresh line with its text. -/
theorem absorb_eq {w : Watch} (h : w.Ordered) (now : Nat) (text : String) :
    w.absorb now text =
      ((w.pending.filter (Fresh now)).any fun line => line.1 = text,
        ⟨(w.pending.filter (Fresh now)).eraseP fun line => line.1 = text⟩) := by
  unfold absorb
  dsimp only
  rw [pending_prune h, List.eraseP_eq_eraseIdx]
  cases hfind : (w.pending.filter (Fresh now)).findIdx? fun line => line.1 = text with
  | none =>
    have hany : ((w.pending.filter (Fresh now)).any fun line => line.1 = text) = false := by
      rw [List.any_eq_false]
      intro line hmem
      rw [List.findIdx?_eq_none_iff.1 hfind line hmem]
      exact Bool.false_ne_true
    rw [hany]
    exact congrArg (Prod.mk false) (congrArg Watch.mk (pending_prune h now))
  | some index =>
    have hany : ((w.pending.filter (Fresh now)).any fun line => line.1 = text) = true := by
      rw [← List.findIdx?_isSome, hfind]
      rfl
    rw [hany]

/-- The fresh lines stay the fresh lines, later on. -/
theorem filter_fresh_of_le {now later : Nat} (h : now ≤ later) (lines : List (String × Nat)) :
    (lines.filter (Fresh now)).filter (Fresh later) = lines.filter (Fresh later) := by
  rw [List.filter_filter]
  congr 1
  funext line
  by_cases hfresh : Fresh later line = true
  · rw [hfresh, fresh_of_le h hfresh]
    rfl
  · rw [Bool.not_eq_true] at hfresh
    rw [hfresh, Bool.false_and]

theorem ordered_sublist {w : Watch} (h : w.Ordered) {lines : List (String × Nat)}
    (hsub : lines.Sublist w.pending) : Ordered ⟨lines⟩ :=
  List.Pairwise.sublist hsub h

end Watch

/-! ## What a frame brings -/

namespace ChatState

/-- The event that a callback brings. -/
def arriving (s : ChatState) : Callback → Option ChatEvent
  | .whisper whisper message => some {
      kind := .whisper
      sender := some (s.whisperSender whisper.accountId)
      text := some message
      auroraWhisper := some whisper }
  | .notice _ text => some { kind := .information, text := some text }
  | .event event => some event
  | _ => none

theorem events_keepFriend (s : ChatState) (key : String) (entry : ChatFriend) :
    (s.keepFriend key entry).events = s.events := by
  unfold keepFriend
  split_ifs <;> rfl

theorem events_perform (s : ChatState) (callback : Callback) :
    (s.perform callback).events = s.events ++ (s.arriving callback).toList := by
  cases callback with
  | update update =>
    rw [perform, updateFriend, events_keepFriend]
    exact (List.append_nil _).symm
  | notice entry text =>
    change (s.keepFriend _ _).events ++ _ = _
    rw [events_keepFriend]
    rfl
  | whisper whisper message => rfl
  | event event => rfl
  | _ => exact (List.append_nil _).symm

theorem reports_of_arriving {s : ChatState} {callback : Callback} {event : ChatEvent}
    (h : s.arriving callback = some event) : s.reports callback = true := by
  cases callback with
  | whisper whisper message => rfl
  | notice entry text => rfl
  | event event => rfl
  | _ => cases h

end ChatState

/-! ## Runs -/

inductive TalkInput where
  /-- A line is sent, and recorded. -/
  | record (elapsed : Nat) (text : String)
  /-- A frame comes in while the account talks under this name. -/
  | frame (elapsed : Nat) (localToon : String) (received : Frame)
  | take

/-- A session, and what is to be said of it: the time, what was handed out, what is to be handed out
by and by, and the lines no echo came of. -/
structure Talking where
  session : ClassicSession
  now : Nat := 0
  handed : List ChatEvent := []
  owed : List ChatEvent := []
  lines : List (String × Nat) := []

namespace Talking

/-- A session that has said nothing yet. -/
def start (session : ClassicSession) : Talking where
  session := { session with watch := {} }
  owed := session.state.events

/-- Nothing is said outside a channel, and no blanks are. -/
def record (s : Talking) (text : String) : Talking :=
  let session := s.session.recordLocalTalk s.now text
  if trim text = "" ∨ s.session.channel = 0 then { s with session }
  else { s with
    session
    owed := s.owed ++ [{
      kind := .talk
      channelId := some s.session.channel
      sender := some s.session.localToon
      text := some (trim text) }]
    lines := s.lines ++ [(trim text, s.now)] }

/-- An echo: our own talk, with the text of a line of the last ten seconds. -/
def echoes (s : Talking) (localToon : String) (event : ChatEvent) : Option String :=
  (event.ownTalk localToon).filter fun text =>
    (s.lines.filter (Watch.Fresh s.now)).any fun line => line.1 = text

/-- What comes in is owed; an echo is not, and is the only one of its line. -/
def hear (s : Talking) (localToon : String) (received : Frame) : Talking :=
  let session := (s.session.applyClassicFrame s.now localToon received).2
  match s.session.state.arriving (callbackOf received) with
  | none => { s with session }
  | some event =>
    match s.echoes localToon event with
    | none => { s with session, owed := s.owed ++ [event] }
    | some text =>
      { s with session, lines := s.lines.eraseP fun line => line.1 = text && Watch.Fresh s.now line }

def take (s : Talking) : Talking :=
  let (events, state) := s.session.state.takeEvents
  { s with session := { s.session with state }, handed := s.handed ++ events }

def pass (s : Talking) (elapsed : Nat) : Talking := { s with now := s.now + elapsed }

def step (s : Talking) : TalkInput → Talking
  | .record elapsed text => (s.pass elapsed).record text
  | .frame elapsed localToon received => (s.pass elapsed).hear localToon received
  | .take => s.take

/-- What was handed out and what waits is what is owed, and each line without an echo can still
absorb one. -/
def Exact (s : Talking) : Prop :=
  s.handed ++ s.session.state.events = s.owed ∧
    s.session.watch.pending.filter (Watch.Fresh s.now) = s.lines.filter (Watch.Fresh s.now)

/-- A change without a line does not come while the newest line that waits is one of our own that an
echo is still expected of. -/
def SparesHere (s : Talking) (localToon : String) (received : Frame) : Prop :=
  s.session.state.arriving (callbackOf received) = none →
    s.session.state.reports (callbackOf received) = true →
      s.session.state.events.getLast?.bind (s.echoes localToon) = none

def Spares (s : Talking) : TalkInput → Prop
  | .frame elapsed localToon received => (s.pass elapsed).SparesHere localToon received
  | _ => True

/-- What holds while nothing is lost: the lines are remembered in order. -/
structure Inv (s : Talking) : Prop where
  exact : s.Exact
  ordered : s.session.watch.Ordered
  past : ∀ line ∈ s.session.watch.pending, line.2 ≤ s.now

theorem inv_start (session : ClassicSession) : Inv (start session) where
  exact := ⟨rfl, rfl⟩
  ordered := List.Pairwise.nil
  past := fun _ h => nomatch h

theorem Inv.pass {s : Talking} (h : Inv s) (elapsed : Nat) : Inv (s.pass elapsed) where
  exact := by
    have hle : s.now ≤ s.now + elapsed := Nat.le_add_right _ _
    refine ⟨h.exact.1, ?_⟩
    change s.session.watch.pending.filter (Watch.Fresh (s.now + elapsed)) =
      s.lines.filter (Watch.Fresh (s.now + elapsed))
    rw [← Watch.filter_fresh_of_le hle, h.exact.2, Watch.filter_fresh_of_le hle]
  ordered := h.ordered
  past line hmem := Nat.le_trans (h.past line hmem) (Nat.le_add_right _ _)

theorem Inv.take {s : Talking} (h : Inv s) : Inv s.take where
  exact := by
    refine ⟨?_, h.exact.2⟩
    change (s.handed ++ s.session.state.events) ++ [] = s.owed
    rw [List.append_nil]
    exact h.exact.1
  ordered := h.ordered
  past := h.past

theorem Inv.record {s : Talking} (h : Inv s) (text : String) : Inv (s.record text) := by
  unfold Talking.record ClassicSession.recordLocalTalk
  by_cases hnothing : trim text = "" ∨ s.session.channel = 0
  · rw [if_pos hnothing, if_pos hnothing]
    exact h
  rw [if_neg hnothing, if_neg hnothing]
  have hpruned := Watch.pending_prune h.ordered s.now
  refine ⟨⟨?_, ?_⟩, ?_, ?_⟩
  · change s.handed ++ (s.session.state.events ++ _) = _
    rw [← List.append_assoc, h.exact.1]
  · change ((s.session.watch.prune s.now).pending ++ [(trim text, s.now)]).filter _ =
      (s.lines ++ [(trim text, s.now)]).filter _
    rw [hpruned, List.filter_append, List.filter_append,
      Watch.filter_fresh_of_le (Nat.le_refl _), h.exact.2]
  · change ((s.session.watch.prune s.now).pending ++ [(trim text, s.now)]).Pairwise _
    rw [hpruned, List.pairwise_append]
    refine ⟨h.ordered.sublist List.filter_sublist, List.pairwise_singleton _ _, ?_⟩
    intro line hmem other hother
    rw [List.mem_singleton.1 hother]
    exact h.past line (List.mem_of_mem_filter hmem)
  · change ∀ line ∈ (s.session.watch.prune s.now).pending ++ [(trim text, s.now)], line.2 ≤ s.now
    intro line hmem
    rw [hpruned, List.mem_append, List.mem_singleton] at hmem
    rcases hmem with hmem | rfl
    · exact h.past line (List.mem_of_mem_filter hmem)
    · exact Nat.le_refl _

/-! ## Frames -/

/-- The newest event is retracted when it is an echo, and its line with it. -/
theorem Inv.retractEcho {s : Talking} (h : Inv s) (localToon : String) (session : ClassicSession)
    (hwatch : session.watch = s.session.watch) :
    (session.retractEcho s.now localToon).state.events =
        (if (session.state.events.getLast?.bind (s.echoes localToon)).isSome then
          session.state.events.dropLast else session.state.events) ∧
      (session.retractEcho s.now localToon).watch.pending.Sublist s.session.watch.pending ∧
      (session.retractEcho s.now localToon).watch.pending.filter (Watch.Fresh s.now) =
        (match session.state.events.getLast?.bind (s.echoes localToon) with
          | some text => (s.lines.filter (Watch.Fresh s.now)).eraseP fun line => line.1 = text
          | none => s.lines.filter (Watch.Fresh s.now)) := by
  unfold ClassicSession.retractEcho
  rw [hwatch]
  cases hlast : session.state.events.getLast? with
  | none =>
    refine ⟨rfl, ?_, ?_⟩
    · change session.watch.pending.Sublist _
      rw [hwatch]
    · change session.watch.pending.filter _ = _
      rw [hwatch]
      exact h.exact.2
  | some event =>
    rw [Option.bind_some, Option.bind_some]
    unfold echoes
    cases hown : event.ownTalk localToon with
    | none =>
      refine ⟨rfl, ?_, ?_⟩
      · change session.watch.pending.Sublist _
        rw [hwatch]
      · change session.watch.pending.filter _ = _
        rw [hwatch]
        exact h.exact.2
    | some text =>
      dsimp only
      rw [Watch.absorb_eq h.ordered, h.exact.2, Option.filter_some]
      have hself (lines : List (String × Nat)) :
          (lines.filter (Watch.Fresh s.now)).filter (Watch.Fresh s.now) =
            lines.filter (Watch.Fresh s.now) := Watch.filter_fresh_of_le (Nat.le_refl _) lines
      have hsub : (s.lines.filter (Watch.Fresh s.now)).Sublist s.session.watch.pending := by
        rw [← h.exact.2]
        exact List.filter_sublist
      cases hany : (s.lines.filter (Watch.Fresh s.now)).any fun line => line.1 = text with
      | true =>
        refine ⟨rfl, List.eraseP_sublist.trans hsub, ?_⟩
        change (List.eraseP _ _).filter _ = List.eraseP _ _
        rw [List.filter_eq_self]
        intro line hmem
        exact (List.mem_filter.1 (List.mem_of_mem_eraseP hmem)).2
      | false =>
        have hnone : ∀ line ∈ s.lines.filter (Watch.Fresh s.now), ¬ decide (line.1 = text) = true :=
          List.any_eq_false.1 hany
        refine ⟨rfl, List.eraseP_sublist.trans hsub, ?_⟩
        change (List.eraseP _ _).filter _ = _
        rw [List.eraseP_of_forall_not hnone, hself]
        rfl

/-- What a frame leaves of the queue and of the lines. -/
theorem heard_eq (s : Talking) (localToon : String) (received : Frame) :
    let heard := { s.session with state := s.session.state.perform (callbackOf received) }
    let rest := if s.session.state.reports (callbackOf received) then
      heard.retractEcho s.now localToon else heard
    (s.hear localToon received).session.state = rest.state ∧
      (s.hear localToon received).session.watch = rest.watch ∧
      (s.hear localToon received).now = s.now ∧ (s.hear localToon received).handed = s.handed := by
  intro heard rest
  obtain ⟨hstate, hwatch, -⟩ :=
    s.session.applyClassicFrame_heard s.now localToon received
  unfold hear
  dsimp only
  split
  · exact ⟨hstate, hwatch, rfl, rfl⟩
  · split <;> exact ⟨hstate, hwatch, rfl, rfl⟩

/-- A line that comes in is owed unless it is an echo, and an echo is taken back. -/
theorem Inv.hear_event {s : Talking} (h : Inv s) (localToon : String) {received : Frame}
    {event : ChatEvent} (harriving : s.session.state.arriving (callbackOf received) = some event) :
    Inv (s.hear localToon received) := by
  obtain ⟨hstate, hwatch, hnow, hhanded⟩ := s.heard_eq localToon received
  rw [ChatState.reports_of_arriving harriving, if_pos rfl] at hstate hwatch
  have hevents := ChatState.events_perform s.session.state (callbackOf received)
  rw [harriving] at hevents
  obtain ⟨hqueue, hsub, hfresh⟩ := h.retractEcho localToon
    { s.session with state := s.session.state.perform (callbackOf received) } rfl
  rw [hevents, Option.toList_some, List.getLast?_concat, Option.bind_some] at hqueue hfresh
  rw [List.dropLast_concat] at hqueue
  rw [← hstate] at hqueue
  rw [← hwatch] at hsub hfresh
  refine ⟨?_, Watch.ordered_sublist h.ordered hsub, ?_⟩
  · unfold Exact
    rw [hnow, hhanded, hqueue, hfresh]
    unfold hear
    dsimp only
    rw [harriving]
    dsimp only
    cases hecho : s.echoes localToon event with
    | none => exact ⟨by rw [← h.exact.1]; simp, rfl⟩
    | some text =>
      refine ⟨h.exact.1, ?_⟩
      exact List.eraseP_filter
  · rw [hnow]
    exact fun line hmem => h.past line (hsub.subset hmem)

/-- A change without a line takes nothing away exactly when no remembered line of ours is newest. -/
theorem Inv.hear_change {s : Talking} (h : Inv s) {localToon : String} {received : Frame}
    (harriving : s.session.state.arriving (callbackOf received) = none) :
    ((s.hear localToon received).Exact ↔ s.SparesHere localToon received) ∧
      (s.SparesHere localToon received → Inv (s.hear localToon received)) := by
  obtain ⟨hstate, hwatch, hnow, hhanded⟩ := s.heard_eq localToon received
  have hevents := ChatState.events_perform s.session.state (callbackOf received)
  rw [harriving, Option.toList_none, List.append_nil] at hevents
  have howed : (s.hear localToon received).owed = s.owed ∧
      (s.hear localToon received).lines = s.lines := by
    unfold hear
    dsimp only
    rw [harriving]
    exact ⟨rfl, rfl⟩
  by_cases hreports : s.session.state.reports (callbackOf received) = true
  · rw [hreports, if_pos rfl] at hstate hwatch
    obtain ⟨hqueue, hsub, hfresh⟩ := h.retractEcho localToon
      { s.session with state := s.session.state.perform (callbackOf received) } rfl
    rw [hevents] at hqueue hfresh
    rw [← hstate] at hqueue
    rw [← hwatch] at hsub hfresh
    cases hlast : s.session.state.events.getLast?.bind (s.echoes localToon) with
    | none =>
      have hspares : s.SparesHere localToon received := fun _ _ => hlast
      rw [hlast] at hqueue hfresh
      have hexact : (s.hear localToon received).Exact := by
        unfold Exact
        rw [hnow, hhanded, hqueue, hfresh, howed.1, howed.2]
        exact ⟨h.exact.1, rfl⟩
      refine ⟨iff_of_true hexact hspares, fun _ => ⟨hexact, ?_, ?_⟩⟩
      · exact Watch.ordered_sublist h.ordered hsub
      · rw [hnow]
        exact fun line hmem => h.past line (hsub.subset hmem)
    | some text =>
      have hspares : ¬ s.SparesHere localToon received := by
        intro hspares
        rw [hspares harriving hreports] at hlast
        cases hlast
      refine ⟨iff_of_false ?_ hspares, fun hs => absurd hs hspares⟩
      intro hexact
      -- the newest event is gone, and it was owed
      have hsame := hexact.1
      rw [hhanded, hqueue, howed.1, ← h.exact.1, hlast, Option.isSome_some, if_pos rfl,
        List.append_cancel_left_eq] at hsame
      have hlength := congrArg List.length hsame
      rw [List.length_dropLast] at hlength
      have hpos : 0 < s.session.state.events.length := by
        rw [List.length_pos_iff]
        intro hnil
        rw [hnil] at hlast
        cases hlast
      omega
  · rw [if_neg hreports] at hstate hwatch
    have hspares : s.SparesHere localToon received := fun _ hr => absurd hr hreports
    have hqueue : (s.hear localToon received).session.state.events = s.session.state.events := by
      rw [hstate]
      exact hevents
    have hexact : (s.hear localToon received).Exact := by
      unfold Exact
      rw [hnow, hhanded, hqueue, hwatch, howed.1, howed.2]
      exact h.exact
    refine ⟨iff_of_true hexact hspares, fun _ => ⟨hexact, ?_, ?_⟩⟩
    · rw [hwatch]
      exact h.ordered
    · rw [hnow, hwatch]
      exact h.past

theorem Inv.hear {s : Talking} (h : Inv s) (localToon : String) (received : Frame) :
    ((s.hear localToon received).Exact ↔ s.SparesHere localToon received) ∧
      (s.SparesHere localToon received → Inv (s.hear localToon received)) := by
  cases harriving : s.session.state.arriving (callbackOf received) with
  | none => exact h.hear_change harriving
  | some event =>
    have hinv := h.hear_event localToon harriving
    refine ⟨iff_of_true hinv.exact ?_, fun _ => hinv⟩
    intro hnone
    rw [harriving] at hnone
    cases hnone

theorem Inv.step {s : Talking} (h : Inv s) {i : TalkInput} (hspares : s.Spares i) :
    Inv (s.step i) := by
  cases i with
  | record elapsed text => exact (h.pass elapsed).record text
  | frame elapsed localToon received =>
    exact ((h.pass elapsed).hear localToon received).2 hspares
  | take => exact h.take

/-- **Our own talk appears once.** At every moment of a run what was handed out and what waits is what
is owed: each line that was recorded, each that came in, and no echo. It is so exactly when no change
without a line finds a remembered line of our own as the newest that waits. -/
theorem own_talk_once (session : ClassicSession) (inputs : List TalkInput) :
    StatesMeet step Exact (start session) inputs ↔ StepsMeet step Spares (start session) inputs := by
  refine statesMeet_iff_stepsMeet (fun s h => Inv.exact h) (fun s i h => Inv.step h) ?_
    (inv_start session)
  intro s i h hspares hexact
  cases i with
  | record elapsed text => exact hspares trivial
  | frame elapsed localToon received =>
    exact hspares (((h.pass elapsed).hear localToon received).1.1 hexact)
  | take => exact hspares trivial

/-- A list of channels comes before the line we just wrote is taken, and the line is gone. -/
theorem not_own_talk_once :
    ¬ ∀ (session : ClassicSession) (inputs : List TalkInput),
      StatesMeet step Exact (start session) inputs := by
  intro h
  let session : ClassicSession := { channel := 7, toonName := "me" }
  let received : Frame := { header := ⟨Service.legacyChat, Method.channelsUpdated, none⟩, body := [] }
  obtain ⟨hqueue, -⟩ :=
    (h session [.record 0 "hi", .frame 1 session.localToon received, .take]).last
  have hlengths : (run step (start session)
        [.record 0 "hi", .frame 1 session.localToon received, .take]).handed.length = 0 ∧
      (run step (start session)
        [.record 0 "hi", .frame 1 session.localToon received, .take]).owed.length = 1 := by
    decide +kernel
  have hlength := congrArg List.length hqueue
  rw [List.length_append, hlengths.1, hlengths.2] at hlength
  have hempty : (run step (start session)
      [.record 0 "hi", .frame 1 session.localToon received, .take]).session.state.events = [] := rfl
  rw [hempty] at hlength
  cases hlength

end Talking

end Superiority.Scr
