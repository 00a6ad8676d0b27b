import Superiority.Updater.Engine

/-!
# The life of the update worker

* **`lifecycle`** – in every run of the worker an agent is only launched for what was verified, not
  again before a dismissal, no staging directory is left but by the ways named, and every command
  but the last is answered by what is the case.

All of it is read off the trace, so the invariant is one of traces: each happening is appended at
its end, and `Settled` says what a trace must have before the next.
-/

namespace Superiority.Updater

open Stateful

/-! ## What a trace says -/

def waitingStep (waiting : Option PreparedUpdate) : Happening → Option PreparedUpdate
  | .launched prepared => some prepared
  | .command .dismiss => none
  | _ => waiting

/-- The update whose agent was launched last, if it was not dismissed since. -/
def waiting (trace : Trace) : Option PreparedUpdate := trace.foldl waitingStep none

def remainingStep (remaining : List LexicalPath) : Happening → List LexicalPath
  | .staged directory => directory :: remaining
  | .removed directory => remaining.filter (· ≠ directory)
  | _ => remaining

/-- The staging directories that were created and not removed. -/
def remaining (trace : Trace) : List LexicalPath := trace.foldl remainingStep []

def lastEventStep (last : Option Event) : Happening → Option Event
  | .command _ => none
  | .event event => some event
  | _ => last

/-- The last event since the last command. -/
def lastEvent (trace : Trace) : Option Event := trace.foldl lastEventStep none

/-- The staging directory was left behind: its source was refused, its removal failed or was not
allowed, or its update was dismissed when its agent was waiting. -/
def Abandoned (trace : Trace) (directory : LexicalPath) : Prop :=
  .rejected directory ∈ trace ∨ .remains directory ∈ trace ∨
    ∃ before after prepared, trace = before ++ .command .dismiss :: after ∧
      waiting before = some prepared ∧ prepared.stagingDirectory = directory

/-- The event is what a client may be told last in the state. -/
def Event.agrees (event : Event) (state : State) : Bool :=
  match event, state with
  | .available .., .available release => event = release.announcement
  | .ready, .ready _ => true
  | .installing, .installing => true
  | .quitRequested, .installing => true
  | .notFound _, .idle => true
  | .dismissed, .idle => true
  | .error _, .idle => true
  | .error _, .ready _ => true
  | .focus, .available _ => true
  | .focus, .ready _ => true
  | .focus, .installing => true
  | _, _ => false

/-- The staging directory of the update that is ready or being installed. -/
def Worker.held (w : Worker) : Option LexicalPath :=
  match w.state with
  | .ready prepared => some prepared.stagingDirectory
  | .installing => (waiting w.trace).map (·.stagingDirectory)
  | _ => none

def Passed (trace : Trace) (prepared : PreparedUpdate) : Prop :=
  .verified prepared.release.artifact prepared.archivePath ∈ trace ∧
    .validated prepared.installSource ∈ trace

structure Lifecycle (w : Worker) : Prop where
  passed : ∀ before prepared after, w.trace = before ++ .launching prepared :: after →
    Passed before prepared
  once : ∀ before first between second after, w.trace =
    before ++ .launched first :: (between ++ .launching second :: after) →
      .command .dismiss ∈ between
  staged : ∀ directory ∈ remaining w.trace,
    w.held = some directory ∨ Abandoned w.trace directory
  answered : w.running = true → w.trace ≠ [] →
    ∃ event, lastEvent w.trace = some event ∧ event.agrees w.state = true

/-! ## Appending to a trace -/

section Append

variable {trace before after : Trace} {h x : Happening}

@[simp] theorem waiting_append : waiting (trace ++ [h]) = waitingStep (waiting trace) h := by
  rw [waiting, List.foldl_append]
  rfl

@[simp] theorem remaining_append :
    remaining (trace ++ [h]) = remainingStep (remaining trace) h := by
  rw [remaining, List.foldl_append]
  rfl

@[simp] theorem lastEvent_append :
    lastEvent (trace ++ [h]) = lastEventStep (lastEvent trace) h := by
  rw [lastEvent, List.foldl_append]
  rfl

/-- What stands in a trace is its last happening or stood there before. -/
theorem append_singleton_eq (heq : trace ++ [h] = before ++ x :: after) :
    (before = trace ∧ x = h ∧ after = []) ∨
      ∃ rest, after = rest ++ [h] ∧ trace = before ++ x :: rest := by
  rcases List.eq_nil_or_concat after with rfl | ⟨rest, last, rfl⟩
  · obtain ⟨htrace, hlast⟩ := List.append_inj' heq rfl
    exact .inl ⟨htrace.symm, (List.cons.inj hlast).1.symm, rfl⟩
  · right
    rw [List.concat_eq_append, ← List.cons_append, ← List.append_assoc] at heq
    obtain ⟨htrace, hlast⟩ := List.append_inj' heq rfl
    obtain rfl := (List.cons.inj hlast).1
    exact ⟨rest, List.concat_eq_append, htrace⟩

theorem Abandoned.append {directory : LexicalPath} (hd : Abandoned trace directory) :
    Abandoned (trace ++ [h]) directory := by
  rcases hd with hd | hd | ⟨before, after, prepared, rfl, hwaiting, hdirectory⟩
  · exact .inl (List.mem_append_left _ hd)
  · exact .inr (.inl (List.mem_append_left _ hd))
  · exact .inr (.inr ⟨before, after ++ [h], prepared, by simp, hwaiting, hdirectory⟩)

theorem Passed.append {prepared : PreparedUpdate} (hp : Passed trace prepared) :
    Passed (trace ++ [h]) prepared :=
  ⟨List.mem_append_left _ hp.1, List.mem_append_left _ hp.2⟩

end Append

/-! ## Settled traces -/

/-- Every launch was of what had passed, when no agent was waiting. -/
def Sound (trace : Trace) : Prop :=
  ∀ before prepared after, trace = before ++ .launching prepared :: after →
    Passed before prepared ∧ waiting before = none

/-- The staging directories are the one that is held and those left behind. -/
def Holds (held : Option LexicalPath) (trace : Trace) : Prop :=
  ∀ directory ∈ remaining trace, held = some directory ∨ Abandoned trace directory

/-- A trace at which no agent is waiting. -/
structure Settled (held : Option LexicalPath) (trace : Trace) : Prop where
  sound : Sound trace
  holds : Holds held trace
  waiting : waiting trace = none

section Settled

variable {trace : Trace} {held : Option LexicalPath} {h : Happening}

theorem Sound.append (hs : Sound trace)
    (hlaunch : ∀ prepared, h = .launching prepared → Passed trace prepared ∧ waiting trace = none) :
    Sound (trace ++ [h]) := by
  intro before prepared after heq
  rcases append_singleton_eq heq with ⟨rfl, hx, -⟩ | ⟨rest, -, hrest⟩
  · exact hlaunch prepared hx.symm
  · exact hs before prepared rest hrest

/-- The happening creates no directory. -/
theorem Holds.append (hh : Holds held trace) (hstaged : ∀ directory, h ≠ .staged directory) :
    Holds held (trace ++ [h]) := by
  intro directory hd
  have hmem : directory ∈ remaining trace := by
    rw [remaining_append] at hd
    cases h with
    | staged created => exact absurd rfl (hstaged created)
    | removed gone => exact (List.mem_filter.1 hd).1
    | _ => exact hd
  exact (hh directory hmem).imp_right Abandoned.append

/-- Neither a directory is created nor an agent launched or forgotten. -/
def Happening.plain : Happening → Bool
  | .staged _ => false
  | .launching _ => false
  | .launched _ => false
  | _ => true

theorem Settled.append (hs : Settled held trace) (hplain : h.plain = true) :
    Settled held (trace ++ [h]) where
  sound := hs.sound.append fun prepared heq => by simp [heq, Happening.plain] at hplain
  holds := hs.holds.append fun directory heq => by simp [heq, Happening.plain] at hplain
  waiting := by
    rw [waiting_append, hs.waiting]
    cases h with
    | launched prepared => simp [Happening.plain] at hplain
    | command command => cases command <;> rfl
    | _ => rfl

theorem Settled.event (hs : Settled held trace) (event : Event) :
    Settled held (trace ++ [.event event]) := hs.append rfl

end Settled

/-! ## What each part of the worker keeps -/

section Parts

variable {held : Option LexicalPath} {config : Config}

theorem meets_note {P : Trace → Prop} {Q : Unit → Trace → Prop} {E : Error → Trace → Prop}
    {h : Happening} (hnote : ∀ trace, P trace → Q () (trace ++ [h])) : Meets P (note h) Q E :=
  meets_change hnote

/-- A computation that changes nothing about what is held and waiting. -/
def Keeping {α : Type} (held : Option LexicalPath) (x : Engine α) : Prop :=
  Meets (Settled held) x (fun _ => Settled held) fun _ => Settled held

theorem keeping_note {h : Happening} (hplain : h.plain = true) : Keeping held (note h) :=
  meets_note fun _ hs => hs.append hplain

theorem keeping_ofExcept {α : Type} (outcome : Except Error α) :
    Keeping held (ofExcept outcome) :=
  meets_ofExcept (fun _ _ hs => hs) fun _ _ hs => hs

/-- An archive that is fetched has passed. -/
def Fetched (held : Option LexicalPath) (release : Release) (path : LexicalPath) (trace : Trace) :
    Prop :=
  Settled held trace ∧ .verified release.artifact path ∈ trace

theorem Fetched.append {release : Release} {path : LexicalPath} {trace : Trace} {h : Happening}
    (hf : Fetched held release path trace) (hplain : h.plain = true) :
    Fetched held release path (trace ++ [h]) :=
  ⟨hf.1.append hplain, List.mem_append_left _ hf.2⟩

theorem meets_verifyArtifact (release : Release) (path : LexicalPath)
    (outcome : Except Error Unit) :
    Meets (Settled held) (verifyArtifact release.artifact path outcome)
      (fun _ => Fetched held release path) fun _ => Settled held := by
  refine meets_bind (keeping_ofExcept outcome) fun _ => ?_
  exact meets_note fun trace hs => ⟨hs.append rfl, by simp⟩

theorem meets_cachedIsValid (release : Release) (path : LexicalPath) (o : Preparation) :
    Meets (Settled held) (cachedIsValid release path o)
      (fun valid trace => Settled held trace ∧
        (valid = true → .verified release.artifact path ∈ trace)) fun _ => Settled held := by
  rw [cachedIsValid]
  split
  · refine meets_bind (Q := fun r trace => Settled held trace ∧
      (r.isOk = true → .verified release.artifact path ∈ trace)) (meets_attempt ?_) fun r =>
        meets_pure fun _ h => h
    exact (meets_verifyArtifact release path o.verifyCached).weaken (fun _ hs => hs)
      (fun _ _ hf => ⟨hf.1, fun _ => hf.2⟩) fun _ _ hs => ⟨hs, by simp [Except.isOk, Except.toBool]⟩
  · exact meets_pure fun _ hs => ⟨hs, by simp⟩

theorem meets_fetchArchive (release : Release) (path : LexicalPath) (o : Preparation) :
    Meets (Settled held) (fetchArchive release path o) (fun _ => Fetched held release path)
      fun _ => Settled held := by
  refine meets_bind (meets_cachedIsValid release path o) fun valid => ?_
  split
  · next hvalid => exact meets_note fun trace h => Fetched.append ⟨h.1, h.2 hvalid⟩ rfl
  · refine Meets.weaken (P := Settled held) ?_ (fun _ h => h.1) (fun _ _ h => h) fun _ _ h => h
    refine meets_bind (keeping_ofExcept _) fun _ => ?_
    refine meets_bind (meets_each (fun p => keeping_note rfl) _) fun _ => ?_
    exact meets_bind (keeping_ofExcept _) fun _ => meets_verifyArtifact _ _ _

/-- An archive that was fetched, and a staging directory that is held by nobody yet. -/
theorem meets_extract {staging : LexicalPath} {release : Release} {path : LexicalPath}
    (progress : List Progress) (outcome : Extraction) :
    Meets (Fetched none release path) (extract staging progress outcome)
      (fun _ => Fetched (some staging) release path)
      fun _ => Settled (some staging) := by
  have hstage : ∀ trace, Fetched none release path trace →
      Fetched (some staging) release path (trace ++ [.staged staging]) := by
    intro trace hf
    refine ⟨⟨hf.1.sound.append (by simp), fun directory hd => ?_, ?_⟩, List.mem_append_left _ hf.2⟩
    · rw [remaining_append] at hd
      rcases List.mem_cons.1 hd with rfl | hd
      · exact .inl rfl
      · exact .inr (((hf.1.holds directory hd).resolve_left (by simp)).append)
    · rw [waiting_append, hf.1.waiting]
      rfl
  have hprogress : ∀ p : Progress, Meets (Fetched (some staging) release path)
      (send (.extracting p)) (fun _ => Fetched (some staging) release path)
      fun _ => Settled (some staging) := fun p => meets_note fun _ hf => hf.append rfl
  cases outcome with
  | unstaged error =>
    refine meets_fail fun _ hf => ⟨hf.1.sound, fun directory hd => .inr ?_, hf.1.waiting⟩
    exact (hf.1.holds directory hd).resolve_left (by simp)
  | failed error =>
    refine meets_bind (Q := fun _ => Fetched (some staging) release path) (meets_note hstage)
      fun _ => ?_
    exact meets_bind (meets_each hprogress _) fun _ => meets_fail fun _ hf => hf.1
  | done source =>
    refine meets_bind (Q := fun _ => Fetched (some staging) release path) (meets_note hstage)
      fun _ => ?_
    exact meets_bind (meets_each hprogress _) fun _ => meets_pure fun _ hf => hf

/-- After it was tried to remove the directory, nothing is held: it is gone or left behind. -/
theorem meets_removeIfOwned {staging : LexicalPath} (removes : Bool) {E : Error → Trace → Prop} :
    Meets (Settled (some staging)) (removeIfOwned config staging removes)
      (fun _ => Settled none) E := by
  rw [removeIfOwned]
  split
  · refine meets_note fun trace hs => ⟨(hs.append rfl).sound, fun directory hd => ?_,
      (hs.append rfl).waiting⟩
    rw [remaining_append] at hd
    obtain ⟨hmem, hne⟩ := List.mem_filter.1 hd
    refine .inr (((hs.holds directory hmem).resolve_left fun heq => ?_).append)
    exact of_decide_eq_true hne (Option.some.inj heq).symm
  · refine meets_note fun trace hs => ⟨(hs.append rfl).sound, fun directory hd => ?_,
      (hs.append rfl).waiting⟩
    rcases (hs.append (h := .remains staging) rfl).holds directory hd with heq | hd
    · obtain rfl := Option.some.inj heq
      exact .inr (.inr (.inl (by simp)))
    · exact .inr hd

theorem meets_validateSource {staging source : LexicalPath} {release : Release}
    {path : LexicalPath} (outcome : Except Error Unit) :
    Meets (Fetched (some staging) release path) (validateSource staging source outcome)
      (fun _ trace => Fetched (some staging) release path trace ∧ .validated source ∈ trace)
      fun _ => Settled none := by
  cases outcome with
  | ok _ => exact meets_note fun trace hf => ⟨hf.append rfl, by simp⟩
  | error e =>
    refine meets_bind (Q := fun _ => Settled none) (meets_note fun trace hf => ?_) fun _ =>
      meets_fail fun _ hs => hs
    refine ⟨(hf.1.append rfl).sound, fun directory hd => ?_, (hf.1.append rfl).waiting⟩
    rcases (hf.1.append (h := .rejected staging) rfl).holds directory hd with heq | hd
    · obtain rfl := Option.some.inj heq
      exact .inr (.inl (by simp))
    · exact .inr hd

/-- A prepared update has passed and its staging directory is the one that is held. -/
theorem meets_prepareUpdate (release : Release) (o : Preparation) :
    Meets (Settled none) (prepareUpdate config release o)
      (fun prepared trace => Settled (some prepared.stagingDirectory) trace ∧ Passed trace prepared)
      fun _ => Settled none := by
  refine meets_bind (keeping_ofExcept _) fun _ => ?_
  refine meets_bind (keeping_ofExcept _) fun _ => ?_
  refine meets_bind (meets_fetchArchive _ _ _) fun _ => ?_
  refine meets_bind (Q := fun r => if r.isOk then
      Fetched (some (config.cache.stagingDirectory release o.random)) release
        (config.cache.archivePath release)
    else Settled (some (config.cache.stagingDirectory release o.random)))
    (meets_attempt (meets_extract _ _)) fun r => ?_
  cases r with
  | error e =>
    exact meets_bind (meets_removeIfOwned _) fun _ => meets_fail fun _ hs => hs
  | ok source =>
    refine meets_bind (meets_validateSource _) fun _ => meets_pure fun trace h => ?_
    exact ⟨h.1.1, h.1.2, h.2⟩

/-- An update that is ready to be launched. -/
def Ready (prepared : PreparedUpdate) (trace : Trace) : Prop :=
  Settled (some prepared.stagingDirectory) trace ∧ Passed trace prepared

/-- An agent is only launched for an update that has passed, when no other agent waits. -/
theorem meets_launchAgent (prepared : PreparedUpdate) (o : Launch) :
    Meets (Ready prepared) (launchAgent prepared o)
      (fun _ trace => Sound trace ∧ Holds (some prepared.stagingDirectory) trace ∧
        waiting trace = some prepared)
      fun _ => Ready prepared := by
  have hkeep : ∀ {α : Type} (outcome : Except Error α), Meets (Ready prepared)
      (ofExcept outcome) (fun _ => Ready prepared) fun _ => Ready prepared :=
    fun outcome => meets_ofExcept (fun _ _ h => h) fun _ _ h => h
  refine meets_bind (Q := fun _ => Ready prepared) (meets_note fun trace h => ?_) fun _ => ?_
  · refine ⟨⟨h.1.sound.append fun other heq => ?_, h.1.holds.append (by simp), ?_⟩, h.2.append⟩
    · obtain rfl := Happening.launching.inj heq
      exact ⟨h.2, h.1.waiting⟩
    · rw [waiting_append, h.1.waiting]
      rfl
  refine meets_bind (hkeep _) fun _ => meets_bind (hkeep _) fun _ => meets_bind (hkeep _) fun _ => ?_
  refine meets_bind (hkeep _) fun _ => meets_bind (hkeep _) fun _ => meets_bind (hkeep _) fun _ => ?_
  refine meets_bind (hkeep _) fun _ => meets_bind (hkeep _) fun status => ?_
  split
  · refine meets_note fun trace h => ⟨h.1.sound.append (by simp), h.1.holds.append (by simp), ?_⟩
    rw [waiting_append]
    rfl
  · exact meets_fail fun _ h => h

end Parts

/-! ## The worker between commands -/

/-- What is held in the state is what the trace has left, and what is ready has passed. -/
structure Core (w : Worker) : Prop where
  sound : Sound w.trace
  holds : Holds w.held w.trace
  waiting : w.state ≠ .installing → waiting w.trace = none
  passed : ∀ prepared, w.state = .ready prepared → Passed w.trace prepared

namespace Core

variable {w : Worker} {state : State} {running : Bool} {trace : Trace}

theorem settled (h : Core w) (hstate : w.state ≠ .installing) : Settled w.held w.trace :=
  ⟨h.sound, h.holds, h.waiting hstate⟩

theorem of_idle (h : Settled none trace) : Core ⟨.idle, running, trace⟩ where
  sound := h.sound
  holds := h.holds
  waiting _ := h.waiting
  passed := by simp

theorem of_available {release : Release} (h : Settled none trace) :
    Core ⟨.available release, running, trace⟩ where
  sound := h.sound
  holds := h.holds
  waiting _ := h.waiting
  passed := by simp

theorem of_ready {prepared : PreparedUpdate} (h : Ready prepared trace) :
    Core ⟨.ready prepared, running, trace⟩ where
  sound := h.1.sound
  holds := h.1.holds
  waiting _ := h.1.waiting
  passed _ heq := State.ready.inj heq ▸ h.2

theorem of_installing {prepared : PreparedUpdate} (hsound : Sound trace)
    (hholds : Holds (some prepared.stagingDirectory) trace)
    (hwaiting : Updater.waiting trace = some prepared) : Core ⟨.installing, running, trace⟩ where
  sound := hsound
  holds := by
    rw [Worker.held, hwaiting]
    exact hholds
  waiting h := absurd rfl h
  passed := by simp

theorem ready {prepared : PreparedUpdate} (h : Core w) (hstate : w.state = .ready prepared) :
    Ready prepared w.trace := by
  refine ⟨?_, h.passed prepared hstate⟩
  have hsettled := h.settled (by simp [hstate])
  rwa [Worker.held, hstate] at hsettled

/-- A happening that says nothing of directories and agents. -/
theorem append (h : Core w) {x : Happening} (hplain : x.plain = true)
    (hdismiss : x ≠ .command .dismiss) : Core { w with trace := w.trace ++ [x] } := by
  have hwaiting : Updater.waiting (w.trace ++ [x]) = Updater.waiting w.trace := by
    rw [waiting_append]
    cases x with
    | command command =>
      cases command with
      | dismiss => exact absurd rfl hdismiss
      | _ => rfl
    | launched prepared => simp [Happening.plain] at hplain
    | _ => rfl
  constructor
  · exact h.sound.append fun prepared heq => by simp [heq, Happening.plain] at hplain
  · have hheld : Worker.held { w with trace := w.trace ++ [x] } = w.held := by
      rw [Worker.held, hwaiting, Worker.held]
    rw [hheld]
    exact h.holds.append fun directory heq => by simp [heq, Happening.plain] at hplain
  · intro hstate
    rw [hwaiting]
    exact h.waiting hstate
  · exact fun prepared hstate => (h.passed prepared hstate).append

theorem event (h : Core w) (event : Event) :
    Core { w with trace := w.trace ++ [.event event] } := h.append rfl (by simp)

/-- A dismissal forgets the agent that waits, and its staging directory is left behind. -/
theorem dismiss (h : Core w) : Settled
    (match w.state with
      | .ready prepared => some prepared.stagingDirectory
      | _ => none) (w.trace ++ [.command .dismiss]) := by
  refine ⟨h.sound.append (by simp), fun directory hd => ?_, waiting_append⟩
  rcases h.holds directory (by simpa [remainingStep] using hd) with hheld | hd
  · rw [Worker.held] at hheld
    cases hstate : w.state with
    | ready prepared =>
      rw [hstate] at hheld
      exact .inl hheld
    | installing =>
      rw [hstate] at hheld
      obtain ⟨prepared, hprepared, hdirectory⟩ := Option.map_eq_some_iff.1 hheld
      exact .inr (.inr (.inr ⟨w.trace, [], prepared, rfl, hprepared, hdirectory⟩))
    | idle => rw [hstate] at hheld; cases hheld
    | available release => rw [hstate] at hheld; cases hheld
  · exact .inr hd.append

end Core

/-- Between commands, the last one was answered by what is the case. -/
structure Inv (w : Worker) : Prop where
  core : Core w
  answered : w.running = true → w.trace ≠ [] →
    ∃ event, lastEvent w.trace = some event ∧ event.agrees w.state = true

theorem inv_initial : Inv {} where
  core := Core.of_idle ⟨fun _ _ _ heq => by simp at heq, fun _ hd => absurd hd (by simp [remaining]),
    rfl⟩
  answered := by simp

/-- A command that ends with an event. -/
theorem Inv.sent {w : Worker} {event : Event} (h : Core w) (hagrees : event.agrees w.state = true) :
    Inv { w with trace := w.trace ++ [.event event] } where
  core := h.event event
  answered _ _ := ⟨event, lastEvent_append, hagrees⟩

section Commands

variable {config : Config} {w : Worker} {o : Outcomes}

/-- A command that finds the worker busy. -/
theorem inv_focus (h : Core w) (hstate : w.state ≠ .idle) :
    Inv (w.become w.state (w.trace ++ [.event .focus])) := by
  refine Inv.sent h ?_
  cases hs : w.state with
  | idle => exact absurd hs hstate
  | _ => rfl

theorem inv_handleCheck (h : Core w) : Inv (handleCheck config w o) := by
  rw [handleCheck]
  split
  · next hstate =>
    have hidle : Settled none (w.trace ++ [.event .checking]) := by
      have hsettled := h.settled (by simp [hstate])
      rw [Worker.held, hstate] at hsettled
      exact hsettled.event _
    rw [hstate]
    split
    · exact Inv.sent (Core.of_available hidle) (by simp [Release.announcement, Event.agrees])
    · exact Inv.sent (Core.of_idle hidle) rfl
    · exact Inv.sent (Core.of_idle hidle) rfl
    · exact Inv.sent (Core.of_idle hidle) rfl
  · next hstate => exact inv_focus h hstate

theorem inv_handlePrepare {release : Release} (h : Core w) (hstate : w.state = .available release) :
    Inv (handlePrepare config w release o) := by
  have hsettled := h.settled (by simp [hstate])
  rw [Worker.held, hstate] at hsettled
  have hend := @meets_prepareUpdate config release o.preparation w.trace hsettled
  rw [handlePrepare]
  split
  · next prepared trace heq =>
    rw [heq] at hend
    exact Inv.sent (Core.of_ready hend) rfl
  · next trace heq =>
    rw [heq] at hend
    exact Inv.sent (Core.of_idle hend) rfl
  · next error trace _ heq =>
    rw [heq] at hend
    exact Inv.sent (Core.of_idle hend) rfl

theorem inv_handleLaunch {prepared : PreparedUpdate} (h : Core w)
    (hstate : w.state = .ready prepared) : Inv (handleLaunch w prepared o) := by
  have hend := meets_launchAgent prepared o.launch w.trace (h.ready hstate)
  rw [handleLaunch, hstate]
  split
  · next trace heq =>
    rw [heq] at hend
    have hcore : Core (w.become .installing (trace ++ [.event .installing])) :=
      (Core.of_installing hend.1 hend.2.1 hend.2.2).event _
    have hsent : Inv (w.become .installing
        (trace ++ [.event .installing] ++ [.event .quitRequested])) := Inv.sent hcore rfl
    simpa using hsent
  · next error trace heq =>
    rw [heq] at hend
    exact Inv.sent (Core.of_ready hend) rfl

theorem inv_handleDismiss (h : Core w) :
    Inv (handleDismiss config { w with trace := w.trace ++ [.command .dismiss] } o) := by
  have hdismiss := h.dismiss
  rw [handleDismiss]
  dsimp only
  cases hstate : w.state with
  | ready prepared =>
    rw [hstate] at hdismiss
    exact Inv.sent (Core.of_idle ((meets_removeIfOwned o.removes).state hdismiss)) rfl
  | idle =>
    rw [hstate] at hdismiss
    exact Inv.sent (Core.of_idle hdismiss) rfl
  | available release =>
    rw [hstate] at hdismiss
    exact Inv.sent (Core.of_idle hdismiss) rfl
  | installing =>
    rw [hstate] at hdismiss
    exact Inv.sent (Core.of_idle hdismiss) rfl

theorem inv_handlePrimaryAction (h : Core w) : Inv (handlePrimaryAction config w o) := by
  rw [handlePrimaryAction]
  split
  · next hstate => exact inv_handlePrepare h hstate
  · next hstate => exact inv_handleLaunch h hstate
  · next hstate => exact Inv.sent h (by rw [hstate]; rfl)
  · next hstate => exact inv_focus h (by rw [hstate]; simp)

/-- Every command keeps the invariant. -/
theorem Inv.step (h : Inv w) (input : Command × Outcomes) : Inv (w.step config input) := by
  rw [Worker.step]
  split
  · obtain ⟨command, o⟩ := input
    have hcore : command ≠ .dismiss →
        Core { w with trace := w.trace ++ [.command command] } := fun hne =>
      h.core.append rfl fun heq => hne (Happening.command.inj heq)
    cases command with
    | shutdown =>
      have hc := hcore (by simp)
      exact ⟨⟨hc.sound, hc.holds, hc.waiting, hc.passed⟩, by simp [handle]⟩
    | dismiss => exact inv_handleDismiss h.core
    | check => exact inv_handleCheck (hcore (by simp))
    | primaryAction => exact inv_handlePrimaryAction (hcore (by simp))
  · exact h

end Commands

/-! ## Every run -/

/-- An agent that was launched waits until it is dismissed. -/
theorem waiting_of_launched {before between : Trace} {prepared : PreparedUpdate}
    (hdismiss : .command .dismiss ∉ between) :
    waiting (before ++ .launched prepared :: between) ≠ none := by
  induction between using List.reverseRecOn with
  | nil => simp [waitingStep]
  | append_singleton between h ih =>
    rw [List.mem_append, not_or] at hdismiss
    have hbefore := ih hdismiss.1
    rw [← List.cons_append, ← List.append_assoc, waiting_append]
    cases h with
    | command command =>
      cases command with
      | dismiss => exact absurd (List.mem_singleton_self _) hdismiss.2
      | _ => exact hbefore
    | launched other => simp [waitingStep]
    | _ => exact hbefore

theorem Inv.implies_lifecycle {w : Worker} (h : Inv w) : Lifecycle w where
  passed before prepared after heq := (h.core.sound before prepared after heq).1
  once before first between second after heq := by
    by_contra hdismiss
    have hwaiting := (h.core.sound (before ++ .launched first :: between) second after
      (by rw [heq]; simp)).2
    exact waiting_of_launched hdismiss hwaiting
  staged := h.core.holds
  answered := h.answered

/-- **The worker's life**, whatever commands it gets and whatever becomes of its calls. -/
theorem lifecycle (config : Config) (inputs : List (Command × Outcomes)) :
    Lifecycle (run (Worker.step config) {} inputs) :=
  (run_invariant' (fun _ input h => h.step input) inv_initial inputs).implies_lifecycle

/-! ## What does not hold -/

def exampleConfig : Config :=
  { reader := Publication.plainReader, cache := exampleCache, currentVersion := "0.1.26"
    currentBuild := "26", systemVersion := none }

def exampleOutcomes : Outcomes where
  fetch := .ok (exampleFeed "99")
  preparation :=
    { createDownloads := .ok (), createStaging := .ok (), isFile := false
      verifyCached := .ok (), archiveExists := false, removeArchive := .ok ()
      downloadProgress := [⟨0, 84⟩, ⟨84, 84⟩, ⟨1, 1⟩], download := .ok (), verify := .ok ()
      random := Vector.replicate 12 0, extractProgress := [⟨0, 1⟩, ⟨1, 1⟩]
      extract := .done (exampleCache.stagingDirectory (exampleOffer "99") (Vector.replicate 12 0))
      removes := true, validate := .ok () }
  launch :=
    { createSessions := .ok (), createSession := .ok (), copyAgent := .ok ()
      setPermissions := .ok (), writePlan := .ok (), spawn := .ok (), takeStdout := .ok ()
      readLine := .ok "READY\n" }
  removes := true

/-- The source that was extracted is refused. -/
def refusedSource : Outcomes :=
  { exampleOutcomes with
    preparation := { exampleOutcomes.preparation with
      validate := .error (.invalidArtifact "the extracted application has an invalid code signature") } }

/-- The staging directory of a dismissed update cannot be removed. -/
def stuckDirectory : Outcomes := { exampleOutcomes with removes := false }

def exampleRun (inputs : List (Command × Outcomes)) : Worker :=
  run (Worker.step exampleConfig) {} inputs

def examplePrepared : PreparedUpdate :=
  { release := exampleOffer "99", archivePath := exampleCache.archivePath (exampleOffer "99")
    stagingDirectory := exampleCache.stagingDirectory (exampleOffer "99") (Vector.replicate 12 0)
    installSource := exampleCache.stagingDirectory (exampleOffer "99") (Vector.replicate 12 0) }

/-- A dismissed installation is launched again; a staging directory is left when its source is
refused, when it cannot be removed and when its installation is dismissed; and a shutdown is not
answered. -/
theorem not_lifecycle :
    (¬ ∀ config inputs before first between second after,
      (run (Worker.step config) {} inputs).trace ≠
        before ++ .launched first :: (between ++ .launching second :: after)) ∧
    (∀ inputs ∈ [
        [(Command.check, exampleOutcomes), (.primaryAction, refusedSource)],
        [(.check, exampleOutcomes), (.primaryAction, exampleOutcomes), (.dismiss, stuckDirectory)],
        [(.check, exampleOutcomes), (.primaryAction, exampleOutcomes),
          (.primaryAction, exampleOutcomes), (.dismiss, exampleOutcomes)]],
      ¬ ∀ directory ∈ remaining (exampleRun inputs).trace,
        (exampleRun inputs).held = some directory) ∧
    ¬ ∀ config inputs, (run (Worker.step config) {} inputs).trace ≠ [] →
      ∃ event, lastEvent (run (Worker.step config) {} inputs).trace = some event ∧
        event.agrees (run (Worker.step config) {} inputs).state = true := by
  refine ⟨fun h => ?_, ?_, fun h => ?_⟩
  · let inputs := [(Command.check, exampleOutcomes), (.primaryAction, exampleOutcomes),
      (.primaryAction, exampleOutcomes), (.dismiss, exampleOutcomes), (.check, exampleOutcomes),
      (.primaryAction, exampleOutcomes), (.primaryAction, exampleOutcomes)]
    let trace := (exampleRun inputs).trace
    exact h exampleConfig inputs (trace.take 15) examplePrepared ((trace.drop 16).take 18)
      examplePrepared (trace.drop 35) (by decide +kernel)
  · intro inputs hinputs
    simp only [List.mem_cons, List.not_mem_nil, or_false] at hinputs
    rcases hinputs with rfl | rfl | rfl <;> decide +kernel
  · obtain ⟨event, hevent, -⟩ := h exampleConfig [(.shutdown, exampleOutcomes)] (by decide +kernel)
    have hnone : lastEvent (run (Worker.step exampleConfig) {}
        [(.shutdown, exampleOutcomes)]).trace = none := rfl
    rw [hnone] at hevent
    cases hevent

end Superiority.Updater
