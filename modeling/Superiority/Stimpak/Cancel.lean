import Superiority.Library.Run
import Superiority.Stimpak.Client

/-!
# Sign-in can be cancelled

The ledger of a run keeps beside the client which ids were issued for which attempts, which were
answered, which attempts were under way when a disconnect or sign-out returned, and which attempts
were cancelled by calls that were made after how many connections had been asked for.

* **`cancellable_iff`** – the runs in which every attempt can be cancelled are those in which a
  disconnect or sign-out never comes while a challenge lies unpolled in the event queue, and no
  attempt is challenged during such a call or after it.

That an id is answered once and reaches its attempt, and that a cancellation reaches no later
attempt, holds in every run. The invariant that carries the argument is `Client.Queued`: the one
attempt that waits has its event in the queue or its reply parked.
-/

namespace Superiority.Stimpak

/-! ## The ledger -/

namespace Client

/-- The attempt at a sign-in. -/
def underWay (client : Client) : Option Nat :=
  match client.worker with
  | .connecting attempt _ | .awaiting attempt _ => some attempt
  | _ => none

/-- The worker waits for an answer of the attempt, and somebody can still give one. -/
def Blocked (client : Client) (attempt : Nat) : Prop :=
  (match client.worker with
  | .awaiting waiting none => waiting = attempt
  | _ => False) ∧ client.hasSender attempt = true

/-- The worker waits for an answer. -/
def unanswered (client : Client) : Bool :=
  match client.worker with
  | .awaiting _ none => true
  | _ => false

/-- The attempt that the step challenges. -/
def challenges (client : Client) : WorkerStep → Option Nat
  | .challenge =>
    match client.worker with
    | .connecting attempt false => if client.closed then none else some attempt
    | _ => none
  | _ => none

/-- The session that the step ends by a command, with the connections asked for before it. -/
def stops (client : Client) : WorkerStep → Option (Nat × Nat)
  | .next =>
    match client.worker, client.commands with
    | .live attempt, .disconnect asked :: _ | .live attempt, .signOut asked :: _ =>
      some (asked, attempt)
    | _, _ => none
  | _ => none

end Client

open Client (WorkerStep)

structure Ledger where
  client : Client
  issued : List (Nat × Nat)
  answered : List (Nat × Nat)
  stopped : List Nat
  cancelled : List (Nat × Nat)

inductive Input where
  | worker (step : WorkerStep)
  | connect
  | command
  | poll
  | submitAuth (id : Nat) (token : Option (List UInt8))
  | cancelAuth (id : Nat)
  | stop (kind : Client.Stop) (meanwhile : List WorkerStep)
  | close

namespace Ledger

def initial : Ledger := ⟨.open_, [], [], [], []⟩

def work (ledger : Ledger) (step : WorkerStep) : Ledger := { ledger with
  client := ledger.client.work step
  cancelled := ledger.cancelled ++ (ledger.client.stops step).toList }

/-- A call that answers the reply parked under an id; without an id, whichever is parked. -/
def answer (ledger : Ledger) (id : Option Nat) (reply : Answer) : Ledger := { ledger with
  client := (ledger.client.answerParked id reply).2
  answered := ledger.answered ++ (ledger.client.parked id).toList }

def cancel (ledger : Ledger) (id : Option Nat) (detail : String) : Ledger :=
  { ledger.answer id (.error (authCancelled detail)) with
    cancelled := ledger.cancelled ++
      ((ledger.client.parked id).map fun waiting => (ledger.client.asked, waiting.2)).toList }

/-- A disconnect or sign-out returns. -/
def return_ (ledger : Ledger) (sent : Int × Client) : Ledger := { ledger with
  client := sent.2
  stopped := ledger.stopped ++ if sent.1 = ok then ledger.client.underWay.toList else [] }

/-- A call of the host. -/
def call (ledger : Ledger) : Input → Ledger
  | .worker _ => ledger
  | .connect => { ledger with client := ledger.client.connect.2 }
  | .command => { ledger with client := (ledger.client.send .other).2 }
  | .poll => { ledger with
      client := ledger.client.poll.2
      issued := ledger.issued ++
        ((ledger.client.poll.1.bind fun polled => match polled.1 with
          | .authentication attempt => some (polled.2, attempt)
          | _ => none)).toList }
  | .submitAuth _ none => ledger
  | .submitAuth id (some token) => ledger.answer (some id) (secretBytes token)
  | .cancelAuth id => ledger.cancel (some id) "sign-in cancelled by host"
  | .stop kind meanwhile =>
    let worked := meanwhile.foldl work (ledger.cancel none kind.detail)
    worked.return_ (worked.client.send (kind.command ledger.client.asked))
  | .close => { ledger.cancel none "client closed during sign-in" with
      client := ledger.client.close }

def step (ledger : Ledger) : Input → Ledger
  | .worker step => ledger.work step
  | input => if ledger.client.closed then ledger else ledger.call input

/-- Every attempt can be cancelled, and nothing else is cancelled with it. -/
structure Cancellable (ledger : Ledger) : Prop where
  unblocked : ∀ attempt, ledger.client.Blocked attempt → attempt ∉ ledger.stopped
  issuedOnce : (ledger.issued.map (·.1)).Nodup
  answeredOnce : (ledger.answered.map (·.1)).Nodup
  reaches : ledger.answered ⊆ ledger.issued
  earlier : ∀ cancellation ∈ ledger.cancelled, cancellation.2 ≤ cancellation.1

/-- A disconnect or sign-out finds no unpolled challenge, and none comes during it or after it in
the same attempt. -/
def Prompt (ledger : Ledger) : Input → Prop
  | .worker step => ∀ attempt ∈ ledger.client.challenges step, attempt ∉ ledger.stopped
  | .stop kind meanwhile => ledger.client.closed = false →
    (ledger.client.unanswered = true → ledger.client.pending.isSome = true) ∧
    StepsMeet Client.work (fun client step => client.challenges step = none)
      (ledger.client.cancelPendingAuth kind.detail).2 meanwhile
  | _ => True

theorem client_works (ledger : Ledger) (steps : List WorkerStep) :
    (steps.foldl work ledger).client = steps.foldl Client.work ledger.client := by
  induction steps generalizing ledger with
  | nil => rfl
  | cons step steps ih => exact ih (ledger.work step)

/-- What the host's calls do to the client are the client's own functions. -/
theorem call_client (ledger : Ledger) (input : Input) :
    (ledger.call input).client = match input with
    | .worker _ => ledger.client
    | .connect => ledger.client.connect.2
    | .command => (ledger.client.send .other).2
    | .poll => ledger.client.poll.2
    | .submitAuth id token => (ledger.client.submitAuth id token).2
    | .cancelAuth id => (ledger.client.cancelAuth id).2
    | .stop kind meanwhile => (ledger.client.stop kind meanwhile).2
    | .close => ledger.client.close := by
  cases input with
  | submitAuth id token => cases token <;> rfl
  | stop kind meanwhile =>
    simp only [call, return_, client_works]
    rfl
  | _ => rfl

end Ledger

/-! ## Where the reply of an attempt is -/

/-- The attempt whose event it is. -/
def Event.attempt : Event → Option Nat
  | .authentication attempt => some attempt
  | _ => none

namespace Client

/-- The attempts whose event nobody has polled. -/
def unpolled (client : Client) : List Nat := client.events.filterMap Event.attempt

/-- The attempt that waits for the host. -/
def waits (client : Client) : List Nat :=
  match client.worker with
  | .awaiting attempt none => if client.closed then [] else [attempt]
  | _ => []

/-- The attempt that waits, and no other, has its event in the queue or its reply parked. -/
def Queued (client : Client) : Prop :=
  client.unpolled ++ (client.pending.map (·.2)).toList = client.waits

theorem queued_initial : Queued .open_ := rfl

theorem hasSender_iff {client : Client} {attempt : Nat} : client.hasSender attempt = true ↔
    attempt ∈ client.unpolled ++ (client.pending.map (·.2)).toList := by
  have hauth (event : Event) : event.attempt = some attempt ↔ event = .authentication attempt := by
    cases event <;> simp [Event.attempt]
  have hpending : (client.pending.any fun parked => parked.2 == attempt) = true ↔
      attempt ∈ (client.pending.map (·.2)).toList := by
    cases client.pending with
    | none => simp
    | some parked =>
      rw [Option.any_some, Option.map_some, Option.mem_toList, Option.some.injEq, beq_iff_eq]
  rw [hasSender, Bool.or_eq_true, hpending, List.mem_append, List.contains_iff_mem, unpolled,
    List.mem_filterMap]
  simp only [hauth, exists_eq_right]

/-- Who is blocked waits for the host. -/
theorem Queued.blocked_iff {client : Client} (h : client.Queued) {attempt : Nat} :
    client.Blocked attempt ↔ attempt ∈ client.waits := by
  rw [Blocked, hasSender_iff, h]
  unfold waits
  split
  · by_cases hclosed : client.closed = true <;> simp [hclosed, eq_comm]
  · simp

@[simp] theorem emit_commands (client : Client) (event : Event) :
    (client.emit event).commands = client.commands := by
  unfold emit; split <;> rfl

@[simp] theorem emit_pending (client : Client) (event : Event) :
    (client.emit event).pending = client.pending := by
  unfold emit; split <;> rfl

@[simp] theorem emit_nextAuth (client : Client) (event : Event) :
    (client.emit event).nextAuth = client.nextAuth := by
  unfold emit; split <;> rfl

@[simp] theorem emit_worker (client : Client) (event : Event) :
    (client.emit event).worker = client.worker := by
  unfold emit; split <;> rfl

@[simp] theorem emit_asked (client : Client) (event : Event) :
    (client.emit event).asked = client.asked := by
  unfold emit; split <;> rfl

@[simp] theorem emit_closed (client : Client) (event : Event) :
    (client.emit event).closed = client.closed := by
  unfold emit; split <;> rfl

theorem unpolled_emit {client : Client} {event : Event} (h : event.attempt = none) :
    (client.emit event).unpolled = client.unpolled := by
  unfold emit unpolled
  split
  · rfl
  · simp [h]

@[simp] theorem fail_commands (client : Client) (error : Error) :
    (client.fail error).commands = client.commands := by simp [fail]

@[simp] theorem fail_pending (client : Client) (error : Error) :
    (client.fail error).pending = client.pending := by simp [fail]

@[simp] theorem fail_nextAuth (client : Client) (error : Error) :
    (client.fail error).nextAuth = client.nextAuth := by simp [fail]

@[simp] theorem fail_worker (client : Client) (error : Error) :
    (client.fail error).worker = .idle := by simp [fail]

@[simp] theorem fail_asked (client : Client) (error : Error) :
    (client.fail error).asked = client.asked := by simp [fail]

@[simp] theorem fail_closed (client : Client) (error : Error) :
    (client.fail error).closed = client.closed := by simp [fail]

theorem unpolled_fail (client : Client) (error : Error) :
    (client.fail error).unpolled = client.unpolled := by
  rw [fail, unpolled_emit rfl, unpolled_emit rfl]
  rfl

/-! ## The worker's steps -/

/-- What a step of the worker does. -/
inductive Works (client : Client) : WorkerStep → Client → Prop
  | stays {step} : client.challenges step = none → client.stops step = none →
      Works client step client
  | ends {step} : client.worker = .idle → client.closed = true → client.challenges step = none →
      client.stops step = none → Works client step { client with worker := .finished }
  | takes {command rest} : client.worker = .idle → client.commands = command :: rest →
      Works client .next ({ client with commands := rest }.takeIdle command)
  | obeys {attempt command rest} : client.worker = .live attempt →
      client.commands = command :: rest →
      Works client .next ({ client with commands := rest }.takeLive command)
  | challenged {attempt} : client.worker = .connecting attempt false → client.closed = false →
      Works client .challenge ({ client with
        worker := .awaiting attempt none }.emit (.authentication attempt))
  | answered {attempt token} : client.worker = .awaiting attempt (some (.ok token)) →
      Works client .resume { client with worker := .connecting attempt true }
  | signedIn {attempt challenged} : client.worker = .connecting attempt challenged →
      Works client .signedIn { client with worker := .live attempt }
  | fails {step error} : client.worker ≠ .finished → client.waits = [] →
      client.challenges step = none → client.stops step = none →
      Works client step (client.fail error)

theorem works_next (client : Client) : Works client .next client.next := by
  unfold next
  split
  case h_1 hworker hcommands =>
    split
    · next hclosed => exact .ends hworker hclosed rfl (by simp [stops, hworker])
    · exact .stays rfl (by simp [stops, hworker])
  case h_2 command rest hworker hcommands => exact .takes hworker hcommands
  case h_3 hworker hcommands =>
    split
    · exact .fails (by simp [hworker]) (by simp [waits, hworker]) rfl
        (by simp [stops, hcommands])
    · exact .stays rfl (by simp [stops, hcommands])
  case h_4 command rest hworker hcommands => exact .obeys hworker hcommands
  case h_5 hidle hidle' hlive hlive' =>
    refine .stays rfl ?_
    dsimp only [stops]
    split
    · next hworker hcommands => exact absurd hcommands (hlive' _ _ _ hworker)
    · next hworker hcommands => exact absurd hcommands (hlive' _ _ _ hworker)
    · rfl

theorem works_challenge (client : Client) : Works client .challenge client.challenge := by
  unfold challenge
  split
  case h_1 attempt hworker =>
    split
    · next hclosed =>
      exact .fails (by simp [hworker]) (by simp [waits, hworker]) (by simp [challenges, hworker,
        hclosed]) rfl
    · next hclosed => exact .challenged hworker (by simpa using hclosed)
  case h_2 hworker =>
    exact .fails (by simp [hworker]) (by simp [waits, hworker]) (by simp [challenges, hworker]) rfl
  case h_3 hfirst _ =>
    refine .stays ?_ rfl
    dsimp only [challenges]
    split
    · next attempt hworker => exact absurd hworker (hfirst attempt)
    · rfl

theorem works_resume {client : Client} (h : client.Queued) :
    Works client .resume client.resume := by
  unfold resume
  split
  case h_1 hworker => exact .answered hworker
  case h_2 hworker => exact .fails (by simp [hworker]) (by simp [waits, hworker]) rfl rfl
  case h_3 attempt hworker =>
    split
    · exact .stays rfl rfl
    · next hsender =>
      refine .fails (by simp [hworker]) ?_ rfl rfl
      rw [Bool.not_eq_true, ← Bool.not_eq_true, hasSender_iff, h] at hsender
      unfold waits at hsender ⊢
      simp only [hworker] at hsender ⊢
      by_cases hclosed : client.closed = true <;> simp_all
  case h_4 => exact .stays rfl rfl

theorem works {client : Client} (h : client.Queued) (step : WorkerStep) :
    Works client step (client.work step) := by
  cases step with
  | next => exact works_next client
  | challenge => exact works_challenge client
  | resume => exact works_resume h
  | signedIn =>
    dsimp only [work]
    split
    · next hworker => exact .signedIn hworker
    · exact .stays rfl rfl
  | fails error =>
    dsimp only [work]
    split
    · next hworker => exact .fails (by simp [hworker]) (by simp [waits, hworker]) rfl rfl
    · next hworker => exact .fails (by simp [hworker]) (by simp [waits, hworker]) rfl rfl
    · exact .stays rfl rfl

/-! ## What the worker keeps -/

/-- The attempt at a connection. -/
def attempt (client : Client) : Option Nat :=
  match client.worker with
  | .connecting attempt _ | .awaiting attempt _ | .live attempt => some attempt
  | _ => none

/-- How many connections had been asked for before, and with, the command. -/
def askedBefore : Command → Option Nat
  | .connect asked | .disconnect asked | .signOut asked => some asked
  | _ => none

/-- The number of the attempt, those of the commands and that of all connections. -/
def stamps (client : Client) : List Nat :=
  client.attempt.toList ++ client.commands.filterMap askedBefore ++ [client.asked]

structure Sound (client : Client) : Prop where
  queued : client.Queued
  opened : client.closed = false → client.worker ≠ .finished ∧ .quit ∉ client.commands
  ordered : client.stamps.Pairwise (· ≤ ·)

theorem sound_initial : Sound .open_ where
  queued := queued_initial
  opened _ := by simp [open_]
  ordered := by simp [stamps, attempt, open_]

/-- What is kept when nothing is asked of the host and commands are only taken. -/
theorem Sound.advance {client client' : Client} (h : client.Sound)
    (hclosed : client'.closed = client.closed) (hpending : client'.pending = client.pending)
    (hunpolled : client'.unpolled = client.unpolled) (hwaits : client'.waits = client.waits)
    (hfinished : client'.worker = .finished → client.closed = true)
    (hcommands : client'.commands ⊆ client.commands)
    (hstamps : client'.stamps.Sublist client.stamps) : client'.Sound where
  queued := by simpa only [Queued, hpending, hunpolled, hwaits] using h.queued
  opened hopen := by
    rw [hclosed] at hopen
    refine ⟨fun hworker => ?_, fun hquit => (h.opened hopen).2 (hcommands hquit)⟩
    rw [hfinished hworker] at hopen
    cases hopen
  ordered := h.ordered.sublist hstamps

theorem Sound.quit {client : Client} (h : client.Sound) {rest : List Command}
    (hcommands : client.commands = .quit :: rest) : client.closed = true := by
  cases hclosed : client.closed with
  | true => rfl
  | false => exact absurd (hcommands ▸ List.mem_cons_self) (h.opened hclosed).2

theorem sound_takeIdle {client : Client} (h : client.Sound) {command : Command}
    {rest : List Command} (hworker : client.worker = .idle)
    (hcommands : client.commands = command :: rest) :
    ({ client with commands := rest }.takeIdle command).Sound := by
  have hwaits : client.waits = [] := by simp [waits, hworker]
  have hstamps : client.stamps = (command :: rest).filterMap askedBefore ++ [client.asked] := by
    simp [stamps, attempt, hworker, hcommands]
  have hsub : rest ⊆ client.commands := hcommands ▸ List.subset_cons_self command rest
  cases command with
  | connect attempt =>
    refine h.advance rfl rfl rfl hwaits.symm (by simp [takeIdle]) hsub ?_
    rw [hstamps]
    exact List.Sublist.refl _
  | signOut asked =>
    refine h.advance ?_ ?_ ?_ ?_ ?_ ?_ ?_
    · simp [takeIdle]
    · simp [takeIdle]
    · exact unpolled_emit rfl
    · simp [takeIdle, waits, hworker]
    · simp [takeIdle, hworker]
    · simpa [takeIdle] using hsub
    · simp [takeIdle, stamps, attempt, hworker, hcommands, askedBefore]
  | quit =>
    refine h.advance rfl rfl rfl hwaits.symm (fun _ => h.quit hcommands) hsub ?_
    rw [hstamps]
    exact List.Sublist.refl _
  | disconnect asked =>
    refine h.advance rfl rfl rfl rfl (by simp [takeIdle, hworker]) hsub ?_
    simp [takeIdle, stamps, attempt, hworker, hcommands, askedBefore]
  | other =>
    refine h.advance rfl rfl rfl rfl (by simp [takeIdle, hworker]) hsub ?_
    rw [hstamps]
    simp [takeIdle, stamps, attempt, hworker, List.filterMap_cons, askedBefore]

theorem sound_takeLive {client : Client} (h : client.Sound) {attempt_ : Nat} {command : Command}
    {rest : List Command} (hworker : client.worker = .live attempt_)
    (hcommands : client.commands = command :: rest) :
    ({ client with commands := rest }.takeLive command).Sound := by
  have hwaits : client.waits = [] := by simp [waits, hworker]
  have hstamps : client.stamps =
      attempt_ :: (command :: rest).filterMap askedBefore ++ [client.asked] := by
    simp [stamps, attempt, hworker, hcommands]
  have hsub : rest ⊆ client.commands := hcommands ▸ List.subset_cons_self command rest
  have hrest : (rest.filterMap askedBefore ++ [client.asked]).Sublist client.stamps := by
    rw [hstamps]
    refine List.Sublist.append (List.Sublist.cons _ ?_) (List.Sublist.refl _)
    exact List.Sublist.filterMap _ (List.sublist_cons_self command rest)
  have hlive : (attempt_ :: (rest.filterMap askedBefore ++ [client.asked])).Sublist
      client.stamps := by
    rw [hstamps]
    refine List.Sublist.cons_cons _ (List.Sublist.append ?_ (List.Sublist.refl _))
    exact List.Sublist.filterMap _ (List.sublist_cons_self command rest)
  have hstop (asked : Nat) :
      ({ client with commands := rest, worker := .idle }.emit .disconnected).Sound := by
    refine h.advance ?_ ?_ ?_ ?_ ?_ ?_ ?_
    · simp
    · simp
    · exact unpolled_emit rfl
    · simp [waits, hworker]
    · simp
    · simpa using hsub
    · simpa [stamps, attempt] using hrest
  cases command with
  | disconnect asked => exact hstop asked
  | signOut asked => exact hstop asked
  | quit =>
    refine h.advance ?_ ?_ ?_ ?_ ?_ ?_ ?_
    · simp [takeLive]
    · simp [takeLive]
    · exact unpolled_fail _ _
    · simp [takeLive, waits, hworker]
    · simp [takeLive]
    · simpa [takeLive] using hsub
    · simpa [takeLive, stamps, attempt] using hrest
  | connect asked =>
    refine h.advance rfl rfl rfl rfl (by simp [takeLive, hworker]) hsub ?_
    simpa [takeLive, stamps, attempt, hworker] using hlive
  | other =>
    refine h.advance rfl rfl rfl rfl (by simp [takeLive, hworker]) hsub ?_
    simpa [takeLive, stamps, attempt, hworker] using hlive

theorem sound_work {client : Client} (h : client.Sound) (step : WorkerStep) :
    (client.work step).Sound := by
  have hworks := works h.queued step
  generalize client.work step = client' at hworks ⊢
  cases hworks with
  | stays => exact h
  | ends hworker hclosed =>
    refine h.advance rfl rfl rfl ?_ (fun _ => hclosed) (List.Subset.refl _) ?_
    · simp [waits, hworker]
    · simp [stamps, attempt, hworker]
  | takes hworker hcommands => exact sound_takeIdle h hworker hcommands
  | obeys hworker hcommands => exact sound_takeLive h hworker hcommands
  | @challenged attempt_ hworker hclosed =>
    have hnone : client.unpolled = [] ∧ (client.pending.map (·.2)).toList = [] := by
      rw [← List.append_eq_nil_iff, h.queued]
      simp [waits, hworker]
    refine ⟨?_, fun hopen => ?_, ?_⟩
    · have hunpolled : client.events.filterMap Event.attempt = [] := hnone.1
      simp [Queued, unpolled, waits, emit, hclosed, hunpolled, hnone.2, Event.attempt]
    · simpa using (h.opened hclosed).2
    · simpa [stamps, attempt, hworker] using h.ordered
  | answered hworker =>
    refine h.advance rfl rfl rfl ?_ (by simp) (List.Subset.refl _) ?_
    · simp [waits, hworker]
    · simp [stamps, attempt, hworker]
  | signedIn hworker =>
    refine h.advance rfl rfl rfl ?_ (by simp) (List.Subset.refl _) ?_
    · simp [waits, hworker]
    · simp [stamps, attempt, hworker]
  | fails hworker hwaits =>
    refine h.advance ?_ ?_ (unpolled_fail _ _) ?_ ?_ ?_ ?_
    · simp
    · simp
    · rw [hwaits]
      simp [waits]
    · simp
    · simp
    · simp [stamps, attempt]

/-- What a step of the worker leaves alone. -/
theorem frame_work {client : Client} (h : client.Queued) (step : WorkerStep) :
    (client.work step).pending = client.pending ∧ (client.work step).nextAuth = client.nextAuth ∧
    (client.work step).asked = client.asked ∧ (client.work step).closed = client.closed := by
  have hworks := works h step
  generalize client.work step = client' at hworks ⊢
  cases hworks with
  | @takes command _ _ _ => cases command <;> simp [takeIdle]
  | @obeys _ command _ _ _ => cases command <;> simp [takeLive]
  | _ => simp

/-- Only a challenge makes an attempt wait. -/
theorem waits_work {client : Client} (h : client.Queued) (step : WorkerStep) :
    (client.work step).waits = (client.challenges step).toList ++ client.waits := by
  have hworks := works h step
  generalize client.work step = client' at hworks ⊢
  cases hworks with
  | stays hnone => simp [hnone]
  | ends hworker _ hnone => simp [hnone, waits, hworker]
  | @takes command _ hworker hcommands =>
    cases command <;> simp [takeIdle, waits, hworker, challenges]
  | @obeys _ command _ hworker hcommands =>
    cases command <;> simp [takeLive, waits, hworker, challenges]
  | challenged hworker hclosed => simp [waits, hworker, challenges, hclosed]
  | answered hworker => simp [waits, hworker, challenges]
  | signedIn hworker => simp [waits, hworker, challenges]
  | fails _ hwaits hnone =>
    rw [hnone, hwaits]
    simp [waits]

/-- While the worker goes on, an attempt comes to wait when one is challenged. -/
theorem waits_works {client : Client} (h : client.Sound) (steps : List WorkerStep) :
    (steps.foldl work client).Sound ∧ ((steps.foldl work client).waits = [] ↔
      client.waits = [] ∧
        StepsMeet work (fun client step => client.challenges step = none) client steps) := by
  induction steps generalizing client with
  | nil => exact ⟨h, (and_iff_left trivial).symm⟩
  | cons step steps ih =>
    obtain ⟨hsound, hwaits⟩ := ih (sound_work h step)
    refine ⟨hsound, hwaits.trans ?_⟩
    rw [waits_work h.queued, List.append_eq_nil_iff, Option.toList_eq_nil_iff, StepsMeet,
      and_assoc, and_left_comm]

/-! ## What the host's calls keep -/

theorem pending_of_parked {client : Client} {id : Option Nat} {waiting : Nat × Nat}
    (h : client.parked id = some waiting) : client.pending = some waiting :=
  (Option.filter_eq_some_iff.1 h).1

/-- Whose reply is parked waits for it. -/
theorem Queued.of_pending {client : Client} (h : client.Queued) {waiting : Nat × Nat}
    (hpending : client.pending = some waiting) :
    client.worker = .awaiting waiting.2 none ∧ client.closed = false ∧ client.unpolled = [] ∧
      client.waits = [waiting.2] := by
  have hwaits : client.unpolled ++ [waiting.2] = client.waits := by
    have heq : client.unpolled ++ (client.pending.map (·.2)).toList = client.waits := h
    rw [hpending] at heq
    exact heq
  have hone : waiting.2 ∈ client.waits := hwaits ▸ List.mem_append_right _ List.mem_cons_self
  unfold waits at hwaits hone ⊢
  split at hone
  · next attempt hworker =>
    by_cases hclosed : client.closed = true
    · simp [hclosed] at hone
    · obtain rfl : waiting.2 = attempt := by simpa [hclosed] using hone
      simp_all
  · cases hone

/-- The parked reply reaches the attempt that waits for it. -/
theorem answerParked_of_some {client : Client} (h : client.Queued) {id : Option Nat}
    {waiting : Nat × Nat} (hparked : client.parked id = some waiting) (answer : Answer) :
    client.answerParked id answer = (ok, { client with
      pending := none, worker := .awaiting waiting.2 (some answer) }) := by
  have hworker := (h.of_pending (pending_of_parked hparked)).1
  simp [answerParked, hparked, reply, hworker]

theorem answerParked_of_none {client : Client} {id : Option Nat} (hparked : client.parked id = none)
    (answer : Answer) : client.answerParked id answer = (errNoSuchAuth, client) := by
  simp [answerParked, hparked]

theorem sound_answerParked {client : Client} (h : client.Sound) (id : Option Nat)
    (answer : Answer) : (client.answerParked id answer).2.Sound := by
  cases hparked : client.parked id with
  | none => rwa [answerParked_of_none hparked]
  | some waiting =>
    obtain ⟨hworker, hclosed, hunpolled, -⟩ := h.queued.of_pending (pending_of_parked hparked)
    rw [answerParked_of_some h.queued hparked]
    refine ⟨?_, fun _ => ⟨by simp, (h.opened hclosed).2⟩, ?_⟩
    · exact (congrArg (· ++ []) hunpolled).trans rfl
    · simpa [stamps, attempt, hworker] using h.ordered

/-- After an answer without an id nobody waits, unless the event had not been polled. -/
theorem waits_cancelPendingAuth {client : Client} (h : client.Queued)
    (hclosed : client.closed = false) (detail : String) :
    (client.cancelPendingAuth detail).2.waits = [] ↔
      (client.unanswered = true → client.pending.isSome = true) := by
  unfold cancelPendingAuth
  cases hpending : client.pending with
  | none =>
    rw [answerParked_of_none (by simp [parked, hpending])]
    dsimp only [waits, unanswered]
    split
    · simp [hclosed]
    · exact iff_of_true rfl (fun hunanswered => Bool.noConfusion hunanswered)
  | some waiting =>
    have hparked : client.parked none = some waiting := by simp [parked, hpending]
    rw [answerParked_of_some h hparked]
    simp [waits]

theorem sound_send {client : Client} (h : client.Sound) {command : Command} {asked : Nat}
    (hasked : client.asked ≤ asked)
    (hcommand : askedBefore command = none ∨ askedBefore command = some asked)
    (hquit : command ≠ .quit) : ({ client with asked := asked }.send command).2.Sound := by
  have hordered : (client.attempt.toList ++ client.commands.filterMap askedBefore ++
      [asked]).Pairwise (· ≤ ·) := by
    have hold := h.ordered
    rw [stamps, List.pairwise_append] at hold
    rw [List.pairwise_append]
    refine ⟨hold.1, List.pairwise_singleton _ _, fun a ha b hb => ?_⟩
    obtain rfl : b = asked := by simpa using hb
    exact Nat.le_trans (hold.2.2 a ha _ List.mem_cons_self) hasked
  unfold send
  split
  · exact ⟨h.queued, h.opened, hordered⟩
  · next hworker =>
    refine ⟨h.queued, fun hopen => ⟨hworker, ?_⟩, ?_⟩
    · simpa [Ne.symm hquit] using (h.opened hopen).2
    · obtain hnone | hsome := hcommand
      · simpa [stamps, attempt, List.filterMap_cons, hnone] using hordered
      · have htwice : (client.attempt.toList ++ client.commands.filterMap askedBefore ++
            [asked] ++ [asked]).Pairwise (· ≤ ·) := by
          rw [List.pairwise_append]
          refine ⟨hordered, List.pairwise_singleton _ _, fun a ha b hb => ?_⟩
          obtain rfl : b = asked := by simpa using hb
          rw [List.pairwise_append] at hordered
          obtain hfront | hlast := List.mem_append.1 ha
          · exact hordered.2.2 a hfront _ List.mem_cons_self
          · exact Nat.le_of_eq (List.mem_singleton.1 hlast)
        simpa [stamps, attempt, List.filterMap_cons, hsome] using htwice

theorem send_code {client : Client} (h : client.worker ≠ .finished) (command : Command) :
    (client.send command).1 = ok := by
  unfold send
  split
  · next hworker => exact absurd hworker h
  · rfl

theorem waits_send (client : Client) (command : Command) :
    (client.send command).2.waits = client.waits := by
  unfold send
  split <;> rfl

/-- An attempt whose event is still in the queue is the only one that waits. -/
theorem Queued.of_unpolled {client : Client} (h : client.Queued) {attempt : Nat} {rest : List Nat}
    (hunpolled : client.unpolled = attempt :: rest) :
    rest = [] ∧ client.pending = none ∧ client.waits = [attempt] := by
  have heq : client.unpolled ++ (client.pending.map (·.2)).toList = client.waits := h
  rw [hunpolled, List.cons_append] at heq
  have hlength : client.waits.length ≤ 1 := by
    unfold waits
    split
    · split <;> simp
    · simp
  rw [← heq, List.length_cons, List.length_append] at hlength
  have hrest : rest = [] := List.length_eq_zero_iff.1 (by omega)
  have hpending : client.pending = none := by
    cases hpending : client.pending with
    | none => rfl
    | some waiting => simp [hpending] at hlength
  refine ⟨hrest, hpending, ?_⟩
  rw [← heq, hrest, hpending]
  rfl

theorem waits_poll (client : Client) : client.poll.2.waits = client.waits := by
  unfold poll
  split <;> rfl

theorem sound_poll {client : Client} (h : client.Sound) : client.poll.2.Sound := by
  refine ⟨?_, ?_, ?_⟩
  · unfold poll
    split
    · exact h.queued
    · next attempt_ rest hevents =>
      have hunpolled : client.unpolled = attempt_ :: rest.filterMap Event.attempt := by
        simp [unpolled, hevents, Event.attempt]
      obtain ⟨hrest, -, hwaits⟩ := h.queued.of_unpolled hunpolled
      exact (congrArg (· ++ [attempt_]) hrest).trans hwaits.symm
    · next event rest hevent hevents =>
      have hnone : event.attempt = none := by
        cases event with
        | authentication attempt => exact absurd rfl (hevent attempt)
        | _ => rfl
      have hunpolled : client.unpolled = rest.filterMap Event.attempt := by
        simp [unpolled, hevents, hnone]
      exact (congrArg (· ++ _) hunpolled).symm.trans h.queued
  · unfold poll
    split <;> exact h.opened
  · unfold poll
    split <;> exact h.ordered

theorem sound_close {client : Client} (h : client.Sound) : client.close.Sound := by
  have hanswered := sound_answerParked h none
    (.error (authCancelled "client closed during sign-in"))
  have hpending : (client.cancelPendingAuth "client closed during sign-in").2.pending = none := by
    unfold cancelPendingAuth
    cases hpending : client.pending with
    | none =>
      have hparked : client.parked none = none := by simp [parked, hpending]
      rw [answerParked_of_none hparked]
      exact hpending
    | some waiting =>
      have hparked : client.parked none = some waiting := by simp [parked, hpending]
      rw [answerParked_of_some h.queued hparked]
  have hqueued (client' : Client) (h : client'.pending = none) :
      ({ (client'.send .quit).2 with events := [], closed := true } : Client).Queued := by
    have hpending : (client'.send .quit).2.pending = none := by
      unfold send
      split <;> exact h
    unfold Queued waits unpolled
    rw [hpending]
    dsimp only
    split <;> rfl
  have hstamps (client' : Client) :
      ({ (client'.send .quit).2 with events := [], closed := true } : Client).stamps =
        client'.stamps := by
    unfold send
    split
    · rfl
    · simp [stamps, attempt, List.filterMap_cons, askedBefore]
  refine ⟨hqueued _ hpending, by simp [close], ?_⟩
  exact (hstamps _).symm ▸ hanswered.ordered

end Client

/-! ## What holds in every run -/

namespace Ledger

open Client

structure Sound (ledger : Ledger) : Prop where
  client : ledger.client.Sound
  parked : ∀ waiting, ledger.client.pending = some waiting →
    waiting ∈ ledger.issued ∧ waiting.1 ∉ ledger.answered.map (·.1)
  below : ∀ id ∈ ledger.issued.map (·.1), id < ledger.client.nextAuth
  issuedOnce : (ledger.issued.map (·.1)).Nodup
  answeredOnce : (ledger.answered.map (·.1)).Nodup
  reaches : ledger.answered ⊆ ledger.issued
  earlier : ∀ cancellation ∈ ledger.cancelled, cancellation.2 ≤ cancellation.1

theorem sound_initial : Sound initial where
  client := Client.sound_initial
  parked waiting h := by cases h
  below id h := by cases h
  issuedOnce := List.nodup_nil
  answeredOnce := List.nodup_nil
  reaches := List.Subset.refl _
  earlier cancellation h := by cases h

/-- The number of the attempt is at most that of any command, and of all connections. -/
theorem attempt_le {client : Client} (h : client.Sound) {attempt : Nat}
    (hattempt : client.attempt = some attempt) :
    attempt ≤ client.asked ∧ ∀ command ∈ client.commands, ∀ asked,
      askedBefore command = some asked → attempt ≤ asked := by
  have hordered := h.ordered
  rw [stamps, hattempt, Option.toList_some, List.append_assoc, List.singleton_append,
    List.pairwise_cons] at hordered
  constructor
  · exact hordered.1 _ (List.mem_append_right _ List.mem_cons_self)
  · intro command hcommand asked hasked
    exact hordered.1 _ (List.mem_append_left _ (List.mem_filterMap.2 ⟨command, hcommand, hasked⟩))

theorem le_of_stops {client : Client} (h : client.Sound) {step : WorkerStep} {stop : Nat × Nat}
    (hstop : client.stops step = some stop) : stop.2 ≤ stop.1 := by
  unfold stops at hstop
  split at hstop
  · split at hstop
    · next live asked rest hworker hcommands =>
      cases hstop
      exact (attempt_le h (by simp [attempt, hworker])).2 (.disconnect asked)
        (by simp [hcommands]) asked rfl
    · next live asked rest hworker hcommands =>
      cases hstop
      exact (attempt_le h (by simp [attempt, hworker])).2 (.signOut asked)
        (by simp [hcommands]) asked rfl
    · cases hstop
  · cases hstop

theorem sound_work {ledger : Ledger} (h : ledger.Sound) (step : WorkerStep) :
    (ledger.work step).Sound := by
  obtain ⟨hpending, hnext, -, -⟩ := frame_work h.client.queued step
  refine ⟨Client.sound_work h.client step, ?_, ?_, h.issuedOnce, h.answeredOnce, h.reaches, ?_⟩
  · simpa only [work, hpending] using h.parked
  · simpa only [work, hnext] using h.below
  · intro cancellation hmem
    obtain hold | hnew := List.mem_append.1 hmem
    · exact h.earlier cancellation hold
    · exact le_of_stops h.client (Option.mem_toList.1 hnew)

theorem sound_works {ledger : Ledger} (h : ledger.Sound) (steps : List WorkerStep) :
    (steps.foldl work ledger).Sound := by
  induction steps generalizing ledger with
  | nil => exact h
  | cons step steps ih => exact ih (sound_work h step)

theorem sound_answer {ledger : Ledger} (h : ledger.Sound) (id : Option Nat) (reply : Answer) :
    (ledger.answer id reply).Sound := by
  cases hparked : ledger.client.parked id with
  | none =>
    have hsame : ledger.answer id reply = ledger := by
      simp [answer, hparked, answerParked_of_none hparked]
    rwa [hsame]
  | some waiting =>
    obtain ⟨hissued, hfresh⟩ := h.parked waiting (pending_of_parked hparked)
    have hclient := answerParked_of_some h.client.queued hparked reply
    refine ⟨sound_answerParked h.client id reply, ?_, ?_, h.issuedOnce, ?_, ?_, h.earlier⟩
    · intro other hother
      rw [answer, hclient] at hother
      cases hother
    · intro issued hmem
      rw [answer, hclient]
      exact h.below issued hmem
    · simp only [answer, hparked, Option.toList_some, List.map_append, List.map_cons, List.map_nil]
      rw [List.nodup_append]
      refine ⟨h.answeredOnce, List.pairwise_singleton _ _, fun a ha b hb hab => ?_⟩
      rw [List.mem_singleton] at hb
      exact hfresh (hb ▸ hab ▸ ha)
    · simp only [answer, hparked, Option.toList_some]
      exact List.append_subset.2 ⟨h.reaches, by simpa using hissued⟩

theorem sound_cancel {ledger : Ledger} (h : ledger.Sound) (id : Option Nat) (detail : String) :
    (ledger.cancel id detail).Sound := by
  have hanswer := sound_answer h id (.error (authCancelled detail))
  refine ⟨hanswer.client, hanswer.parked, hanswer.below, hanswer.issuedOnce,
    hanswer.answeredOnce, hanswer.reaches, ?_⟩
  intro cancellation hmem
  obtain hold | hnew := List.mem_append.1 hmem
  · exact h.earlier cancellation hold
  · rw [Option.mem_toList, Option.map_eq_some_iff] at hnew
    obtain ⟨waiting, hparked, rfl⟩ := hnew
    have hworker := (h.client.queued.of_pending (pending_of_parked hparked)).1
    exact (attempt_le h.client (by simp [attempt, hworker])).1

/-- A call that sends a command, or polls, changes none of what is parked or issued. -/
theorem sound_send {ledger : Ledger} (h : ledger.Sound) {client : Client} (hclient : client.Sound)
    (hpending : client.pending = ledger.client.pending)
    (hnext : client.nextAuth = ledger.client.nextAuth) (stopped : List Nat) :
    ({ ledger with client := client, stopped := stopped } : Ledger).Sound where
  client := hclient
  parked := by simpa only [hpending] using h.parked
  below := by simpa only [hnext] using h.below
  issuedOnce := h.issuedOnce
  answeredOnce := h.answeredOnce
  reaches := h.reaches
  earlier := h.earlier

theorem sound_poll {ledger : Ledger} (h : ledger.Sound) : (ledger.call .poll).Sound := by
  have hsound := Client.sound_poll h.client
  cases hevents : ledger.client.events with
  | nil =>
    have hsame : ledger.call .poll = ledger := by simp [call, poll, hevents]
    rwa [hsame]
  | cons event rest =>
    by_cases hevent : ∃ attempt, event = .authentication attempt
    · obtain ⟨attempt_, rfl⟩ := hevent
      have hfresh : ledger.client.nextAuth ∉ ledger.issued.map (·.1) :=
        fun hmem => Nat.lt_irrefl _ (h.below _ hmem)
      refine ⟨hsound, ?_, ?_, ?_, h.answeredOnce, ?_, h.earlier⟩
      · intro waiting hwaiting
        obtain rfl : (ledger.client.nextAuth, attempt_) = waiting := by
          simpa [call, poll, hevents] using hwaiting
        refine ⟨by simp [call, poll, hevents], fun hmem => ?_⟩
        obtain ⟨other, hother, heq⟩ := List.mem_map.1 hmem
        exact hfresh (List.mem_map.2 ⟨other, h.reaches hother, heq⟩)
      · intro id hid
        have hcases : id ∈ ledger.issued.map (·.1) ∨ id = ledger.client.nextAuth := by
          simpa [call, poll, hevents, or_comm] using hid
        have hnext : (ledger.call .poll).client.nextAuth = ledger.client.nextAuth + 1 := by
          simp [call, poll, hevents]
        obtain hold | hnew := hcases
        · exact hnext ▸ Nat.lt_succ_of_lt (h.below id hold)
        · omega
      · have hissued : (ledger.call .poll).issued.map (·.1) =
            ledger.issued.map (·.1) ++ [ledger.client.nextAuth] := by simp [call, poll, hevents]
        rw [hissued, List.nodup_append]
        refine ⟨h.issuedOnce, List.pairwise_singleton _ _, fun a ha b hb hab => ?_⟩
        rw [List.mem_singleton] at hb
        exact hfresh (hb ▸ hab ▸ ha)
      · exact fun waiting hmem => List.mem_append_left _ (h.reaches hmem)
    · have hpoll : ledger.call .poll =
          { ledger with client := ledger.client.poll.2, stopped := ledger.stopped } := by
        cases event with
        | authentication attempt => exact absurd ⟨attempt, rfl⟩ hevent
        | _ => simp [call, poll, hevents]
      rw [hpoll]
      refine sound_send h hsound ?_ ?_ _
      · cases event with
        | authentication attempt => exact absurd ⟨attempt, rfl⟩ hevent
        | _ => simp [poll, hevents]
      · cases event with
        | authentication attempt => exact absurd ⟨attempt, rfl⟩ hevent
        | _ => simp [poll, hevents]

theorem frame_send (client : Client) (command : Command) :
    (client.send command).2.pending = client.pending ∧
    (client.send command).2.nextAuth = client.nextAuth := by
  unfold send
  split <;> exact ⟨rfl, rfl⟩

/-- The connections that are asked for stay so until the host asks again. -/
theorem asked_works {ledger : Ledger} (h : ledger.Sound) (steps : List WorkerStep) :
    (steps.foldl work ledger).client.asked = ledger.client.asked ∧
    (steps.foldl work ledger).client.closed = ledger.client.closed := by
  induction steps generalizing ledger with
  | nil => exact ⟨rfl, rfl⟩
  | cons step steps ih =>
    obtain ⟨-, -, hasked, hclosed⟩ := frame_work h.client.queued step
    exact ⟨(ih (sound_work h step)).1.trans hasked, (ih (sound_work h step)).2.trans hclosed⟩

theorem frame_cancel {ledger : Ledger} (h : ledger.Sound) (id : Option Nat) (detail : String) :
    (ledger.cancel id detail).client.asked = ledger.client.asked ∧
    (ledger.cancel id detail).client.closed = ledger.client.closed := by
  cases hparked : ledger.client.parked id with
  | none => simp [cancel, answer, answerParked_of_none hparked]
  | some waiting => simp [cancel, answer, answerParked_of_some h.client.queued hparked]

theorem sound_stop {ledger : Ledger} (h : ledger.Sound) (kind : Client.Stop)
    (meanwhile : List WorkerStep) : (ledger.call (.stop kind meanwhile)).Sound := by
  have hcancel := sound_cancel h none kind.detail
  have hworked := sound_works hcancel meanwhile
  have hasked : (meanwhile.foldl work (ledger.cancel none kind.detail)).client.asked =
      ledger.client.asked :=
    (asked_works hcancel meanwhile).1.trans (frame_cancel h none kind.detail).1
  obtain ⟨hpending, hnext⟩ := frame_send
    (meanwhile.foldl work (ledger.cancel none kind.detail)).client
    (kind.command ledger.client.asked)
  refine sound_send hworked ?_ hpending hnext _
  refine Client.sound_send hworked.client (Nat.le_refl _) ?_ ?_
  · rw [hasked]
    cases kind <;> exact .inr rfl
  · cases kind <;> simp [Client.Stop.command]

theorem sound_step {ledger : Ledger} (h : ledger.Sound) (input : Input) :
    (ledger.step input).Sound := by
  have hcall (input : Input) (hinput : (ledger.call input).Sound) :
      (if ledger.client.closed then ledger else ledger.call input).Sound := by
    split
    · exact h
    · exact hinput
  cases input with
  | worker step => exact sound_work h step
  | connect =>
    refine hcall .connect ?_
    obtain ⟨hpending, hnext⟩ := frame_send
      { ledger.client with asked := ledger.client.asked + 1 } (.connect (ledger.client.asked + 1))
    exact sound_send h (Client.sound_send h.client (Nat.le_succ _) (.inr rfl) (by simp)) hpending
      hnext _
  | command =>
    refine hcall .command ?_
    obtain ⟨hpending, hnext⟩ := frame_send ledger.client .other
    exact sound_send h (Client.sound_send h.client (Nat.le_refl _) (.inl rfl) (by simp)) hpending
      hnext _
  | poll => exact hcall .poll (sound_poll h)
  | submitAuth id token =>
    refine hcall (.submitAuth id token) ?_
    cases token with
    | none => exact h
    | some token => exact sound_answer h _ _
  | cancelAuth id => exact hcall (.cancelAuth id) (sound_cancel h _ _)
  | stop kind meanwhile => exact hcall (.stop kind meanwhile) (sound_stop h kind meanwhile)
  | close =>
    refine hcall .close ?_
    have hcancel := sound_cancel h none "client closed during sign-in"
    have hsent := frame_send (ledger.cancel none "client closed during sign-in").client .quit
    exact sound_send hcancel (sound_close h.client) hsent.1 hsent.2 _

/-! ## Who is left blocked -/

/-- Nobody waits who was under way when a disconnect or sign-out returned. -/
def Heard (ledger : Ledger) : Prop := ∀ attempt ∈ ledger.client.waits, attempt ∉ ledger.stopped

theorem cancellable_iff_heard {ledger : Ledger} (h : ledger.Sound) :
    ledger.Cancellable ↔ ledger.Heard := by
  have hblocked : ledger.Heard ↔ ∀ attempt, ledger.client.Blocked attempt →
      attempt ∉ ledger.stopped :=
    forall_congr' fun attempt => by rw [h.client.queued.blocked_iff]
  rw [hblocked]
  exact ⟨fun hcancellable => hcancellable.unblocked,
    fun hunblocked => ⟨hunblocked, h.issuedOnce, h.answeredOnce, h.reaches, h.earlier⟩⟩

theorem heard_work {ledger : Ledger} (h : ledger.Sound) (hheard : ledger.Heard)
    (step : WorkerStep) : (ledger.work step).Heard ↔ ledger.Prompt (.worker step) := by
  unfold Heard Prompt
  dsimp only [work]
  rw [waits_work h.client.queued]
  constructor
  · exact fun hnew attempt hmem => hnew attempt
      (List.mem_append_left _ (Option.mem_toList.2 hmem))
  · intro hprompt attempt hmem
    obtain hnew | hold := List.mem_append.1 hmem
    · exact hprompt attempt (Option.mem_toList.1 hnew)
    · exact hheard attempt hold

theorem underWay_of_waits {client : Client} {attempt : Nat} (h : attempt ∈ client.waits) :
    client.underWay = some attempt := by
  unfold waits at h
  unfold underWay
  split at h
  · next waiting hworker =>
    split at h
    · cases h
    · rw [hworker, List.mem_singleton.1 h]
  · cases h

/-- A disconnect or sign-out leaves nobody blocked when nobody waits at its end. -/
theorem heard_stop {ledger : Ledger} (h : ledger.Sound) (hclosed : ledger.client.closed = false)
    (kind : Client.Stop) (meanwhile : List WorkerStep) :
    (ledger.call (.stop kind meanwhile)).Heard ↔ ledger.Prompt (.stop kind meanwhile) := by
  have hcancel := sound_cancel h none kind.detail
  have hworked := sound_works hcancel meanwhile
  have hwaits := (waits_works hcancel.client meanwhile).2
  have hprompt : ledger.Prompt (.stop kind meanwhile) ↔
      (meanwhile.foldl work (ledger.cancel none kind.detail)).client.waits = [] := by
    rw [client_works, hwaits]
    exact (forall_prop_of_true hclosed).trans
      (and_congr_left' (waits_cancelPendingAuth h.client.queued hclosed kind.detail).symm)
  have hopen : (meanwhile.foldl work (ledger.cancel none kind.detail)).client.worker ≠
      .finished := by
    refine (hworked.client.opened ?_).1
    exact ((asked_works hcancel meanwhile).2.trans (frame_cancel h none kind.detail).2).trans
      hclosed
  rw [hprompt]
  unfold Heard
  dsimp only [call, return_]
  rw [waits_send, if_pos (send_code hopen _)]
  constructor
  · intro hheard
    refine List.eq_nil_iff_forall_not_mem.2 fun attempt hmem => ?_
    exact hheard attempt hmem (List.mem_append_right _
      (Option.mem_toList.2 (underWay_of_waits hmem)))
  · intro hnil attempt hmem
    rw [hnil] at hmem
    cases hmem

theorem waits_answerParked {client : Client} (h : client.Queued) (id : Option Nat)
    (answer : Answer) : (client.answerParked id answer).2.waits ⊆ client.waits := by
  cases hparked : client.parked id with
  | none => rw [answerParked_of_none hparked]; exact List.Subset.refl _
  | some waiting => rw [answerParked_of_some h hparked]; exact List.nil_subset _

theorem waits_close (client : Client) : client.close.waits = [] := by
  unfold waits
  split
  · exact if_pos rfl
  · rfl

/-- A step leaves nobody blocked exactly when it is prompt. -/
theorem heard_step {ledger : Ledger} (h : ledger.Sound) (hheard : ledger.Heard) (input : Input) :
    (ledger.step input).Heard ↔ ledger.Prompt input := by
  have hkept (input : Input) (hwaits : (ledger.call input).client.waits ⊆ ledger.client.waits)
      (hstopped : (ledger.call input).stopped = ledger.stopped) :
      Heard (if ledger.client.closed then ledger else ledger.call input) := by
    split
    · exact hheard
    · intro attempt hmem
      rw [hstopped]
      exact hheard attempt (hwaits hmem)
  cases input with
  | worker step => exact heard_work h hheard step
  | connect =>
    refine iff_of_true (hkept .connect (fun attempt hmem => ?_) rfl) trivial
    exact waits_send { ledger.client with asked := ledger.client.asked + 1 }
      (.connect (ledger.client.asked + 1)) ▸ hmem
  | command =>
    exact iff_of_true (hkept .command (fun _ hmem => waits_send _ _ ▸ hmem) rfl) trivial
  | poll => exact iff_of_true (hkept .poll (fun _ hmem => waits_poll _ ▸ hmem) rfl) trivial
  | submitAuth id token =>
    refine iff_of_true (hkept (.submitAuth id token) ?_ ?_) trivial
    · cases token with
      | none => exact List.Subset.refl _
      | some token => exact waits_answerParked h.client.queued _ _
    · cases token <;> rfl
  | cancelAuth id =>
    exact iff_of_true (hkept (.cancelAuth id) (waits_answerParked h.client.queued _ _) rfl) trivial
  | stop kind meanwhile =>
    cases hclosed : ledger.client.closed with
    | false =>
      have hstep : ledger.step (.stop kind meanwhile) = ledger.call (.stop kind meanwhile) := by
        simp [step, hclosed]
      rw [hstep]
      exact heard_stop h hclosed kind meanwhile
    | true =>
      have hstep : ledger.step (.stop kind meanwhile) = ledger := by simp [step, hclosed]
      rw [hstep]
      exact iff_of_true hheard (fun hopen => absurd (hclosed.symm.trans hopen) (by simp))
  | close =>
    refine iff_of_true (hkept .close ?_ rfl) trivial
    exact (congrArg (· ⊆ ledger.client.waits) (waits_close ledger.client)).mpr
      (List.nil_subset _)

/-- **Cancelling.** Every attempt can be cancelled exactly in the prompt runs. -/
theorem cancellable_iff (inputs : List Input) :
    StatesMeet step Cancellable initial inputs ↔ StepsMeet step Prompt initial inputs := by
  refine statesMeet_iff_stepsMeet (I := fun ledger => ledger.Sound ∧ ledger.Heard) ?_ ?_ ?_ ?_
  · exact fun ledger h => (cancellable_iff_heard h.1).2 h.2
  · exact fun ledger input h hprompt =>
      ⟨sound_step h.1 input, (heard_step h.1 h.2 input).2 hprompt⟩
  · intro ledger input h hprompt hcancellable
    have hheard := (cancellable_iff_heard (sound_step h.1 input)).1 hcancellable
    exact hprompt ((heard_step h.1 h.2 input).1 hheard)
  · exact ⟨sound_initial, fun attempt hmem => absurd hmem List.not_mem_nil⟩

/-- The host disconnects before it has polled the challenge. -/
theorem not_cancellable :
    ¬ ∀ inputs : List Input, StatesMeet step Cancellable initial inputs := by
  intro h
  have hlast := (h [.connect, .worker .next, .worker .challenge, .stop .disconnect []]).last
  exact hlast.unblocked 1 ⟨rfl, by decide⟩ (by decide)

end Ledger

end Superiority.Stimpak
