import Mathlib.Data.List.Basic

/-!
# Programs that may fail or stop at any call

A program over a state of type `σ` makes calls. What becomes of each call is decided outside: it is
done, it fails and changes nothing, or the process stops at it. A run records every state it has
seen, so a law can be stated of each point of the program and not only of its end.

* `Program.Spec` – a triple for every run: a law `A` in every state seen, `Q` on return, `E` on an
  error;
* `Program.Done` – a triple for the run in which every call that can be done is done, and
  `Program.Passes` for a state that this run comes through.

The rules are those of sequencing, of a call, of a failure that is caught, and of a loop.
-/

namespace Superiority

/-- What becomes of a call. -/
inductive Fate where
  | done
  | fails
  | stops
  deriving DecidableEq, Repr

/-- How a program ends that does not return. -/
inductive Halt (ε : Type) where
  | failed (error : ε)
  | stopped
  deriving DecidableEq, Repr

/-- The state, the fates of the calls to come (those after the list are done), and the states seen
so far. -/
structure Machine (σ : Type) where
  state : σ
  fates : List Fate := []
  seen : List σ := []

/-- How an end follows from a beginning: nothing seen is forgotten, the state that is left was seen,
and a run that nothing disturbs does not stop. -/
structure Follows {ε σ α : Type} (w : Machine σ) (end_ : Except (Halt ε) α × Machine σ) : Prop where
  remembers : w.seen ⊆ end_.2.seen
  sees : w.state ∈ w.seen → end_.2.state ∈ end_.2.seen
  undisturbed : w.fates = [] → end_.2.fates = [] ∧ end_.1 ≠ .error .stopped

structure Program (ε σ α : Type) where
  exec : Machine σ → Except (Halt ε) α × Machine σ
  follows : ∀ w, Follows w (exec w)

namespace Program

variable {ε σ α β : Type}

theorem follows_refl {w : Machine σ} {r : Except (Halt ε) α} (hr : r ≠ .error .stopped) :
    Follows w (r, w) :=
  ⟨List.Subset.refl _, id, fun h => ⟨h, hr⟩⟩

theorem follows_trans {w w' : Machine σ} {r : Except (Halt ε) α}
    {end_ : Except (Halt ε) β × Machine σ} (h : Follows w (r, w')) (h' : Follows w' end_) :
    Follows w end_ where
  remembers := List.Subset.trans h.remembers h'.remembers
  sees hmem := h'.sees (h.sees hmem)
  undisturbed hfates := h'.undisturbed (h.undisturbed hfates).1

/-- The same end with another value. -/
theorem follows_map {w w' : Machine σ} {r : Except (Halt ε) α} {r' : Except (Halt ε) β}
    (h : Follows w (r, w')) (hr : r ≠ .error .stopped → r' ≠ .error .stopped) :
    Follows w (r', w') :=
  ⟨h.remembers, h.sees, fun hfates => (h.undisturbed hfates).imp_right hr⟩

instance : Monad (Program ε σ) where
  pure a :=
    { exec := fun w => (.ok a, w)
      follows := fun _ => follows_refl nofun }
  bind m f :=
    { exec := fun w => match m.exec w with
        | (.ok a, w') => (f a).exec w'
        | (.error h, w') => (.error h, w')
      follows := by
        intro w
        have hm := m.follows w
        match m.exec w, hm with
        | (.ok a, w'), hm => exact follows_trans hm ((f a).follows w')
        | (.error h, _), hm => exact follows_map hm fun hne heq => hne (Except.error.inj heq ▸ rfl) }

/-- The run from a state, with its outcome. -/
def run (m : Program ε σ α) (state : σ) (fates : List Fate) : Except (Halt ε) α × Machine σ :=
  m.exec { state, fates, seen := [state] }

def fail (e : ε) : Program ε σ α where
  exec w := (.error (.failed e), w)
  follows _ := follows_refl nofun

/-- What a call does when it is neither made to fail nor the last. -/
def perform (e : ε) (act : σ → Option (α × σ)) (w : Machine σ) (fates : List Fate) :
    Except (Halt ε) α × Machine σ :=
  match act w.state with
  | none => (.error (.failed e), { w with fates })
  | some (a, state) => (.ok a, { state, fates, seen := w.seen ++ [state] })

/-- A call. It fails with `e` when it cannot be done. -/
def call (e : ε) (act : σ → Option (α × σ)) : Program ε σ α where
  exec w := match w.fates with
    | .stops :: fates => (.error .stopped, { w with fates })
    | .fails :: fates => (.error (.failed e), { w with fates })
    | .done :: fates => perform e act w fates
    | [] => perform e act w []
  follows := by
    intro w
    have hperform : ∀ fates, (w.fates = [] → fates = []) → Follows w (perform e act w fates) := by
      intro fates hfates
      rw [perform]
      split
      · exact ⟨List.Subset.refl _, id, fun h => ⟨hfates h, nofun⟩⟩
      · exact ⟨List.subset_append_left _ _,
          fun _ => List.mem_append_right _ (List.mem_singleton_self _), fun h => ⟨hfates h, nofun⟩⟩
    cases hfates : w.fates with
    | nil => exact hperform _ fun _ => rfl
    | cons fate fates =>
      have hnot : w.fates ≠ [] := by simp [hfates]
      cases fate with
      | done => exact hperform _ fun h => absurd h hnot
      | fails => exact ⟨List.Subset.refl _, id, fun h => absurd h hnot⟩
      | stops => exact ⟨List.Subset.refl _, id, fun h => absurd h hnot⟩

/-- A call that changes the state. -/
def change (e : ε) (act : σ → Option σ) : Program ε σ Unit :=
  call e fun s => (act s).map ((), ·)

/-- A call that only reads. -/
def read (e : ε) (get : σ → Option α) : Program ε σ α :=
  call e fun s => (get s).map (·, s)

/-- A failure becomes a value. -/
def attempt (m : Program ε σ α) : Program ε σ (Except ε α) where
  exec w := match m.exec w with
    | (.ok a, w') => (.ok (.ok a), w')
    | (.error (.failed e), w') => (.ok (.error e), w')
    | (.error .stopped, w') => (.error .stopped, w')
  follows := by
    intro w
    have hm := m.follows w
    match m.exec w, hm with
    | (.ok _, _), hm => exact follows_map hm fun _ => nofun
    | (.error (.failed _), _), hm => exact follows_map hm fun _ => nofun
    | (.error .stopped, _), hm => exact follows_map hm fun h => absurd rfl h

/-- A test that answers no when it fails. -/
def probe (e : ε) (test : σ → Bool) : Program ε σ Bool := do
  match ← attempt (read e fun s => some (test s)) with
  | .ok answer => pure answer
  | .error _ => pure false

def each (f : β → Program ε σ Unit) : List β → Program ε σ Unit
  | [] => pure ()
  | b :: bs => do
    f b
    each f bs

/-! ## Every run -/

/-- The law holds in every state seen, `Q` of a value that was returned and `E` at an error. -/
def Ends (A : σ → Prop) (Q : α → σ → Prop) (E : σ → Prop) :
    Except (Halt ε) α × Machine σ → Prop
  | (.ok a, w) => (∀ s ∈ w.seen, A s) ∧ Q a w.state
  | (.error (.failed _), w) => (∀ s ∈ w.seen, A s) ∧ E w.state
  | (.error .stopped, w) => ∀ s ∈ w.seen, A s

/-- What every run of the program from a state with `P` comes to. -/
def Spec (A P : σ → Prop) (m : Program ε σ α) (Q : α → σ → Prop) (E : σ → Prop) : Prop :=
  ∀ w, P w.state → (∀ s ∈ w.seen, A s) → Ends A Q E (m.exec w)

section Spec

variable {A P P' E E' : σ → Prop} {Q Q' : α → σ → Prop} {R : β → σ → Prop}

theorem Ends.seen {end_ : Except (Halt ε) α × Machine σ} (h : Ends A Q E end_) :
    ∀ s ∈ end_.2.seen, A s := by
  match end_, h with
  | (.ok _, _), h => exact h.1
  | (.error (.failed _), _), h => exact h.1
  | (.error .stopped, _), h => exact h

theorem Ends.value {end_ : Except (Halt ε) α × Machine σ} (h : Ends A Q E end_) {a : α}
    (ha : end_.1 = .ok a) : Q a end_.2.state := by
  match end_, h with
  | (.ok _, _), h => exact Except.ok.inj ha ▸ h.2

theorem Spec.weaken {m : Program ε σ α} (h : Spec A P m Q E) (hP : ∀ s, P' s → P s)
    (hQ : ∀ a s, Q a s → Q' a s) (hE : ∀ s, E s → E' s) : Spec A P' m Q' E' := by
  intro w hw hA
  have hend := h w (hP _ hw) hA
  match m.exec w, hend with
  | (.ok _, _), hend => exact ⟨hend.1, hQ _ _ hend.2⟩
  | (.error (.failed _), _), hend => exact ⟨hend.1, hE _ hend.2⟩
  | (.error .stopped, _), hend => exact hend

/-- What a precondition says of no state is a hypothesis. -/
theorem Spec.assume {m : Program ε σ α} {φ : Prop} (h : φ → Spec A P m Q E) :
    Spec A (fun s => P s ∧ φ) m Q E :=
  fun w hw hA => h hw.2 w hw.1 hA

theorem Spec.pure {a : α} (h : ∀ s, P s → Q a s) :
    Spec A P (Pure.pure a : Program ε σ α) Q E :=
  fun w hP hA => ⟨hA, h w.state hP⟩

theorem Spec.fail {e : ε} (h : ∀ s, P s → E s) :
    Spec A P (Program.fail e : Program ε σ α) Q E :=
  fun w hP hA => ⟨hA, h w.state hP⟩

theorem Spec.bind {m : Program ε σ α} {f : α → Program ε σ β} (hm : Spec A P m Q E)
    (hf : ∀ a, Spec A (Q a) (f a) R E) : Spec A P (m >>= f) R E := by
  intro w hP hA
  have hend := hm w hP hA
  show Ends A R E (match m.exec w with
    | (.ok a, w') => (f a).exec w'
    | (.error h, w') => (.error h, w'))
  match m.exec w, hend with
  | (.ok a, w'), hend => exact hf a w' hend.2 hend.1
  | (.error (.failed _), _), hend => exact hend
  | (.error .stopped, _), hend => exact hend

theorem Spec.call {e : ε} {act : σ → Option (α × σ)}
    (hact : ∀ s a s', P s → act s = some (a, s') → A s' ∧ Q a s') (hE : ∀ s, P s → E s) :
    Spec A P (Program.call e act) Q E := by
  intro w hP hA
  have hdone : ∀ fates, Ends A Q E (perform e act w fates) := by
    intro fates
    rw [perform]
    cases hsome : act w.state with
    | none => exact ⟨hA, hE _ hP⟩
    | some r =>
      obtain ⟨a, state⟩ := r
      obtain ⟨hstate, hQ⟩ := hact _ _ _ hP hsome
      refine ⟨fun s hs => ?_, hQ⟩
      rcases List.mem_append.1 hs with hs | hs
      · exact hA s hs
      · exact List.mem_singleton.1 hs ▸ hstate
  dsimp only [Program.call]
  split
  · exact hA
  · exact ⟨hA, hE _ hP⟩
  · exact hdone _
  · exact hdone _

theorem Spec.change {e : ε} {act : σ → Option σ} {Q : Unit → σ → Prop}
    (hact : ∀ s s', P s → act s = some s' → A s' ∧ Q () s') (hE : ∀ s, P s → E s) :
    Spec A P (Program.change e act) Q E := by
  refine Spec.call (fun s a s' hP hsome => ?_) hE
  obtain ⟨s'', hs'', heq⟩ := Option.map_eq_some_iff.1 hsome
  cases heq
  exact hact s _ hP hs''

/-- Reading leaves the state as it is. -/
theorem Spec.read {e : ε} {get : σ → Option α} (hA : ∀ s, P s → A s)
    (hget : ∀ s a, P s → get s = some a → Q a s) (hE : ∀ s, P s → E s) :
    Spec A P (Program.read e get) Q E := by
  refine Spec.call (fun s a s' hP hsome => ?_) hE
  obtain ⟨a', ha', heq⟩ := Option.map_eq_some_iff.1 hsome
  cases heq
  exact ⟨hA s hP, hget s _ hP ha'⟩

theorem Spec.attempt {m : Program ε σ α} {R : Except ε α → σ → Prop} (h : Spec A P m Q E)
    (hok : ∀ a s, Q a s → R (.ok a) s) (herror : ∀ e s, E s → R (.error e) s) :
    Spec A P (Program.attempt m) R E' := by
  intro w hP hA
  have hend := h w hP hA
  dsimp only [Program.attempt]
  match m.exec w, hend with
  | (.ok _, _), hend => exact ⟨hend.1, hok _ _ hend.2⟩
  | (.error (.failed _), _), hend => exact ⟨hend.1, herror _ _ hend.2⟩
  | (.error .stopped, _), hend => exact hend

/-- A test may say no without being asked, but a yes is true. -/
theorem Spec.probe {e : ε} {test : σ → Bool} (hA : ∀ s, P s → A s) :
    Spec A P (Program.probe e test) (fun answer s => P s ∧ (answer = true → test s = true)) E := by
  refine Spec.bind (Q := fun r s => P s ∧ ∀ b, r = .ok b → b = test s) ?_ fun r => ?_
  · refine Spec.attempt (Q := fun b s => P s ∧ b = test s) (E := P)
      (Spec.read hA (fun s a hP ha => ⟨hP, (Option.some.inj ha).symm⟩) fun s hP => hP) ?_ ?_
    · intro a s h
      exact ⟨h.1, fun b hb => (Except.ok.inj hb) ▸ h.2⟩
    · intro e s h
      exact ⟨h, nofun⟩
  · cases r with
    | ok answer => exact Spec.pure fun s h => ⟨h.1, fun ha => (h.2 answer rfl).symm.trans ha⟩
    | error e => exact Spec.pure fun s h => ⟨h.1, nofun⟩

/-- The loop rule: what every round keeps, the loop keeps. -/
theorem Spec.each {f : β → Program ε σ Unit} {bs : List β}
    (h : ∀ b ∈ bs, Spec A P (f b) (fun _ => P) E) : Spec A P (Program.each f bs) (fun _ => P) E := by
  induction bs with
  | nil => exact Spec.pure fun s hP => hP
  | cons b bs ih =>
    exact Spec.bind (h b List.mem_cons_self) fun _ =>
      ih fun b' hb' => h b' (List.mem_cons_of_mem _ hb')

/-- And what one of the rounds establishes and the others keep, the loop establishes. -/
theorem Spec.each_mem {f : β → Program ε σ Unit} {bs : List β} {G : σ → Prop} {b : β}
    (hb : b ∈ bs) (hf : Spec A P (f b) (fun _ s => P s ∧ G s) E)
    (hP : ∀ b ∈ bs, Spec A P (f b) (fun _ => P) E)
    (hG : ∀ b ∈ bs, Spec A (fun s => P s ∧ G s) (f b) (fun _ s => P s ∧ G s) E) :
    Spec A P (Program.each f bs) (fun _ s => P s ∧ G s) E := by
  induction bs with
  | nil => exact absurd hb List.not_mem_nil
  | cons b' bs ih =>
    have htail : ∀ c ∈ bs, c ∈ b' :: bs := fun c hc => List.mem_cons_of_mem b' hc
    by_cases hsame : b = b'
    · subst hsame
      exact Spec.bind hf fun _ => Spec.each fun c hc => hG c (htail c hc)
    · exact Spec.bind (hP b' List.mem_cons_self) fun _ =>
        ih ((List.mem_cons.1 hb).resolve_left hsame) (fun c hc => hP c (htail c hc))
          fun c hc => hG c (htail c hc)

end Spec

/-! ## The run in which everything is done -/

/-- In the run that nothing disturbs, the program returns with `Q`. -/
def Done (P : σ → Prop) (m : Program ε σ α) (Q : α → σ → Prop) : Prop :=
  ∀ w, w.fates = [] → P w.state → ∃ a, (m.exec w).1 = .ok a ∧ Q a (m.exec w).2.state

/-- The run that nothing disturbs comes through a state with `B`. -/
def Passes (P : σ → Prop) (m : Program ε σ α) (B : σ → Prop) : Prop :=
  ∀ w, w.fates = [] → w.state ∈ w.seen → P w.state → ∃ s ∈ (m.exec w).2.seen, B s

section Done

variable {P P' B : σ → Prop} {Q Q' : α → σ → Prop} {R : β → σ → Prop}

theorem Done.weaken {m : Program ε σ α} (h : Done P m Q) (hP : ∀ s, P' s → P s)
    (hQ : ∀ a s, Q a s → Q' a s) : Done P' m Q' := by
  intro w hfates hw
  obtain ⟨a, hm, ha⟩ := h w hfates (hP _ hw)
  exact ⟨a, hm, hQ _ _ ha⟩

theorem Done.of_state {m : Program ε σ α} (h : ∀ s₀, P s₀ → Done (fun s => s = s₀) m Q) :
    Done P m Q :=
  fun w hfates hP => h _ hP w hfates rfl

theorem Done.assume {m : Program ε σ α} {φ : Prop} (h : φ → Done P m Q) :
    Done (fun s => P s ∧ φ) m Q :=
  fun w hfates hw => h hw.2 w hfates hw.1

theorem Done.pure {a : α} (h : ∀ s, P s → Q a s) : Done P (Pure.pure a : Program ε σ α) Q :=
  fun _ _ hP => ⟨a, rfl, h _ hP⟩

theorem exec_bind {m : Program ε σ α} {f : α → Program ε σ β} {w : Machine σ} {a : α}
    (h : (m.exec w).1 = .ok a) : (m >>= f).exec w = (f a).exec (m.exec w).2 := by
  show (match m.exec w with
    | (.ok a, w') => (f a).exec w'
    | (.error h, w') => (.error h, w')) = _
  match m.exec w, h with
  | (.ok _, _), h => rw [Except.ok.inj h]

theorem Done.bind {m : Program ε σ α} {f : α → Program ε σ β} (hm : Done P m Q)
    (hf : ∀ a, Done (Q a) (f a) R) : Done P (m >>= f) R := by
  intro w hfates hP
  obtain ⟨a, hmw, ha⟩ := hm w hfates hP
  rw [exec_bind hmw]
  exact hf a _ ((m.follows w).undisturbed hfates).1 ha

theorem Passes.bind {m : Program ε σ α} {f : α → Program ε σ β} (hm : Done P m Q)
    (hf : ∀ a, Passes (Q a) (f a) B) : Passes P (m >>= f) B := by
  intro w hfates hmem hP
  obtain ⟨a, hmw, ha⟩ := hm w hfates hP
  rw [exec_bind hmw]
  exact hf a _ ((m.follows w).undisturbed hfates).1 ((m.follows w).sees hmem) ha

theorem Passes.here {m : Program ε σ α} (h : ∀ s, P s → B s) : Passes P m B :=
  fun w _ hmem hP => ⟨w.state, (m.follows w).remembers hmem, h _ hP⟩

theorem Done.call {e : ε} {act : σ → Option (α × σ)}
    (hact : ∀ s, P s → ∃ a s', act s = some (a, s') ∧ Q a s') : Done P (Program.call e act) Q := by
  intro w hfates hP
  obtain ⟨a, s', hs', ha⟩ := hact _ hP
  have hexec : (Program.call e act).exec w =
      (.ok a, { state := s', fates := [], seen := w.seen ++ [s'] }) := by
    simp [Program.call, hfates, perform, hs']
  rw [hexec]
  exact ⟨a, rfl, ha⟩

theorem Done.change {e : ε} {act : σ → Option σ} {Q : Unit → σ → Prop}
    (hact : ∀ s, P s → ∃ s', act s = some s' ∧ Q () s') : Done P (Program.change e act) Q := by
  refine Done.call fun s hP => ?_
  obtain ⟨s', hs', hQ⟩ := hact s hP
  exact ⟨(), s', by rw [hs']; rfl, hQ⟩

theorem Done.read {e : ε} {get : σ → Option α}
    (hget : ∀ s, P s → ∃ a, get s = some a ∧ Q a s) : Done P (Program.read e get) Q := by
  refine Done.call fun s hP => ?_
  obtain ⟨a, ha, hQ⟩ := hget s hP
  exact ⟨a, s, by rw [ha]; rfl, hQ⟩

theorem Done.attempt {m : Program ε σ α} (h : Done P m Q) :
    Done P (Program.attempt m) fun r s => ∃ a, r = .ok a ∧ Q a s := by
  intro w hfates hP
  obtain ⟨a, hm, ha⟩ := h w hfates hP
  dsimp only [Program.attempt]
  match m.exec w, hm, ha with
  | (.ok _, _), hm, ha => exact ⟨_, rfl, a, congrArg _ (Except.ok.inj hm), ha⟩

theorem Done.probe {e : ε} {test : σ → Bool} :
    Done P (Program.probe e test) fun answer s => P s ∧ answer = test s := by
  refine Done.bind (Done.attempt (Q := fun b s => P s ∧ b = test s)
    (Done.read fun s hP => ⟨_, rfl, hP, rfl⟩)) fun r => ?_
  cases r with
  | ok answer =>
    refine Done.pure fun s h => ?_
    obtain ⟨a, ha, hP, htest⟩ := h
    exact ⟨hP, (Except.ok.inj ha).trans htest⟩
  | error e =>
    intro w _ h
    obtain ⟨_, ha, _⟩ := h
    cases ha

/-- A loop of changes makes them in order. -/
theorem Done.each_change {e : β → ε} {g : β → σ → σ} {bs : List β} {s₀ : σ} :
    Done (fun s => s = s₀) (Program.each (fun b => Program.change (e b) fun s => some (g b s)) bs)
      (fun _ s => s = bs.foldl (fun s b => g b s) s₀) := by
  induction bs generalizing s₀ with
  | nil => exact Done.pure fun s h => h
  | cons b bs ih =>
    exact Done.bind (Q := fun _ s => s = g b s₀) (Done.change fun s h => ⟨_, rfl, h ▸ rfl⟩)
      fun _ => ih

/-- A program that catches all its failures returns. -/
theorem Done.of_spec {m : Program ε σ α}
    (h : Spec (fun _ => True) P m Q (fun _ => False)) : Done P m Q := by
  intro w hfates hP
  have hend := h w hP fun _ _ => trivial
  have hstops := ((m.follows w).undisturbed hfates).2
  match m.exec w, hend, hstops with
  | (.ok a, _), hend, _ => exact ⟨a, rfl, hend.2⟩
  | (.error (.failed _), _), hend, _ => exact absurd hend.2 id
  | (.error .stopped, _), _, hstops => exact absurd rfl hstops

end Done

end Program

end Superiority
