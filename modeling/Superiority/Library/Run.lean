import Mathlib.Data.List.Basic

/-!
# Runs of a state machine

A machine is a step function `σ → ι → σ`; a run feeds it a list of inputs. Two things are said
about a run: a predicate holds **in every state it reaches** (`StatesMeet`), or a condition holds
**of every step it takes** (`StepsMeet`).

Main results:

* **`run_invariant`** – an invariant that every admissible step keeps holds after every run of
  admissible steps;
* **`statesMeet_of_stepsMeet`** – and then in every state of the run;
* **`statesMeet_iff_stepsMeet`** – when every other step breaks the predicate at once, the runs on
  which the predicate holds throughout are exactly the runs of admissible steps.
-/

namespace Superiority

variable {σ ι : Type*}

/-- The state after the inputs have been fed to the machine in order. -/
def run (step : σ → ι → σ) (s : σ) (inputs : List ι) : σ := inputs.foldl step s

@[simp] theorem run_nil (step : σ → ι → σ) (s : σ) : run step s [] = s := rfl

@[simp] theorem run_cons (step : σ → ι → σ) (s : σ) (i : ι) (is : List ι) :
    run step s (i :: is) = run step (step s i) is := rfl

@[simp] theorem run_append (step : σ → ι → σ) (s : σ) (is js : List ι) :
    run step s (is ++ js) = run step (run step s is) js := by
  simp [run]

/-- The predicate holds in every state of the run, the first and the last included. -/
def StatesMeet (step : σ → ι → σ) (P : σ → Prop) : σ → List ι → Prop
  | s, [] => P s
  | s, i :: is => P s ∧ StatesMeet step P (step s i) is

/-- The condition holds of every step of the run, in the state the step is taken from. -/
def StepsMeet (step : σ → ι → σ) (C : σ → ι → Prop) : σ → List ι → Prop
  | _, [] => True
  | s, i :: is => C s i ∧ StepsMeet step C (step s i) is

instance decidableStepsMeet (step : σ → ι → σ) (C : σ → ι → Prop) [∀ s i, Decidable (C s i)] :
    (s : σ) → (is : List ι) → Decidable (StepsMeet step C s is)
  | _, [] => .isTrue trivial
  | s, i :: is =>
    have := decidableStepsMeet step C (step s i) is
    inferInstanceAs (Decidable (C s i ∧ StepsMeet step C (step s i) is))

theorem StatesMeet.head {step : σ → ι → σ} {P : σ → Prop} {s : σ} {is : List ι}
    (h : StatesMeet step P s is) : P s := by
  cases is with
  | nil => exact h
  | cons i is => exact h.1

theorem StatesMeet.last {step : σ → ι → σ} {P : σ → Prop} {s : σ} {is : List ι}
    (h : StatesMeet step P s is) : P (run step s is) := by
  induction is generalizing s with
  | nil => exact h
  | cons i is ih => exact ih h.2

theorem StatesMeet.mono {step : σ → ι → σ} {P Q : σ → Prop} (hPQ : ∀ s, P s → Q s) {s : σ}
    {is : List ι} (h : StatesMeet step P s is) : StatesMeet step Q s is := by
  induction is generalizing s with
  | nil => exact hPQ s h
  | cons i is ih => exact ⟨hPQ s h.1, ih h.2⟩

theorem StepsMeet.imp₂ {step : σ → ι → σ} {C D E : σ → ι → Prop}
    (himp : ∀ s i, C s i → D s i → E s i) {s : σ} {is : List ι} (hC : StepsMeet step C s is)
    (hD : StepsMeet step D s is) : StepsMeet step E s is := by
  induction is generalizing s with
  | nil => trivial
  | cons i is ih => exact ⟨himp s i hC.1 hD.1, ih hC.2 hD.2⟩

/-- No condition on the steps. -/
theorem stepsMeet_true (step : σ → ι → σ) (s : σ) (is : List ι) :
    StepsMeet step (fun _ _ => True) s is := by
  induction is generalizing s with
  | nil => trivial
  | cons i is ih => exact ⟨trivial, ih (step s i)⟩

/-- The steps of two runs, one after the other. -/
theorem stepsMeet_append {step : σ → ι → σ} {C : σ → ι → Prop} {s : σ} {is js : List ι} :
    StepsMeet step C s (is ++ js) ↔
      StepsMeet step C s is ∧ StepsMeet step C (run step s is) js := by
  induction is generalizing s with
  | nil => simp [StepsMeet]
  | cons i is ih => simp [StepsMeet, ih, and_assoc]

/-- **The invariant rule.** What every admissible step keeps, every admissible run keeps. -/
theorem run_invariant {step : σ → ι → σ} {C : σ → ι → Prop} {I : σ → Prop}
    (hstep : ∀ s i, I s → C s i → I (step s i)) {s : σ} {is : List ι}
    (hs : I s) (hC : StepsMeet step C s is) : I (run step s is) := by
  induction is generalizing s with
  | nil => exact hs
  | cons i is ih => exact ih (hstep s i hs hC.1) hC.2

/-- The invariant rule for a machine all of whose steps are admissible. -/
theorem run_invariant' {step : σ → ι → σ} {I : σ → Prop}
    (hstep : ∀ s i, I s → I (step s i)) {s : σ} (hs : I s) (is : List ι) :
    I (run step s is) := by
  induction is generalizing s with
  | nil => exact hs
  | cons i is ih => exact ih (hstep s i hs)

/-- What an invariant implies holds in every state of an admissible run. -/
theorem statesMeet_of_stepsMeet {step : σ → ι → σ} {C : σ → ι → Prop} {I P : σ → Prop}
    (hP : ∀ s, I s → P s) (hstep : ∀ s i, I s → C s i → I (step s i))
    {s : σ} {is : List ι} (hs : I s) (hC : StepsMeet step C s is) :
    StatesMeet step P s is := by
  induction is generalizing s with
  | nil => exact hP s hs
  | cons i is ih => exact ⟨hP s hs, ih (hstep s i hs hC.1) hC.2⟩

/-- **The exact condition.** When admissible steps keep the invariant and every other step breaks
the predicate, the predicate holds throughout exactly on the runs of admissible steps. -/
theorem statesMeet_iff_stepsMeet {step : σ → ι → σ} {C : σ → ι → Prop} {I P : σ → Prop}
    (hP : ∀ s, I s → P s) (hstep : ∀ s i, I s → C s i → I (step s i))
    (hbreak : ∀ s i, I s → ¬ C s i → ¬ P (step s i)) {s : σ} {is : List ι} (hs : I s) :
    StatesMeet step P s is ↔ StepsMeet step C s is := by
  refine ⟨fun h => ?_, statesMeet_of_stepsMeet hP hstep hs⟩
  induction is generalizing s with
  | nil => trivial
  | cons i is ih =>
    have hi : C s i := by
      by_contra hC
      exact hbreak s i hs hC h.2.head
    exact ⟨hi, ih (hstep s i hs hi) h.2⟩

/-- Two conditions on steps that say the same wherever an invariant holds say the same of runs,
when admissible steps that meet them keep the invariant. -/
theorem stepsMeet_congr {step : σ → ι → σ} {A C D : σ → ι → Prop} {I : σ → Prop}
    (hiff : ∀ s i, I s → A s i → (C s i ↔ D s i))
    (hstep : ∀ s i, I s → A s i → D s i → I (step s i)) {s : σ} {is : List ι} (hs : I s)
    (hA : StepsMeet step A s is) : StepsMeet step C s is ↔ StepsMeet step D s is := by
  induction is generalizing s with
  | nil => exact Iff.rfl
  | cons i is ih =>
    have hi := hiff s i hs hA.1
    constructor
    · intro h
      have hD := hi.1 h.1
      exact ⟨hD, (ih (hstep s i hs hA.1 hD) hA.2).1 h.2⟩
    · intro h
      exact ⟨hi.2 h.1, (ih (hstep s i hs hA.1 h.1) hA.2).2 h.2⟩

end Superiority
