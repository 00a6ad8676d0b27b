import Mathlib.Data.List.Basic

/-!
# Noninterference of a machine with outputs

A machine takes inputs one by one and gives outputs. An observer sees some of the inputs, depending
on the state they come in; the others are hidden. Two states are alike when the observer cannot
tell them apart. When hidden inputs give nothing and lead to a state that is alike, and seen inputs
give the same in states that are alike and keep them alike (`Unwinding`), the outputs of a run
depend on its seen inputs only (**`outputs_eq_of_view_eq`**).
-/

namespace Superiority

variable {σ ι ο : Type*}

/-- The outputs of a run, in order. -/
def outputs (step : σ → ι → σ) (out : σ → ι → List ο) : σ → List ι → List ο
  | _, [] => []
  | s, i :: is => out s i ++ outputs step out (step s i) is

/-- The inputs of a run that are seen. -/
def view (step : σ → ι → σ) (sees : σ → ι → Prop) [∀ s i, Decidable (sees s i)] :
    σ → List ι → List ι
  | _, [] => []
  | s, i :: is => if sees s i then i :: view step sees (step s i) is
    else view step sees (step s i) is

/-- What keeps hidden inputs from reaching the outputs. -/
structure Unwinding (step : σ → ι → σ) (out : σ → ι → List ο) (sees : σ → ι → Prop)
    (alike : σ → σ → Prop) : Prop where
  hidden_out : ∀ s i, ¬ sees s i → out s i = []
  hidden_step : ∀ s t i, alike s t → ¬ sees s i → alike (step s i) t
  seen_out : ∀ s t i, alike s t → sees s i → out s i = out t i
  seen_step : ∀ s t i, alike s t → sees s i → alike (step s i) (step t i)

section

variable {step : σ → ι → σ} {out : σ → ι → List ο} {sees : σ → ι → Prop}
  [∀ s i, Decidable (sees s i)] {alike : σ → σ → Prop}

/-- A run gives what its seen inputs alone give. -/
theorem outputs_view (h : Unwinding step out sees alike) {s t : σ} (hst : alike s t)
    (is : List ι) :
    outputs step out s is = outputs step out t (view step sees s is) ∧
      alike (is.foldl step s) ((view step sees s is).foldl step t) := by
  induction is generalizing s t with
  | nil => exact ⟨rfl, hst⟩
  | cons i is ih =>
    rw [view, outputs]
    by_cases hi : sees s i
    · obtain ⟨houtputs, halike⟩ := ih (h.seen_step s t i hst hi)
      rw [if_pos hi, outputs, h.seen_out s t i hst hi, houtputs]
      exact ⟨rfl, halike⟩
    · rw [if_neg hi, h.hidden_out s i hi, List.nil_append]
      exact ih (h.hidden_step s t i hst hi)

/-- **Noninterference.** Runs with the same seen inputs give the same outputs. -/
theorem outputs_eq_of_view_eq (h : Unwinding step out sees alike) {s t u : σ} (hs : alike s u)
    (ht : alike t u) {is js : List ι} (hview : view step sees s is = view step sees t js) :
    outputs step out s is = outputs step out t js := by
  rw [(outputs_view h hs is).1, (outputs_view h ht js).1, hview]

end

end Superiority
