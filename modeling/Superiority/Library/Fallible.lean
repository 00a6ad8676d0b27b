import Mathlib.Data.List.Forall2

/-!
# Steps that may fail

Sequencing in `Except`; the fallible filter: what a sequence gives when each element is kept,
dropped or fails, the first failure being that of the whole; and loops whose rounds may fail.
-/

namespace Superiority

/-- A step succeeds and so does what follows. -/
theorem except_bind_ok {ε α β : Type} {x : Except ε α} {f : α → Except ε β} {b : β} :
    (x >>= f) = .ok b ↔ ∃ a, x = .ok a ∧ f a = .ok b := by
  cases x with
  | error e => exact ⟨nofun, fun ⟨a, ha, _⟩ => nomatch ha⟩
  | ok a => exact ⟨fun h => ⟨a, rfl, h⟩, fun ⟨a', ha, h⟩ => Except.ok.inj ha ▸ h⟩

theorem except_bind_error {ε α β : Type} {x : Except ε α} {f : α → Except ε β} {error : ε}
    (h : x = .error error) : (x >>= f) = .error error := by
  rw [h]
  rfl

theorem toOption_eq_some {ε α : Type} {x : Except ε α} {a : α} :
    x.toOption = some a ↔ x = .ok a := by
  cases x <;> simp [Except.toOption]

variable {ε α β γ : Type}

/-- `if p { return Err(error); }`. -/
def refuseIf (p : Prop) [Decidable p] (error : ε) : Except ε Unit :=
  if p then .error error else .ok ()

theorem refuseIf_ok {p : Prop} [Decidable p] {error : ε} {u : Unit} :
    refuseIf p error = .ok u ↔ ¬p := by
  by_cases hp : p <;> simp [refuseIf, hp]

/-- `value.ok_or(error)`. -/
def okOr (value : Option α) (error : ε) : Except ε α :=
  match value with
  | some a => .ok a
  | none => .error error

theorem okOr_ok {value : Option α} {error : ε} {a : α} :
    okOr value error = .ok a ↔ value = some a := by
  cases value <;> simp [okOr]

/-- `iter.filter_map(|x| f(x).transpose()).collect::<Result<Vec<_>>>()`. -/
def collectSome (f : α → Except ε (Option β)) : List α → Except ε (List β)
  | [] => .ok []
  | a :: as => do
    let b ← f a
    let bs ← collectSome f as
    return b.toList ++ bs

theorem collectSome_cons_ok {f : α → Except ε (Option β)} {a : α} {as : List α} {bs : List β} :
    collectSome f (a :: as) = .ok bs ↔
      ∃ b bs', f a = .ok b ∧ collectSome f as = .ok bs' ∧ b.toList ++ bs' = bs := by
  rw [collectSome]
  simp only [except_bind_ok]
  constructor
  · intro ⟨b, hb, bs', hbs', hbs⟩
    exact ⟨b, bs', hb, hbs', Except.ok.inj hbs⟩
  · intro ⟨b, bs', hb, hbs', hbs⟩
    exact ⟨b, hb, bs', hbs', congrArg _ hbs⟩

/-- Whatever is collected was found at an element. -/
theorem exists_of_mem_collectSome {f : α → Except ε (Option β)} {as : List α} {bs : List β}
    (h : collectSome f as = .ok bs) {b : β} (hb : b ∈ bs) : ∃ a ∈ as, f a = .ok (some b) := by
  induction as generalizing bs with
  | nil =>
    rw [← Except.ok.inj h] at hb
    exact absurd hb List.not_mem_nil
  | cons a as ih =>
    obtain ⟨found, rest, hfound, hrest, rfl⟩ := collectSome_cons_ok.1 h
    rcases List.mem_append.1 hb with hb | hb
    · have hb : found = some b := by simpa using hb
      exact ⟨a, List.mem_cons_self, hb ▸ hfound⟩
    · obtain ⟨a', ha', h'⟩ := ih hrest hb
      exact ⟨a', List.mem_cons_of_mem _ ha', h'⟩

/-- When nothing fails, collecting is the filter. -/
theorem collectSome_eq_filterMap {R : γ → α → Prop} {f : α → Except ε (Option β)}
    {g : γ → Option β} (hfg : ∀ c a, R c a → f a = .ok (g c)) {as : List α} {cs : List γ}
    (h : List.Forall₂ R cs as) : collectSome f as = .ok (cs.filterMap g) := by
  induction h with
  | nil => rfl
  | cons ha _ ih =>
    refine collectSome_cons_ok.2 ⟨_, _, hfg _ _ ha, ih, ?_⟩
    rw [List.filterMap_cons]
    split
    · next hg => rw [hg]; rfl
    · next hg => rw [hg]; rfl

/-! ## Loops -/

variable {σ : Type} {R : σ → σ → Prop} {f : σ → α → Except ε σ} {as : List α} {s t : σ}

/-- What every round of a loop keeps is kept by the loop. -/
theorem foldlM_relates (hrefl : ∀ s, R s s) (htrans : ∀ s t u, R s t → R t u → R s u)
    (hstep : ∀ a ∈ as, ∀ s t, f s a = .ok t → R s t) (h : as.foldlM f s = .ok t) : R s t := by
  induction as generalizing s with
  | nil =>
    rw [Except.ok.inj h]
    exact hrefl t
  | cons a as ih =>
    rw [List.foldlM_cons] at h
    obtain ⟨u, hone, hrest⟩ := except_bind_ok.1 h
    have hkeep := ih (fun b hb => hstep b (List.mem_cons_of_mem a hb)) hrest
    exact htrans s u t (hstep a List.mem_cons_self s u hone) hkeep

/-- A loop that ends went through each of its rounds. -/
theorem foldlM_passes (hrefl : ∀ s, R s s) (htrans : ∀ s t u, R s t → R t u → R s u)
    (hstep : ∀ a ∈ as, ∀ s t, f s a = .ok t → R s t) (h : as.foldlM f s = .ok t) {a : α}
    (ha : a ∈ as) : ∃ u v, R s u ∧ f u a = .ok v ∧ R v t := by
  obtain ⟨front, back, rfl⟩ := List.append_of_mem ha
  rw [List.foldlM_append] at h
  obtain ⟨u, hfront, hback⟩ := except_bind_ok.1 h
  rw [List.foldlM_cons] at hback
  obtain ⟨v, hone, hrest⟩ := except_bind_ok.1 hback
  refine ⟨u, v, ?_, hone, ?_⟩
  · refine foldlM_relates hrefl htrans (fun b hb => hstep b ?_) hfront
    exact List.mem_append_left _ hb
  · refine foldlM_relates hrefl htrans (fun b hb => hstep b ?_) hrest
    exact List.mem_append_right _ (List.mem_cons_of_mem a hb)

end Superiority
