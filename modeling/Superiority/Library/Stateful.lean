import Mathlib.Logic.Relation

/-!
# Code that changes a state and may fail

A `Stateful` computation is given a state and ends with a value or an error, and with a new state
in either case: what it has changed before it fails stays changed, as it does behind a `&mut`
reference.

`Within R` says of a computation that it only goes from a state to one that `R` relates it to. For
a reflexive and transitive `R` (every frame condition is one) sequencing keeps it.
-/

namespace Superiority

def Stateful (σ ε α : Type) : Type := σ → Except ε α × σ

namespace Stateful

variable {σ τ ε α β : Type}

instance : Monad (Stateful σ ε) where
  pure a := fun s => (.ok a, s)
  bind x f := fun s =>
    match x s with
    | (.ok a, t) => f a t
    | (.error e, t) => (.error e, t)

/-- `Err(error)`. -/
def fail (error : ε) : Stateful σ ε α := fun s => (.error error, s)

/-- The state, as it is. -/
def read : Stateful σ ε σ := fun s => (.ok s, s)

def change (f : σ → σ) : Stateful σ ε Unit := fun s => (.ok (), f s)

/-- A change that also gives a value. -/
def take (f : σ → α × σ) : Stateful σ ε α := fun s => (.ok (f s).1, (f s).2)

/-- `let _ = …;`: a failure is not passed on. -/
def ignore (x : Stateful σ ε α) : Stateful σ ε Unit := fun s => (.ok (), (x s).2)

/-- `let result = …;`: a failure is a value like any other. -/
def attempt (x : Stateful σ ε α) : Stateful σ ε (Except ε α) := fun s => (.ok (x s).1, (x s).2)

/-- `value.ok_or(error)?`. -/
def orFail (value : Option α) (error : ε) : Stateful σ ε α :=
  match value with
  | some a => pure a
  | none => fail error

/-- A result that needs no state. -/
def ofExcept (x : Except ε α) : Stateful σ ε α := fun s => (x, s)

/-- `for item in items { … }`. -/
def each (f : α → Stateful σ ε Unit) : List α → Stateful σ ε Unit
  | [] => pure ()
  | a :: as => do
    f a
    each f as

/-- A computation on a part of the state. -/
def within (get : σ → τ) (put : τ → σ → σ) (x : Stateful τ ε α) : Stateful σ ε α := fun s =>
  ((x (get s)).1, put (x (get s)).2 s)

@[simp] theorem pure_apply (a : α) (s : σ) : (pure a : Stateful σ ε α) s = (.ok a, s) := rfl

@[simp] theorem fail_apply (e : ε) (s : σ) : (fail e : Stateful σ ε α) s = (.error e, s) := rfl

@[simp] theorem read_apply (s : σ) : (read : Stateful σ ε σ) s = (.ok s, s) := rfl

@[simp] theorem change_apply (f : σ → σ) (s : σ) :
    (change f : Stateful σ ε Unit) s = (.ok (), f s) := rfl

@[simp] theorem take_apply (f : σ → α × σ) (s : σ) :
    (take f : Stateful σ ε α) s = (.ok (f s).1, (f s).2) := rfl

@[simp] theorem ignore_apply (x : Stateful σ ε α) (s : σ) : ignore x s = (.ok (), (x s).2) := rfl

@[simp] theorem ofExcept_apply (x : Except ε α) (s : σ) : ofExcept x s = (x, s) := rfl

@[simp] theorem within_apply (get : σ → τ) (put : τ → σ → σ) (x : Stateful τ ε α) (s : σ) :
    within get put x s = ((x (get s)).1, put (x (get s)).2 s) := rfl

theorem bind_apply (x : Stateful σ ε α) (f : α → Stateful σ ε β) (s : σ) :
    (x >>= f) s =
      match x s with
      | (.ok a, t) => f a t
      | (.error e, t) => (.error e, t) := rfl

@[simp] theorem bind_of_ok {x : Stateful σ ε α} {f : α → Stateful σ ε β} {s t : σ} {a : α}
    (h : x s = (.ok a, t)) : (x >>= f) s = f a t := by
  rw [bind_apply, h]

theorem bind_of_error {x : Stateful σ ε α} {f : α → Stateful σ ε β} {s t : σ} {e : ε}
    (h : x s = (.error e, t)) : (x >>= f) s = (.error e, t) := by
  rw [bind_apply, h]

/-- What succeeds has succeeded step by step. -/
theorem bind_eq_ok {x : Stateful σ ε α} {f : α → Stateful σ ε β} {s u : σ} {b : β} :
    (x >>= f) s = (.ok b, u) ↔ ∃ a t, x s = (.ok a, t) ∧ f a t = (.ok b, u) := by
  rw [bind_apply]
  constructor
  · intro h
    rcases hx : x s with ⟨e | a, t⟩
    · rw [hx] at h
      cases h
    · rw [hx] at h
      exact ⟨_, t, rfl, h⟩
  · rintro ⟨a, t, hx, hf⟩
    rw [hx]
    exact hf

/-! ## Frames -/

/-- Whatever the computation gives meets the predicate. -/
def Yields (Q : α → Prop) (x : Stateful σ ε α) : Prop := ∀ s a t, x s = (.ok a, t) → Q a

theorem yields_pure {Q : α → Prop} {a : α} (h : Q a) : Yields Q (pure a : Stateful σ ε α) := by
  intro s b t hb
  cases hb
  exact h

theorem yields_fail {Q : α → Prop} (e : ε) : Yields Q (fail e : Stateful σ ε α) := by
  intro s b t hb
  cases hb

theorem yields_take {Q : α → Prop} {f : σ → α × σ} (h : ∀ s, Q (f s).1) :
    Yields Q (take f : Stateful σ ε α) := by
  intro s b t hb
  cases hb
  exact h s

theorem yields_ite {Q : α → Prop} {c : Prop} [Decidable c] {x y : Stateful σ ε α}
    (hx : Yields Q x) (hy : Yields Q y) : Yields Q (if c then x else y) := by
  by_cases hc : c
  · rw [if_pos hc]
    exact hx
  · rw [if_neg hc]
    exact hy

theorem yields_bind {Q : β → Prop} {x : Stateful σ ε α} {f : α → Stateful σ ε β}
    (hf : ∀ a, Yields Q (f a)) : Yields Q (x >>= f) := by
  intro s b u h
  obtain ⟨a, t, -, hfa⟩ := bind_eq_ok.1 h
  exact hf a t b u hfa

/-- What the second half gives may rest on what the first half gives. -/
theorem yields_bind_yields {P : α → Prop} {Q : β → Prop} {x : Stateful σ ε α}
    {f : α → Stateful σ ε β} (hx : Yields P x) (hf : ∀ a, P a → Yields Q (f a)) :
    Yields Q (x >>= f) := by
  intro s b u h
  obtain ⟨a, t, hxa, hfa⟩ := bind_eq_ok.1 h
  exact hf a (hx s a t hxa) t b u hfa

/-- From every state the computation comes to one in the relation, whether it fails or not. -/
def Within (R : σ → σ → Prop) (x : Stateful σ ε α) : Prop := ∀ s, R s (x s).2

section Frame

variable {R : σ → σ → Prop} [Std.Refl R] [IsTrans σ R]

omit [IsTrans σ R] in
theorem within_pure (a : α) : Within R (pure a : Stateful σ ε α) := fun s => Std.Refl.refl s

omit [IsTrans σ R] in
theorem within_fail (e : ε) : Within R (fail e : Stateful σ ε α) := fun s => Std.Refl.refl s

omit [IsTrans σ R] in
theorem within_read : Within R (read : Stateful σ ε σ) := fun s => Std.Refl.refl s

omit [IsTrans σ R] in
theorem within_orFail (value : Option α) (e : ε) :
    Within R (orFail value e : Stateful σ ε α) := by
  cases value with
  | none => exact within_fail e
  | some a => exact within_pure a

omit [Std.Refl R] [IsTrans σ R] in
theorem within_change {f : σ → σ} (hf : ∀ s, R s (f s)) :
    Within R (change f : Stateful σ ε Unit) := hf

omit [Std.Refl R] [IsTrans σ R] in
theorem within_take {f : σ → α × σ} (hf : ∀ s, R s (f s).2) :
    Within R (take f : Stateful σ ε α) := hf

omit [Std.Refl R] [IsTrans σ R] in
theorem within_ignore {x : Stateful σ ε α} (hx : Within R x) : Within R (ignore x) := hx

omit [IsTrans σ R] in
theorem within_ofExcept (x : Except ε α) : Within R (ofExcept x : Stateful σ ε α) :=
  fun s => Std.Refl.refl s

omit [Std.Refl R] [IsTrans σ R] in
theorem Within.mono {S : σ → σ → Prop} {x : Stateful σ ε α} (hx : Within R x)
    (h : ∀ s t, R s t → S s t) : Within S x := fun s => h s _ (hx s)

omit [Std.Refl R] [IsTrans σ R] in
theorem within_ite {c : Prop} [Decidable c] {x y : Stateful σ ε α} (hx : Within R x)
    (hy : Within R y) : Within R (if c then x else y) := by
  by_cases hc : c
  · rw [if_pos hc]
    exact hx
  · rw [if_neg hc]
    exact hy

omit [Std.Refl R] in
theorem within_bind {x : Stateful σ ε α} {f : α → Stateful σ ε β} (hx : Within R x)
    (hf : ∀ a, Within R (f a)) : Within R (x >>= f) := by
  intro s
  have hs := hx s
  rw [bind_apply]
  rcases hxs : x s with ⟨e | a, t⟩
  · rw [hxs] at hs
    exact hs
  · rw [hxs] at hs
    exact IsTrans.trans s t _ hs (hf a t)

omit [Std.Refl R] in
/-- The second half need only be within the relation for what the first half can give. -/
theorem within_bind_yields {Q : α → Prop} {x : Stateful σ ε α} {f : α → Stateful σ ε β}
    (hx : Within R x) (hQ : Yields Q x) (hf : ∀ a, Q a → Within R (f a)) :
    Within R (x >>= f) := by
  intro s
  have hs := hx s
  rw [bind_apply]
  rcases hxs : x s with ⟨e | a, t⟩
  · rw [hxs] at hs
    exact hs
  · rw [hxs] at hs
    exact IsTrans.trans s t _ hs (hf a (hQ s a t hxs) t)

omit [IsTrans σ R] in
/-- What is found is what goes on. -/
theorem within_orFail_bind {value : Option α} {e : ε} {f : α → Stateful σ ε β}
    (hf : ∀ a, value = some a → Within R (f a)) : Within R (orFail value e >>= f) := by
  cases value with
  | none => exact fun s => Std.Refl.refl s
  | some a => exact hf a rfl

theorem within_each {f : α → Stateful σ ε Unit} (hf : ∀ a, Within R (f a)) (as : List α) :
    Within R (each f as) := by
  induction as with
  | nil => exact within_pure ()
  | cons a as ih => exact within_bind (hf a) fun _ => ih

end Frame

/-! ## Triples -/

/-- From a state with `P` the computation ends with a value and a state with `Q`, or fails in a
state with `E`. -/
def Meets (P : σ → Prop) (x : Stateful σ ε α) (Q : α → σ → Prop) (E : ε → σ → Prop) : Prop :=
  ∀ s, P s → match x s with
    | (.ok a, t) => Q a t
    | (.error e, t) => E e t

section Meets

variable {P : σ → Prop} {Q : α → σ → Prop} {R : β → σ → Prop} {E : ε → σ → Prop}

theorem Meets.weaken {x : Stateful σ ε α} {P' : σ → Prop} {Q' : α → σ → Prop} {E' : ε → σ → Prop}
    (hx : Meets P x Q E) (hP : ∀ s, P' s → P s) (hQ : ∀ a s, Q a s → Q' a s)
    (hE : ∀ e s, E e s → E' e s) : Meets P' x Q' E' := by
  intro s hs
  have hend := hx s (hP s hs)
  match x s, hend with
  | (.error _, _), hend => exact hE _ _ hend
  | (.ok _, _), hend => exact hQ _ _ hend

/-- The state it ends in, however it ends. -/
theorem Meets.state {x : Stateful σ ε α} {T : σ → Prop} (hx : Meets P x (fun _ => T) fun _ => T)
    {s : σ} (hs : P s) : T (x s).2 := by
  have hend := hx s hs
  match x s, hend with
  | (.error _, _), hend => exact hend
  | (.ok _, _), hend => exact hend

theorem meets_pure {a : α} (h : ∀ s, P s → Q a s) : Meets P (pure a) Q E := h

theorem meets_fail {e : ε} (h : ∀ s, P s → E e s) : Meets P (fail e) Q E := h

theorem meets_change {f : σ → σ} {Q : Unit → σ → Prop} (h : ∀ s, P s → Q () (f s)) :
    Meets P (change f) Q E := h

/-- A result that needs no state leaves the state as it is. -/
theorem meets_ofExcept {x : Except ε α} (hok : ∀ a s, P s → Q a s) (herror : ∀ e s, P s → E e s) :
    Meets P (ofExcept x) Q E := by
  intro s hs
  cases x with
  | ok a => exact hok a s hs
  | error e => exact herror e s hs

theorem meets_bind {x : Stateful σ ε α} {f : α → Stateful σ ε β} (hx : Meets P x Q E)
    (hf : ∀ a, Meets (Q a) (f a) R E) : Meets P (x >>= f) R E := by
  intro s hs
  have hend := hx s hs
  rw [bind_apply]
  match x s, hend with
  | (.error _, _), hend => exact hend
  | (.ok a, t), hend => exact hf a t hend

theorem meets_attempt {x : Stateful σ ε α} {R : Except ε α → σ → Prop}
    {E' : ε → σ → Prop} (hx : Meets P x (fun a => R (.ok a)) fun e => R (.error e)) :
    Meets P (attempt x) R E' := by
  intro s hs
  have hend := hx s hs
  rw [attempt]
  match x s, hend with
  | (.error _, _), hend => exact hend
  | (.ok _, _), hend => exact hend

theorem meets_each {f : β → Stateful σ ε Unit} (hf : ∀ b, Meets P (f b) (fun _ => P) E)
    (bs : List β) : Meets P (each f bs) (fun _ => P) E := by
  induction bs with
  | nil => exact meets_pure fun _ h => h
  | cons b bs ih => exact meets_bind (hf b) fun _ => ih

end Meets

/-! ## Views -/

/-- A reader with the view sees no difference between the states. -/
def Keeps (view : σ → τ) (s t : σ) : Prop := view t = view s

instance (view : σ → τ) : Std.Refl (Keeps view) where
  refl _ := rfl

instance (view : σ → τ) : IsTrans σ (Keeps view) where
  trans _ _ _ h k := Eq.trans k h

/-- What comes after a computation is not seen. -/
theorem view_bind {view : σ → τ} {x : Stateful σ ε α} {f : α → Stateful σ ε β}
    (hf : ∀ a, Within (Keeps view) (f a)) (s : σ) : view ((x >>= f) s).2 = view (x s).2 := by
  rw [bind_apply]
  rcases x s with ⟨e | a, t⟩
  · rfl
  · exact hf a t

end Stateful

/-! ## Logs -/

/-- A log grows: what is added meets the predicate. -/
def Grows {α : Type} (P : α → Prop) (xs ys : List α) : Prop :=
  ∃ added, ys = xs ++ added ∧ ∀ x ∈ added, P x

namespace Grows

variable {α β : Type} {P Q : α → Prop} {xs ys zs : List α}

theorem refl (P : α → Prop) (xs : List α) : Grows P xs xs :=
  ⟨[], (List.append_nil xs).symm, fun _ h => absurd h List.not_mem_nil⟩

theorem append (xs : List α) {added : List α} (h : ∀ x ∈ added, P x) :
    Grows P xs (xs ++ added) := ⟨added, rfl, h⟩

theorem snoc (xs : List α) {x : α} (h : P x) : Grows P xs (xs ++ [x]) :=
  append xs fun y hy => by
    rw [List.mem_singleton.1 hy]
    exact h

theorem trans (hxy : Grows P xs ys) (hyz : Grows P ys zs) : Grows P xs zs := by
  obtain ⟨first, rfl, hfirst⟩ := hxy
  obtain ⟨second, rfl, hsecond⟩ := hyz
  refine ⟨first ++ second, List.append_assoc .., fun x hx => ?_⟩
  rcases List.mem_append.1 hx with hx | hx
  · exact hfirst x hx
  · exact hsecond x hx

theorem mono (h : Grows P xs ys) (hPQ : ∀ x, P x → Q x) : Grows Q xs ys := by
  obtain ⟨added, hys, hadded⟩ := h
  exact ⟨added, hys, fun x hx => hPQ x (hadded x hx)⟩

/-- A reader who looks past everything that is added sees no difference. -/
theorem filterMap_eq (h : Grows P xs ys) {f : α → Option β} (hf : ∀ x, P x → f x = none) :
    ys.filterMap f = xs.filterMap f := by
  obtain ⟨added, rfl, hadded⟩ := h
  have hnone : added.filterMap f = [] :=
    List.filterMap_eq_nil_iff.2 fun x hx => hf x (hadded x hx)
  rw [List.filterMap_append, hnone, List.append_nil]

end Grows

end Superiority
