import Mathlib.Tactic

/-!
# Decoders that may run short

A `Decoder` reads from a tape and ends with a value, with an error, or – when its recursion is
bounded – unfinished. Some errors only report that the tape is too short; whoever feeds the decoder
tries again when there is more of it.

* **`Stable`** – the value depends on the bits that were read and on no others; on a tape that ends
  before them the decoder runs short, with no other error; and an error of another kind stays when
  the tape is extended. Sequencing keeps it (`Stable.bind`), and so does wrapping the errors.
* **`Simulates`** – two decoders that go through the tape alike, with related values.
-/

namespace Superiority

/-- What a decoder ends with, and where it has come. -/
inductive Outcome (ρ ε α : Type) where
  | done (value : α) (rest : ρ)
  | failed (error : ε) (rest : ρ)
  | unfinished

def Decoder (ρ ε α : Type) : Type := ρ → Outcome ρ ε α

variable {ρ ε α β γ δ : Type}

namespace Decoder

instance : Monad (Decoder ρ ε) where
  pure a := fun r => .done a r
  bind x f := fun r =>
    match x r with
    | .done a s => f a s
    | .failed e s => .failed e s
    | .unfinished => .unfinished

def fail (e : ε) : Decoder ρ ε α := fun r => .failed e r

/-- A bounded recursion that has reached its bound. -/
def stuck : Decoder ρ ε α := fun _ => .unfinished

/-- A reading operation that leaves the tape where it is when it fails. -/
def lift (f : ρ → Except ε (α × ρ)) : Decoder ρ ε α := fun r =>
  match f r with
  | .ok (a, s) => .done a s
  | .error e => .failed e r

/-- A check that reads nothing. -/
def ofExcept (x : Except ε α) : Decoder ρ ε α := fun r =>
  match x with
  | .ok a => .done a r
  | .error e => .failed e r

/-- A failure is noted, and the tape stays where it has come to. -/
def attempt (x : Decoder ρ ε α) : Decoder ρ ε (Option α) := fun r =>
  match x r with
  | .done a s => .done (some a) s
  | .failed _ s => .done none s
  | .unfinished => .unfinished

@[simp] theorem pure_apply (a : α) (r : ρ) : (pure a : Decoder ρ ε α) r = .done a r := rfl

@[simp] theorem fail_apply (e : ε) (r : ρ) : (fail e : Decoder ρ ε α) r = .failed e r := rfl

@[simp] theorem stuck_apply (r : ρ) : (stuck : Decoder ρ ε α) r = .unfinished := rfl

@[simp] theorem ofExcept_ok (a : α) : (ofExcept (.ok a) : Decoder ρ ε α) = pure a := rfl

@[simp] theorem ofExcept_error (e : ε) : (ofExcept (.error e) : Decoder ρ ε α) = fail e := rfl

theorem bind_apply (x : Decoder ρ ε α) (f : α → Decoder ρ ε β) (r : ρ) :
    (x >>= f) r =
      match x r with
      | .done a s => f a s
      | .failed e s => .failed e s
      | .unfinished => .unfinished := rfl

/-- A sequence is done when its parts are. -/
theorem bind_done {x : Decoder ρ ε α} {f : α → Decoder ρ ε β} {r s : ρ} {b : β} :
    (x >>= f) r = .done b s ↔ ∃ a t, x r = .done a t ∧ f a t = .done b s := by
  rw [bind_apply]
  cases x r <;> simp

theorem bind_failed {x : Decoder ρ ε α} {f : α → Decoder ρ ε β} {r s : ρ} {e : ε} :
    (x >>= f) r = .failed e s ↔
      x r = .failed e s ∨ ∃ a t, x r = .done a t ∧ f a t = .failed e s := by
  rw [bind_apply]
  cases x r <;> simp

theorem bind_of_done {x : Decoder ρ ε α} {f : α → Decoder ρ ε β} {r s : ρ} {a : α}
    (h : x r = .done a s) : (x >>= f) r = f a s := by
  rw [bind_apply, h]

theorem bind_of_failed {x : Decoder ρ ε α} {f : α → Decoder ρ ε β} {r s : ρ} {e : ε}
    (h : x r = .failed e s) : (x >>= f) r = .failed e s := by
  rw [bind_apply, h]

theorem bind_assoc (x : Decoder ρ ε α) (f : α → Decoder ρ ε β) (g : β → Decoder ρ ε γ) :
    (x >>= f) >>= g = x >>= fun a => f a >>= g := by
  funext r
  rw [bind_apply, bind_apply, bind_apply]
  cases x r <;> rfl

/-- Only the values a decoder can end with are handed on. -/
theorem bind_congr {x : Decoder ρ ε α} {f g : α → Decoder ρ ε β}
    (h : ∀ r a s, x r = .done a s → f a = g a) : x >>= f = x >>= g := by
  funext r
  rw [bind_apply, bind_apply]
  cases hx : x r with
  | done a s => exact congrFun (h r a s hx) s
  | failed e s => rfl
  | unfinished => rfl

theorem pure_bind (a : α) (f : α → Decoder ρ ε β) : (pure a : Decoder ρ ε α) >>= f = f a := rfl

theorem fail_bind (e : ε) (f : α → Decoder ρ ε β) : (fail e : Decoder ρ ε α) >>= f = fail e := rfl

theorem pure_done {a b : α} {r s : ρ} :
    (pure a : Decoder ρ ε α) r = .done b s ↔ a = b ∧ r = s := by
  rw [pure_apply, Outcome.done.injEq]

theorem ofExcept_done {x : Except ε α} {a : α} {r s : ρ} :
    (ofExcept x : Decoder ρ ε α) r = .done a s ↔ x = .ok a ∧ r = s := by
  cases x with
  | ok b => simp
  | error e => simp

theorem attempt_some {x : Decoder ρ ε α} {a : α} {r s : ρ} :
    attempt x r = .done (some a) s ↔ x r = .done a s := by
  unfold attempt
  cases x r <;> simp

theorem attempt_none {x : Decoder ρ ε α} {r s : ρ} :
    attempt x r = .done none s ↔ ∃ e, x r = .failed e s := by
  unfold attempt
  cases x r <;> simp

theorem map_done {f : α → β} {x : Decoder ρ ε α} {b : β} {r s : ρ} :
    (f <$> x) r = .done b s ↔ ∃ a, x r = .done a s ∧ f a = b := by
  show (x >>= fun a => pure (f a)) r = .done b s ↔ _
  rw [bind_done]
  constructor
  · rintro ⟨a, t, hx, hb⟩
    obtain ⟨hvalue, rfl⟩ := pure_done.1 hb
    exact ⟨a, hx, hvalue⟩
  · rintro ⟨a, hx, rfl⟩
    exact ⟨a, s, hx, rfl⟩

end Decoder

/-! ## Tapes -/

/-- A sequence of bits of a known size, and a place in it. -/
class Tape (ρ : Type) where
  bit : ρ → Nat → Bool
  size : ρ → Nat
  position : ρ → Nat
  reached : ∀ r, position r ≤ size r

namespace Tape

variable [Tape ρ]

/-- The place on the tape, as a decoder. -/
def place : Decoder ρ ε Nat := fun r => .done (position r) r

/-- The same tape, further on. -/
structure Onward (r s : ρ) : Prop where
  bit : bit s = bit r
  size : size s = size r
  position : position r ≤ position s

/-- Two tapes are at the same place and do not differ in their first `n` bits. -/
structure Agree (n : Nat) (r s : ρ) : Prop where
  position : position r = position s
  bit : ∀ i < n, bit r i = bit s i

theorem place_done {n : Nat} {r s : ρ} :
    (place : Decoder ρ ε Nat) r = .done n s ↔ position r = n ∧ r = s := by
  rw [place, Outcome.done.injEq]

theorem Onward.refl (r : ρ) : Onward r r := ⟨rfl, rfl, Nat.le_refl _⟩

theorem Onward.trans {r s t : ρ} (h : Onward r s) (h' : Onward s t) : Onward r t where
  bit := h'.bit.trans h.bit
  size := h'.size.trans h.size
  position := h.position.trans h'.position

theorem Agree.mono {m n : Nat} {r s : ρ} (h : Agree n r s) (hmn : m ≤ n) : Agree m r s where
  position := h.position
  bit i hi := h.bit i (hi.trans_le hmn)

/-- Tapes that agree still do when both have gone on to the same place. -/
theorem Agree.onward {n : Nat} {r s r' s' : ρ} (h : Agree n r s) (hr : Onward r r')
    (hs : Onward s s') (hposition : Tape.position r' = Tape.position s') : Agree n r' s' where
  position := hposition
  bit i hi := by
    rw [hr.bit, hs.bit]
    exact h.bit i hi

end Tape

open Tape

/-! ## Stability -/

/-- The value depends on the bits read; with fewer the decoder runs short; other errors stay. -/
structure Stable [Tape ρ] (short : ε → Prop) (x : Decoder ρ ε α) : Prop where
  onward : ∀ {r r' : ρ} {a : α}, x r = .done a r' → Onward r r'
  whole : ∀ {r r' s : ρ} {a : α}, x r = .done a r' → Agree (position r') r s →
    position r' ≤ size s → ∃ s', x s = .done a s' ∧ Onward s s' ∧ position r' = position s'
  cut : ∀ {r r' s : ρ} {a : α}, x r = .done a r' → Agree (size s) r s →
    size s < position r' → ∃ e s', x s = .failed e s' ∧ short e
  refused : ∀ {r r' s : ρ} {e : ε}, x r = .failed e r' → ¬ short e → Agree (size r) r s →
    size r ≤ size s → ∃ s', x s = .failed e s' ∧ position r' = position s'

namespace Stable

variable [Tape ρ] {short : ε → Prop}

theorem pure (a : α) : Stable short (pure a : Decoder ρ ε α) where
  onward h := (Decoder.pure_done.1 h).2 ▸ Onward.refl _
  whole {r r' s a'} h hagree hsize := by
    obtain ⟨rfl, rfl⟩ := Decoder.pure_done.1 h
    exact ⟨s, rfl, Onward.refl s, hagree.position⟩
  cut {r r' s a'} h hagree hsize := by
    obtain ⟨rfl, rfl⟩ := Decoder.pure_done.1 h
    have hreached := reached s
    rw [hagree.position] at hsize
    omega
  refused h := nomatch h

theorem fail (e : ε) : Stable short (Decoder.fail e : Decoder ρ ε α) where
  onward h := nomatch h
  whole h := nomatch h
  cut h := nomatch h
  refused {r r' s e'} h _ hagree _ := by
    obtain ⟨rfl, rfl⟩ := Outcome.failed.inj h
    exact ⟨s, rfl, hagree.position⟩

theorem stuck : Stable short (Decoder.stuck : Decoder ρ ε α) where
  onward h := nomatch h
  whole h := nomatch h
  cut h := nomatch h
  refused h := nomatch h

theorem ofExcept (x : Except ε α) : Stable short (Decoder.ofExcept x : Decoder ρ ε α) := by
  cases x with
  | ok a => exact pure a
  | error e => exact fail e

theorem place : Stable short (Tape.place : Decoder ρ ε Nat) where
  onward h := (Outcome.done.inj h).2 ▸ Onward.refl _
  whole {r r' s a'} h hagree hsize := by
    obtain ⟨rfl, rfl⟩ := Outcome.done.inj h
    exact ⟨s, by rw [Tape.place, hagree.position], Onward.refl s, hagree.position⟩
  cut {r r' s a'} h hagree hsize := by
    obtain ⟨rfl, rfl⟩ := Outcome.done.inj h
    have hreached := reached s
    rw [hagree.position] at hsize
    omega
  refused h := nomatch h

/-- Two stable decoders in sequence. -/
theorem bind {x : Decoder ρ ε α} {f : α → Decoder ρ ε β} (hx : Stable short x)
    (hf : ∀ a, Stable short (f a)) : Stable short (x >>= f) where
  onward h := by
    obtain ⟨a, t, hdone, hrest⟩ := Decoder.bind_done.1 h
    exact (hx.onward hdone).trans ((hf a).onward hrest)
  whole {r r' s b} h hagree hsize := by
    obtain ⟨a, t, hdone, hrest⟩ := Decoder.bind_done.1 h
    have hle := ((hf a).onward hrest).position
    obtain ⟨u, hu, honward, hposition⟩ := hx.whole hdone (hagree.mono hle) (hle.trans hsize)
    have hagree' := hagree.onward (hx.onward hdone) honward hposition
    obtain ⟨s', hs', honward', hposition'⟩ :=
      (hf a).whole hrest hagree' (hsize.trans_eq honward.size.symm)
    exact ⟨s', by rw [Decoder.bind_of_done hu, hs'], honward.trans honward', hposition'⟩
  cut {r r' s b} h hagree hsize := by
    obtain ⟨a, t, hdone, hrest⟩ := Decoder.bind_done.1 h
    by_cases hfirst : size s < position t
    · obtain ⟨e, s', hs', hshort⟩ := hx.cut hdone hagree hfirst
      exact ⟨e, s', Decoder.bind_of_failed hs', hshort⟩
    · obtain ⟨u, hu, honward, hposition⟩ :=
        hx.whole hdone (hagree.mono (Nat.not_lt.1 hfirst)) (Nat.not_lt.1 hfirst)
      have hagree' := hagree.onward (hx.onward hdone) honward hposition
      rw [← honward.size] at hagree' hsize
      obtain ⟨e, s', hs', hshort⟩ := (hf a).cut hrest hagree' hsize
      exact ⟨e, s', by rw [Decoder.bind_of_done hu, hs'], hshort⟩
  refused {r r' s e} h hshort hagree hsize := by
    rcases Decoder.bind_failed.1 h with hfailed | ⟨a, t, hdone, hrest⟩
    · obtain ⟨s', hs', hposition⟩ := hx.refused hfailed hshort hagree hsize
      exact ⟨s', Decoder.bind_of_failed hs', hposition⟩
    · have hle : position t ≤ size r := (reached t).trans_eq (hx.onward hdone).size
      obtain ⟨u, hu, honward, hposition⟩ :=
        hx.whole hdone (hagree.mono hle) (hle.trans hsize)
      have hagree' := hagree.onward (hx.onward hdone) honward hposition
      rw [← (hx.onward hdone).size] at hagree'
      obtain ⟨s', hs', hposition'⟩ := (hf a).refused hrest hshort hagree'
        (by rw [(hx.onward hdone).size, honward.size]; exact hsize)
      exact ⟨s', by rw [Decoder.bind_of_done hu, hs'], hposition'⟩

/-- A choice between two decoders that does not depend on the tape. -/
theorem ite {p : Prop} [Decidable p] {x y : Decoder ρ ε α} (hx : p → Stable short x)
    (hy : ¬ p → Stable short y) : Stable short (if p then x else y) := by
  split_ifs with h
  · exact hx h
  · exact hy h

theorem map {x : Decoder ρ ε α} (f : α → β) (hx : Stable short x) : Stable short (f <$> x) :=
  hx.bind fun a => pure (f a)

end Stable

/-! ## Errors with their context -/

/-- `map_err`: an error is reworded, knowing where the decoder began and where it has come. -/
def Decoder.mapError [Tape ρ] (f : Nat → Nat → ε → ε) (x : Decoder ρ ε α) : Decoder ρ ε α :=
  fun r =>
    match x r with
    | .failed e s => .failed (f (position r) (position s) e) s
    | outcome => outcome

theorem Decoder.mapError_done [Tape ρ] {f : Nat → Nat → ε → ε} {x : Decoder ρ ε α} {r s : ρ}
    {a : α} : x.mapError f r = .done a s ↔ x r = .done a s := by
  rw [Decoder.mapError]
  cases x r <;> simp

/-- The rewording may not turn an error of one kind into one of the other. -/
theorem Stable.mapError [Tape ρ] {short : ε → Prop} {f : Nat → Nat → ε → ε}
    (hf : ∀ m n e, short (f m n e) ↔ short e) {x : Decoder ρ ε α} (hx : Stable short x) :
    Stable short (x.mapError f) where
  onward h := hx.onward (Decoder.mapError_done.1 h)
  whole h hagree hsize := by
    obtain ⟨s', hs', hrest⟩ := hx.whole (Decoder.mapError_done.1 h) hagree hsize
    exact ⟨s', Decoder.mapError_done.2 hs', hrest⟩
  cut {r r' s a} h hagree hsize := by
    obtain ⟨e, s', hs', hshort⟩ := hx.cut (Decoder.mapError_done.1 h) hagree hsize
    refine ⟨f (position s) (position s') e, s', ?_, (hf _ _ e).2 hshort⟩
    rw [Decoder.mapError, hs']
  refused {r r' s e} h hshort hagree hsize := by
    rw [Decoder.mapError] at h
    cases hr : x r with
    | done a t => simp [hr] at h
    | unfinished => simp [hr] at h
    | failed e' t =>
      simp only [hr, Outcome.failed.injEq] at h
      obtain ⟨rfl, rfl⟩ := h
      have hshort' : ¬ short e' := fun h => hshort ((hf _ _ e').2 h)
      obtain ⟨s', hs', hposition⟩ := hx.refused hr hshort' hagree hsize
      exact ⟨s', by rw [Decoder.mapError, hs', hagree.position, hposition], hposition⟩

/-! ## Two decoders side by side -/

/-- Wherever the first decoder ends, the second ends at the same place, with a related value or
with the same error. -/
def Simulates (R : α → β → Prop) (x : Decoder ρ ε α) (y : Decoder ρ ε β) : Prop :=
  ∀ r, match x r with
    | .done a s => ∃ b, y r = .done b s ∧ R a b
    | .failed e s => y r = .failed e s
    | .unfinished => True

namespace Simulates

variable {R : α → β → Prop} {S : γ → δ → Prop}

theorem pure {a : α} {b : β} (h : R a b) :
    Simulates R (pure a : Decoder ρ ε α) (Pure.pure b) := fun _ => ⟨b, rfl, h⟩

theorem fail (e : ε) : Simulates R (Decoder.fail e : Decoder ρ ε α) (Decoder.fail e) := fun _ => rfl

theorem stuck (y : Decoder ρ ε β) : Simulates R (Decoder.stuck : Decoder ρ ε α) y := fun _ => trivial

/-- Every decoder does what it does itself. -/
theorem refl (x : Decoder ρ ε α) : Simulates Eq x x := by
  intro r
  cases x r <;> simp

theorem bind {x : Decoder ρ ε α} {y : Decoder ρ ε β} {f : α → Decoder ρ ε γ}
    {g : β → Decoder ρ ε δ} (hxy : Simulates R x y) (hfg : ∀ a b, R a b → Simulates S (f a) (g b)) :
    Simulates S (x >>= f) (y >>= g) := by
  intro r
  have hr := hxy r
  rw [Decoder.bind_apply x, Decoder.bind_apply y]
  cases hx : x r with
  | done a s =>
    rw [hx] at hr
    obtain ⟨b, hy, hab⟩ := hr
    rw [hy]
    exact hfg a b hab s
  | failed e s =>
    rw [hx] at hr
    rw [hr]
  | unfinished => trivial

/-- Two decoders that begin alike. -/
theorem bind_eq {x y : Decoder ρ ε α} {f : α → Decoder ρ ε γ} {g : α → Decoder ρ ε δ}
    (hxy : Simulates Eq x y) (hfg : ∀ a, Simulates S (f a) (g a)) :
    Simulates S (x >>= f) (y >>= g) := by
  apply hxy.bind
  rintro a b rfl
  exact hfg a

theorem mapError [Tape ρ] {x : Decoder ρ ε α} {y : Decoder ρ ε β} (f : Nat → Nat → ε → ε)
    (hxy : Simulates R x y) : Simulates R (x.mapError f) (y.mapError f) := by
  intro r
  have hr := hxy r
  rw [Decoder.mapError, Decoder.mapError]
  cases hx : x r with
  | done a s =>
    rw [hx] at hr
    obtain ⟨b, hy, hab⟩ := hr
    rw [hy]
    exact ⟨b, rfl, hab⟩
  | failed e s =>
    rw [hx] at hr
    rw [hr]
  | unfinished => trivial

theorem mono {R' : α → β → Prop} {x : Decoder ρ ε α} {y : Decoder ρ ε β} (hxy : Simulates R x y)
    (h : ∀ a b, R a b → R' a b) : Simulates R' x y := by
  intro r
  have hr := hxy r
  cases hx : x r with
  | done a s =>
    rw [hx] at hr
    obtain ⟨b, hy, hab⟩ := hr
    exact ⟨b, hy, h a b hab⟩
  | failed e s =>
    rw [hx] at hr
    exact hr
  | unfinished => trivial

/-- Where the first decoder is done. -/
theorem done {x : Decoder ρ ε α} {y : Decoder ρ ε β} (hxy : Simulates R x y) {r s : ρ} {a : α}
    (h : x r = .done a s) : ∃ b, y r = .done b s ∧ R a b := by
  have hr := hxy r
  rw [h] at hr
  exact hr

theorem failed {x : Decoder ρ ε α} {y : Decoder ρ ε β} (hxy : Simulates R x y) {r s : ρ} {e : ε}
    (h : x r = .failed e s) : y r = .failed e s := by
  have hr := hxy r
  rw [h] at hr
  exact hr

end Simulates

end Superiority
