import Superiority.Library.Decoder

/-!
# What an encoder wrote, a decoder reads

A pen writes bits up to a place. A stretch of writing, from one state of the pen to a later one,
**`Conveys`** a value to a decoder when on every tape that carries the stretch the decoder ends with
such a value, at its end. Stretches that follow each other spell what a sequence of decoders reads
(**`Conveys.bind`**), because later writing leaves the earlier bits alone.
-/

namespace Superiority

variable {ω ρ ε α β : Type}

/-- What is written to: bits, up to a place. -/
class Pen (ω : Type) where
  bit : ω → Nat → Bool
  position : ω → Nat

section pen

variable [Pen ω]

/-- The same bits, and more behind them. -/
structure Extends (w w' : ω) : Prop where
  position : Pen.position w ≤ Pen.position w'
  bit : ∀ i < Pen.position w, Pen.bit w' i = Pen.bit w i

theorem Extends.refl (w : ω) : Extends w w := ⟨Nat.le_refl _, fun _ _ => rfl⟩

theorem Extends.trans {w w₁ w₂ : ω} (h : Extends w w₁) (h' : Extends w₁ w₂) : Extends w w₂ where
  position := h.position.trans h'.position
  bit i hi := (h'.bit i (hi.trans_le h.position)).trans (h.bit i hi)

variable [Tape ρ]

/-- The tape has all that is written, and is at the place where the stretch begins. -/
structure Carries (r : ρ) (w w' : ω) : Prop where
  position : Tape.position r = Pen.position w
  bit : ∀ i < Pen.position w', Tape.bit r i = Pen.bit w' i
  size : Pen.position w' ≤ Tape.size r

/-- A tape that carries two stretches carries the first. -/
theorem Carries.first {r : ρ} {w w₁ w₂ : ω} (h : Carries r w w₂) (h' : Extends w₁ w₂) :
    Carries r w w₁ where
  position := h.position
  bit i hi := (h.bit i (hi.trans_le h'.position)).trans (h'.bit i hi)
  size := h'.position.trans h.size

/-- At the end of the first stretch it carries the second. -/
theorem Carries.second {r s : ρ} {w w₁ w₂ : ω} (h : Carries r w w₂) (hs : Tape.Onward r s)
    (hposition : Tape.position s = Pen.position w₁) : Carries s w₁ w₂ where
  position := hposition
  bit i hi := by
    rw [hs.bit]
    exact h.bit i hi
  size := by
    rw [hs.size]
    exact h.size

/-- The decoder reads the stretch to its end, as a value with the property. -/
def Conveys (ρ : Type) [Tape ρ] (w w' : ω) (x : Decoder ρ ε α) (P : α → Prop) : Prop :=
  ∀ r : ρ, Carries r w w' → ∃ a s, x r = .done a s ∧ P a ∧ Tape.Onward r s ∧
    Tape.position s = Pen.position w'

namespace Conveys

variable {w w₁ w₂ : ω} {x : Decoder ρ ε α} {P : α → Prop}

theorem pure {a : α} (ha : P a) : Conveys ρ w w (pure a : Decoder ρ ε α) P := fun r hr =>
  ⟨a, r, rfl, ha, Tape.Onward.refl r, hr.position⟩

theorem ofExcept {y : Except ε α} {a : α} (hy : y = .ok a) (ha : P a) :
    Conveys ρ w w (Decoder.ofExcept y) P := by
  rw [hy]
  exact Conveys.pure ha

theorem place : Conveys ρ w w (Tape.place : Decoder ρ ε Nat) (· = Pen.position w) := fun r hr =>
  ⟨_, r, rfl, hr.position, Tape.Onward.refl r, hr.position⟩

theorem mono {Q : α → Prop} (h : Conveys ρ w w₁ x P) (hPQ : ∀ a, P a → Q a) :
    Conveys ρ w w₁ x Q := by
  intro r hr
  obtain ⟨a, s, hx, ha, hs, hposition⟩ := h r hr
  exact ⟨a, s, hx, hPQ a ha, hs, hposition⟩

/-- **A stretch after another.** -/
theorem bind {f : α → Decoder ρ ε β} {Q : β → Prop} (hx : Conveys ρ w w₁ x P)
    (hext : Extends w₁ w₂) (hf : ∀ a, P a → Conveys ρ w₁ w₂ (f a) Q) :
    Conveys ρ w w₂ (x >>= f) Q := by
  intro r hr
  obtain ⟨a, s, hdone, ha, hs, hposition⟩ := hx r (hr.first hext)
  obtain ⟨b, t, hdone', hb, ht, hposition'⟩ := hf a ha s (hr.second hs hposition)
  exact ⟨b, t, Decoder.bind_done.2 ⟨a, s, hdone, hdone'⟩, hb, hs.trans ht, hposition'⟩

/-- A step that reads nothing, before the stretch. -/
theorem bind_still {f : α → Decoder ρ ε β} {Q : β → Prop} (hx : Conveys ρ w w x P)
    (hext : Extends w w₁) (hf : ∀ a, P a → Conveys ρ w w₁ (f a) Q) : Conveys ρ w w₁ (x >>= f) Q :=
  hx.bind hext hf

/-- A step that reads nothing, after the stretch. -/
theorem map {f : α → β} {Q : β → Prop} (hx : Conveys ρ w w₁ x P) (hf : ∀ a, P a → Q (f a)) :
    Conveys ρ w w₁ (f <$> x) Q := by
  intro r hr
  obtain ⟨a, s, hdone, ha, hs, hposition⟩ := hx r hr
  exact ⟨f a, s, Decoder.map_done.2 ⟨a, hdone, rfl⟩, hf a ha, hs, hposition⟩

theorem mapError {f : Nat → Nat → ε → ε} (h : Conveys ρ w w₁ x P) :
    Conveys ρ w w₁ (x.mapError f) P := by
  intro r hr
  obtain ⟨a, s, hdone, ha, hs, hposition⟩ := h r hr
  exact ⟨a, s, Decoder.mapError_done.2 hdone, ha, hs, hposition⟩

end Conveys

end pen

end Superiority
