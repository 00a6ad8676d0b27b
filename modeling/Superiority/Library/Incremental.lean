import Mathlib.Data.List.Basic

/-!
# Decoders that are retried as data comes in

A reader keeps what has arrived in a buffer and decodes from its start: it finds a value and how
much of the buffer that took, it finds that the buffer is malformed, or it asks for more. What it
finds must not depend on how much has arrived beyond it.

* **`Incremental`** – a decoder whose findings stay when the buffer grows, and that takes a part
  of the buffer for each value.
* **`all`** – the values of a whole stream, how it ends, and what is left of it. A finding in a
  part of the stream is one in the stream (`all_of_value`, `all_of_error`), so a reader that
  decodes whatever has arrived comes to the same however the stream was cut.
-/

namespace Superiority

structure Incremental (α β ε : Type*) where
  decode : List α → Except ε (Option (β × Nat))
  grows : ∀ {data : List α} {found}, decode data = found → found ≠ .ok none →
    ∀ more, decode (data ++ more) = found
  takes : ∀ {data : List α} {value : β} {taken : Nat}, decode data = .ok (some (value, taken)) →
    0 < taken ∧ taken ≤ data.length

/-- The values of a stream, the error that ends them unless the data does, and the rest. -/
structure Decoded (α β ε : Type*) where
  values : List β
  error : Option ε
  rest : List α

namespace Incremental

variable {α β ε : Type*}

def all (d : Incremental α β ε) (data : List α) : Decoded α β ε :=
  match hfound : d.decode data with
  | .error error => ⟨[], some error, data⟩
  | .ok none => ⟨[], none, data⟩
  | .ok (some (value, taken)) =>
    have := d.takes hfound
    let later := d.all (data.drop taken)
    { later with values := value :: later.values }
termination_by data.length
decreasing_by
  rw [List.length_drop]
  omega

variable {d : Incremental α β ε} {data : List α}

theorem all_of_none (h : d.decode data = .ok none) : d.all data = ⟨[], none, data⟩ := by
  rw [all]
  split <;> simp_all

/-- An error in what has arrived is the end of the stream. -/
theorem all_of_error {error : ε} (h : d.decode data = .error error) (more : List α) :
    d.all (data ++ more) = ⟨[], some error, data ++ more⟩ := by
  have hgrown := d.grows h (by simp) more
  rw [all]
  split <;> simp_all

/-- A value in what has arrived is the next of the stream. -/
theorem all_of_value {value : β} {taken : Nat} (h : d.decode data = .ok (some (value, taken)))
    (more : List α) :
    d.all (data ++ more) = { d.all (data.drop taken ++ more) with
      values := value :: (d.all (data.drop taken ++ more)).values } := by
  have hgrown := d.grows h (by simp) more
  have hdrop : (data ++ more).drop taken = data.drop taken ++ more :=
    List.drop_append_of_le_length (d.takes h).2
  rw [all]
  split <;> simp_all

/-- A stream without values is left as it is. -/
theorem rest_of_values_nil (h : (d.all data).values = []) : (d.all data).rest = data := by
  rw [all] at h ⊢
  split at h
  · rfl
  · rfl
  · exact absurd h (List.cons_ne_nil _ _)

/-- A proper part of what a value takes is no value and no error. -/
theorem decode_prefix {value : β} {front back : List α} (hback : back ≠ [])
    (h : d.decode (front ++ back) = .ok (some (value, (front ++ back).length))) :
    d.decode front = .ok none := by
  by_contra hfound
  have hgrown := d.grows rfl hfound back
  have htaken := d.takes (hgrown.symm.trans h)
  rw [List.length_append] at htaken
  exact absurd (List.length_pos_iff.2 hback) (by omega)

end Incremental

end Superiority
