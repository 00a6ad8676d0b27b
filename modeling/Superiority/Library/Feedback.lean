import Mathlib.Logic.Equiv.Defs
import Mathlib.Tactic

/-!
# Feedback ciphers

A cipher that permutes each item of its input by what has been encoded before it. The encoder
learns that from its own output, the decoder from its input, so each undoes the other
(**`decodeFrom_encodeFrom`**, **`encodeFrom_decodeFrom`**), and neither looks ahead
(**`take_encodeFrom`**, **`take_decodeFrom`**).

* **`getElem?_encodeFrom`**, **`getElem?_decodeFrom`** – one item of the output.
* `set_take_append_drop` – the step of a cipher that works in place.
-/

namespace Superiority.Feedback

variable {α : Type*} (permute : List α → Equiv.Perm α)

/-- The items encoded, where `done` is encoded already. -/
def encodeFrom : (done items : List α) → List α
  | _, [] => []
  | done, x :: items => permute done x :: encodeFrom (done ++ [permute done x]) items

/-- The items decoded, where `done` came before them. -/
def decodeFrom : (done items : List α) → List α
  | _, [] => []
  | done, y :: items => (permute done).symm y :: decodeFrom (done ++ [y]) items

@[simp] theorem length_encodeFrom (done items : List α) :
    (encodeFrom permute done items).length = items.length := by
  induction items generalizing done with
  | nil => rfl
  | cons x items ih => simp [encodeFrom, ih]

@[simp] theorem length_decodeFrom (done items : List α) :
    (decodeFrom permute done items).length = items.length := by
  induction items generalizing done with
  | nil => rfl
  | cons y items ih => simp [decodeFrom, ih]

/-! ## Round trips -/

/-- **Decoding undoes encoding.** -/
theorem decodeFrom_encodeFrom (done items : List α) :
    decodeFrom permute done (encodeFrom permute done items) = items := by
  induction items generalizing done with
  | nil => rfl
  | cons x items ih => rw [encodeFrom, decodeFrom, ih, Equiv.symm_apply_apply]

/-- **Encoding undoes decoding.** -/
theorem encodeFrom_decodeFrom (done items : List α) :
    encodeFrom permute done (decodeFrom permute done items) = items := by
  induction items generalizing done with
  | nil => rfl
  | cons y items ih => rw [decodeFrom, encodeFrom, Equiv.apply_symm_apply, ih]

/-! ## Prefixes -/

/-- The encoder does not look ahead. -/
theorem take_encodeFrom (k : Nat) (done items : List α) :
    (encodeFrom permute done items).take k = encodeFrom permute done (items.take k) := by
  induction items generalizing k done with
  | nil => simp [encodeFrom]
  | cons x items ih =>
    cases k with
    | zero => rfl
    | succ k => rw [encodeFrom, List.take_succ_cons, List.take_succ_cons, encodeFrom, ih]

/-- Nor does the decoder. -/
theorem take_decodeFrom (k : Nat) (done items : List α) :
    (decodeFrom permute done items).take k = decodeFrom permute done (items.take k) := by
  induction items generalizing k done with
  | nil => simp [decodeFrom]
  | cons y items ih =>
    cases k with
    | zero => rfl
    | succ k => rw [decodeFrom, List.take_succ_cons, List.take_succ_cons, decodeFrom, ih]

/-- One item of what is encoded, told by those before it. -/
theorem getElem?_encodeFrom (done items : List α) (i : Nat) :
    (encodeFrom permute done items)[i]? =
      items[i]?.map (permute (done ++ (encodeFrom permute done items).take i)) := by
  induction items generalizing done i with
  | nil => rfl
  | cons x items ih =>
    cases i with
    | zero => simp [encodeFrom]
    | succ i =>
      have hrest := ih (done ++ [permute done x]) i
      simpa [encodeFrom] using hrest

/-- One item of what is decoded, told by the encoded ones before it. -/
theorem getElem?_decodeFrom (done items : List α) (i : Nat) :
    (decodeFrom permute done items)[i]? =
      items[i]?.map (permute (done ++ items.take i)).symm := by
  induction items generalizing done i with
  | nil => rfl
  | cons y items ih =>
    cases i with
    | zero => simp [decodeFrom]
    | succ i =>
      have hrest := ih (done ++ [y]) i
      simpa [decodeFrom] using hrest

/-! ## In place -/

/-- Items of which the first are done already: one more is done. -/
theorem set_take_append_drop {result items : List α} (hlength : result.length = items.length)
    {n : Nat} (hn : n < result.length) :
    (result.take n ++ items.drop n).set n result[n] =
      result.take (n + 1) ++ items.drop (n + 1) := by
  have hitems : n < items.length := by omega
  have htake : (result.take n).length = n := by
    rw [List.length_take]
    omega
  rw [List.set_append_right _ _ (by omega), htake, Nat.sub_self, List.drop_eq_getElem_cons hitems,
    List.set_cons_zero, List.take_succ_eq_append_getElem hn, List.append_assoc]
  rfl

end Superiority.Feedback
