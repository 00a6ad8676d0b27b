import Mathlib.Data.List.Basic

/-!
# Queues that are accounted for

Items enter a queue at its end, wait in the order in which they came, and leave it from any place.
`Balanced entered left before after` says that on the way from `before` to `after` nothing is made
up, lost or doubled, and that what still waits does so in its order.

Main results:

* **`Balanced.trans`** – what two stretches account for, both together account for;
* **`Balanced.leave`**, **`Balanced.enter`**, **`Balanced.filter`** – the single moves;
* **`not_of_mem_dropWhile`** – what is left of a queue whose first items have expired.
-/

namespace Superiority

variable {α β : Type*}

/-- What waited and what entered is what left and what waits still. -/
structure Balanced (entered left before after : List α) : Prop where
  conserved : (before ++ entered).Perm (left ++ after)
  ordered : after.Sublist (before ++ entered)

namespace Balanced

variable {entered entered' left left' before mid after : List α}

theorem refl (items : List α) : Balanced [] [] items items where
  conserved := by simp
  ordered := by simp

theorem enter (before items : List α) : Balanced items [] before (before ++ items) where
  conserved := by simp
  ordered := List.Sublist.refl _

/-- One item leaves, wherever it waits. -/
theorem leave (first : List α) (item : α) (rest : List α) :
    Balanced [] [item] (first ++ item :: rest) (first ++ rest) where
  conserved := by simp
  ordered := by simp

/-- All items leave that fail the test. -/
theorem filter (p : α → Bool) (items : List α) :
    Balanced [] (items.filter fun item => !p item) items (items.filter p) where
  conserved := by
    rw [List.append_nil]
    exact (List.perm_append_comm.trans (List.filter_append_perm p items)).symm
  ordered := by simp

/-- The first items leave. -/
theorem drop (count : Nat) (items : List α) :
    Balanced [] (items.take count) items (items.drop count) where
  conserved := by simp
  ordered := by
    rw [List.append_nil]
    exact List.drop_sublist count items

/-- The first items leave, up to one that fails the test. -/
theorem dropWhile (p : α → Bool) (items : List α) :
    Balanced [] (items.takeWhile p) items (items.dropWhile p) where
  conserved := by simp
  ordered := by
    rw [List.append_nil]
    exact List.dropWhile_sublist p

/-- The item at a place leaves. -/
theorem eraseIdx {items : List α} {place : Nat} {item : α} (h : items[place]? = some item) :
    Balanced [] [item] items (items.eraseIdx place) := by
  obtain ⟨hlt, rfl⟩ := List.getElem?_eq_some_iff.1 h
  have hsplit : items.take place ++ items[place] :: items.drop (place + 1) = items := by simp
  have hleave := leave (items.take place) items[place] (items.drop (place + 1))
  rwa [hsplit, ← List.eraseIdx_eq_take_drop_succ] at hleave

theorem trans (h : Balanced entered left before mid) (k : Balanced entered' left' mid after) :
    Balanced (entered ++ entered') (left ++ left') before after where
  conserved := by
    calc before ++ (entered ++ entered')
        = before ++ entered ++ entered' := (List.append_assoc ..).symm
      _ |>.Perm (left ++ mid ++ entered') := h.conserved.append_right entered'
      _ |>.Perm (left ++ (left' ++ after)) := by
        rw [List.append_assoc]
        exact k.conserved.append_left left
      _ = left ++ left' ++ after := (List.append_assoc ..).symm
  ordered := by
    rw [← List.append_assoc]
    exact k.ordered.trans (h.ordered.append_right entered')

/-- In which order things are said to have left is no matter. -/
theorem congr (h : Balanced entered left before after) (hleft : left.Perm left') :
    Balanced entered left' before after :=
  ⟨h.conserved.trans (hleft.append_right after), h.ordered⟩

theorem map (h : Balanced entered left before after) (f : α → β) :
    Balanced (entered.map f) (left.map f) (before.map f) (after.map f) where
  conserved := by
    rw [← List.map_append, ← List.map_append]
    exact h.conserved.map f
  ordered := by
    rw [← List.map_append]
    exact h.ordered.map f

end Balanced

/-- In a queue in which whatever comes before an expired item has expired too, nothing expired is
left when the first items that have expired are gone. -/
theorem not_of_mem_dropWhile {p : α → Bool} {items : List α}
    (hitems : items.Pairwise fun first second => p second = true → p first = true) :
    ∀ item ∈ items.dropWhile p, p item = false := by
  induction items with
  | nil => exact fun item h => absurd h List.not_mem_nil
  | cons first items ih =>
    obtain ⟨hfirst, hitems⟩ := List.pairwise_cons.1 hitems
    cases hp : p first with
    | true =>
      rw [List.dropWhile_cons_of_pos hp]
      exact ih hitems
    | false =>
      rw [List.dropWhile_cons_of_neg (by simp [hp])]
      intro item hitem
      rcases List.mem_cons.1 hitem with rfl | hitem
      · exact hp
      · cases hq : p item with
        | false => rfl
        | true => exact absurd (hfirst item hitem hq) (by simp [hp])

end Superiority
