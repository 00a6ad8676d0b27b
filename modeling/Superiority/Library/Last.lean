import Mathlib.Data.List.Basic

/-!
# The last of a kind

What the last item of a kind in a history is like, knowing the items behind it.

* **`lastOf_snoc_of_kind`** – a new item of the kind is the last, with nothing behind it.
* **`lastOf_snoc_of_not_kind`** – any other is one more behind the last.
-/

namespace Superiority

variable {α : Type*}

/-- The last item of a kind is like this, with these items behind it. -/
def LastOf (kind : α → Prop) (like : α → List α → Prop) (items : List α) : Prop :=
  ∃ before a behind, items = before ++ a :: behind ∧ kind a ∧ like a behind ∧
    ∀ b ∈ behind, ¬ kind b

variable {kind : α → Prop} {like : α → List α → Prop}

theorem not_lastOf_nil : ¬ LastOf kind like [] := by
  rintro ⟨before, a, behind, h, -⟩
  simp at h

theorem lastOf_snoc_of_kind {items : List α} {a : α} (ha : kind a) :
    LastOf kind like (items ++ [a]) ↔ like a [] := by
  constructor
  · rintro ⟨before, b, behind, h, -, hlike, hbehind⟩
    rcases List.eq_nil_or_concat behind with rfl | ⟨behind, c, rfl⟩
    · obtain ⟨-, h⟩ := List.append_inj' h rfl
      rwa [(List.cons.inj h).1]
    · rw [List.concat_eq_append, ← List.cons_append, ← List.append_assoc] at h
      obtain ⟨-, h⟩ := List.append_inj' h rfl
      rw [(List.cons.inj h).1] at ha
      exact absurd ha (hbehind c (by simp))
  · intro hlike
    exact ⟨items, a, [], rfl, ha, hlike, by simp⟩

theorem lastOf_snoc_of_not_kind {items : List α} {a : α} (ha : ¬ kind a) :
    LastOf kind like (items ++ [a]) ↔
      LastOf kind (fun b behind => like b (behind ++ [a])) items := by
  constructor
  · rintro ⟨before, b, behind, h, hb, hlike, hbehind⟩
    rcases List.eq_nil_or_concat behind with rfl | ⟨behind, c, rfl⟩
    · obtain ⟨-, h⟩ := List.append_inj' h rfl
      rw [(List.cons.inj h).1] at ha
      exact absurd hb ha
    · rw [List.concat_eq_append, ← List.cons_append, ← List.append_assoc] at h
      obtain ⟨rfl, hlast⟩ := List.append_inj' h rfl
      obtain rfl := (List.cons.inj hlast).1
      rw [List.concat_eq_append] at hlike hbehind
      exact ⟨before, b, behind, rfl, hb, hlike, fun d hd => hbehind d (by simp [hd])⟩
  · rintro ⟨before, b, behind, rfl, hb, hlike, hbehind⟩
    refine ⟨before, b, behind ++ [a], by simp, hb, hlike, fun d hd => ?_⟩
    rcases List.mem_append.1 hd with hd | hd
    · exact hbehind d hd
    · rwa [List.mem_singleton.1 hd]

theorem lastOf_congr {like' : α → List α → Prop} (h : ∀ a behind, like a behind ↔ like' a behind)
    (items : List α) : LastOf kind like items ↔ LastOf kind like' items := by
  simp only [LastOf, h]

end Superiority
