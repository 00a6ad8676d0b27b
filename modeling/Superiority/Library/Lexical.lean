import Mathlib.Data.List.DropRight

/-!
# Lexical paths

A path by its parts: a name leads down, a parent leads up, and above the root there is nothing.
`follow` says where the parts lead from a directory.

* **`Part.follow_eq`** – the parts lead up some levels and then down some names, whatever the
  directory.
* **`Inside.follow_iff`** – when a path that starts below a directory ends strictly inside it: it
  leads no further up than to the directory, or it comes back by the names it left.
-/

namespace Superiority

inductive Part (α : Type*) where
  | parent
  | name (text : α)
  deriving DecidableEq

namespace Part

variable {α : Type*}

def step (dir : List α) : Part α → List α
  | parent => dir.dropLast
  | name text => dir ++ [text]

/-- Where the parts lead from a directory. -/
def follow (dir : List α) (parts : List (Part α)) : List α := parts.foldl step dir

/-- A path with no name before a parent: so many levels up, then these names. -/
structure Reduced (α : Type*) where
  ups : Nat
  names : List α
  deriving DecidableEq

def Reduced.step [DecidableEq α] (r : Reduced α) : Part α → Reduced α
  | parent => if r.names = [] then { r with ups := r.ups + 1 } else { r with names := r.names.dropLast }
  | name text => { r with names := r.names ++ [text] }

variable [DecidableEq α]

def reduce (parts : List (Part α)) : Reduced α := parts.foldl Reduced.step ⟨0, []⟩

def Reduced.from (r : Reduced α) (dir : List α) : List α := dir.rdrop r.ups ++ r.names

omit [DecidableEq α] in
theorem dropLast_rdrop (dir : List α) (n : Nat) : (dir.rdrop n).dropLast = dir.rdrop (n + 1) := by
  rw [List.rdrop, List.rdrop, List.dropLast_eq_take, List.take_take, List.length_take]
  congr 1
  omega

theorem from_step (r : Reduced α) (part : Part α) (dir : List α) :
    (r.step part).from dir = step (r.from dir) part := by
  cases part with
  | name text => simp [Reduced.step, Reduced.from, step]
  | parent =>
    by_cases hnames : r.names = []
    · simp [Reduced.step, Reduced.from, step, hnames, dropLast_rdrop]
    · simp [Reduced.step, Reduced.from, step, hnames, List.dropLast_append_of_ne_nil]

/-- The parts lead where their reduced path leads. -/
theorem follow_eq (dir : List α) (parts : List (Part α)) :
    follow dir parts = (reduce parts).from dir := by
  have hrun : ∀ r : Reduced α,
      parts.foldl step (r.from dir) = (parts.foldl Reduced.step r).from dir := by
    induction parts with
    | nil => exact fun r => rfl
    | cons part parts ih =>
      intro r
      rw [List.foldl_cons, List.foldl_cons, ← ih, from_step]
  simpa [follow, reduce, Reduced.from] using hrun ⟨0, []⟩

end Part

/-- Below the directory, and not the directory itself. -/
def Inside {α : Type*} (dir path : List α) : Prop := dir <+: path ∧ path ≠ dir

namespace Inside

open Part

variable {α : Type*} [DecidableEq α]

instance (dir path : List α) : Decidable (Inside dir path) :=
  inferInstanceAs (Decidable (_ ∧ _))

omit [DecidableEq α] in
theorem append_singleton {dir path : List α} {text : α} :
    Inside dir (path ++ [text]) ↔ dir <+: path := by
  constructor
  · rintro ⟨hinitial, hne⟩
    exact (List.prefix_concat_iff.1 hinitial).resolve_left (Ne.symm hne)
  · intro h
    refine ⟨h.trans (List.prefix_append ..), fun heq => ?_⟩
    have hlength := h.length_le
    rw [← heq, List.length_append, List.length_singleton] at hlength
    omega

/-- From one name below a directory. -/
theorem follow_iff {dir : List α} {sub text : α} {parts : List (Part α)} :
    Inside dir (follow (dir ++ [sub]) (parts ++ [.name text])) ↔
      dir.rtake ((reduce parts).ups - 1) <+: (reduce parts).names := by
  have hlast : follow (dir ++ [sub]) (parts ++ [.name text]) =
      follow (dir ++ [sub]) parts ++ [text] := by
    rw [follow, List.foldl_append]
    rfl
  rw [hlast, append_singleton, follow_eq, Reduced.from]
  cases (reduce parts).ups with
  | zero => simp
  | succ n =>
    rw [List.rdrop_concat_succ, Nat.add_sub_cancel]
    have hdir : dir.rdrop n ++ dir.rtake n = dir := List.take_append_drop ..
    calc dir <+: dir.rdrop n ++ (reduce parts).names
      _ ↔ dir.rdrop n ++ dir.rtake n <+: dir.rdrop n ++ (reduce parts).names := by rw [hdir]
      _ ↔ dir.rtake n <+: (reduce parts).names := List.prefix_append_right_inj _

end Inside

end Superiority
