import Mathlib.Data.List.Infix
import Mathlib.Data.List.Sort

/-!
# File trees

A file tree is a finite table from paths to entries. A tree that exists is `Closed`: what lies on
the way to an entry is a directory. The calls that change a tree are `insert`, `erase` and `graft`,
which puts a whole tree in the place of a directory.
-/

namespace Superiority

/-- The names on the way from the root. -/
abbrev Path := List String

inductive Entry (γ : Type) where
  | directory
  | file (content : γ)
  | link
  deriving DecidableEq, Repr

abbrev FileTree (γ : Type) := List (Path × Entry γ)

namespace FileTree

variable {γ : Type}

def lookup (f : FileTree γ) (p : Path) : Option (Entry γ) :=
  (f.find? (·.1 = p)).map (·.2)

def isFile (f : FileTree γ) (p : Path) : Bool :=
  match f.lookup p with
  | some (.file _) => true
  | _ => false

def content (f : FileTree γ) (p : Path) : Option γ :=
  match f.lookup p with
  | some (.file c) => some c
  | _ => none

def erase (f : FileTree γ) (p : Path) : FileTree γ := f.filter (·.1 ≠ p)

def insert (f : FileTree γ) (p : Path) (e : Entry γ) : FileTree γ := (p, e) :: f.erase p

/-- The tree with another in the place of what is at or below a path. -/
def graft (f : FileTree γ) (p : Path) (g : FileTree γ) : FileTree γ :=
  g.map (fun e => (p ++ e.1, e.2)) ++ f.filter fun e => ¬ p <+: e.1

/-- The paths at or below a path, each after those below it. -/
def removalOrder (f : FileTree γ) (p : Path) : List Path :=
  ((f.map (·.1)).filter (p <+: ·)).insertionSort fun a b => b.length ≤ a.length

/-- The entries of a tree, each before those below it. -/
def walk [DecidableEq γ] (f : FileTree γ) : FileTree γ :=
  (f.filter fun e => f.lookup e.1 = some e.2).insertionSort fun a b => a.1.length ≤ b.1.length

/-- The names of a directory. -/
def names (f : FileTree γ) (p : Path) : List String :=
  f.filterMap fun e => if e.1.dropLast = p then e.1.getLast? else none

/-- Each entry is in a directory. -/
def Closed (f : FileTree γ) : Prop :=
  ∀ p, f.lookup p ≠ none → ∀ q, q <+: p → q ≠ p → f.lookup q = some .directory

/-! ## Looking up -/

theorem isFile_iff {f : FileTree γ} {p : Path} :
    f.isFile p = true ↔ ∃ c, f.lookup p = some (.file c) := by
  rw [isFile]
  split
  · next c h => simp [h]
  · next h =>
    constructor
    · nofun
    · intro ⟨c, hc⟩
      exact absurd hc (h c)

theorem content_eq_some {f : FileTree γ} {p : Path} {c : γ} :
    f.content p = some c ↔ f.lookup p = some (.file c) := by
  rw [content]
  split
  · next c' h => simp [h]
  · next h =>
    constructor
    · nofun
    · intro hc
      exact absurd hc (h c)

theorem isFile_congr {f g : FileTree γ} {p : Path} (h : g.lookup p = f.lookup p) :
    g.isFile p = f.isFile p := by
  rw [isFile, h, isFile]

@[simp] theorem lookup_erase_self (f : FileTree γ) (p : Path) : (f.erase p).lookup p = none := by
  simp [lookup, erase, List.find?_eq_none]

theorem lookup_erase_of_ne {f : FileTree γ} {p q : Path} (h : q ≠ p) :
    (f.erase p).lookup q = f.lookup q := by
  rw [lookup, erase, List.find?_filter, lookup]
  congr 1
  congr 1
  funext e
  by_cases hq : e.1 = q
  · simp [hq, h]
  · simp [hq]

@[simp] theorem lookup_insert_self (f : FileTree γ) (p : Path) (e : Entry γ) :
    (f.insert p e).lookup p = some e := by
  simp [lookup, insert]

theorem lookup_insert_of_ne {f : FileTree γ} {p q : Path} {e : Entry γ} (h : q ≠ p) :
    (f.insert p e).lookup q = f.lookup q := by
  rw [lookup, insert, List.find?_cons_of_neg (by simpa using Ne.symm h)]
  exact lookup_erase_of_ne h

/-- A file put anywhere leaves every file a file. -/
theorem isFile_insert_file {f : FileTree γ} {p q : Path} {c : γ} (h : f.isFile q = true) :
    (f.insert p (.file c)).isFile q = true := by
  by_cases hq : q = p
  · rw [hq, isFile_iff]
    exact ⟨c, lookup_insert_self ..⟩
  · rwa [isFile_congr (lookup_insert_of_ne hq)]

/-- And so does a directory put where nothing was. -/
theorem isFile_insert_directory {f : FileTree γ} {p q : Path} (hnone : f.lookup p = none)
    (h : f.isFile q = true) : (f.insert p .directory).isFile q = true := by
  have hne : q ≠ p := by
    intro hqp
    rw [hqp, isFile, hnone] at h
    cases h
  rwa [isFile_congr (lookup_insert_of_ne hne)]

theorem isFile_erase {f : FileTree γ} {p q : Path} (hq : q ≠ p) (h : f.isFile q = true) :
    (f.erase p).isFile q = true := by
  rwa [isFile_congr (lookup_erase_of_ne hq)]

/-- Below the path the grafted tree is found. -/
theorem lookup_graft_append (f g : FileTree γ) (p q : Path) :
    (f.graft p g).lookup (p ++ q) = g.lookup q := by
  have hrest : (f.filter fun e => ¬ p <+: e.1).find? (·.1 = p ++ q) = none := by
    rw [List.find?_eq_none]
    intro e he hq
    have hpref := (List.mem_filter.1 he).2
    rw [decide_eq_true_eq] at hq
    simp [hq] at hpref
  rw [lookup, graft, List.find?_append, hrest, Option.or_none, List.find?_map, lookup,
    Option.map_map]
  simp [Function.comp_def]

theorem lookup_graft_of_not_under {f g : FileTree γ} {p q : Path} (h : ¬ p <+: q) :
    (f.graft p g).lookup q = f.lookup q := by
  have hnew : (g.map fun e => (p ++ e.1, e.2)).find? (·.1 = q) = none := by
    rw [List.find?_eq_none]
    intro e he hq
    obtain ⟨e', _, rfl⟩ := List.mem_map.1 he
    exact h ⟨e'.1, by simpa using hq⟩
  rw [lookup, graft, List.find?_append, hnew, Option.none_or, List.find?_filter, lookup]
  congr 1
  congr 1
  funext e
  by_cases hq : e.1 = q
  · simp [hq, h]
  · simp [hq]

theorem mem_of_lookup {f : FileTree γ} {p : Path} {e : Entry γ} (h : f.lookup p = some e) :
    (p, e) ∈ f := by
  obtain ⟨e', he', rfl⟩ := Option.map_eq_some_iff.1 h
  have hp : e'.1 = p := by simpa using List.find?_some he'
  exact hp ▸ List.mem_of_find?_eq_some he'

/-- A tree is closed when each of its entries is in a directory. -/
theorem closed_of_mem {f : FileTree γ}
    (h : ∀ e ∈ f, ∀ q ∈ e.1.inits, q ≠ e.1 → f.lookup q = some .directory) : f.Closed := by
  intro p hp q hq hne
  obtain ⟨e, he⟩ := Option.ne_none_iff_exists'.1 hp
  exact h _ (mem_of_lookup he) q ((List.mem_inits _ _).2 hq) hne

/-! ## Removal -/

theorem mem_removalOrder {f : FileTree γ} {p q : Path} :
    q ∈ f.removalOrder p ↔ (∃ e, (q, e) ∈ f) ∧ p <+: q := by
  simp [removalOrder]

/-- What a removal in order leaves. -/
def eraseAll (f : FileTree γ) (paths : List Path) : FileTree γ := paths.foldl erase f

theorem lookup_eraseAll_of_not_mem {f : FileTree γ} {paths : List Path} {q : Path}
    (h : q ∉ paths) : (f.eraseAll paths).lookup q = f.lookup q := by
  induction paths generalizing f with
  | nil => rfl
  | cons p paths ih =>
    rw [List.mem_cons, not_or] at h
    obtain ⟨hne, hmem⟩ := h
    exact (ih hmem).trans (lookup_erase_of_ne hne)

theorem lookup_eraseAll_of_mem {f : FileTree γ} {paths : List Path} {q : Path} (h : q ∈ paths) :
    (f.eraseAll paths).lookup q = none := by
  induction paths generalizing f with
  | nil => exact absurd h List.not_mem_nil
  | cons p paths ih =>
    by_cases hq : q ∈ paths
    · exact ih hq
    · obtain rfl := (List.mem_cons.1 h).resolve_right hq
      exact (lookup_eraseAll_of_not_mem hq).trans (lookup_erase_self ..)

/-- Nothing is left at or below a directory removed in order. -/
theorem lookup_removed {f : FileTree γ} {p q : Path} (h : p <+: q) :
    (f.eraseAll (f.removalOrder p)).lookup q = none := by
  by_cases hq : q ∈ f.removalOrder p
  · exact lookup_eraseAll_of_mem hq
  · rw [lookup_eraseAll_of_not_mem hq]
    by_contra hne
    obtain ⟨e, he⟩ := Option.ne_none_iff_exists'.1 hne
    exact hq (mem_removalOrder.2 ⟨⟨e, mem_of_lookup he⟩, h⟩)

theorem lookup_not_removed {f : FileTree γ} {p q : Path} (h : ¬ p <+: q) :
    (f.eraseAll (f.removalOrder p)).lookup q = f.lookup q :=
  lookup_eraseAll_of_not_mem fun hq => h (mem_removalOrder.1 hq).2

/-! ## Walking -/

variable [DecidableEq γ]

theorem mem_walk {f : FileTree γ} {p : Path} {e : Entry γ} :
    (p, e) ∈ f.walk ↔ f.lookup p = some e := by
  rw [walk, List.mem_insertionSort, List.mem_filter, decide_eq_true_eq]
  exact ⟨fun h => h.2, fun h => ⟨mem_of_lookup h, h⟩⟩

/-- The walk begins with the root. -/
theorem walk_eq_cons {f : FileTree γ} {e : Entry γ} (h : f.lookup [] = some e) :
    ∃ rest, f.walk = ([], e) :: rest := by
  have hmem := mem_walk.2 h
  have hsorted : f.walk.Pairwise fun a b => a.1.length ≤ b.1.length :=
    List.pairwise_insertionSort _ _
  cases hwalk : f.walk with
  | nil => simp [hwalk] at hmem
  | cons first rest =>
    rw [hwalk] at hmem hsorted
    have hfirst : first.1 = [] := by
      rcases List.mem_cons.1 hmem with rfl | hrest
      · rfl
      · exact List.length_eq_zero_iff.1 (Nat.le_zero.1 (List.rel_of_pairwise_cons hsorted hrest))
    have hlookup := mem_walk.1 (show (first.1, first.2) ∈ f.walk by rw [hwalk]; exact .head _)
    rw [hfirst, h] at hlookup
    exact ⟨rest, by rw [Option.some.inj hlookup, ← hfirst]⟩

end FileTree

end Superiority
