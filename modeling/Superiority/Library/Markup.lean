import Mathlib.Data.Prod.Lex
import Mathlib.Tactic

/-!
# Editing marked-up text

A text over any alphabet, in which one symbol opens a tag, another closes it, and a third right
behind the opening makes it an end tag.

`gauge` orders the texts: by their end tags, then by the closing symbols they have too many, then
the other way by the symbols outside the tags. Taking an element out never raises it
(**`gauge_cut_le`**), and neither does plain text that is put in (**`gauge_plain_le`**); putting an
empty element in with blanks before it lowers it (**`gauge_element_lt`**). So a sequence
of such edits that puts anything in never comes back to where it started.
-/

namespace Superiority

structure Marks (α : Type*) where
  opening : α
  closing : α
  ending : α
  opening_ne_closing : opening ≠ closing
  ending_ne_opening : ending ≠ opening
  ending_ne_closing : ending ≠ closing

namespace Marks

variable {α : Type*} [DecidableEq α] (m : Marks α)

/-- Whether a tag is open behind the text, from whether one is open before it. -/
def leaves : Bool → List α → Bool
  | inside, [] => inside
  | inside, a :: text =>
    if a = m.opening then leaves true text
    else if a = m.closing then leaves false text
    else leaves inside text

/-- The symbols of the text outside tags. -/
def outside : Bool → List α → Nat
  | _, [] => 0
  | inside, a :: text =>
    if a = m.opening then outside true text
    else if a = m.closing then outside false text
    else (if inside then 0 else 1) + outside inside text

/-- The end tags of the text. -/
def endTags : List α → Nat
  | a :: b :: text => (if a = m.opening ∧ b = m.ending then 1 else 0) + endTags (b :: text)
  | _ => 0

/-- How many more symbols close a tag than open one. -/
def excess (text : List α) : ℤ := text.count m.closing - text.count m.opening

def gauge (text : List α) : ℕ ×ₗ ℤ ×ₗ ℕᵒᵈ :=
  toLex (m.endTags text, toLex (m.excess text, OrderDual.toDual (m.outside false text)))

/-- No tag starts or ends in the text. -/
def Plain (text : List α) : Prop := m.opening ∉ text ∧ m.closing ∉ text

/-- The tag of an empty element. -/
def emptyTag (inner : List α) : List α := m.opening :: inner ++ [m.closing]

/-- From the opening of a start tag to the closing of the tag that ends the element; without an end
tag it is the one tag. -/
def IsElement (piece : List α) : Prop :=
  ∃ inner, piece = m.emptyTag inner ∧ (m.endTags piece = 0 → m.opening ∉ inner)

variable {m} {front piece back text blank inner : List α}

/-! ## Two texts in a row -/

theorem leaves_append (inside : Bool) (x y : List α) :
    m.leaves inside (x ++ y) = m.leaves (m.leaves inside x) y := by
  induction x generalizing inside with
  | nil => rfl
  | cons a x ih =>
    rw [List.cons_append, leaves, leaves]
    split_ifs <;> exact ih _

theorem outside_append (inside : Bool) (x y : List α) :
    m.outside inside (x ++ y) = m.outside inside x + m.outside (m.leaves inside x) y := by
  induction x generalizing inside with
  | nil => simp [outside, leaves]
  | cons a x ih =>
    rw [List.cons_append, outside, outside, leaves]
    split_ifs <;> rw [ih] <;> omega

theorem excess_append (x y : List α) : m.excess (x ++ y) = m.excess x + m.excess y := by
  simp only [excess, List.count_append]
  push_cast
  ring

theorem endTags_append (x y : List α) : m.endTags (x ++ y) = m.endTags x + m.endTags y +
    (if x.getLast? = some m.opening ∧ y.head? = some m.ending then 1 else 0) := by
  induction x with
  | nil => simp [endTags]
  | cons a x ih =>
    cases x with
    | nil =>
      cases y with
      | nil => simp [endTags]
      | cons b y => simp [endTags, add_comm]
    | cons b x =>
      rw [List.cons_append, List.cons_append, endTags, ← List.cons_append, ih, endTags,
        List.getLast?_cons_cons]
      omega

/-- Between two texts there is no end tag of neither, unless the opening ends the first. -/
theorem endTags_append_of_getLast? (h : front.getLast? ≠ some m.opening) (y : List α) :
    m.endTags (front ++ y) = m.endTags front + m.endTags y := by
  rw [endTags_append, if_neg fun hborder => h hborder.1, add_zero]

theorem endTags_append_of_head? (x : List α) (h : back.head? ≠ some m.ending) :
    m.endTags (x ++ back) = m.endTags x + m.endTags back := by
  rw [endTags_append, if_neg fun hborder => h hborder.2, add_zero]

/-- Outside the tags the last symbol opens none. -/
theorem getLast?_of_leaves (h : m.leaves false front = false) :
    front.getLast? ≠ some m.opening := by
  intro hlast
  obtain ⟨init, rfl⟩ : ∃ init, front = init ++ [m.opening] :=
    ⟨_, (List.dropLast_append_getLast? _ hlast).symm⟩
  rw [leaves_append] at h
  simp [leaves] at h

/-! ## Plain text -/

theorem leaves_plain (h : m.Plain text) (inside : Bool) : m.leaves inside text = inside := by
  induction text with
  | nil => rfl
  | cons a text ih =>
    obtain ⟨hopen, hclose⟩ := h
    rw [List.mem_cons, not_or] at hopen hclose
    rw [leaves, if_neg (Ne.symm hopen.1), if_neg (Ne.symm hclose.1)]
    exact ih ⟨hopen.2, hclose.2⟩

theorem outside_plain (h : m.Plain text) (inside : Bool) :
    m.outside inside text = if inside then 0 else text.length := by
  induction text with
  | nil => simp [outside]
  | cons a text ih =>
    obtain ⟨hopen, hclose⟩ := h
    rw [List.mem_cons, not_or] at hopen hclose
    rw [outside, if_neg (Ne.symm hopen.1), if_neg (Ne.symm hclose.1), ih ⟨hopen.2, hclose.2⟩]
    cases inside <;> simp [add_comm]

theorem endTags_of_not_mem (h : m.opening ∉ text) : m.endTags text = 0 := by
  induction text with
  | nil => rfl
  | cons a text ih =>
    rw [List.mem_cons, not_or] at h
    cases text with
    | nil => rfl
    | cons b text => rw [endTags, ih h.2, if_neg fun hend => h.1 hend.1.symm]

theorem excess_plain (h : m.Plain text) : m.excess text = 0 := by
  rw [excess, List.count_eq_zero_of_not_mem h.1, List.count_eq_zero_of_not_mem h.2]
  rfl

/-! ## A single tag -/

omit [DecidableEq α] in
theorem getLast?_emptyTag : (m.emptyTag inner).getLast? = some m.closing := by
  rw [emptyTag, List.getLast?_append]
  rfl

theorem leaves_emptyTag (inside : Bool) : m.leaves inside (m.emptyTag inner) = false := by
  rw [emptyTag, leaves_append]
  simp [leaves, m.opening_ne_closing.symm]

theorem outside_emptyTag (h : m.Plain inner) (inside : Bool) :
    m.outside inside (m.emptyTag inner) = 0 := by
  rw [emptyTag, List.cons_append, outside, if_pos rfl, outside_append, outside_plain h,
    leaves_plain h]
  simp [outside, m.opening_ne_closing.symm]

theorem excess_emptyTag : m.excess (m.emptyTag inner) = m.excess inner := by
  have hone : m.excess [m.opening] + m.excess [m.closing] = 0 := by
    simp [excess, m.opening_ne_closing, m.opening_ne_closing.symm]
  rw [emptyTag, excess_append, show m.opening :: inner = [m.opening] ++ inner from rfl,
    excess_append]
  omega

theorem endTags_emptyTag (h : m.opening ∉ inner) (hhead : inner.head? ≠ some m.ending) :
    m.endTags (m.emptyTag inner) = 0 := by
  have hfront : m.endTags (m.opening :: inner) = 0 := by
    cases inner with
    | nil => rfl
    | cons a inner =>
      rw [endTags, endTags_of_not_mem h, if_neg fun hend => hhead (by rw [hend.2]; rfl)]
  have hclose : [m.closing].head? ≠ some m.ending := by
    simpa using m.ending_ne_closing.symm
  rw [emptyTag, endTags_append_of_head? _ hclose, hfront]
  rfl

/-! ## Edits -/

/-- What is compared last. -/
theorem gauge_le_of_outside {s t : List α} (hend : m.endTags t ≤ m.endTags s)
    (hexcess : m.excess t = m.excess s) (hout : m.outside false s ≤ m.outside false t) :
    m.gauge t ≤ m.gauge s := by
  refine Prod.Lex.toLex_le_toLex.2 ?_
  rcases hend.lt_or_eq with hlt | heq
  · exact .inl hlt
  · exact .inr ⟨heq, Prod.Lex.toLex_le_toLex.2 (.inr ⟨hexcess, hout⟩)⟩

theorem gauge_lt_of_outside {s t : List α} (hend : m.endTags t ≤ m.endTags s)
    (hexcess : m.excess t = m.excess s) (hout : m.outside false s < m.outside false t) :
    m.gauge t < m.gauge s := by
  refine Prod.Lex.toLex_lt_toLex.2 ?_
  rcases hend.lt_or_eq with hlt | heq
  · exact .inl hlt
  · exact .inr ⟨heq, Prod.Lex.toLex_lt_toLex.2 (.inr ⟨hexcess, hout⟩)⟩

/-- An element that stands outside the tags is taken out. -/
theorem gauge_cut_le (hfront : m.leaves false front = false) (hpiece : m.IsElement piece) :
    m.gauge (front ++ back) ≤ m.gauge (front ++ piece ++ back) := by
  obtain ⟨inner, rfl, hempty⟩ := hpiece
  have hlast := getLast?_of_leaves hfront
  have hend : m.endTags (front ++ m.emptyTag inner ++ back) =
      m.endTags (front ++ back) + m.endTags (m.emptyTag inner) := by
    have hclose : (front ++ m.emptyTag inner).getLast? ≠ some m.opening := by
      rw [List.getLast?_append, getLast?_emptyTag]
      simpa using m.opening_ne_closing.symm
    rw [endTags_append_of_getLast? hclose, endTags_append_of_getLast? hlast,
      endTags_append_of_getLast? hlast]
    omega
  rcases Nat.eq_zero_or_pos (m.endTags (m.emptyTag inner)) with hzero | hpos
  · -- A single tag: it closes no less than it opens.
    have hopen := hempty hzero
    have hexcess : m.excess (front ++ m.emptyTag inner ++ back) =
        m.excess (front ++ back) + inner.count m.closing := by
      rw [excess_append, excess_append, excess_append, excess_emptyTag]
      simp only [excess, List.count_eq_zero_of_not_mem hopen]
      push_cast
      ring
    refine Prod.Lex.toLex_le_toLex.2 (.inr ⟨by omega, Prod.Lex.toLex_le_toLex.2 ?_⟩)
    rcases Nat.eq_zero_or_pos (inner.count m.closing) with hnone | hmore
    · have hplain : m.Plain inner := ⟨hopen, List.count_eq_zero.1 hnone⟩
      rw [hnone, Nat.cast_zero, add_zero] at hexcess
      refine .inr ⟨hexcess.symm, le_of_eq ?_⟩
      show OrderDual.toDual _ = OrderDual.toDual _
      rw [outside_append, outside_append, outside_append, leaves_append, hfront,
        leaves_emptyTag, outside_emptyTag hplain]
      rfl
    · refine .inl ?_
      show m.excess _ < m.excess _
      omega
  · refine Prod.Lex.toLex_le_toLex.2 (.inl ?_)
    show m.endTags _ < m.endTags _
    omega

/-- What is put in makes no end tag. -/
theorem endTags_insert_le (hend : m.endTags text = 0) (hhead : text.head? ≠ some m.ending)
    (hlast : text.getLast? ≠ some m.opening) :
    m.endTags (front ++ text ++ back) ≤ m.endTags (front ++ back) := by
  rcases text.eq_nil_or_concat' with rfl | ⟨init, a, rfl⟩
  · simp
  · have hlast' : (front ++ (init ++ [a])).getLast? ≠ some m.opening := by
      rw [List.getLast?_append]
      simpa using hlast
    rw [endTags_append_of_getLast? hlast', endTags_append_of_head? _ hhead, hend,
      endTags_append front back]
    omega

/-- Plain text is put in. -/
theorem gauge_plain_le (htext : m.Plain text)
    (hhead : text.head? ≠ some m.ending) :
    m.gauge (front ++ text ++ back) ≤ m.gauge (front ++ back) := by
  refine gauge_le_of_outside (endTags_insert_le (endTags_of_not_mem htext.1) hhead ?_) ?_ ?_
  · exact fun hlast => htext.1 (List.mem_of_getLast? hlast)
  · rw [excess_append, excess_append, excess_append, excess_plain htext, add_zero]
  · rw [outside_append, outside_append, outside_append, leaves_append, leaves_plain htext]
    omega

/-- An empty element is put in with blanks before it, either outside the tags or inside an end tag
of which something is left. -/
theorem gauge_element_lt (hblank : m.Plain blank) (hhead : blank.head? ≠ some m.ending)
    (hsome : blank ≠ []) (hinner : m.Plain inner) (hstart : inner.head? ≠ some m.ending)
    (hplace : m.leaves false front = false ∨
      ∃ tag rest, back = tag ++ m.closing :: rest ∧ m.Plain tag ∧ tag ≠ []) :
    m.gauge (front ++ (blank ++ m.emptyTag inner) ++ back) < m.gauge (front ++ back) := by
  have hborder : (blank ++ m.emptyTag inner).head? ≠ some m.ending := by
    cases blank with
    | nil => exact absurd rfl hsome
    | cons a blank => exact hhead
  have hend : m.endTags (blank ++ m.emptyTag inner) = 0 := by
    have hlast : blank.getLast? ≠ some m.opening := fun hlast =>
      hblank.1 (List.mem_of_getLast? hlast)
    rw [endTags_append_of_getLast? hlast, endTags_of_not_mem hblank.1,
      endTags_emptyTag hinner.1 hstart]
  refine gauge_lt_of_outside (endTags_insert_le hend hborder ?_) ?_ ?_
  · rw [List.getLast?_append, getLast?_emptyTag]
    simpa using m.opening_ne_closing.symm
  · rw [excess_append, excess_append, excess_append, excess_append, excess_plain hblank,
      excess_emptyTag, excess_plain hinner]
    ring
  · rw [outside_append, outside_append, outside_append, outside_append, leaves_append,
      leaves_append, leaves_emptyTag, leaves_plain hblank, outside_plain hblank,
      outside_emptyTag hinner]
    have hlength : 0 < blank.length := List.length_pos_of_ne_nil hsome
    cases hopen : m.leaves false front with
    | false => simp; omega
    | true =>
      rw [hopen] at hplace
      obtain ⟨tag, rest, rfl, htag, hleft⟩ := hplace.resolve_left nofun
      have hcount : 0 < tag.length := List.length_pos_of_ne_nil hleft
      rw [outside_append, outside_append, leaves_plain htag, leaves_plain htag,
        outside_plain htag, outside_plain htag, outside, outside,
        if_neg m.opening_ne_closing.symm, if_pos rfl, if_neg m.opening_ne_closing.symm, if_pos rfl]
      simp
      omega

end Marks

end Superiority
