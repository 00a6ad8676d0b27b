import Superiority.Library.Run
import Superiority.Ui.TextInput

/-!
# The text input stays well formed

**`wellFormed_iff`**: an input is well formed in every state of a run, and no operation panics,
exactly when two calls of the input method do no harm: a selection that is set is not reversed, and
the selection that comes with a composition, which is read in the whole content and then shifted,
ends on boundaries.
-/

namespace Superiority.Ui

/-! ## Boundaries -/

theorem lenUtf8_pos (c : Char) : 0 < lenUtf8 c := Char.utf8Size_pos c

theorem lenUtf16_pos (c : Char) : 0 < lenUtf16 c := by
  unfold lenUtf16
  split_ifs <;> decide

@[simp] theorem byteLen_append (a b : Text) : byteLen (a ++ b) = byteLen a + byteLen b :=
  weight_append lenUtf8 a b

@[simp] theorem byteLen_cons (c : Char) (text : Text) :
    byteLen (c :: text) = lenUtf8 c + byteLen text := rfl

theorem isCharBoundary_zero (text : Text) : IsCharBoundary text 0 := isPlace_zero lenUtf8_pos text

theorem isCharBoundary_len (text : Text) : IsCharBoundary text (byteLen text) :=
  isPlace_all lenUtf8_pos text

theorem stepBack_boundary (text : Text) (offset : Nat) :
    IsCharBoundary text (validBoundary.stepBack text offset) := by
  induction offset with
  | zero => exact isCharBoundary_zero text
  | succ offset ih =>
    rw [validBoundary.stepBack]
    split_ifs with h
    · exact h
    · exact ih

theorem validBoundary_boundary (text : Text) (offset : Nat) :
    IsCharBoundary text (validBoundary text offset) := stepBack_boundary text _

theorem le_stepBack {text : Text} {m offset : Nat} (hm : IsCharBoundary text m) (hle : m ≤ offset) :
    m ≤ validBoundary.stepBack text offset := by
  induction offset with
  | zero => exact hle
  | succ offset ih =>
    rw [validBoundary.stepBack]
    split_ifs with h
    · exact hle
    · apply ih
      rcases Nat.lt_or_eq_of_le hle with hlt | rfl
      · exact Nat.le_of_lt_succ hlt
      · exact absurd hm h

/-- It is the last boundary up to the offset. -/
theorem le_validBoundary {text : Text} {m offset : Nat} (hm : IsCharBoundary text m)
    (hle : m ≤ offset) : m ≤ validBoundary text offset :=
  le_stepBack hm (Nat.le_min.2 ⟨hle, hm.le lenUtf8_pos⟩)

theorem validBoundary_le (text : Text) (offset : Nat) : validBoundary text offset ≤ offset := by
  have hstep : ∀ n, validBoundary.stepBack text n ≤ n := by
    intro n
    induction n with
    | zero => exact Nat.le_refl 0
    | succ n ih =>
      rw [validBoundary.stepBack]
      split_ifs
      · exact Nat.le_refl _
      · exact Nat.le_succ_of_le ih
  exact Nat.le_trans (hstep _) (Nat.min_le_left _ _)

theorem validBoundary_of_boundary {text : Text} {offset : Nat} (h : IsCharBoundary text offset) :
    validBoundary text offset = offset :=
  Nat.le_antisymm (validBoundary_le text offset) (le_validBoundary h (Nat.le_refl offset))

/-- A range of the text, on boundaries. -/
structure ValidRange (text : Text) (range : Range) : Prop where
  ordered : range.start ≤ range.stop
  start : IsCharBoundary text range.start
  stop : IsCharBoundary text range.stop

theorem validRange_valid (text : Text) (range : Range) : ValidRange text (validRange text range) where
  ordered := le_validBoundary (validBoundary_boundary text _) (Nat.le_max_right _ _)
  start := validBoundary_boundary text _
  stop := validBoundary_boundary text _

theorem validRange_of_valid {text : Text} {range : Range} (h : ValidRange text range) :
    validRange text range = range := by
  unfold validRange
  dsimp only
  rw [validBoundary_of_boundary h.start, Nat.max_eq_left h.ordered,
    validBoundary_of_boundary h.stop]

theorem ValidRange.point {text : Text} {offset : Nat} (h : IsCharBoundary text offset) :
    ValidRange text ⟨offset, offset⟩ := ⟨Nat.le_refl _, h, h⟩

/-- A range cuts the text in three. -/
theorem ValidRange.pieces {text : Text} {range : Range} (h : ValidRange text range) :
    ∃ front between back, text = front ++ (between ++ back) ∧
      range = ⟨byteLen front, byteLen front + byteLen between⟩ := by
  obtain ⟨start, stop⟩ := range
  obtain ⟨front, rest, rfl, rfl⟩ := (isPlace_iff lenUtf8_pos).1 h.start
  have hle : byteLen front ≤ stop := h.ordered
  obtain ⟨length, rfl⟩ := Nat.exists_eq_add_of_le hle
  obtain ⟨between, back, rfl, rfl⟩ :=
    (isPlace_iff lenUtf8_pos).1 ((isPlace_append_right lenUtf8_pos).1 h.stop)
  exact ⟨front, between, back, rfl, rfl⟩

section

variable (front between back new : Text)

theorem ValidRange.of_pieces :
    ValidRange (front ++ (between ++ back)) ⟨byteLen front, byteLen front + byteLen between⟩ where
  ordered := Nat.le_add_right _ _
  start := isPlace_weight lenUtf8_pos front _
  stop := (isPlace_append_right lenUtf8_pos).2 (isPlace_weight lenUtf8_pos between back)

theorem slice_pieces :
    slice (front ++ (between ++ back)) ⟨byteLen front, byteLen front + byteLen between⟩ =
      some between := by
  have hle : ¬ byteLen front + byteLen between < byteLen front := by omega
  simp [slice, hle, splitWeight_weight lenUtf8_pos]

theorem replaceRange_pieces :
    replaceRange (front ++ (between ++ back)) ⟨byteLen front, byteLen front + byteLen between⟩ new =
      some (front ++ new ++ back) := by
  have hle : ¬ byteLen front + byteLen between < byteLen front := by omega
  simp [replaceRange, hle, splitWeight_weight lenUtf8_pos]

end

/-- The bytes that so many units take in a whole content. -/
def bytesIn (content : Text) (units : Nat) : Nat := convert lenUtf16 lenUtf8 content units

/-! ## Words and graphemes -/

section

variable (S : Segmentation)

theorem previousBoundary_boundary (text : Text) (offset : Nat) :
    IsCharBoundary text (previousBoundary S text offset) := by
  unfold previousBoundary
  cases hfound : (S.graphemeIndices text).reverse.find? (· < offset) with
  | none => exact isCharBoundary_zero text
  | some index =>
    exact S.graphemes_boundary text index (List.mem_reverse.1 (List.mem_of_find?_eq_some hfound))

theorem nextBoundary_boundary (text : Text) (offset : Nat) :
    IsCharBoundary text (nextBoundary S text offset) := by
  unfold nextBoundary
  cases hfound : (S.graphemeIndices text).find? (offset < ·) with
  | none => exact isCharBoundary_len text
  | some index => exact S.graphemes_boundary text index (List.mem_of_find?_eq_some hfound)

/-- The words are looked for in a slice that exists. -/
theorem previousWordBoundary_isSome (text : Text) (offset : Nat) :
    (previousWordBoundary S text offset).isSome = true := by
  have hvalid : ValidRange text ⟨0, validBoundary text offset⟩ :=
    ⟨Nat.zero_le _, isCharBoundary_zero text, validBoundary_boundary text offset⟩
  obtain ⟨front, between, back, htext, hrange⟩ := hvalid.pieces
  unfold previousWordBoundary
  rw [hrange, htext, slice_pieces]
  rfl

theorem nextWordBoundary_isSome (text : Text) (offset : Nat) :
    (nextWordBoundary S text offset).isSome = true := by
  have hboundary := validBoundary_boundary text offset
  have hvalid : ValidRange text ⟨validBoundary text offset, byteLen text⟩ :=
    ⟨hboundary.le lenUtf8_pos, hboundary, isCharBoundary_len text⟩
  obtain ⟨front, between, back, htext, hrange⟩ := hvalid.pieces
  unfold nextWordBoundary
  dsimp only
  rw [hrange]
  nth_rewrite 1 [htext]
  rw [slice_pieces]
  rfl

end

/-! ## Well-formed inputs -/

/-- The text has no line break. -/
def SingleLine (text : Text) : Prop := '\n' ∉ text ∧ '\r' ∉ text

theorem singleLine_singleLine (text : Text) : SingleLine (singleLine text) := by
  have hnot (c : Char) (hc : c = '\n' ∨ c = '\r') : c ∉ singleLine text := by
    intro hmem
    obtain ⟨d, -, hd⟩ := List.mem_map.1 hmem
    split_ifs at hd with hbreak
    · subst hd
      revert hc
      decide
    · subst hd
      exact hbreak hc
  exact ⟨hnot '\n' (Or.inl rfl), hnot '\r' (Or.inr rfl)⟩

theorem SingleLine.append {a b : Text} : SingleLine (a ++ b) ↔ SingleLine a ∧ SingleLine b := by
  simp only [SingleLine, List.mem_append]
  tauto

structure Snapshot.WellFormed (x : Snapshot) : Prop where
  singleLine : SingleLine x.content
  selection : ValidRange x.content x.selection

namespace InputState

structure WellFormed (s : InputState) : Prop where
  selection : ValidRange s.content s.selection
  marked : ∀ range, s.markedRange = some range →
    range.start < range.stop ∧ ValidRange s.content range
  singleLine : SingleLine s.content
  history : s.undo.length ≤ historyLimit
  snapshots : ∀ x, x ∈ s.undo ∨ x ∈ s.redo ∨ s.compositionOrigin = some x → x.WellFormed

/-- What the operations keep: an undo takes from the one history what it gives to the other. -/
structure Kept (s : InputState) : Prop extends s.WellFormed where
  room : s.undo.length + s.redo.length ≤ historyLimit

theorem kept_new : Kept {} where
  selection := .point (isCharBoundary_zero [])
  marked := by simp
  singleLine := ⟨List.not_mem_nil, List.not_mem_nil⟩
  history := Nat.zero_le _
  snapshots := by simp
  room := Nat.zero_le _

variable {s : InputState}

theorem WellFormed.snapshot (h : s.WellFormed) : s.snapshot.WellFormed := ⟨h.singleLine, h.selection⟩

/-- The content is changed and the history left as it is. -/
theorem Kept.edit (h : s.Kept) (content : Text) (selection : Range) (selectionReversed : Bool)
    (markedRange : Option Range) (compositionOrigin : Option Snapshot)
    (hline : SingleLine content) (hselection : ValidRange content selection)
    (hmarked : ∀ range, markedRange = some range →
      range.start < range.stop ∧ ValidRange content range)
    (horigin : ∀ x, compositionOrigin = some x → x.WellFormed) :
    Kept { s with content, selection, selectionReversed, markedRange, compositionOrigin } where
  selection := hselection
  marked := hmarked
  singleLine := hline
  history := h.history
  snapshots x hx := by
    rcases hx with hundo | hredo | hx
    · exact h.snapshots x (Or.inl hundo)
    · exact h.snapshots x (Or.inr (Or.inl hredo))
    · exact horigin x hx
  room := h.room

theorem Kept.select (h : s.Kept) {selection : Range} (selectionReversed : Bool)
    (hselection : ValidRange s.content selection) :
    Kept { s with selection, selectionReversed } :=
  h.edit _ _ _ _ _ h.singleLine hselection h.marked fun x hx => h.snapshots x (Or.inr (Or.inr hx))

/-- The history is changed and the content left as it is. -/
theorem Kept.withHistory (h : s.Kept) {undo redo : List Snapshot}
    (hroom : undo.length + redo.length ≤ historyLimit)
    (hsnapshots : ∀ x, x ∈ undo ∨ x ∈ redo → x.WellFormed) : Kept { s with undo, redo } where
  selection := h.selection
  marked := h.marked
  singleLine := h.singleLine
  history := Nat.le_trans (Nat.le_add_right _ _) hroom
  snapshots x hx := by
    rcases hx with hundo | hredo | horigin
    · exact hsnapshots x (Or.inl hundo)
    · exact hsnapshots x (Or.inr hredo)
    · exact h.snapshots x (Or.inr (Or.inr horigin))
  room := hroom

theorem Kept.selecting (h : s.Kept) (selecting : Bool) : Kept { s with selecting } :=
  ⟨⟨h.selection, h.marked, h.singleLine, h.history, h.snapshots⟩, h.room⟩

theorem Kept.remember (h : s.Kept) {x : Snapshot} (hx : x.WellFormed) : Kept (s.remember x) := by
  refine h.withHistory ?_ ?_
  · have hle := h.history
    rw [List.length_cons, List.length_nil]
    split_ifs with hfull
    · rw [List.length_dropLast, hfull]
      decide
    · omega
  · intro y hy
    rcases hy with hundo | hredo
    · rcases List.mem_cons.1 hundo with rfl | hundo
      · exact hx
      · apply h.snapshots y
        split_ifs at hundo
        · exact Or.inl (List.dropLast_subset _ hundo)
        · exact Or.inl hundo
    · cases hredo

theorem Kept.moveTo (h : s.Kept) (offset : Nat) : Kept (s.moveTo offset) :=
  h.select false (.point (validBoundary_boundary s.content offset))

theorem Kept.selectTo (h : s.Kept) (offset : Nat) : Kept (s.selectTo offset) := by
  have hoffset := validBoundary_boundary s.content offset
  unfold InputState.selectTo
  dsimp only
  split_ifs with hreversed hswap hswap
  · exact h.select _ ⟨Nat.le_of_lt hswap, h.selection.stop, hoffset⟩
  · exact h.select _ ⟨Nat.le_of_not_lt hswap, hoffset, h.selection.stop⟩
  · exact h.select _ ⟨Nat.le_of_lt hswap, hoffset, h.selection.start⟩
  · exact h.select _ ⟨Nat.le_of_not_lt hswap, h.selection.start, hoffset⟩

/-- A replacement never panics. -/
theorem Kept.replace (h : s.Kept) (range : Range) (text : Text) (remember : Bool) :
    ∃ s', s.replace range text remember = some s' ∧ s'.Kept := by
  obtain ⟨front, between, back, hcontent, hrange⟩ := (validRange_valid s.content range).pieces
  have hkept : Kept (if remember then s.remember s.snapshot else s) := by
    split_ifs
    · exact h.remember h.snapshot
    · exact h
  have hsame : (if remember then s.remember s.snapshot else s).content = s.content := by
    split_ifs <;> rfl
  have hline := h.singleLine
  rw [hcontent, SingleLine.append, SingleLine.append] at hline
  let cursor := byteLen front + byteLen (singleLine text)
  refine ⟨_, ?_, hkept.edit (front ++ singleLine text ++ back) ⟨cursor, cursor⟩ false none _ ?_
    (.point ?_) (by simp) fun x hx => hkept.snapshots x (Or.inr (Or.inr hx))⟩
  · unfold InputState.replace
    dsimp only
    rw [hsame, hrange, hcontent, replaceRange_pieces]
    rfl
  · rw [SingleLine.append, SingleLine.append]
    exact ⟨⟨hline.1, singleLine_singleLine text⟩, hline.2.2⟩
  · rw [show cursor = byteLen (front ++ singleLine text) from (byteLen_append _ _).symm]
    exact isPlace_weight lenUtf8_pos _ _

theorem Kept.erase (h : s.Kept) (range : Range) : ∃ s', s.erase range = some s' ∧ s'.Kept := by
  unfold InputState.erase
  split_ifs
  · exact ⟨s, rfl, h⟩
  · exact h.replace range [] true

theorem WellFormed.slice_selection (h : s.WellFormed) :
    ∃ text, slice s.content s.selection = some text := by
  obtain ⟨front, between, back, hcontent, hrange⟩ := h.selection.pieces
  rw [hcontent, hrange, slice_pieces]
  exact ⟨between, rfl⟩

theorem WellFormed.copy (h : s.WellFormed) : s.copy = some s := by
  obtain ⟨text, hslice⟩ := h.slice_selection
  unfold InputState.copy
  rw [hslice]
  split_ifs <;> rfl

theorem Kept.cut (h : s.Kept) : ∃ s', s.cut = some s' ∧ s'.Kept := by
  obtain ⟨text, hslice⟩ := h.slice_selection
  unfold InputState.cut
  rw [hslice]
  split_ifs
  · exact ⟨s, rfl, h⟩
  · exact h.replace s.selection [] true

theorem Kept.paste (h : s.Kept) (text : Option Text) : ∃ s', s.paste text = some s' ∧ s'.Kept := by
  cases text with
  | none => exact ⟨s, rfl, h⟩
  | some text => exact h.replace s.selection text true

theorem Kept.restore (h : s.Kept) {x : Snapshot} (hx : x.WellFormed) : Kept (s.restore x) :=
  h.edit _ _ _ _ _ hx.singleLine hx.selection (by simp) (by simp)

theorem Kept.undone (h : s.Kept) : Kept s.undone := by
  unfold InputState.undone
  split
  next => exact h
  next x undo hundo =>
    have hroom := h.room
    have hsnapshots := h.snapshots
    rw [hundo] at hroom hsnapshots
    have hkept : Kept { s with undo, redo := s.snapshot :: s.redo } := by
      refine h.withHistory ?_ ?_
      · rw [List.length_cons] at *
        omega
      · intro y hy
        rcases hy with hundo | hredo
        · exact hsnapshots y (Or.inl (List.mem_cons_of_mem x hundo))
        · rcases List.mem_cons.1 hredo with rfl | hredo
          · exact h.snapshot
          · exact hsnapshots y (Or.inr (Or.inl hredo))
    exact hkept.restore (hsnapshots x (Or.inl List.mem_cons_self))

theorem Kept.redone (h : s.Kept) : Kept s.redone := by
  unfold InputState.redone
  split
  next => exact h
  next x redo hredo =>
    have hroom := h.room
    have hsnapshots := h.snapshots
    rw [hredo] at hroom hsnapshots
    have hkept : Kept { s with redo, undo := s.snapshot :: s.undo } := by
      refine h.withHistory ?_ ?_
      · rw [List.length_cons] at *
        omega
      · intro y hy
        rcases hy with hundo | hredo
        · rcases List.mem_cons.1 hundo with rfl | hundo
          · exact h.snapshot
          · exact hsnapshots y (Or.inl hundo)
        · exact hsnapshots y (Or.inr (Or.inl (List.mem_cons_of_mem x hredo)))
    exact hkept.restore (hsnapshots x (Or.inr (Or.inl List.mem_cons_self)))

theorem Kept.clear (h : s.Kept) : Kept s.clear := by
  have hkept : Kept (if s.content ≠ [] then s.remember s.snapshot else s) := by
    split_ifs
    · exact h.remember h.snapshot
    · exact h
  exact hkept.edit [] ⟨0, 0⟩ false none none ⟨List.not_mem_nil, List.not_mem_nil⟩
    (.point (isCharBoundary_zero [])) (by simp) (by simp)

theorem Kept.setContent (h : s.Kept) (content : Text) : Kept (s.setContent content) := by
  have hkept : Kept (if s.content ≠ singleLine content then s.remember s.snapshot else s) := by
    split_ifs
    · exact h.remember h.snapshot
    · exact h
  exact hkept.edit _ _ false none none (singleLine_singleLine content)
    (.point (isCharBoundary_len _)) (by simp) (by simp)

theorem Kept.unmarkText (h : s.Kept) : Kept s.unmarkText := by
  unfold InputState.unmarkText
  split
  next x horigin =>
    have hkept := h.remember (h.snapshots x (Or.inr (Or.inr horigin)))
    exact hkept.edit _ _ _ none none hkept.singleLine hkept.selection (by simp) (by simp)
  next horigin =>
    exact h.edit _ _ _ none _ h.singleLine h.selection (by simp) fun x hx =>
      h.snapshots x (Or.inr (Or.inr hx))

theorem Kept.replaceTextInRange (h : s.Kept) (range : Option Range) (text : Text) :
    ∃ s', s.replaceTextInRange range text = some s' ∧ s'.Kept := by
  unfold InputState.replaceTextInRange
  dsimp only
  split
  next x horigin =>
    have hkept : Kept { s with compositionOrigin := none } :=
      h.edit _ _ _ _ none h.singleLine h.selection h.marked (by simp)
    exact (hkept.remember (h.snapshots x (Or.inr (Or.inr horigin)))).replace _ text false
  next => exact h.replace _ text true

/-! ## Compositions -/

theorem offsetFromUtf16_boundary (s : InputState) (offset : Nat) :
    IsCharBoundary s.content (s.offsetFromUtf16 offset) :=
  isPlace_convert lenUtf8_pos s.content offset

/-- What the input method replaces starts on a boundary. -/
theorem WellFormed.target_start (h : s.WellFormed) (range : Option Range) :
    IsCharBoundary s.content (s.target range).start := by
  unfold InputState.target
  cases range with
  | some range => exact s.offsetFromUtf16_boundary range.start
  | none =>
    cases hmarked : s.markedRange with
    | some range => exact (h.marked range hmarked).2.start
    | none => exact h.selection.start

/-- The content around the bytes that the input method replaces. -/
structure Around (s : InputState) (range : Option Range) (front between back : Text) : Prop where
  content : s.content = front ++ (between ++ back)
  start : (s.target range).start = byteLen front
  range : validRange s.content (s.target range) = ⟨byteLen front, byteLen front + byteLen between⟩

theorem WellFormed.exists_around (h : s.WellFormed) (range : Option Range) :
    ∃ front between back, s.Around range front between back := by
  obtain ⟨front, between, back, hcontent, hrange⟩ :=
    (validRange_valid s.content (s.target range)).pieces
  refine ⟨front, between, back, hcontent, ?_, hrange⟩
  have hstart : validBoundary s.content (s.target range).start = byteLen front :=
    congrArg Range.start hrange
  rw [← hstart, validBoundary_of_boundary (h.target_start range)]

/-- What a composition leaves. -/
theorem Around.compose {range : Option Range} {front between back : Text}
    (h : s.Around range front between back) (text : Text) (selected : Option Range) :
    s.replaceAndMarkTextInRange range text selected = some { s with
      content := front ++ singleLine text ++ back
      compositionOrigin := s.compositionOrigin.or (some s.snapshot)
      markedRange := if singleLine text = [] then none
        else some ⟨byteLen front, byteLen front + byteLen (singleLine text)⟩
      selection := match selected with
        | none => ⟨byteLen front + byteLen (singleLine text),
            byteLen front + byteLen (singleLine text)⟩
        | some r => ⟨byteLen front + bytesIn (front ++ singleLine text ++ back) r.start,
            byteLen front + bytesIn (front ++ singleLine text ++ back) r.stop⟩
      selectionReversed := false } := by
  have htarget : InputState.target { s with
      compositionOrigin := s.compositionOrigin.or (some s.snapshot) } range = s.target range := rfl
  unfold InputState.replaceAndMarkTextInRange
  dsimp only
  rw [htarget, h.range, h.start, h.content, replaceRange_pieces]
  cases selected <;> rfl

/-- What the input method may be asked for without harm: a selection that is not reversed, and with
a composition a selection whose ends, read in the whole content, are boundaries of the text and what
follows it. -/
def Harmless (s : InputState) : Operation → Prop
  | .setSelectedTextRange range => s.offsetFromUtf16 range.start ≤ s.offsetFromUtf16 range.stop
  | .replaceAndMarkTextInRange range text selected =>
    ∀ front between back, s.Around range front between back → ∀ r, selected = some r →
      let units := bytesIn (front ++ singleLine text ++ back)
      ValidRange (singleLine text ++ back) ⟨units r.start, units r.stop⟩
  | _ => True

theorem validRange_shift {front back : Text} {a b : Nat} :
    ValidRange (front ++ back) ⟨byteLen front + a, byteLen front + b⟩ ↔ ValidRange back ⟨a, b⟩ := by
  constructor
  · intro h
    exact ⟨Nat.le_of_add_le_add_left h.ordered, (isPlace_append_right lenUtf8_pos).1 h.start,
      (isPlace_append_right lenUtf8_pos).1 h.stop⟩
  · intro h
    exact ⟨Nat.add_le_add_left h.ordered _, (isPlace_append_right lenUtf8_pos).2 h.start,
      (isPlace_append_right lenUtf8_pos).2 h.stop⟩

theorem Kept.compose (h : s.Kept) {range : Option Range} {text : Text} {selected : Option Range}
    (hharmless : s.Harmless (.replaceAndMarkTextInRange range text selected)) :
    ∃ s', s.replaceAndMarkTextInRange range text selected = some s' ∧ s'.Kept := by
  obtain ⟨front, between, back, haround⟩ := h.exists_around range
  have hline := h.singleLine
  rw [haround.content, SingleLine.append, SingleLine.append] at hline
  refine ⟨_, haround.compose text selected, h.edit _ _ _ _ _ ?_ ?_ ?_ ?_⟩
  · rw [SingleLine.append, SingleLine.append]
    exact ⟨⟨hline.1, singleLine_singleLine text⟩, hline.2.2⟩
  · cases selected with
    | none =>
      apply ValidRange.point
      rw [← byteLen_append]
      exact isPlace_weight lenUtf8_pos _ back
    | some r =>
      rw [List.append_assoc]
      apply validRange_shift.2
      have hvalid := hharmless front between back haround r rfl
      rw [List.append_assoc] at hvalid
      exact hvalid
  · intro marked hmarked
    split_ifs at hmarked with hnil
    obtain rfl := Option.some.inj hmarked
    refine ⟨?_, ?_⟩
    · obtain ⟨c, rest, htext⟩ := List.exists_cons_of_ne_nil hnil
      have hc := lenUtf8_pos c
      dsimp only
      rw [htext, byteLen_cons]
      omega
    · rw [List.append_assoc]
      exact .of_pieces front (singleLine text) back
  · intro x hx
    rcases horigin : s.compositionOrigin with _ | origin
    · rw [horigin] at hx
      obtain rfl := Option.some.inj hx
      exact h.snapshot
    · rw [horigin] at hx
      obtain rfl := Option.some.inj hx
      exact h.snapshots origin (Or.inr (Or.inr horigin))

/-! ## Runs -/

/-- **One operation** leaves the input well formed, if it does no harm. -/
theorem Kept.perform (S : Segmentation) (h : s.Kept) {op : Operation} (hharmless : s.Harmless op) :
    ∃ s', s.perform S op = some s' ∧ s'.Kept := by
  have hprevious := Option.isSome_iff_exists.1 (previousWordBoundary_isSome S s.content s.cursor)
  have hnext := Option.isSome_iff_exists.1 (nextWordBoundary_isSome S s.content s.cursor)
  cases op with
  | left | right | home | «end» | setCursor => exact ⟨_, rfl, h.moveTo _⟩
  | selectLeft | selectRight | selectHome | selectEnd => exact ⟨_, rfl, h.selectTo _⟩
  | wordLeft =>
    obtain ⟨index, hindex⟩ := hprevious
    exact ⟨_, congrArg (Option.map s.moveTo) hindex, h.moveTo index⟩
  | wordRight =>
    obtain ⟨index, hindex⟩ := hnext
    exact ⟨_, congrArg (Option.map s.moveTo) hindex, h.moveTo index⟩
  | selectWordLeft =>
    obtain ⟨index, hindex⟩ := hprevious
    exact ⟨_, congrArg (Option.map s.selectTo) hindex, h.selectTo index⟩
  | selectWordRight =>
    obtain ⟨index, hindex⟩ := hnext
    exact ⟨_, congrArg (Option.map s.selectTo) hindex, h.selectTo index⟩
  | selectAll =>
    exact ⟨_, rfl, h.select false
      ⟨Nat.zero_le _, isCharBoundary_zero _, isCharBoundary_len _⟩⟩
  | backspace => exact h.erase _
  | delete => exact h.erase _
  | copy => exact ⟨s, h.copy, h⟩
  | cut => exact h.cut
  | paste text => exact h.paste text
  | undo => exact ⟨_, rfl, h.undone⟩
  | redo => exact ⟨_, rfl, h.redone⟩
  | mouseDown index shift =>
    refine ⟨_, rfl, Kept.selecting ?_ true⟩
    split_ifs
    · exact h.selectTo index
    · exact h.moveTo index
  | mouseMove index =>
    refine ⟨_, rfl, ?_⟩
    split_ifs
    · exact h.selectTo index
    · exact h
  | mouseUp => exact ⟨_, rfl, h.selecting false⟩
  | clear => exact ⟨_, rfl, h.clear⟩
  | setContent content => exact ⟨_, rfl, h.setContent content⟩
  | unmarkText => exact ⟨_, rfl, h.unmarkText⟩
  | replaceTextInRange range text => exact h.replaceTextInRange range text
  | replaceAndMarkTextInRange range text selected => exact h.compose hharmless
  | setSelectedTextRange range =>
    exact ⟨_, rfl, h.select false
      ⟨hharmless, s.offsetFromUtf16_boundary _, s.offsetFromUtf16_boundary _⟩⟩

/-- An operation that does harm leaves a selection that is none. -/
theorem not_wellFormed_of_harm (S : Segmentation) {op : Operation}
    (hharm : ¬ s.Harmless op) {s' : InputState} (hs' : s.perform S op = some s') :
    ¬ s'.WellFormed := by
  intro hwell
  apply hharm
  cases op with
  | setSelectedTextRange range =>
    obtain rfl := Option.some.inj hs'
    exact hwell.selection.ordered
  | replaceAndMarkTextInRange range text selected =>
    intro front between back haround r hr
    change s.replaceAndMarkTextInRange range text selected = some s' at hs'
    rw [haround.compose, hr] at hs'
    obtain rfl := Option.some.inj hs'
    have hvalid := hwell.selection
    dsimp only at hvalid ⊢
    rw [List.append_assoc] at hvalid ⊢
    exact validRange_shift.1 hvalid
  | _ => trivial

end InputState

/-- An operation on an input that has not panicked. -/
def step (S : Segmentation) (s : Option InputState) (op : Operation) : Option InputState :=
  s.bind fun s => s.perform S op

/-- The input has not panicked and is well formed. -/
def Sound (s : Option InputState) : Prop := ∃ t, s = some t ∧ t.WellFormed

/-- **An input is well formed throughout a run**, and no operation panics, exactly if the input
method asks for nothing harmful. -/
theorem wellFormed_iff (S : Segmentation) (ops : List Operation) :
    StatesMeet (step S) Sound (some {}) ops ↔
      StepsMeet (step S) (fun s op => ∀ t, s = some t → t.Harmless op) (some {}) ops := by
  have hnew : ∃ t : InputState, some ({} : InputState) = some t ∧ t.Kept :=
    ⟨{}, rfl, InputState.kept_new⟩
  refine statesMeet_iff_stepsMeet (I := fun s => ∃ t : InputState, s = some t ∧ t.Kept) ?_ ?_ ?_ hnew
  · intro s ⟨t, hs, ht⟩
    exact ⟨t, hs, ht.toWellFormed⟩
  · intro s op ⟨t, hs, ht⟩ hharmless
    subst hs
    exact ht.perform S (hharmless t rfl)
  · intro s op ⟨t, hs, ht⟩ hharm ⟨t', ht', hwell⟩
    subst hs
    apply hharm
    intro u hu
    obtain rfl := Option.some.inj hu
    by_contra hnot
    exact InputState.not_wellFormed_of_harm S hnot ht' hwell

/-- A segmentation into one word of one grapheme. -/
def wholeText : Segmentation where
  graphemeIndices _ := [0]
  splitWordBoundIndices text := [(0, text)]
  graphemes_boundary text index h := by
    rw [List.mem_singleton.1 h]
    exact isCharBoundary_zero text
  graphemes_increasing _ := List.pairwise_singleton _ _
  words_boundary text word h := by
    rw [List.mem_singleton.1 h]
    exact isCharBoundary_zero text
  words_increasing _ := List.pairwise_singleton _ _

/-- Behind one letter, a composition of another with two bytes: the selection that is to stand
behind it stands inside it. -/
theorem not_wellFormed :
    ¬ StatesMeet (step wholeText) Sound (some {})
      [.setContent ['a'], .replaceAndMarkTextInRange none ['é'] (some ⟨1, 1⟩)] := by
  intro h
  obtain ⟨t, ht, hwell⟩ := h.last
  have hinside : (run (step wholeText) (some {}) [.setContent ['a'],
      .replaceAndMarkTextInRange none ['é'] (some ⟨1, 1⟩)]).all
        (fun t => decide (IsCharBoundary t.content t.selection.stop)) = false := by
    decide +kernel
  rw [ht, Option.all_some, decide_eq_false_iff_not] at hinside
  exact hinside hwell.selection.stop

end Superiority.Ui
