import Superiority.Ui.InputInvariant

/-!
# The input method reads back what it wrote

A composition replaces a part of the content, marks what it put there, and selects a part of that.
The input method reads the content, the mark and the selection in UTF-16 units.

**`readsBackInput_iff`**: what it reads is what it wrote exactly if the selection, whose units are
counted in the whole content, comes out the same when they are counted in the text.
-/

namespace Superiority.Ui

/-- A range of UTF-16 units of a text, on characters. -/
structure UnitRange (text : Text) (range : Range) : Prop where
  ordered : range.start ≤ range.stop
  start : IsPlace lenUtf16 text range.start
  stop : IsPlace lenUtf16 text range.stop

@[simp] theorem unitLen_append (a b : Text) : unitLen (a ++ b) = unitLen a + unitLen b :=
  weight_append lenUtf16 a b

namespace InputState

/-- The conversions undo each other, and what stands in a range is read in it. -/
structure Agrees (s : InputState) : Prop where
  bytes : ∀ range, ValidRange s.content range → s.rangeFromUtf16 (s.rangeToUtf16 range) = range
  units : ∀ range, UnitRange s.content range → s.rangeToUtf16 (s.rangeFromUtf16 range) = range
  text : ∀ front between back, s.content = front ++ (between ++ back) →
    s.textForRange ⟨unitLen front, unitLen front + unitLen between⟩ =
      (some between, ⟨unitLen front, unitLen front + unitLen between⟩)

/-- The part of the content that a composition replaces: the range it comes with, else the marked
one, else the selection. -/
structure Targets (s : InputState) (range : Option Range) (front between back : Text) : Prop where
  content : s.content = front ++ (between ++ back)
  given : ∀ r, range = some r → r = ⟨unitLen front, unitLen front + unitLen between⟩
  kept : range = none →
    s.markedRange.getD s.selection = ⟨byteLen front, byteLen front + byteLen between⟩

/-- What the input method reads is what it wrote. -/
def ReadsBack (s : InputState) (range : Option Range) (text : Text) (selected : Range)
    (front back : Text) : Prop :=
  ∃ s', s.replaceAndMarkTextInRange range text (some selected) = some s' ∧
    s'.content = front ++ singleLine text ++ back ∧
    s'.markedTextRange = (if text = [] then none
      else some ⟨unitLen front, unitLen front + unitLen (singleLine text)⟩) ∧
    s'.selectedTextRange =
      (⟨unitLen front + selected.start, unitLen front + selected.stop⟩, false) ∧
    s.Agrees ∧ s'.Agrees

end InputState

/-- The units of an end of the selection, counted in the whole content, take as many bytes as make
the same units of the text and what follows it. -/
def ReadAlike (front text back : Text) (units : Nat) : Prop :=
  convert lenUtf8 lenUtf16 (text ++ back) (bytesIn (front ++ text ++ back) units) = units

instance (front text back : Text) (units : Nat) : Decidable (ReadAlike front text back units) :=
  inferInstanceAs (Decidable (_ = _))

theorem unitLen_singleLine (text : Text) : unitLen (singleLine text) = unitLen text := by
  induction text with
  | nil => rfl
  | cons c text ih =>
    have hc : lenUtf16 (if c = '\n' ∨ c = '\r' then ' ' else c) = lenUtf16 c := by
      split_ifs with h
      · rcases h with rfl | rfl <;> rfl
      · rfl
    exact congrArg₂ (· + ·) hc ih

theorem singleLine_eq_nil {text : Text} : singleLine text = [] ↔ text = [] := List.map_eq_nil_iff

/-! ## The conversions -/

/-- The range of a part of a text, in bytes and in units. -/
theorem rangeToUtf16_pieces {s : InputState} {front between back : Text}
    (h : s.content = front ++ (between ++ back)) :
    s.rangeToUtf16 ⟨byteLen front, byteLen front + byteLen between⟩ =
      ⟨unitLen front, unitLen front + unitLen between⟩ := by
  unfold InputState.rangeToUtf16 InputState.offsetToUtf16
  rw [h, convert_weight lenUtf8_pos, convert_append lenUtf8_pos, convert_weight lenUtf8_pos]

theorem rangeFromUtf16_pieces {s : InputState} {front between back : Text}
    (h : s.content = front ++ (between ++ back)) :
    s.rangeFromUtf16 ⟨unitLen front, unitLen front + unitLen between⟩ =
      ⟨byteLen front, byteLen front + byteLen between⟩ := by
  unfold InputState.rangeFromUtf16 InputState.offsetFromUtf16
  rw [h, convert_weight lenUtf16_pos, convert_append lenUtf16_pos, convert_weight lenUtf16_pos]

theorem UnitRange.pieces {text : Text} {range : Range} (h : UnitRange text range) :
    ∃ front between back, text = front ++ (between ++ back) ∧
      range = ⟨unitLen front, unitLen front + unitLen between⟩ := by
  obtain ⟨start, stop⟩ := range
  obtain ⟨front, rest, rfl, rfl⟩ := (isPlace_iff lenUtf16_pos).1 h.start
  have hle : unitLen front ≤ stop := h.ordered
  obtain ⟨length, rfl⟩ := Nat.exists_eq_add_of_le hle
  obtain ⟨between, back, rfl, rfl⟩ :=
    (isPlace_iff lenUtf16_pos).1 ((isPlace_append_right lenUtf16_pos).1 h.stop)
  exact ⟨front, between, back, rfl, rfl⟩

namespace InputState

variable {s : InputState}

theorem agrees (s : InputState) : s.Agrees where
  bytes range h := by
    obtain ⟨front, between, back, hcontent, rfl⟩ := h.pieces
    rw [rangeToUtf16_pieces hcontent, rangeFromUtf16_pieces hcontent]
  units range h := by
    obtain ⟨front, between, back, hcontent, rfl⟩ := h.pieces
    rw [rangeFromUtf16_pieces hcontent, rangeToUtf16_pieces hcontent]
  text front between back hcontent := by
    unfold textForRange
    dsimp only
    rw [rangeFromUtf16_pieces hcontent, rangeToUtf16_pieces hcontent, hcontent, slice_pieces]

/-! ## Compositions -/

/-- There is a part that a composition replaces. -/
theorem WellFormed.exists_targets (h : s.WellFormed) {range : Option Range}
    (hrange : ∀ r, range = some r → UnitRange s.content r) :
    ∃ front between back, s.Targets range front between back := by
  cases range with
  | some r =>
    obtain ⟨front, between, back, hcontent, hr⟩ := (hrange r rfl).pieces
    refine ⟨front, between, back, hcontent, ?_, by simp⟩
    intro r' hr'
    rw [← Option.some.inj hr', hr]
  | none =>
    have hvalid : ValidRange s.content (s.markedRange.getD s.selection) := by
      cases hmarked : s.markedRange with
      | some marked => exact (h.marked marked hmarked).2
      | none => exact h.selection
    obtain ⟨front, between, back, hcontent, hr⟩ := hvalid.pieces
    exact ⟨front, between, back, hcontent, by simp, fun _ => hr⟩

theorem Targets.around {range : Option Range} {front between back : Text}
    (h : s.Targets range front between back) : s.Around range front between back := by
  have htarget : s.target range = ⟨byteLen front, byteLen front + byteLen between⟩ := by
    cases range with
    | some r =>
      rw [h.given r rfl]
      exact rangeFromUtf16_pieces h.content
    | none => exact h.kept rfl
  refine ⟨h.content, congrArg Range.start htarget, ?_⟩
  rw [htarget]
  apply validRange_of_valid
  rw [h.content]
  exact .of_pieces front between back

/-- **The input method reads back what it wrote** exactly if both ends of the selection are read
alike in the whole content and in the text. -/
theorem readsBackInput_iff {range : Option Range} {front between back : Text}
    (h : s.Targets range front between back) (text : Text) (selected : Range) :
    s.ReadsBack range text selected front back ↔
      ReadAlike front (singleLine text) back selected.start ∧
        ReadAlike front (singleLine text) back selected.stop := by
  have hcompose := h.around.compose text (some selected)
  have hselected (units : Nat) :
      convert lenUtf8 lenUtf16 (front ++ singleLine text ++ back)
          (byteLen front + bytesIn (front ++ singleLine text ++ back) units) =
        unitLen front + units ↔ ReadAlike front (singleLine text) back units := by
    unfold ReadAlike
    rw [List.append_assoc, convert_append lenUtf8_pos]
    exact Nat.add_left_cancel_iff
  constructor
  · intro hreads
    obtain ⟨s', hs', -, -, hread, -⟩ := hreads
    rw [hcompose] at hs'
    obtain rfl := Option.some.inj hs'
    have hrange := congrArg Prod.fst hread
    exact ⟨(hselected _).1 (congrArg Range.start hrange),
      (hselected _).1 (congrArg Range.stop hrange)⟩
  · intro ⟨hstart, hstop⟩
    refine ⟨_, hcompose, rfl, ?_, ?_, s.agrees, agrees _⟩
    · unfold markedTextRange
      dsimp only
      by_cases htext : text = []
      · rw [if_pos htext, if_pos (singleLine_eq_nil.2 htext)]
        rfl
      · rw [if_neg htext, if_neg (mt singleLine_eq_nil.1 htext)]
        exact congrArg some (rangeToUtf16_pieces (List.append_assoc ..))
    · refine Prod.ext ?_ rfl
      exact congrArg₂ Range.mk ((hselected _).2 hstart) ((hselected _).2 hstop)

/-- Behind a letter of two bytes, a composition of two letters of one: what is selected behind the
first of them is read behind the second. -/
theorem readsBackInput_iff_accent :
    InputState.ReadsBack { content := ['é'], selection := ⟨2, 2⟩ } none ['a', 'b'] ⟨1, 1⟩ ['é'] [] ↔
      ReadAlike ['é'] ['a', 'b'] [] 1 ∧ ReadAlike ['é'] ['a', 'b'] [] 1 :=
  readsBackInput_iff (show Targets _ none ['é'] [] [] from ⟨rfl, by simp, fun _ => rfl⟩) ['a', 'b']
    ⟨1, 1⟩

/-- The input method does not always read back what it wrote. -/
theorem not_readsBackInput :
    ¬ ∀ (s : InputState) (range : Option Range) (front between back text : Text) (selected : Range),
      s.WellFormed → s.Targets range front between back →
        selected.start ≤ selected.stop → selected.stop ≤ unitLen text →
          s.ReadsBack range text selected front back := by
  intro h
  have haccent : InputState.WellFormed { content := ['é'], selection := ⟨2, 2⟩ } :=
    ⟨.point (by decide), by simp, ⟨by decide, by decide⟩, Nat.zero_le _, by simp⟩
  obtain ⟨s', hs', -, -, hread, -⟩ := h { content := ['é'], selection := ⟨2, 2⟩ } none ['é'] [] []
    ['a', 'b'] ⟨1, 1⟩ haccent ⟨rfl, by simp, fun _ => rfl⟩ (Nat.le_refl 1) (by decide)
  have hthree : (InputState.replaceAndMarkTextInRange { content := ['é'], selection := ⟨2, 2⟩ } none
      ['a', 'b'] (some ⟨1, 1⟩)).map selectedTextRange = some (⟨3, 3⟩, false) := by
    decide +kernel
  rw [hs', Option.map_some, hread] at hthree
  exact absurd hthree (by decide)

end InputState

end Superiority.Ui
