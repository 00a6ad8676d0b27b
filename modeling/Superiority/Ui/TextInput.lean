import Superiority.Library.Measured
import Superiority.Text

/-!
# The text input

`ui/foundation/text_input.rs`: the state behind a one-line input, its editing actions, and the calls
of the platform's input method. Text is a list of characters, offsets are in bytes, and the input
method counts UTF-16 units. What panics is `none`.

Graphemes and words come from another crate (`Segmentation`). What depends on the layout of the line
is left out; a mouse event comes with the index it stands for.
-/

namespace Superiority.Ui

abbrev Text := List Char

/-! ## Offsets -/

/-- `char::len_utf8`. -/
def lenUtf8 (c : Char) : Nat := c.utf8Size

/-- `char::len_utf16`. -/
def lenUtf16 (c : Char) : Nat := if c.toNat < 0x10000 then 1 else 2

/-- `str::len`. -/
abbrev byteLen (text : Text) : Nat := weight lenUtf8 text

/-- `encode_utf16().count()`. -/
abbrev unitLen (text : Text) : Nat := weight lenUtf16 text

/-- `str::is_char_boundary`. -/
abbrev IsCharBoundary (text : Text) (offset : Nat) : Prop := IsPlace lenUtf8 text offset

/-- `Range<usize>`. -/
structure Range where
  start : Nat
  stop : Nat
  deriving DecidableEq, Repr

/-- `is_empty`. -/
def Range.isEmpty (range : Range) : Bool := !decide (range.start < range.stop)

/-- `&text[range]`. -/
def slice (text : Text) (range : Range) : Option Text := do
  if range.stop < range.start then none
  let (_, back) ← splitWeight lenUtf8 text range.start
  let (between, _) ← splitWeight lenUtf8 back (range.stop - range.start)
  return between

/-- `replace_range`. -/
def replaceRange (text : Text) (range : Range) (new : Text) : Option Text := do
  if range.stop < range.start then none
  let (front, back) ← splitWeight lenUtf8 text range.start
  let (_, rest) ← splitWeight lenUtf8 back (range.stop - range.start)
  return front ++ new ++ rest

def singleLine (text : Text) : Text := text.map fun c => if c = '\n' ∨ c = '\r' then ' ' else c

/-- `valid_boundary`: the offset steps back to a boundary. -/
def validBoundary (text : Text) (offset : Nat) : Nat := stepBack (min offset (byteLen text))
where
  stepBack : Nat → Nat
    | 0 => 0
    | offset + 1 => if IsCharBoundary text (offset + 1) then offset + 1 else stepBack offset

def validRange (text : Text) (range : Range) : Range :=
  let start := validBoundary text range.start
  ⟨start, validBoundary text (max range.stop start)⟩

/-- What the input takes from the `unicode_segmentation` crate: where the graphemes of a text start,
and its words with their indices. -/
structure Segmentation where
  graphemeIndices : Text → List Nat
  splitWordBoundIndices : Text → List (Nat × Text)
  graphemes_boundary : ∀ (text : Text) (index : Nat), index ∈ graphemeIndices text →
    IsCharBoundary text index
  graphemes_increasing : ∀ text : Text, (graphemeIndices text).Pairwise (· < ·)
  words_boundary : ∀ (text : Text) (word : Nat × Text), word ∈ splitWordBoundIndices text →
    IsCharBoundary text word.1
  words_increasing : ∀ text : Text, (splitWordBoundIndices text).Pairwise (·.1 < ·.1)

section

variable (S : Segmentation)

def previousBoundary (text : Text) (offset : Nat) : Nat :=
  ((S.graphemeIndices text).reverse.find? (· < offset)).getD 0

def nextBoundary (text : Text) (offset : Nat) : Nat :=
  ((S.graphemeIndices text).find? (offset < ·)).getD (byteLen text)

/-- `segment.trim().is_empty()`. -/
def isBlank (segment : Text) : Bool := segment.all isWhitespace

def previousWordBoundary (text : Text) (offset : Nat) : Option Nat := do
  let before ← slice text ⟨0, validBoundary text offset⟩
  let word := (S.splitWordBoundIndices before).reverse.find? fun word => !isBlank word.2
  return (word.map (·.1)).getD 0

def nextWordBoundary (text : Text) (offset : Nat) : Option Nat := do
  let offset := validBoundary text offset
  let behind ← slice text ⟨offset, byteLen text⟩
  let words := (S.splitWordBoundIndices behind).dropWhile fun word => isBlank word.2
  return (words[1]?.map (offset + ·.1)).getD (byteLen text)

end

/-! ## The state -/

def historyLimit : Nat := 100

structure Snapshot where
  content : Text
  selection : Range
  selectionReversed : Bool
  deriving DecidableEq, Repr

/-- `InputState`. The last of `undo` and of `redo` is the first of its list here. -/
structure InputState where
  content : Text := []
  selection : Range := ⟨0, 0⟩
  selectionReversed : Bool := false
  markedRange : Option Range := none
  compositionOrigin : Option Snapshot := none
  undo : List Snapshot := []
  redo : List Snapshot := []
  selecting : Bool := false
  deriving DecidableEq, Repr

namespace InputState

variable (s : InputState)

def snapshot : Snapshot := ⟨s.content, s.selection, s.selectionReversed⟩

def restore (snapshot : Snapshot) : InputState :=
  { s with
    content := snapshot.content
    selection := snapshot.selection
    selectionReversed := snapshot.selectionReversed
    markedRange := none
    compositionOrigin := none }

def remember (snapshot : Snapshot) : InputState :=
  { s with
    undo := snapshot :: (if s.undo.length = historyLimit then s.undo.dropLast else s.undo)
    redo := [] }

def cursor : Nat := if s.selectionReversed then s.selection.start else s.selection.stop

def moveTo (offset : Nat) : InputState :=
  let offset := validBoundary s.content offset
  { s with selection := ⟨offset, offset⟩, selectionReversed := false }

def selectTo (offset : Nat) : InputState :=
  let offset := validBoundary s.content offset
  let selection : Range := if s.selectionReversed then { s.selection with start := offset }
    else { s.selection with stop := offset }
  if selection.stop < selection.start then
    { s with
      selectionReversed := !s.selectionReversed
      selection := ⟨selection.stop, selection.start⟩ }
  else { s with selection }

def replace (range : Range) (text : Text) (remember : Bool) : Option InputState := do
  let range := validRange s.content range
  let s := if remember then s.remember s.snapshot else s
  let text := singleLine text
  let content ← replaceRange s.content range text
  let cursor := range.start + byteLen text
  return { s with
    content
    selection := ⟨cursor, cursor⟩
    selectionReversed := false
    markedRange := none }

def offsetFromUtf16 (offset : Nat) : Nat := convert lenUtf16 lenUtf8 s.content offset

def offsetToUtf16 (offset : Nat) : Nat := convert lenUtf8 lenUtf16 s.content offset

def rangeFromUtf16 (range : Range) : Range :=
  ⟨s.offsetFromUtf16 range.start, s.offsetFromUtf16 range.stop⟩

def rangeToUtf16 (range : Range) : Range :=
  ⟨s.offsetToUtf16 range.start, s.offsetToUtf16 range.stop⟩

/-! ## The editing actions -/

def clear : InputState :=
  let s := if s.content ≠ [] then s.remember s.snapshot else s
  { s with
    content := []
    selection := ⟨0, 0⟩
    selectionReversed := false
    markedRange := none
    compositionOrigin := none }

def setContent (content : Text) : InputState :=
  let content := singleLine content
  let s := if s.content ≠ content then s.remember s.snapshot else s
  { s with
    content
    selection := ⟨byteLen content, byteLen content⟩
    selectionReversed := false
    markedRange := none
    compositionOrigin := none }

/-- `TextInput::set_cursor`. -/
def setCursor (offset : Nat) : InputState := s.moveTo offset

def left (S : Segmentation) : InputState :=
  s.moveTo (if s.selection.isEmpty then previousBoundary S s.content s.cursor
    else s.selection.start)

def right (S : Segmentation) : InputState :=
  s.moveTo (if s.selection.isEmpty then nextBoundary S s.content s.cursor else s.selection.stop)

def selectAll : InputState :=
  { s with selection := ⟨0, byteLen s.content⟩, selectionReversed := false }

/-- What `backspace` deletes. -/
def backspaceRange (S : Segmentation) : Range :=
  if s.selection.isEmpty then ⟨previousBoundary S s.content s.cursor, s.cursor⟩ else s.selection

/-- What `delete` deletes. -/
def deleteRange (S : Segmentation) : Range :=
  if s.selection.isEmpty then ⟨s.cursor, nextBoundary S s.content s.cursor⟩ else s.selection

/-- The end of `backspace` and of `delete`. -/
def erase (range : Range) : Option InputState :=
  if range.isEmpty then some s else s.replace range [] true

def copy : Option InputState := do
  if !s.selection.isEmpty then
    let _ ← slice s.content s.selection
  return s

def cut : Option InputState := do
  if s.selection.isEmpty then return s
  let _ ← slice s.content s.selection
  s.replace s.selection [] true

/-- `paste`, with the text of the clipboard. -/
def paste (text : Option Text) : Option InputState :=
  match text with
  | none => some s
  | some text => s.replace s.selection text true

/-- The action `undo`. -/
def undone : InputState :=
  match s.undo with
  | [] => s
  | snapshot :: undo => { s with undo, redo := s.snapshot :: s.redo }.restore snapshot

/-- The action `redo`. -/
def redone : InputState :=
  match s.redo with
  | [] => s
  | snapshot :: redo => { s with redo, undo := s.snapshot :: s.undo }.restore snapshot

/-! ## The input method -/

/-- `text_for_range`, with the adjusted range. -/
def textForRange (range : Range) : Option Text × Range :=
  let range := s.rangeFromUtf16 range
  (slice s.content range, s.rangeToUtf16 range)

/-- `selected_text_range`. -/
def selectedTextRange : Range × Bool := (s.rangeToUtf16 s.selection, s.selectionReversed)

def markedTextRange : Option Range := s.markedRange.map s.rangeToUtf16

def unmarkText : InputState :=
  match s.compositionOrigin with
  | some origin =>
    { { s with compositionOrigin := none }.remember origin with markedRange := none }
  | none => { s with markedRange := none }

/-- The bytes that the input method replaces. -/
def target (range : Option Range) : Range :=
  (range.map s.rangeFromUtf16).getD (s.markedRange.getD s.selection)

def replaceTextInRange (range : Option Range) (text : Text) : Option InputState :=
  let range := s.target range
  match s.compositionOrigin with
  | some origin => ({ s with compositionOrigin := none }.remember origin).replace range text false
  | none => s.replace range text true

def replaceAndMarkTextInRange (range : Option Range) (text : Text) (selected : Option Range) :
    Option InputState := do
  let s := { s with compositionOrigin := s.compositionOrigin.or (some s.snapshot) }
  let range := s.target range
  let text := singleLine text
  let start := range.start
  let content ← replaceRange s.content (validRange s.content range) text
  let s := { s with content }
  return { s with
    markedRange := if text = [] then none else some ⟨start, start + byteLen text⟩
    -- the range is read in the whole content, not in the text
    selection := match selected.map s.rangeFromUtf16 with
      | none => ⟨start + byteLen text, start + byteLen text⟩
      | some range => ⟨start + range.start, start + range.stop⟩
    selectionReversed := false }

def setSelectedTextRange (range : Range) : InputState :=
  { s with selection := s.rangeFromUtf16 range, selectionReversed := false }

end InputState

/-! ## Operations -/

/-- What may be done to an input. A mouse event comes with the index that its position stands for,
`copy` and `paste` with the clipboard. -/
inductive Operation where
  | left | right | selectLeft | selectRight
  | wordLeft | wordRight | selectWordLeft | selectWordRight
  | home | «end» | selectHome | selectEnd | selectAll
  | backspace | delete | copy | cut | paste (text : Option Text) | undo | redo
  | mouseDown (index : Nat) (shift : Bool) | mouseMove (index : Nat) | mouseUp
  | clear | setContent (content : Text) | setCursor (offset : Nat)
  | unmarkText
  | replaceTextInRange (range : Option Range) (text : Text)
  | replaceAndMarkTextInRange (range : Option Range) (text : Text) (selected : Option Range)
  | setSelectedTextRange (range : Range)
  deriving DecidableEq, Repr

def InputState.perform (S : Segmentation) (s : InputState) : Operation → Option InputState
  | .left => some (s.left S)
  | .right => some (s.right S)
  | .selectLeft => some (s.selectTo (previousBoundary S s.content s.cursor))
  | .selectRight => some (s.selectTo (nextBoundary S s.content s.cursor))
  | .wordLeft => (previousWordBoundary S s.content s.cursor).map s.moveTo
  | .wordRight => (nextWordBoundary S s.content s.cursor).map s.moveTo
  | .selectWordLeft => (previousWordBoundary S s.content s.cursor).map s.selectTo
  | .selectWordRight => (nextWordBoundary S s.content s.cursor).map s.selectTo
  | .home => some (s.moveTo 0)
  | .end => some (s.moveTo (byteLen s.content))
  | .selectHome => some (s.selectTo 0)
  | .selectEnd => some (s.selectTo (byteLen s.content))
  | .selectAll => some s.selectAll
  | .backspace => s.erase (s.backspaceRange S)
  | .delete => s.erase (s.deleteRange S)
  | .copy => s.copy
  | .cut => s.cut
  | .paste text => s.paste text
  | .undo => some s.undone
  | .redo => some s.redone
  | .mouseDown index shift =>
    some { (if shift then s.selectTo index else s.moveTo index) with selecting := true }
  | .mouseMove index => some (if s.selecting then s.selectTo index else s)
  | .mouseUp => some { s with selecting := false }
  | .clear => some s.clear
  | .setContent content => some (s.setContent content)
  | .setCursor offset => some (s.setCursor offset)
  | .unmarkText => some s.unmarkText
  | .replaceTextInRange range text => s.replaceTextInRange range text
  | .replaceAndMarkTextInRange range text selected =>
    s.replaceAndMarkTextInRange range text selected
  | .setSelectedTextRange range => some (s.setSelectedTextRange range)

end Superiority.Ui
