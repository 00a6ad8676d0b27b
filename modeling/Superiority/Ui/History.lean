import Superiority.Library.Timeline
import Superiority.Ui.InputInvariant

/-!
# Undo and redo

A chronicle goes along with an input and writes down what stood before each change: before an edit
the content and selection at that time, before a composition that is finished those at its start. A
composition is over when it is finished, when an edit is made in its middle, and when the content is
cleared, set, undone or redone.

**`history_walks`**: undo walks back through the chronicle, and redo forth again, in every state of a
run in which no composition is finished from an origin that an earlier one has left behind.
-/

namespace Superiority.Ui

structure Chronicle where
  s : InputState := {}
  /-- What stood before the composition that is going on. -/
  composing : Option Snapshot := none
  /-- What stood before the changes that can be undone, the last first. -/
  log : List Snapshot := []
  /-- What stood before the undos that can be redone, the last first. -/
  undone : List Snapshot := []

namespace Chronicle

variable (S : Segmentation) (c : Chronicle)

/-- What stood before the change that an operation makes, if it makes one. -/
def before : Operation → Option Snapshot
  | .backspace => if (c.s.backspaceRange S).isEmpty then none else some c.s.snapshot
  | .delete => if (c.s.deleteRange S).isEmpty then none else some c.s.snapshot
  | .cut => if c.s.selection.isEmpty then none else some c.s.snapshot
  | .paste text => text.map fun _ => c.s.snapshot
  | .clear => if c.s.content = [] then none else some c.s.snapshot
  | .setContent content => if c.s.content = singleLine content then none else some c.s.snapshot
  | .replaceTextInRange _ _ => some (c.composing.getD c.s.snapshot)
  | .unmarkText => c.composing
  | _ => none

/-- The composition that is going on after an operation. -/
def composingAfter (op : Operation) : Option Snapshot :=
  match op with
  | .replaceAndMarkTextInRange _ _ _ => some (c.composing.getD c.s.snapshot)
  | .clear | .setContent _ | .replaceTextInRange _ _ | .unmarkText => none
  | .undo => if c.log = [] then c.composing else none
  | .redo => if c.undone = [] then c.composing else none
  | op => if (c.before S op).isSome then none else c.composing

/-- What can be undone and redone after an operation. -/
def logAfter (op : Operation) : List Snapshot × List Snapshot :=
  match c.before S op, op with
  | some x, _ => (x :: c.log, [])
  | none, .undo =>
    match c.log with
    | [] => (c.log, c.undone)
    | _ :: log => (log, c.s.snapshot :: c.undone)
  | none, .redo =>
    match c.undone with
    | [] => (c.log, c.undone)
    | _ :: undone => (c.s.snapshot :: c.log, undone)
  | none, _ => (c.log, c.undone)

/-- An operation, while none has panicked. -/
def step (c : Option Chronicle) (op : Operation) : Option Chronicle := do
  let c ← c
  let s ← c.s.perform S op
  let (log, undone) := c.logAfter S op
  return { s, log, undone, composing := c.composingAfter S op }

/-- Undo walks back through the log, and redo forth again. -/
structure Walks (c : Chronicle) : Prop where
  back : ∀ k ≤ c.log.length,
    (c.s.snapshot :: c.log)[k]? = some (InputState.undone^[k] c.s).snapshot
  forth : ∀ k ≤ c.log.length, ∀ m ≤ k, (c.s.snapshot :: c.log)[k - m]? =
    some (InputState.redone^[m] (InputState.undone^[k] c.s)).snapshot
  identity : c.log ≠ [] ∨ c.undone = [] → c.s.undone.redone.snapshot = c.s.snapshot
  emptied : c.undone = [] → c.s.redone = c.s

/-- A composition is finished from where it started: no origin of an earlier one is left. -/
def Fresh : Operation → Prop
  | .unmarkText => c.s.compositionOrigin = c.composing
  | .replaceTextInRange _ _ =>
    c.s.compositionOrigin.getD c.s.snapshot = c.composing.getD c.s.snapshot
  | _ => True

/-- There is room for a change that is made. -/
def HasRoom (op : Operation) : Prop := (c.before S op).isSome = true → c.log.length < historyLimit

end Chronicle

namespace InputState

variable {s : InputState}

/-! ## The history of an input as a timeline -/

def timeline (s : InputState) : Timeline Snapshot := ⟨s.undo, s.snapshot, s.redo⟩

theorem timeline_undone (s : InputState) : s.undone.timeline = s.timeline.back := by
  unfold InputState.undone timeline Timeline.back
  cases hundo : s.undo with
  | nil =>
    dsimp only
    rw [hundo]
  | cons x undo => rfl

theorem timeline_redone (s : InputState) : s.redone.timeline = s.timeline.forth := by
  unfold InputState.redone timeline Timeline.forth
  cases hredo : s.redo with
  | nil =>
    dsimp only
    rw [hredo]
  | cons x redo => rfl

theorem timeline_iterate (s : InputState) (k m : Nat) :
    (InputState.redone^[m] (InputState.undone^[k] s)).timeline =
      Timeline.forth^[m] (Timeline.back^[k] s.timeline) := by
  have hback : Function.Semiconj timeline InputState.undone Timeline.back := timeline_undone
  have hforth : Function.Semiconj timeline InputState.redone Timeline.forth := timeline_redone
  rw [(hforth.iterate_right m).eq, (hback.iterate_right k).eq]

/-! ## What the operations do to the history -/

theorem undo_remember (h : s.undo.length < historyLimit) (x : Snapshot) :
    (s.remember x).undo = x :: s.undo := by
  unfold InputState.remember
  rw [if_neg (Nat.ne_of_lt h)]

theorem replace_history {range : Range} {text : Text} {remember : Bool} {s' : InputState}
    (h : s.replace range text remember = some s') :
    s'.undo = (if remember then s.remember s.snapshot else s).undo ∧
      s'.redo = (if remember then s.remember s.snapshot else s).redo := by
  unfold InputState.replace at h
  obtain ⟨content, -, hs'⟩ := Option.bind_eq_some_iff.1 h
  obtain rfl := Option.some.inj hs'
  exact ⟨rfl, rfl⟩

/-- The history after an edit that is remembered. -/
theorem replace_remembered {range : Range} {text : Text} {s' : InputState}
    (h : s.replace range text true = some s') (hroom : s.undo.length < historyLimit) :
    s'.undo = s.snapshot :: s.undo ∧ s'.redo = [] := by
  obtain ⟨hundo, hredo⟩ := replace_history h
  exact ⟨hundo.trans (undo_remember hroom s.snapshot), hredo⟩

theorem erase_history {range : Range} {s' : InputState} (h : s.erase range = some s') :
    (range.isEmpty = true ∧ s' = s) ∨
      (range.isEmpty = false ∧ s.replace range [] true = some s') := by
  unfold InputState.erase at h
  split_ifs at h with hempty
  · exact Or.inl ⟨hempty, (Option.some.inj h).symm⟩
  · exact Or.inr ⟨Bool.eq_false_iff.2 hempty, h⟩

theorem moveTo_history (s : InputState) (offset : Nat) :
    (s.moveTo offset).undo = s.undo ∧ (s.moveTo offset).redo = s.redo := ⟨rfl, rfl⟩

theorem selectTo_history (s : InputState) (offset : Nat) :
    (s.selectTo offset).undo = s.undo ∧ (s.selectTo offset).redo = s.redo := by
  unfold InputState.selectTo
  dsimp only
  split_ifs <;> exact ⟨rfl, rfl⟩

theorem clear_history (s : InputState) :
    s.clear.undo = (if s.content ≠ [] then s.remember s.snapshot else s).undo ∧
      s.clear.redo = (if s.content ≠ [] then s.remember s.snapshot else s).redo := ⟨rfl, rfl⟩

theorem setContent_history (s : InputState) (content : Text) :
    (s.setContent content).undo =
        (if s.content ≠ singleLine content then s.remember s.snapshot else s).undo ∧
      (s.setContent content).redo =
        (if s.content ≠ singleLine content then s.remember s.snapshot else s).redo := ⟨rfl, rfl⟩

theorem compose_history {range : Option Range} {text : Text} {selected : Option Range}
    {s' : InputState} (h : s.replaceAndMarkTextInRange range text selected = some s') :
    s'.undo = s.undo ∧ s'.redo = s.redo := by
  unfold InputState.replaceAndMarkTextInRange at h
  obtain ⟨content, -, hs'⟩ := Option.bind_eq_some_iff.1 h
  obtain rfl := Option.some.inj hs'
  exact ⟨rfl, rfl⟩

end InputState

namespace Chronicle

variable {S : Segmentation} {c : Chronicle} {op : Operation}

/-! ## The chronicle goes along -/

/-- The history of the input is what the chronicle has written down. -/
structure Tracks (c : Chronicle) : Prop where
  undo : c.s.undo = c.log
  redo : c.s.redo = c.undone
  room : c.log.length + c.undone.length ≤ historyLimit

theorem Tracks.walks (h : c.Tracks) : c.Walks := by
  have hforth (k : Nat) (hk : k ≤ c.log.length) (m : Nat) (hm : m ≤ k) :
      (c.s.snapshot :: c.log)[k - m]? =
        some (InputState.redone^[m] (InputState.undone^[k] c.s)).snapshot := by
    have hwalk := c.s.timeline.now_forth_back (hk.trans_eq (congrArg List.length h.undo.symm)) hm
    rw [← InputState.timeline_iterate] at hwalk
    rw [← h.undo]
    exact hwalk
  have hredone (hnil : c.undone = []) : c.s.redone = c.s := by
    unfold InputState.redone
    rw [h.redo, hnil]
  refine ⟨fun k hk => hforth k hk 0 (Nat.zero_le k), hforth, ?_, hredone⟩
  intro hsome
  by_cases hlog : c.log = []
  · have hundone : c.s.undone = c.s := by
      unfold InputState.undone
      rw [h.undo, hlog]
    rw [hundone, hredone (hsome.resolve_left (not_not.2 hlog))]
  · have hone := hforth 1 (List.length_pos_iff.2 hlog) 1 (Nat.le_refl 1)
    exact (Option.some.inj hone).symm

theorem logAfter_of_change {x : Snapshot} (h : c.before S op = some x) :
    c.logAfter S op = (x :: c.log, []) := by
  unfold logAfter
  rw [h]

theorem logAfter_of_quiet (h : c.before S op = none) (hundo : op ≠ .undo) (hredo : op ≠ .redo) :
    c.logAfter S op = (c.log, c.undone) := by
  unfold logAfter
  rw [h]
  cases op <;> simp_all

/-- A change that is remembered. -/
theorem Tracks.change (h : c.Tracks) (hroom : c.HasRoom S op) {x : Snapshot}
    (hbefore : c.before S op = some x) {s t : InputState} (ht : t.undo = c.s.undo)
    (hundo : s.undo = (t.remember x).undo) (hredo : s.redo = []) :
    s.undo = (c.logAfter S op).1 ∧ s.redo = (c.logAfter S op).2 := by
  have hlength : t.undo.length < historyLimit := by
    rw [ht, h.undo]
    apply hroom
    rw [hbefore]
    rfl
  rw [logAfter_of_change hbefore, hundo, InputState.undo_remember hlength, ht, h.undo]
  exact ⟨rfl, hredo⟩

/-- No change. -/
theorem Tracks.quiet (h : c.Tracks) (hbefore : c.before S op = none) (hnot : op ≠ .undo)
    (hnot' : op ≠ .redo) {s : InputState} (hundo : s.undo = c.s.undo) (hredo : s.redo = c.s.redo) :
    s.undo = (c.logAfter S op).1 ∧ s.redo = (c.logAfter S op).2 := by
  rw [logAfter_of_quiet hbefore hnot hnot']
  exact ⟨hundo.trans h.undo, hredo.trans h.redo⟩

/-- A deletion. -/
theorem Tracks.erase (h : c.Tracks) (hroom : c.HasRoom S op) {range : Range}
    (hbefore : c.before S op = if range.isEmpty then none else some c.s.snapshot) (hnot : op ≠ .undo)
    (hnot' : op ≠ .redo) {s : InputState} (hs : c.s.erase range = some s) :
    s.undo = (c.logAfter S op).1 ∧ s.redo = (c.logAfter S op).2 := by
  rcases InputState.erase_history hs with ⟨hempty, rfl⟩ | ⟨hsome, hreplace⟩
  · exact h.quiet (hbefore.trans (if_pos hempty)) hnot hnot' rfl rfl
  · obtain ⟨hundo, hredo⟩ := InputState.replace_history hreplace
    exact h.change hroom (hbefore.trans (if_neg (Bool.eq_false_iff.1 hsome))) rfl hundo hredo

/-- **One operation** leaves the history that the chronicle writes down. -/
theorem Tracks.perform (h : c.Tracks) (hfresh : c.Fresh op) (hroom : c.HasRoom S op)
    {s : InputState} (hs : c.s.perform S op = some s) :
    s.undo = (c.logAfter S op).1 ∧ s.redo = (c.logAfter S op).2 := by
  cases op with
  | left | right | home | «end» | setCursor | selectAll | mouseUp | setSelectedTextRange =>
    obtain rfl := Option.some.inj hs
    exact ⟨h.undo, h.redo⟩
  | selectLeft | selectRight | selectHome | selectEnd =>
    obtain rfl := Option.some.inj hs
    obtain ⟨hundo, hredo⟩ := c.s.selectTo_history _
    exact h.quiet rfl (by simp) (by simp) hundo hredo
  | wordLeft | wordRight =>
    obtain ⟨index, -, rfl⟩ := Option.map_eq_some_iff.1 hs
    exact ⟨h.undo, h.redo⟩
  | selectWordLeft | selectWordRight =>
    obtain ⟨index, -, rfl⟩ := Option.map_eq_some_iff.1 hs
    obtain ⟨hundo, hredo⟩ := c.s.selectTo_history index
    exact h.quiet rfl (by simp) (by simp) hundo hredo
  | mouseDown index shift =>
    obtain rfl := Option.some.inj hs
    obtain ⟨hundo, hredo⟩ := c.s.selectTo_history index
    apply h.quiet rfl (by simp) (by simp)
    · dsimp only
      split_ifs
      · exact hundo
      · rfl
    · dsimp only
      split_ifs
      · exact hredo
      · rfl
  | mouseMove index =>
    obtain rfl := Option.some.inj hs
    obtain ⟨hundo, hredo⟩ := c.s.selectTo_history index
    split_ifs
    · exact h.quiet rfl (by simp) (by simp) hundo hredo
    · exact ⟨h.undo, h.redo⟩
  | backspace => exact h.erase hroom rfl (by simp) (by simp) hs
  | delete => exact h.erase hroom rfl (by simp) (by simp) hs
  | copy =>
    have hsame : s = c.s := by
      change c.s.copy = some s at hs
      unfold InputState.copy at hs
      split_ifs at hs
      · obtain ⟨text, -, hs⟩ := Option.bind_eq_some_iff.1 hs
        exact (Option.some.inj hs).symm
      · exact (Option.some.inj hs).symm
    rw [hsame]
    exact ⟨h.undo, h.redo⟩
  | cut =>
    change c.s.cut = some s at hs
    unfold InputState.cut at hs
    split_ifs at hs with hempty
    · obtain rfl := Option.some.inj hs
      have hbefore : c.before S .cut = none := if_pos hempty
      exact h.quiet hbefore (by simp) (by simp) rfl rfl
    · obtain ⟨text, -, hs⟩ := Option.bind_eq_some_iff.1 hs
      obtain ⟨hundo, hredo⟩ := InputState.replace_history hs
      exact h.change hroom (if_neg hempty) rfl hundo hredo
  | paste text =>
    cases text with
    | none =>
      obtain rfl := Option.some.inj hs
      exact ⟨h.undo, h.redo⟩
    | some text =>
      obtain ⟨hundo, hredo⟩ := InputState.replace_history hs
      exact h.change hroom rfl rfl hundo hredo
  | undo =>
    obtain rfl := Option.some.inj hs
    unfold InputState.undone logAfter
    have hundo := h.undo
    cases hlog : c.log with
    | nil =>
      rw [hlog] at hundo
      rw [hundo]
      exact ⟨hundo, h.redo⟩
    | cons x log =>
      rw [hlog] at hundo
      rw [hundo]
      exact ⟨rfl, congrArg (c.s.snapshot :: ·) h.redo⟩
  | redo =>
    obtain rfl := Option.some.inj hs
    unfold InputState.redone logAfter
    have hredo := h.redo
    cases hundone : c.undone with
    | nil =>
      rw [hundone] at hredo
      rw [hredo]
      exact ⟨h.undo, hredo⟩
    | cons x undone =>
      rw [hundone] at hredo
      rw [hredo]
      exact ⟨congrArg (c.s.snapshot :: ·) h.undo, rfl⟩
  | clear =>
    obtain rfl := Option.some.inj hs
    have hclear := c.s.clear_history
    by_cases hnil : c.s.content = []
    · have hbefore : c.before S .clear = none := if_pos hnil
      rw [if_neg (not_not.2 hnil)] at hclear
      exact h.quiet hbefore (by simp) (by simp) hclear.1 hclear.2
    · have hbefore : c.before S .clear = some c.s.snapshot := if_neg hnil
      rw [if_pos hnil] at hclear
      exact h.change hroom hbefore rfl hclear.1 hclear.2
  | setContent content =>
    obtain rfl := Option.some.inj hs
    have hset := c.s.setContent_history content
    by_cases hsame : c.s.content = singleLine content
    · have hbefore : c.before S (.setContent content) = none := if_pos hsame
      rw [if_neg (not_not.2 hsame)] at hset
      exact h.quiet hbefore (by simp) (by simp) hset.1 hset.2
    · have hbefore : c.before S (.setContent content) = some c.s.snapshot := if_neg hsame
      rw [if_pos hsame] at hset
      exact h.change hroom hbefore rfl hset.1 hset.2
  | unmarkText =>
    obtain rfl := Option.some.inj hs
    have horigin : c.s.compositionOrigin = c.composing := hfresh
    unfold InputState.unmarkText
    cases hcomposing : c.composing with
    | none =>
      have hbefore : c.before S .unmarkText = none := hcomposing
      rw [horigin, hcomposing]
      exact h.quiet hbefore (by simp) (by simp) rfl rfl
    | some x =>
      have hbefore : c.before S .unmarkText = some x := hcomposing
      rw [horigin, hcomposing]
      exact h.change (t := { c.s with compositionOrigin := none }) hroom hbefore rfl rfl rfl
  | replaceTextInRange range text =>
    change c.s.replaceTextInRange range text = some s at hs
    have horigin : c.s.compositionOrigin.getD c.s.snapshot = c.composing.getD c.s.snapshot := hfresh
    unfold InputState.replaceTextInRange at hs
    dsimp only at hs
    cases hcomposing : c.s.compositionOrigin with
    | none =>
      rw [hcomposing] at hs horigin
      obtain ⟨hundo, hredo⟩ := InputState.replace_history hs
      exact h.change hroom (congrArg some horigin.symm) rfl hundo hredo
    | some x =>
      rw [hcomposing] at hs horigin
      obtain ⟨hundo, hredo⟩ := InputState.replace_history hs
      exact h.change (t := { c.s with compositionOrigin := none }) hroom
        (congrArg some horigin.symm) rfl hundo hredo
  | replaceAndMarkTextInRange range text selected =>
    obtain ⟨hundo, hredo⟩ := InputState.compose_history hs
    exact h.quiet rfl (by simp) (by simp) hundo hredo

theorem Tracks.room_logAfter (h : c.Tracks) (hroom : c.HasRoom S op) :
    (c.logAfter S op).1.length + (c.logAfter S op).2.length ≤ historyLimit := by
  have hle := h.room
  cases hbefore : c.before S op with
  | some x =>
    have hlt := hroom (by rw [hbefore]; rfl)
    rw [logAfter_of_change hbefore, List.length_cons, List.length_nil]
    omega
  | none =>
    by_cases hundo : op = .undo
    · subst hundo
      unfold logAfter before
      cases hlog : c.log with
      | nil =>
        rw [hlog] at hle
        exact hle
      | cons x log =>
        rw [hlog, List.length_cons] at hle
        dsimp only
        rw [List.length_cons]
        omega
    · by_cases hredo : op = .redo
      · subst hredo
        unfold logAfter before
        cases hundone : c.undone with
        | nil =>
          rw [hundone] at hle
          exact hle
        | cons x undone =>
          rw [hundone, List.length_cons] at hle
          dsimp only
          rw [List.length_cons]
          omega
      · rw [logAfter_of_quiet hbefore hundo hredo]
        exact hle

theorem Tracks.step (h : c.Tracks) (hfresh : c.Fresh op) (hroom : c.HasRoom S op) {c' : Chronicle}
    (hc' : Chronicle.step S (some c) op = some c') : c'.Tracks := by
  obtain ⟨s, hs, hc'⟩ := Option.bind_eq_some_iff.1 hc'
  obtain rfl := Option.some.inj hc'
  obtain ⟨hundo, hredo⟩ := h.perform hfresh hroom hs
  exact ⟨hundo, hredo, h.room_logAfter hroom⟩

/-- **Undo walks back through the chronicle** and redo forth again, in every state of a run, if every
composition is finished from where it started and no more changes are made than there is room
for. -/
theorem history_walks (S : Segmentation) (ops : List Operation)
    (hroom : StepsMeet (Chronicle.step S) (fun c op => ∀ d, c = some d → d.HasRoom S op) (some {})
      ops)
    (hfresh : StepsMeet (Chronicle.step S) (fun c op => ∀ d, c = some d → d.Fresh op) (some {}) ops) :
    StatesMeet (Chronicle.step S) (fun c => ∀ d, c = some d → d.Walks) (some {}) ops := by
  have hboth := hroom.imp₂ (E := fun c op => ∀ d, c = some d → d.HasRoom S op ∧ d.Fresh op)
    (fun c op hc hd d h => ⟨hc d h, hd d h⟩) hfresh
  refine statesMeet_of_stepsMeet (I := fun c => ∀ d : Chronicle, c = some d → d.Tracks) ?_ ?_ ?_ hboth
  · intro c hc d hd
    exact (hc d hd).walks
  · intro c op hc hop d hd
    cases c with
    | none => cases hd
    | some c =>
      obtain ⟨hroom, hfresh⟩ := hop c rfl
      exact (hc c rfl).step hfresh hroom hd
  · intro d hd
    obtain rfl := Option.some.inj hd
    exact ⟨rfl, rfl, Nat.zero_le _⟩

/-- A composition that is finished, a paste, and back again. -/
theorem history_walks_composed :
    StatesMeet (Chronicle.step wholeText) (fun c => ∀ d, c = some d → d.Walks) (some {})
      [.replaceAndMarkTextInRange none ['a'] none, .unmarkText, .paste (some ['b']), .undo] := by
  apply history_walks
  · refine ⟨?_, ?_, ?_, ?_, trivial⟩ <;> intro d hd <;> cases hd <;> intro _ <;> decide
  · refine ⟨?_, ?_, ?_, ?_, trivial⟩ <;> intro d hd <;> cases hd
    · trivial
    · exact rfl
    · trivial
    · trivial

/-- A paste in the middle of a composition and then its end: the first undo goes back to before the
composition, the second to its middle. -/
theorem not_history_walks :
    ¬ StatesMeet (Chronicle.step wholeText) (fun c => ∀ d, c = some d → d.Walks) (some {})
      [.replaceAndMarkTextInRange none ['a'] none, .paste (some ['b']), .unmarkText] := by
  intro h
  have hrun : ∃ d, run (Chronicle.step wholeText) (some {})
      [.replaceAndMarkTextInRange none ['a'] none, .paste (some ['b']), .unmarkText] = some d ∧
        1 ≤ d.log.length ∧ (d.s.snapshot :: d.log)[1]? ≠ some d.s.undone.snapshot := by
    refine ⟨_, rfl, ?_⟩
    decide +kernel
  obtain ⟨d, hd, hone, hne⟩ := hrun
  exact hne ((h.last d hd).back 1 hone)

end Chronicle

end Superiority.Ui
