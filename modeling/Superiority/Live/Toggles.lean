import Superiority.Library.Run
import Superiority.Live.Selection

/-!
# Switching sharing on and off

The projector keeps its map from channel index to channel whether sharing is on or off, so that
sharing can be switched on in mid-session. It is compared here with a projector that sees the same
inputs with sharing always on (`Pair`): the maps agree throughout exactly when no removal of an
open channel is seen while sharing is off.
-/

namespace Superiority

open Std

namespace Projector

/-- An input, with the switch and the selection at the time. -/
structure Switched where
  enabled : Bool
  shared : Option (ExtTreeSet String)
  input : Input

/-- The map from channel index to channel after an input. -/
def trackedChannels (enabled : Bool) (channels : ExtTreeMap UInt8 ChatChannel) :
    Input → ExtTreeMap UInt8 ChatChannel
  | .event (.joined index channel _) => channels.insert index channel
  | .event (.removed index) => if enabled then channels.erase index else channels
  | .leave index => channels.erase index
  | _ => channels

theorem channels_advance (p : Projector) (enabled : Bool) (shared : Option (ExtTreeSet String))
    (input : Input) :
    (p.advance enabled shared input).channels = trackedChannels enabled p.channels input := by
  cases input with
  | leave index => rfl
  | event event =>
    cases event with
    | roster snapshot =>
      cases enabled with
      | false => rfl
      | true => exact (within_projectRoster p snapshot shared).channels
    | memberJoined index user =>
      cases enabled with
      | false => rfl
      | true => exact (within_projectMemberJoined p index user shared).channels
    | memberLeft index user =>
      cases enabled with
      | false => rfl
      | true => exact (within_projectMemberLeft p index user shared).channels
    | groupSummary clubId name => cases name <;> cases enabled <;> rfl
    | _ => cases enabled <;> rfl

/-- A projector, and one that saw the same with sharing always on. -/
abbrev Pair := Projector × Projector

/-- Both take an input, the second one with sharing on. -/
def advancePair (s : Pair) (i : Switched) : Pair :=
  (s.1.advance i.enabled i.shared i.input, s.2.advance true i.shared i.input)

/-- The maps from channel index to channel are the same. -/
def SameChannels (s : Pair) : Prop := s.1.channels = s.2.channels

/-- The input is no removal of an open channel that is seen while sharing is off. -/
def NoHiddenRemoval (s : Pair) (i : Switched) : Prop :=
  i.enabled = false → ∀ index, i.input = .event (.removed index) → index ∉ s.1.channels

theorem sameChannels_advance {s : Pair} (h : SameChannels s) {i : Switched}
    (hremoval : NoHiddenRemoval s i) : SameChannels (advancePair s i) := by
  have h : s.1.channels = s.2.channels := h
  show (s.1.advance i.enabled i.shared i.input).channels = (s.2.advance true i.shared i.input).channels
  rw [channels_advance, channels_advance, ← h]
  cases hinput : i.input with
  | leave index => rfl
  | event event =>
    cases event with
    | removed index =>
      cases henabled : i.enabled with
      | true => rfl
      | false =>
        have hmem := hremoval henabled index hinput
        apply ExtTreeMap.ext_getElem?
        intro other
        simp only [trackedChannels, Bool.false_eq_true, if_false, if_true,
          ExtTreeMap.getElem?_erase, Std.compare_eq_iff_eq]
        split_ifs with hindex
        · rw [← hindex, ExtTreeMap.getElem?_eq_none hmem]
        · rfl
    | _ => rfl

/-- A removal that is not seen leaves the channel behind. -/
theorem not_sameChannels_advance {s : Pair} (h : SameChannels s) {i : Switched}
    (hremoval : ¬ NoHiddenRemoval s i) : ¬ SameChannels (advancePair s i) := by
  have h : s.1.channels = s.2.channels := h
  simp only [NoHiddenRemoval, not_forall, not_not] at hremoval
  obtain ⟨henabled, index, hinput, hmem⟩ := hremoval
  intro hsame
  have hsame : (s.1.advance i.enabled i.shared i.input).channels =
      (s.2.advance true i.shared i.input).channels := hsame
  rw [channels_advance, channels_advance, ← h, hinput, henabled] at hsame
  have herased : s.1.channels = s.1.channels.erase index := hsame
  rw [herased] at hmem
  simp at hmem

/-- **When the index map does not depend on the switch.** Two projectors that start alike have the
same map after each input exactly when no removal of an open channel is seen while sharing is
off. -/
theorem sameChannels_iff (p : Projector) (inputs : List Switched) :
    StatesMeet advancePair SameChannels (p, p) inputs ↔
      StepsMeet advancePair NoHiddenRemoval (p, p) inputs :=
  statesMeet_iff_stepsMeet (fun _ h => h) (fun _ _ h => sameChannels_advance h)
    (fun _ _ h => not_sameChannels_advance h) rfl

/-- A room is joined, sharing is off when the client is removed from it. -/
def removedRun : List Switched :=
  [⟨false, none, .event (.joined 0 (.public_ 1033) 7)⟩, ⟨false, none, .event (.removed 0)⟩]

/-- The projector still has the room, and would publish what is said at its index. -/
theorem removedRun_differs : ¬ ∀ p inputs, StatesMeet advancePair SameChannels (p, p) inputs := by
  intro h
  have hsame : (run advancePair ({}, {}) removedRun).1.channels =
      (run advancePair ({}, {}) removedRun).2.channels := (h {} removedRun).last
  have hleft : (run advancePair ({}, {}) removedRun).1.channels[(0 : UInt8)]? =
      some (.public_ 1033) := by decide +kernel
  have hgone : (run advancePair ({}, {}) removedRun).2.channels[(0 : UInt8)]? = none := by
    decide +kernel
  rw [hsame, hgone] at hleft
  cases hleft

end Projector

end Superiority
