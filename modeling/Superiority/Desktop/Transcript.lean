import Mathlib.Data.List.Forall2
import Superiority.Library.Run

/-!
# Transcripts

A channel's transcript, and how arrivals and departures are folded into it: into the last line when
that is an event of the same kind and still fresh, or into the minute's digest when the room is
busy. A transcript that has become too long loses its first lines. One digest in all the channels
is open, and it is remembered by the position of its line.
-/

namespace Superiority.Desktop

inductive MembershipKind where
  | joined
  | left
  deriving DecidableEq

/-- The portrait is given by the number of its image. -/
structure UiUser where
  handle : UInt32
  name : String
  clanTag : Option String
  portrait : Option Nat
  deriving DecidableEq

/-- Nanoseconds on the monotonic clock. -/
abbrev Instant := Nat

def seconds (count : Nat) : Nat := count * 1000000000

def membershipCollapseWindow : Nat := seconds 90

def highTrafficOnline : Nat := 25

def digestWindow : Nat := seconds 60

def eventToggleDuration : Nat := 180 * 1000000

inductive ChatLine where
  | notice (time text : String)
  | sessionStart (time channel : String)
  | membership (time : String) (at_ : Instant) (kind : MembershipKind) (members : List UiUser)
      (expanded : Bool)
  | digest (time : String) (at_ opened : Instant) (joined left : List UiUser)
  | message (time : String) (sender : UiUser) (text : String)
  | error (time text : String)
  | invitation (time : String) (id : Nat) (inviter detail : String) (answered : Option Bool)
  deriving DecidableEq

structure ChatEntryReveal where
  tabId : Nat
  lineIndex : Nat
  started : Instant

structure ExpandedDigest where
  tabId : Nat
  lineIndex : Nat
  started : Instant
  closing : Bool

structure ChannelState where
  id : Nat
  transcript : List ChatLine
  users : List UiUser
  identitiesPending : Bool

structure SuperiorityView where
  tabs : List ChannelState
  activeTab : Nat
  chatEntryReveal : Option ChatEntryReveal
  expandedDigest : Option ExpandedDigest

/-! ## One line -/

namespace ChatLine

/-- A join or leave that the line takes in: it is of the same kind, fresh and not expanded. -/
def merge (kind : MembershipKind) (member : UiUser) (now : Instant) (stamp : String) :
    ChatLine → Option ChatLine
  | .membership _ at_ previous members false =>
    if previous = kind ∧ now - at_ ≤ membershipCollapseWindow then
      some (.membership stamp now previous (members ++ [member]) false)
    else none
  | _ => none

/-- An arrival or departure that the minute's digest takes in. -/
def gather (kind : MembershipKind) (member : UiUser) (now : Instant) :
    ChatLine → Option ChatLine
  | .digest time _ opened joined left =>
    if now - opened < digestWindow then
      match kind with
      | .joined => some (.digest time now opened (joined ++ [member]) left)
      | .left => some (.digest time now opened joined (left ++ [member]))
    else none
  | _ => none

def toggle : ChatLine → ChatLine
  | .membership time at_ kind members expanded => .membership time at_ kind members !expanded
  | line => line

end ChatLine

/-- `adopt_identity`: the member as far as the roster knows them, and whether that is complete. -/
def adoptIdentity (roster : List UiUser) (member : UiUser) : UiUser × Bool :=
  if member.portrait.isSome ∧ member.clanTag.isSome then (member, true)
  else match roster.find? (·.handle = member.handle) with
  | none => (member, true)
  | some current =>
    let member :=
      if member.portrait.isNone ∧ current.portrait.isSome then
        { member with portrait := current.portrait }
      else member
    let member :=
      if member.clanTag.isNone ∧ current.clanTag.isSome then
        { member with clanTag := current.clanTag, name := current.name }
      else member
    (member, member.portrait.isSome ∧ member.clanTag.isSome)

namespace ChatLine

/-- The groups of members that a line holds. -/
def groups : ChatLine → List (List UiUser)
  | .membership _ _ _ members _ => [members]
  | .digest _ _ _ joined left => [joined, left]
  | _ => []

def adopt (roster : List UiUser) : ChatLine → ChatLine
  | .membership time at_ kind members expanded =>
    .membership time at_ kind (members.map fun member => (adoptIdentity roster member).1) expanded
  | .digest time at_ opened joined left =>
    .digest time at_ opened (joined.map fun member => (adoptIdentity roster member).1)
      (left.map fun member => (adoptIdentity roster member).1)
  | line => line

end ChatLine

namespace ChannelState

def adoptTranscriptIdentities (tab : ChannelState) : ChannelState :=
  if tab.identitiesPending then
    { tab with
      transcript := tab.transcript.map (·.adopt tab.users)
      identitiesPending := tab.transcript.any fun line =>
        line.groups.any fun group =>
          group.any fun member => !(adoptIdentity tab.users member).2 }
  else tab

/-- The new line goes to the end, and a transcript that is too long loses its first lines. -/
def push (line : ChatLine) (tab : ChannelState) : ChannelState :=
  let transcript := tab.transcript ++ [line]
  { tab with transcript := if 2000 < transcript.length then transcript.drop 500 else transcript }

end ChannelState

/-! ## The view -/

namespace SuperiorityView

def modifyTab (view : SuperiorityView) (index : Nat) (edit : ChannelState → ChannelState) :
    SuperiorityView :=
  { view with tabs := view.tabs.modify index edit }

def appendChatLine (view : SuperiorityView) (index : Nat) (line : ChatLine) (now : Instant) :
    SuperiorityView :=
  match view.tabs[index]? with
  | none => view
  | some tab =>
    let view := view.modifyTab index (·.push line)
    if index = view.activeTab then
      { view with
        chatEntryReveal := some
          { tabId := tab.id
            lineIndex := (tab.push line).transcript.length - 1
            started := now } }
    else view

def appendErrorLine (view : SuperiorityView) (text : String) (now : Instant) (stamp : String) :
    SuperiorityView :=
  view.appendChatLine view.activeTab (.error stamp text) now

/-- `last_mut`: the last line of the transcript is replaced. -/
def replaceLast (view : SuperiorityView) (index : Nat) (line : ChatLine) : SuperiorityView :=
  view.modifyTab index fun tab => { tab with transcript := tab.transcript.dropLast ++ [line] }

def appendDigest (view : SuperiorityView) (index : Nat) (kind : MembershipKind) (member : UiUser)
    (now : Instant) (stamp : String) : SuperiorityView :=
  match view.tabs[index]? with
  | none => view
  | some tab =>
    match tab.transcript.getLast?.bind (·.gather kind member now) with
    | some line => view.replaceLast index line
    | none =>
      view.appendChatLine index
        (match kind with
          | .joined => .digest stamp now now [member] []
          | .left => .digest stamp now now [] [member])
        now

def appendMembership (view : SuperiorityView) (index : Nat) (kind : MembershipKind)
    (member : UiUser) (now : Instant) (stamp : String) : SuperiorityView :=
  match view.tabs[index]? with
  | none => view
  | some tab =>
    let view :=
      if member.portrait.isNone ∨ member.clanTag.isNone then
        view.modifyTab index fun tab => { tab with identitiesPending := true }
      else view
    if highTrafficOnline < tab.users.length then view.appendDigest index kind member now stamp
    else match tab.transcript.getLast?.bind (·.merge kind member now stamp) with
      | some line => view.replaceLast index line
      | none => view.appendChatLine index (.membership stamp now kind [member] false) now

/-- The first tab with that id. -/
def place (view : SuperiorityView) (tabId : Nat) : Option Nat :=
  view.tabs.findIdx? (·.id = tabId)

def toggleDigestExpansion (view : SuperiorityView) (tabId lineIndex : Nat) (now : Instant) :
    SuperiorityView :=
  match view.expandedDigest with
  | some expanded =>
    if expanded.tabId = tabId ∧ expanded.lineIndex = lineIndex then
      if expanded.closing then view
      else { view with expandedDigest := some { expanded with closing := true, started := now } }
    else
      { view with
        expandedDigest := some { tabId, lineIndex, started := now, closing := false } }
  | none =>
    { view with expandedDigest := some { tabId, lineIndex, started := now, closing := false } }

def toggleEventExpansion (view : SuperiorityView) (tabId lineIndex : Nat) : SuperiorityView :=
  match view.place tabId with
  | none => view
  | some index =>
    view.modifyTab index fun tab =>
      { tab with transcript := tab.transcript.modify lineIndex ChatLine.toggle }

/-- The part of `apply_roster_snapshot` that a transcript sees. -/
def applyRoster (view : SuperiorityView) (index : Nat) (users : List UiUser) : SuperiorityView :=
  view.modifyTab index fun tab => ({ tab with users } : ChannelState).adoptTranscriptIdentities

/-- The frame that finishes the closing of a digest forgets it. -/
def finishClosing (view : SuperiorityView) (now : Instant) : SuperiorityView :=
  match view.expandedDigest with
  | some expanded =>
    if expanded.closing ∧ eventToggleDuration ≤ now - expanded.started then
      { view with expandedDigest := none }
    else view
  | none => view

end SuperiorityView

/-- What happens to the transcripts. -/
inductive Input where
  | membership (index : Nat) (kind : MembershipKind) (member : UiUser) (now : Instant)
      (stamp : String)
  | line (index : Nat) (line : ChatLine) (now : Instant)
  | error (text : String) (now : Instant) (stamp : String)
  | digest (tabId lineIndex : Nat) (now : Instant)
  | event (tabId lineIndex : Nat)
  | roster (index : Nat) (users : List UiUser)
  | frame (now : Instant)

def SuperiorityView.step (view : SuperiorityView) : Input → SuperiorityView
  | .membership index kind member now stamp => view.appendMembership index kind member now stamp
  | .line index line now => view.appendChatLine index line now
  | .error text now stamp => view.appendErrorLine text now stamp
  | .digest tabId lineIndex now => view.toggleDigestExpansion tabId lineIndex now
  | .event tabId lineIndex => view.toggleEventExpansion tabId lineIndex
  | .roster index users => view.applyRoster index users
  | .frame now => view.finishClosing now

end Superiority.Desktop
