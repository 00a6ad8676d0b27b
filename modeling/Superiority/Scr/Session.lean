import Superiority.Scr.ChatState

/-!
# A Remastered session

The part of `ClassicSession` that inbound frames work on: the chat state, the number of the channel
the session is in, the commands the gateway allows, the player's status, and the lines of our own
talk that an echo may still bring back.

`ClassicSession.applyClassicFrame` takes one frame in. **`state_applyClassicFrame`** and
**`channel_applyClassicFrame`** say what it does, by the callback the frame carries: the chat state
takes it in, a frame that changed something may cost the newest line, and a forced join moves the
session.
-/

namespace Superiority.Scr

open Std Superiority.Wire

/-! ## The lines of our own -/

/-- `ECHO_WINDOW`, in nanoseconds. -/
def echoWindow : Nat := 10 * 10 ^ 9

/-- `Watch`, without the log of frames: our own lines, and when they were written. -/
structure Watch where
  pending : List (String × Nat) := []
  deriving DecidableEq, Repr

namespace Watch

/-- A line that an echo can still be of. -/
def Fresh (now : Nat) (line : String × Nat) : Bool := now - line.2 ≤ echoWindow

def prune (w : Watch) (now : Nat) : Watch where
  pending := w.pending.dropWhile fun line => now - line.2 > echoWindow

def remember (w : Watch) (now : Nat) (text : String) : Watch where
  pending := (w.prune now).pending ++ [(text, now)]

def absorb (w : Watch) (now : Nat) (text : String) : Bool × Watch :=
  let w := w.prune now
  match w.pending.findIdx? fun line => line.1 = text with
  | some index => (true, ⟨w.pending.eraseIdx index⟩)
  | none => (false, w)

end Watch

/-! ## Commands and status -/

/-- `trim_start_matches('/')`. -/
def trimSlashes (s : String) : String := String.ofList (s.toList.dropWhile (· = '/'))

def parseCommandList (body : List UInt8) : List String :=
  ((((fieldsOf body).filter fun field => field.number = 1).filterMap bytesOf).filterMap text).foldl
    (fun commands command =>
      let command := toAsciiLowercase (trimSlashes (trim command))
      if command = "" ∨ command.toList.any isWhitespace ∨ command ∈ commands then commands
      else commands ++ [command]) []

structure CommandCatalog where
  whitelist : List String := []
  blacklist : List String := []
  deriving DecidableEq, Repr

namespace CommandCatalog

def allows (c : CommandCatalog) (command : String) : Bool :=
  c.whitelist.any fun candidate => eqIgnoreAsciiCase candidate (trimSlashes (trim command))

def replaceWhitelist (c : CommandCatalog) (response : List UInt8) : Bool × CommandCatalog :=
  let next := parseCommandList response
  if c.whitelist = next then (false, c) else (true, { c with whitelist := next })

def replaceBlacklist (c : CommandCatalog) (response : List UInt8) : Bool × CommandCatalog :=
  let next := parseCommandList response
  if c.blacklist = next then (false, c) else (true, { c with blacklist := next })

end CommandCatalog

inductive PlayerStatus where
  | online
  | away
  | busy
  deriving DecidableEq, Repr

def parsePlayerStatus (body : List UInt8) : Option PlayerStatus :=
  match isSet (firstVarint body 1), isSet (firstVarint body 2), isSet (firstVarint body 3) with
  | true, false, false => some .online
  | false, true, false => some .away
  | false, false, true => some .busy
  | _, _, _ => none

/-! ## The session -/

structure ClassicSession where
  state : ChatState := {}
  channel : UInt32 := 0
  battleTag : Option String := none
  toonName : String := ""
  commands : CommandCatalog := {}
  playerStatus : Option PlayerStatus := none
  watch : Watch := {}

/-- A frame of `LegacyChat` that is no answer, with this method. -/
def Frame.isLegacy (frame : Frame) (methodId : UInt32) : Bool :=
  !frame.answers && frame.header.serviceId = Service.legacyChat && frame.header.methodId = methodId

/-- The predicate of `retract_last_event_if`, but for the remembered lines: our own talk, and the
text of it. -/
def ChatEvent.ownTalk (event : ChatEvent) (localToon : String) : Option String :=
  if event.kind = .talk ∧ event.sender.any fun sender => eqIgnoreAsciiCase sender localToon then
    event.text
  else none

namespace ClassicSession

def localToon (s : ClassicSession) : String :=
  let named := s.battleTag.bind fun battleTag => s.state.channels[s.channel]?.bind fun channel =>
    channel.users.findSome? fun user =>
      if user.battleTag.any fun tag => eqIgnoreAsciiCase tag battleTag then some user.name else none
  named.getD s.toonName

def recordLocalTalk (s : ClassicSession) (now : Nat) (text : String) : ClassicSession :=
  let text := trim text
  if text = "" ∨ s.channel = 0 then s
  else { s with
    state := s.state.pushTalk s.channel s.localToon text
    watch := s.watch.remember now text }

/-- `retract_last_event_if`, with the predicate that `apply_classic_frame` gives it. -/
def retractEcho (s : ClassicSession) (now : Nat) (localToon : String) : ClassicSession :=
  match s.state.events.getLast?.bind (·.ownTalk localToon) with
  | none => s
  | some text =>
    match s.watch.absorb now text with
    | (true, watch) =>
      { s with state := { s.state with events := s.state.events.dropLast }, watch }
    | (false, watch) => { s with watch }

/-- `apply_classic_frame`: whether something changed, and the session that is left. -/
def applyClassicFrame (s : ClassicSession) (now : Nat) (localToon : String) (frame : Frame) :
    Bool × ClassicSession :=
  if frame.isLegacy Method.commandWhitelistUpdate then
    let (changed, commands) := s.commands.replaceWhitelist frame.body
    (changed, { s with commands })
  else if frame.isLegacy Method.commandBlacklistUpdate then
    let (changed, commands) := s.commands.replaceBlacklist frame.body
    (changed, { s with commands })
  else if !frame.answers ∧ frame.header.serviceId = Service.auroraUser ∧
      frame.header.methodId = Method.playerStatusUpdated then
    match parsePlayerStatus frame.body with
    | none => (false, s)
    | some status => (s.playerStatus ≠ some status, { s with playerStatus := some status })
  else
    let forcedChannel := if frame.isLegacy Method.forceJoinChannel then
        (parseForceJoinChannel frame.body).map (·.channelId)
      else none
    let (changed, state) := s.state.apply frame
    let s := { s with state }
    let s := if changed then s.retractEcho now localToon else s
    match forcedChannel with
    | some forcedChannel => (changed || s.channel ≠ forcedChannel, { s with channel := forcedChannel })
    | none => (changed, s)

/-! ## What a frame does -/

section

variable (s : ClassicSession) (now : Nat) (localToon : String)

@[simp] theorem channel_retractEcho : (s.retractEcho now localToon).channel = s.channel := by
  unfold retractEcho
  split
  · rfl
  · split <;> rfl

/-- The echo costs the newest event, and nothing else of the chat state. -/
theorem state_retractEcho :
    (s.retractEcho now localToon).state =
      { s.state with events := (s.retractEcho now localToon).state.events } := by
  unfold retractEcho
  split
  · rfl
  · split <;> rfl

/-- A forced join in a frame. -/
theorem forced_eq (frame : Frame) :
    (if frame.isLegacy Method.forceJoinChannel then
        (parseForceJoinChannel frame.body).map (·.channelId) else none) =
      match callbackOf frame with
      | .forced channel => some channel.channelId
      | _ => none := by
  unfold Frame.isLegacy callbackOf legacyCallback
  by_cases hanswers : frame.answers = true
  · simp [hanswers]
  rw [Bool.not_eq_true] at hanswers
  by_cases hlegacy : frame.header.serviceId = Service.legacyChat
  · have hfriends : Service.legacyChat ≠ Service.auroraFriends := by decide
    have hchat : Service.legacyChat ≠ Service.auroraChat := by decide
    by_cases hforce : frame.header.methodId = Method.forceJoinChannel
    · have hupdated : Method.forceJoinChannel ≠ Method.channelsUpdated := by decide
      have hleft : Method.forceJoinChannel ≠ Method.leftChannel := by decide
      simp only [hanswers, hlegacy, hforce, hfriends, hchat, hupdated, hleft, decide_true,
        Bool.not_false, Bool.and_self, Bool.false_eq_true, if_false, if_true]
      cases parseForceJoinChannel frame.body <;> rfl
    · simp only [hanswers, hlegacy, hforce, hfriends, hchat, decide_true, decide_false,
        Bool.and_false, Bool.false_eq_true, if_false, if_true]
      split_ifs
      · rfl
      · cases (firstVarint frame.body 1).bind toU32 <;> rfl
      · cases friendUpdate frame.header.methodId frame.body <;> rfl
      · cases EventKind.fromMethodId frame.header.methodId <;> rfl
  · simp only [hanswers, hlegacy, decide_false, Bool.and_false, Bool.false_and, Bool.false_eq_true,
      if_false]
    split_ifs
    · cases parseAuroraFriendUpdate frame.body with
      | none => rfl
      | some update => dsimp only; split_ifs <;> rfl
    · cases firstFixed32 frame.body 1 <;> cases (firstBytes frame.body 2).bind text <;> rfl
    · cases firstFixed32 frame.body 1 <;> cases (firstBytes frame.body 2).bind text <;> rfl
    · rfl

/-- A frame that the session takes for itself says nothing to the chat state. -/
theorem callbackOf_own {frame : Frame}
    (h : frame.isLegacy Method.commandWhitelistUpdate = true ∨
      frame.isLegacy Method.commandBlacklistUpdate = true ∨
      (!frame.answers ∧ frame.header.serviceId = Service.auroraUser ∧
        frame.header.methodId = Method.playerStatusUpdated)) : callbackOf frame = .nothing := by
  unfold Frame.isLegacy at h
  rcases h with h | h | ⟨-, hservice, -⟩
  · simp only [Bool.and_eq_true, decide_eq_true_eq, Bool.not_eq_true'] at h
    obtain ⟨⟨hanswers, hservice⟩, hmethod⟩ := h
    unfold callbackOf legacyCallback
    rw [hanswers, hservice, hmethod]
    rfl
  · simp only [Bool.and_eq_true, decide_eq_true_eq, Bool.not_eq_true'] at h
    obtain ⟨⟨hanswers, hservice⟩, hmethod⟩ := h
    unfold callbackOf legacyCallback
    rw [hanswers, hservice, hmethod]
    rfl
  · have hfriends : Service.auroraUser ≠ Service.auroraFriends := by decide
    have hchat : Service.auroraUser ≠ Service.auroraChat := by decide
    have hlegacy : Service.auroraUser ≠ Service.legacyChat := by decide
    simp [callbackOf, hservice, hfriends, hchat, hlegacy]

/-- What a frame does that the chat state hears of. -/
theorem applyClassicFrame_heard (frame : Frame) :
    let heard := { s with state := s.state.perform (callbackOf frame) }
    let rest := if s.state.reports (callbackOf frame) then heard.retractEcho now localToon else heard
    (s.applyClassicFrame now localToon frame).2.state = rest.state ∧
      (s.applyClassicFrame now localToon frame).2.watch = rest.watch ∧
      (s.applyClassicFrame now localToon frame).2.channel =
        (match callbackOf frame with
          | .forced channel => channel.channelId
          | _ => s.channel) := by
  intro heard rest
  by_cases hown : frame.isLegacy Method.commandWhitelistUpdate = true ∨
      frame.isLegacy Method.commandBlacklistUpdate = true ∨
      (!frame.answers ∧ frame.header.serviceId = Service.auroraUser ∧
        frame.header.methodId = Method.playerStatusUpdated)
  · have hnothing := callbackOf_own hown
    have hrest : rest = s := by simp [rest, heard, hnothing, ChatState.reports, ChatState.perform]
    rw [hrest, hnothing]
    unfold applyClassicFrame
    rcases hown with hown | hown | hown
    · rw [if_pos hown]
      exact ⟨rfl, rfl, rfl⟩
    · split_ifs
      · exact ⟨rfl, rfl, rfl⟩
      · exact ⟨rfl, rfl, rfl⟩
    · split_ifs
      · exact ⟨rfl, rfl, rfl⟩
      · exact ⟨rfl, rfl, rfl⟩
      · cases parsePlayerStatus frame.body <;> exact ⟨rfl, rfl, rfl⟩
  · obtain ⟨hwhite, hown⟩ := not_or.1 hown
    obtain ⟨hblack, huser⟩ := not_or.1 hown
    unfold applyClassicFrame
    rw [if_neg hwhite, if_neg hblack, if_neg huser, forced_eq, ChatState.apply_eq]
    have hchannel : rest.channel = s.channel := by
      unfold rest
      split_ifs
      · exact channel_retractEcho _ _ _
      · rfl
    cases hcallback : callbackOf frame with
    | forced channel =>
      dsimp only
      refine ⟨?_, ?_, rfl⟩ <;> simp only [rest, heard, hcallback]
    | _ =>
      dsimp only
      refine ⟨?_, ?_, ?_⟩
      · simp only [rest, heard, hcallback]
      · simp only [rest, heard, hcallback]
      · simpa only [rest, heard, hcallback] using hchannel

end

end ClassicSession

end Superiority.Scr
