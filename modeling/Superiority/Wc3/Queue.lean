import Superiority.Wc3.ChatState
import Superiority.Wc3.Clan

/-!
# The queue of callbacks

Chat and clan share one queue of callbacks. Each dispatch takes its services' callbacks out and puts
the others aside, and it writes what it has put aside back when it has come through.

* **`dispatch_of_ok`**, **`ClanState.dispatch_callbacks`** – a dispatch that comes through leaves the
  callbacks of the other services, in order.
* **`dispatch_of_fails`** – a dispatch that fails leaves what is behind the callback it failed on.
* **`conserves_iff`** – so nothing is lost exactly when no callback of another service stands before
  the one that fails.
-/

namespace Superiority.Wc3

open Stateful

namespace ChatState

variable (casing : Casing)

/-- Whether a callback is one for the chat. -/
def isOurs (callback : Callback) : Bool :=
  callback.serviceId = auroraFriends ∨ callback.serviceId = auroraChat

/-- What the loop of the dispatch does with one callback. -/
def handle (callback : Callback) : Chat (Option ChatEvent) :=
  if callback.serviceId = auroraFriends then
    if callback.methodId = batchFriendUpdated then do
      applyBatchFriendUpdated callback.body
      return none
    else pure none
  else if callback.serviceId = auroraChat then
    onChatCallback casing callback.methodId callback.body
  else pure none

/-- The state after callbacks have been handled one after another. -/
def handleAll (chat : ChatState) (callbacks : List Callback) : ChatState :=
  callbacks.foldl (fun chat callback => (handle casing callback chat).2) chat

/-- Handling the callback fails. -/
def Fails (chat : ChatState) (callback : Callback) : Prop :=
  ∃ error, (handle casing callback chat).1 = .error error

/-- Every callback is handled without an error. -/
def Handles : ChatState → List Callback → Prop
  | _, [] => True
  | chat, callback :: callbacks =>
    ¬ Fails casing chat callback ∧ Handles (handle casing callback chat).2 callbacks

variable {casing} {chat : ChatState} {callback : Callback} {callbacks : List Callback}

/-- **One round of the loop.** -/
theorem dispatchFrom_cons (events : List ChatEvent) (deferred : List Callback) :
    dispatchFrom casing events deferred chat (callback :: callbacks) =
      match (handle casing callback chat).1 with
      | .error error => ⟨events, some error, (handle casing callback chat).2, callbacks⟩
      | .ok event => dispatchFrom casing (events ++ event.toList)
          (deferred ++ if isOurs callback then [] else [callback])
          (handle casing callback chat).2 callbacks := by
  rw [dispatchFrom]
  by_cases hfriends : callback.serviceId = auroraFriends
  · have hours : isOurs callback = true := by simp [isOurs, hfriends]
    by_cases hbatch : callback.methodId = batchFriendUpdated
    · have hhandle : handle casing callback chat = (applyBatchFriendUpdated callback.body >>=
          fun _ => pure none : Chat (Option ChatEvent)) chat := by
        rw [handle, if_pos hfriends, if_pos hbatch]
      rw [if_pos hfriends, if_pos hbatch, hhandle, bind_apply, hours]
      rcases applyBatchFriendUpdated callback.body chat with ⟨error | _, chat'⟩
      · rfl
      · simp
    · have hhandle : handle casing callback chat = (.ok none, chat) := by
        rw [handle, if_pos hfriends, if_neg hbatch]
        rfl
      rw [if_pos hfriends, if_neg hbatch, hhandle, hours]
      simp
  by_cases hchat : callback.serviceId = auroraChat
  · have hours : isOurs callback = true := by simp [isOurs, hchat]
    have hhandle : handle casing callback chat =
        onChatCallback casing callback.methodId callback.body chat := by
      rw [handle, if_neg hfriends, if_pos hchat]
    rw [if_neg hfriends, if_pos hchat, hhandle, hours]
    rcases onChatCallback casing callback.methodId callback.body chat with ⟨error | event, chat'⟩
    · rfl
    · simp
  · have hours : isOurs callback = false := by simp [isOurs, hfriends, hchat]
    have hhandle : handle casing callback chat = (.ok none, chat) := by
      rw [handle, if_neg hfriends, if_neg hchat]
      rfl
    rw [if_neg hfriends, if_neg hchat, hhandle, hours]
    simp

/-- The dispatch of callbacks that are handled. -/
theorem dispatchFrom_append (h : Handles casing chat callbacks) (behind : List Callback)
    (events : List ChatEvent) (deferred : List Callback) :
    ∃ events', dispatchFrom casing events deferred chat (callbacks ++ behind) =
      dispatchFrom casing events' (deferred ++ callbacks.filter (!isOurs ·))
        (handleAll casing chat callbacks) behind := by
  induction callbacks generalizing chat events deferred with
  | nil => exact ⟨events, by simp [handleAll]⟩
  | cons callback callbacks ih =>
    rw [List.cons_append, dispatchFrom_cons]
    cases hhandled : (handle casing callback chat).1 with
    | error error => exact absurd ⟨error, hhandled⟩ h.1
    | ok event =>
      obtain ⟨events', hrest⟩ := ih h.2 (events ++ event.toList)
        (deferred ++ if isOurs callback then [] else [callback])
      refine ⟨events', ?_⟩
      dsimp only
      rw [hrest]
      cases hours : isOurs callback with
      | true => simp [handleAll, hours]
      | false => simp [handleAll, hours]

/-- **A dispatch that comes through.** -/
theorem dispatch_of_handles (h : Handles casing chat callbacks) :
    (dispatch casing chat callbacks).failure = none ∧
      (dispatch casing chat callbacks).chat = handleAll casing chat callbacks ∧
      (dispatch casing chat callbacks).callbacks = callbacks.filter (!isOurs ·) := by
  obtain ⟨events, hdispatch⟩ := dispatchFrom_append h [] [] []
  rw [List.append_nil, List.nil_append] at hdispatch
  rw [dispatch, hdispatch]
  exact ⟨rfl, rfl, rfl⟩

/-- **A dispatch that fails**, on the first callback that cannot be handled. -/
theorem dispatch_of_fails {before : List Callback} (h : Handles casing chat before)
    (hfails : Fails casing (handleAll casing chat before) callback) (behind : List Callback) :
    (dispatch casing chat (before ++ callback :: behind)).failure.isSome ∧
      (dispatch casing chat (before ++ callback :: behind)).chat =
        (handle casing callback (handleAll casing chat before)).2 ∧
      (dispatch casing chat (before ++ callback :: behind)).callbacks = behind := by
  obtain ⟨events, hdispatch⟩ := dispatchFrom_append h (callback :: behind) [] []
  obtain ⟨error, hfails⟩ := hfails
  rw [dispatch, hdispatch, dispatchFrom_cons, hfails]
  exact ⟨rfl, rfl, rfl⟩

/-- A queue is handled, or there is a first callback in it that cannot be. -/
theorem handles_or_fails (casing : Casing) (chat : ChatState) (callbacks : List Callback) :
    Handles casing chat callbacks ∨ ∃ before callback behind,
      callbacks = before ++ callback :: behind ∧ Handles casing chat before ∧
        Fails casing (handleAll casing chat before) callback := by
  induction callbacks generalizing chat with
  | nil => exact .inl trivial
  | cons callback callbacks ih =>
    by_cases hfails : Fails casing chat callback
    · exact .inr ⟨[], callback, callbacks, rfl, trivial, hfails⟩
    rcases ih (handle casing callback chat).2 with hrest | ⟨before, other, behind, rfl, hb, hf⟩
    · exact .inl ⟨hfails, hrest⟩
    · exact .inr ⟨callback :: before, other, behind, rfl, ⟨hfails, hb⟩, hf⟩

theorem dispatch_ok_iff :
    (dispatch casing chat callbacks).failure = none ↔ Handles casing chat callbacks := by
  refine ⟨fun hok => ?_, fun h => (dispatch_of_handles h).1⟩
  rcases handles_or_fails casing chat callbacks with h | ⟨before, other, behind, heq, h, hfails⟩
  · exact h
  · have hfailed := (dispatch_of_fails h hfails behind).1
    rw [← heq, hok] at hfailed
    cases hfailed

/-- Of a queue none of the other services' callbacks is lost: all of them stay when the dispatch
comes through; when it fails on a callback, those before it and all behind it. -/
structure Conserves (casing : Casing) (chat : ChatState) (callbacks : List Callback) : Prop where
  ok : (dispatch casing chat callbacks).failure = none →
    (dispatch casing chat callbacks).callbacks = callbacks.filter (!isOurs ·)
  failed : ∀ before callback behind, callbacks = before ++ callback :: behind →
    Handles casing chat before → Fails casing (handleAll casing chat before) callback →
      (dispatch casing chat callbacks).callbacks = before.filter (!isOurs ·) ++ behind

end ChatState

/-- The clan's dispatch always comes through. -/
theorem ClanState.dispatchFrom_callbacks (deferred : List Callback) (state : ClanState)
    (callbacks : List Callback) :
    (ClanState.dispatchFrom deferred state callbacks).1 =
      deferred ++ callbacks.filter (·.serviceId ≠ clan) := by
  induction callbacks generalizing deferred state with
  | nil => simp [ClanState.dispatchFrom]
  | cons callback callbacks ih =>
    by_cases hclan : callback.serviceId = clan
    · simp [ClanState.dispatchFrom, hclan, ih]
    · simp [ClanState.dispatchFrom, hclan, ih]

theorem ClanState.dispatch_callbacks (state : ClanState) (callbacks : List Callback) :
    (state.dispatch callbacks).1 = callbacks.filter (·.serviceId ≠ clan) :=
  (ClanState.dispatchFrom_callbacks [] state callbacks).trans (List.nil_append _)

namespace ChatState

variable {casing : Casing}

/-- **What is lost.** A dispatch loses the callbacks of other services that stand before one it fails
on, and no others; the clan's dispatch loses none. -/
theorem conserves_iff (casing : Casing) (chat : ChatState) (callbacks : List Callback) :
    (Conserves casing chat callbacks ∧ ∀ state : ClanState,
        (state.dispatch callbacks).1 = callbacks.filter (·.serviceId ≠ clan)) ↔
      ∀ before callback behind, callbacks = before ++ callback :: behind →
        Handles casing chat before → Fails casing (handleAll casing chat before) callback →
          ∀ other ∈ before, isOurs other = true := by
  constructor
  · intro h before callback behind hsplit hhandles hfails
    have hkept := h.1.failed before callback behind hsplit hhandles hfails
    rw [hsplit, (dispatch_of_fails hhandles hfails behind).2.2] at hkept
    have hnone : before.filter (!isOurs ·) = [] := by
      have hlength := congrArg List.length hkept
      rw [List.length_append] at hlength
      exact List.eq_nil_of_length_eq_zero (by omega)
    simpa [List.filter_eq_nil_iff] using hnone
  · intro h
    refine ⟨⟨fun hok => (dispatch_of_handles (dispatch_ok_iff.1 hok)).2.2, ?_⟩,
      fun state => state.dispatch_callbacks callbacks⟩
    intro before callback behind hsplit hhandles hfails
    have hours := h before callback behind hsplit hhandles hfails
    have hnone : before.filter (!isOurs ·) = [] := by simpa [List.filter_eq_nil_iff] using hours
    rw [hsplit, (dispatch_of_fails hhandles hfails behind).2.2, hnone, List.nil_append]

/-- A casing under which no letter has another lower case. -/
def plainCasing : Casing where
  lower c := [c]
  lower_ne_nil _ := List.cons_ne_nil _ _
  finalSigma _ _ := false

/-- A callback of the clan stands before one that cannot be read. -/
theorem not_conserves : ¬ ∀ casing chat callbacks, Conserves casing chat callbacks := by
  intro h
  have hlost := (h plainCasing default_
    [⟨clan, clanMemberAdded, []⟩, ⟨auroraChat, channelAdded, []⟩]).failed
    [⟨clan, clanMemberAdded, []⟩] ⟨auroraChat, channelAdded, []⟩ [] rfl
    ⟨fun hfails => ?_, trivial⟩ ⟨_, rfl⟩
  · revert hlost
    decide +kernel
  · obtain ⟨error, hfails⟩ := hfails
    cases hfails

end ChatState

end Superiority.Wc3
