import Superiority.Text
import Superiority.Wc3.ChatState

/-!
# The requests of Warcraft III's chat

A request waits for its answer and queues the callbacks that come meanwhile; the queue is dispatched
once the answer has been accepted. A reply stands for what the service and the connection do with a
request. Each request is cut in two: what is asked and checked, and the dispatch after it.
-/

namespace Superiority.Wc3

open Stateful
open Scr (bytesOf firstBytes)
open Wire (itemsOf)

def authenticationService : UInt32 := 0x17CDFF07
def cookieUpdate : UInt32 := 0xF2C64BA6
def clan : UInt32 := 0x122F0B4B
def maxCookieBytes : Nat := 16 * 1024

/-- What comes of a request: its answer, and the callbacks that come before it. -/
structure Reply where
  arrived : List Callback
  body : Except Error (List UInt8)
  /-- The callbacks that come while the clan's members are read after the dispatch. -/
  refreshed : List Callback

/-- What a poll of the connection brings: a callback or an answer, and whether it fails. -/
structure Arrival where
  callback : Option Callback
  failure : Option Error
  /-- The failure is that nothing came in time. -/
  idle : Bool
  refreshed : List Callback
  /-- Whether a cookie can be stored. -/
  stored : Except Error Unit

structure ClassicSession where
  publicChannels : List (List UInt8)
  chat : ChatState
  callbacks : List Callback
  latestCookie : Option (List UInt8)

namespace ClassicSession

/-- A session whose chat has not been heard of, with the callbacks of the start. -/
def established (publicChannels : List (List UInt8)) (callbacks : List Callback) :
    ClassicSession := ⟨publicChannels, .default_, callbacks, none⟩

def displayName (identifier : List UInt8) : Option String :=
  (fromUtf8 identifier).filter fun name => name ≠ "" ∧ !name.toList.any isControl

/-- `client.call`. -/
def call (reply : Reply) : Stateful ClassicSession Error (List UInt8) := do
  change fun session => { session with callbacks := session.callbacks ++ reply.arrived }
  ofExcept reply.body

/-- A change of the chat, as part of the session. -/
def onChat {α : Type} (x : Chat α) : Stateful ClassicSession Error α :=
  within (·.chat) (fun chat session => { session with chat := chat }) x

/-! ## What is asked -/

def askJoin (index : Nat) (reply : Reply) : Stateful ClassicSession Error Unit := do
  let session ← read
  let identifier ← ofExcept
    (orClassic session.publicChannels[index]? "public channel index is out of range")
  let body ← call reply
  let channelId ← ofExcept (orClassic ((firstBytes body 1).filter (· ≠ []))
    "JoinChannel returned no channel id")
  let _ ← onChat (ChatState.reserveChannel channelId ((displayName identifier).getD "WC3 channel"))

def askJoinNamed (name : String) (reply : Reply) : Stateful ClassicSession Error Unit := do
  let session ← read
  let index ← ofExcept (orClassic (session.publicChannels.findIdx? fun identifier =>
    (displayName identifier).any fun candidate => eqIgnoreAsciiCase candidate (trim name))
    ("unknown WC3 public channel " ++ name.quote))
  askJoin index reply

/-- A text that may be sent, trimmed. -/
def checkedText (text role : String) : Except Error String :=
  let text := trim text
  if text = "" ∨ text.utf8ByteSize > maxChatBytes ∨ text.toList.any isControl then
    .error (classicError (role ++ " is empty, too long, or contains controls"))
  else .ok text

/-- An answer that holds at most byte strings in its first field. -/
def onlyBytes (body : List UInt8) (label : String) : Except Error Unit :=
  (itemsOf body).forM fun item => do
    let field ← item
    if field.number ≠ 1 ∨ (bytesOf field).isNone then
      throw (classicError (label ++ " returned an unexpected body"))

def requireEmpty (body : List UInt8) (label : String) : Except Error Unit :=
  if body = [] then .ok () else .error (classicError (label ++ " returned an unexpected body"))

def askSendMessageTo (channelId : UInt8) (text : String) (reply : Reply) :
    Stateful ClassicSession Error Unit := do
  let _ ← ofExcept (checkedText text "chat message")
  let session ← read
  let _ ← ofExcept (orClassic (session.chat.channel channelId)
    "WC3 chat channel is no longer joined")
  let body ← call reply
  ofExcept (onlyBytes body "SendMessage")

def askLeave (channelId : UInt8) (reply : Reply) : Stateful ClassicSession Error Unit := do
  let session ← read
  let _ ← ofExcept (orClassic (session.chat.channel channelId)
    "WC3 chat channel is no longer joined")
  let body ← call reply
  ofExcept (requireEmpty body "LeaveChannel")

def askSendWhisper (accountId : UInt64) (text : String) (reply : Reply) :
    Stateful ClassicSession Error Unit := do
  if accountId = 0 then fail (classicError "whisper account id must be positive")
  let _ ← ofExcept (checkedText text "whisper message")
  let body ← call reply
  ofExcept (onlyBytes body "SendWhisper")

/-- The loop of `take_cookie_updates`, with the latest cookie and the callbacks that are kept. -/
def takeCookiesFrom (latest : Option (List UInt8)) (retained : List Callback) :
    List Callback → Except Error (Option (List UInt8)) × List Callback
  | [] => (.ok latest, retained)
  | callback :: callbacks =>
    if callback.serviceId = authenticationService ∧ callback.methodId = cookieUpdate then
      match (firstBytes callback.body 1).filter fun cookie =>
          cookie ≠ [] ∧ cookie.length ≤ maxCookieBytes with
      | none => (.error (classicError "CookieUpdate has an invalid cookie"), callbacks)
      | some cookie => takeCookiesFrom (some cookie) retained callbacks
    else takeCookiesFrom latest (retained ++ [callback]) callbacks

def takeCookieUpdates : Stateful ClassicSession Error Unit := do
  let session ← read
  let taken := takeCookiesFrom none [] session.callbacks
  change fun session => { session with callbacks := taken.2 }
  match ← ofExcept taken.1 with
  | some cookie => change fun session => { session with latestCookie := some cookie }
  | none => pure ()

/-- What a poll does before it dispatches. -/
def askPoll (arrival : Arrival) : Stateful ClassicSession Error Unit := do
  change fun session => { session with callbacks := session.callbacks ++ arrival.callback.toList }
  match arrival.failure with
  | some error => fail error
  | none => takeCookieUpdates

/-! ## The dispatch after it -/

variable (casing : Casing)

def dispatched (session : ClassicSession) : ChatState.Dispatched :=
  ChatState.dispatch casing session.chat session.callbacks

def dispatchProductEvents (refreshed : List Callback) :
    Stateful ClassicSession Error (List ChatEvent) := do
  let session ← read
  let dispatched := session.dispatched casing
  change fun session => { session with chat := dispatched.chat, callbacks := dispatched.callbacks }
  let events ← ofExcept dispatched.result
  -- the clan takes its callbacks and may read its members
  change fun session => { session with
    callbacks := session.callbacks.filter (·.serviceId ≠ clan) ++ refreshed }
  return events

/-- A request of the chat. -/
def request (ask : Reply → Stateful ClassicSession Error Unit) (reply : Reply) :
    Stateful ClassicSession Error (List ChatEvent) := do
  ask reply
  dispatchProductEvents casing reply.refreshed

def join (index : Nat) := request casing (askJoin index)

def joinNamed (name : String) := request casing (askJoinNamed name)

def sendMessageTo (channelId : UInt8) (text : String) :=
  request casing (askSendMessageTo channelId text)

def sendWhisper (accountId : UInt64) (text : String) :=
  request casing (askSendWhisper accountId text)

def leave (channelId : UInt8) (reply : Reply) :
    Stateful ClassicSession Error (List ChatEvent) := do
  let events ← request casing (askLeave channelId) reply
  let removed ← onChat (take fun chat => chat.removeChannel channelId)
  return if removed.isSome then events ++ [.channelLeft channelId] else events

def poll (arrival : Arrival) : Stateful ClassicSession Error (List ChatEvent) := do
  askPoll arrival
  dispatchProductEvents casing arrival.refreshed

def dispatchQueued (refreshed : List Callback) :
    Stateful ClassicSession Error (List ChatEvent) := do
  takeCookieUpdates
  dispatchProductEvents casing refreshed

/-- `WarcraftSession::poll`: a cookie that has come is stored. -/
def pollStoring (arrival : Arrival) : Stateful ClassicSession Error (List ChatEvent) := do
  let events ← poll casing arrival
  let session ← read
  if session.latestCookie.isSome then do
    change fun session => { session with latestCookie := none }
    ofExcept arrival.stored
  return events

end ClassicSession

end Superiority.Wc3
