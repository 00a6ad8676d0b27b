import Superiority.Error
import Superiority.Library.Stateful
import Superiority.Text

/-!
# Signing in with a stored credential

How the three products connect, as far as it concerns the credential that is kept for the next
time. What becomes of the calls that are made on the way (to the service, the browser and the disk)
is decided outside, so a connection comes with its outcomes.

`Vault.shown` is no part of the program: it records of each credential that a session was proved
with, or that a session minted, the account of that session.
-/

namespace Superiority.SignIn

open Stateful

/-- The bytes of a `SecretBytes`. -/
abbrev Credential := List UInt8

inductive Product where
  | starCraft2
  | remastered
  | warcraft3
  deriving DecidableEq

def Product.name : Product → String
  | starCraft2 => "StarCraft II"
  | remastered => "StarCraft: Remastered"
  | warcraft3 => "Warcraft III"

structure Vault where
  /-- What the credential store gives when it is loaded. -/
  content : Option Credential
  /-- Warcraft III's offline cookie is there. -/
  cookie : Bool
  /-- `pending_credential`. -/
  pending : Option Credential
  shown : List (Credential × Nat)
  deriving DecidableEq

/-- An error, and whether it is that of the account check. -/
structure Failure where
  error : Error
  refused : Bool
  deriving DecidableEq

abbrev Flow (α : Type) := Stateful Vault Failure α

/-- A call with its outcome, passed on by `?`. -/
def call {α : Type} (outcome : Except Error α) : Flow α :=
  ofExcept (outcome.mapError fun error => ⟨error, false⟩)

/-! ## The store -/

/-- What becomes of a call of `store`. One that fails may have replaced the credential. -/
structure Saving where
  result : Except Error Unit
  replaced : Bool

def load (outcome : Except Error Unit) : Flow (Option Credential) := do
  call outcome
  return (← read).content

def store (saving : Saving) (credential : Credential) : Flow Unit := do
  change fun v =>
    if saving.result.isOk || saving.replaced then { v with content := some credential } else v
  call saving.result

def delete (outcome : Except Error Unit) : Flow Unit := do
  call outcome
  change fun v => { v with content := none }

/-- The record of a session. -/
def note (credential : Option Credential) (account : Option Nat) : Flow Unit :=
  change fun v => match credential, account with
    | some credential, some account => { v with shown := v.shown ++ [(credential, account)] }
    | _, _ => v

/-! ## The account check -/

def ensureAuthoritativeAccount (product : Product) (expectedAccountId : Option Nat)
    (expectedBattleTag : Option String) (actualAccountId : Option Nat)
    (actualBattleTag : Option String) : Flow Unit :=
  match expectedAccountId with
  | none => pure ()
  | some expectedId =>
    let expectedName := expectedBattleTag.getD "the authoritative account"
    match actualAccountId with
    | none =>
      fail ⟨.authentication (product.name ++
        " did not return a numeric Battle.net account id; expected " ++ expectedName ++ " (" ++
        expectedId.repr ++ ")"), true⟩
    | some actualId =>
      if actualId = expectedId then pure ()
      else
        let actualName := actualBattleTag.getD "an unknown account"
        fail ⟨.authentication (product.name ++ " authenticated " ++ actualName ++ " (" ++
          actualId.repr ++ "), but Superiority is signed in as " ++ expectedName ++ " (" ++
          expectedId.repr ++ ")"), true⟩

/-- Whom the connection is for. -/
structure Expected where
  accountId : Option Nat
  battleTag : Option String

structure Session where
  accountId : Option Nat
  battleTag : Option String

def Expected.check (expected : Expected) (product : Product) (session : Session) : Flow Unit :=
  ensureAuthoritativeAccount product expected.accountId expected.battleTag session.accountId
    session.battleTag

/-! ## Logging on -/

/-- A challenge of the service: the store's answer when the stale credential is deleted, and the
browser's. -/
structure Challenge where
  delete : Except Error Unit
  answer : Except Error Credential

/-- A logon: the service may challenge once, and then says whose session it is. -/
structure Logon where
  challenge : Option Challenge
  result : Except Error Session

/-- A logon with the cached credential, which is deleted when it is challenged. -/
def Logon.authenticate (logon : Logon) (cached : Option Credential) : Flow Session := do
  let presented ← match logon.challenge with
    | none => pure cached
    | some challenge => do
      if cached.isSome then delete challenge.delete
      let credential ← call challenge.answer
      pure (some credential)
  let session ← call logon.result
  note presented session.accountId
  return session

/-! ## StarCraft II -/

structure StarCraft2 where
  connect : Except Error Unit
  loaded : Except Error Unit
  logon : Logon
  mint : Except Error Credential
  deleteUnminted : Except Error Unit
  saved : Saving
  /-- The watchdog has cut the connection. -/
  fired : Bool
  /-- What follows the account check. -/
  rest : Except Error Unit

def authenticateCached (o : StarCraft2) (forceInteractive : Bool) : Flow Session := do
  let cached ← if forceInteractive then pure none else load o.loaded
  let session ← o.logon.authenticate cached
  match o.mint with
  | .error error => do
    if cached.isSome && o.logon.challenge.isNone then delete o.deleteUnminted
    fail ⟨error, false⟩
  | .ok successor => do
    note (some successor) session.accountId
    store o.saved successor
    return session

/-- The error of a logon that the watchdog ended. -/
def explain (fired : Bool) (failure : Failure) : Failure :=
  if fired then
    ⟨.server "Battle.net accepted the connection but never answered the sign-in.", false⟩
  else failure

def StarCraft2.connectOnce (o : StarCraft2) (forceInteractive : Bool) (expected : Expected) :
    Flow Unit := do
  call o.connect
  let authentication ← attempt (authenticateCached o forceInteractive)
  let session ← ofExcept (authentication.mapError (explain o.fired))
  if session.accountId = none then
    fail ⟨.authentication
      "Battle.net authenticated the session without a numeric account id", false⟩
  expected.check .starCraft2 session
  call o.rest

/-! ## Remastered -/

/-- `CHALLENGE_BOOTSTRAP_CREDENTIAL`. -/
def challengeBootstrapCredential : Credential :=
  ("US-00000000000000000000000000000000-0000".toList).map fun c => UInt8.ofNat c.toNat

/-- `scr::session::connect`. Its browser deletes nothing. -/
structure ClassicConnect where
  connect : Except Error Unit
  challenge : Option (Except Error Credential)
  result : Except Error Session
  handoff : Except Error Unit
  establish : Except Error Unit

structure Remastered where
  loaded : Except Error Unit
  first : ClassicConnect
  clear : Except Error Unit
  second : ClassicConnect
  keep : Saving
  rest : Except Error Unit

/-- The browser's answer is held back. -/
def ClassicConnect.run (o : ClassicConnect) (credential : Credential) (expected : Expected) :
    Flow Session := do
  call o.connect
  let presented ← match o.challenge with
    | none => pure credential
    | some answer => do
      let answer ← call answer
      change fun v => { v with pending := some answer }
      pure answer
  let session ← call o.result
  note (some presented) session.accountId
  expected.check .remastered session
  call o.handoff
  call o.establish
  return session

/-- `Err(Error::Authentication(_) | Error::Server(_))`. -/
def isRejection : Error → Bool
  | .authentication _ => true
  | .server _ => true
  | _ => false

def Remastered.connectOnce (o : Remastered) (forceInteractive : Bool) (expected : Expected) :
    Flow Unit := do
  let cached ← if forceInteractive then pure none else load o.loaded
  let first ← attempt (o.first.run (cached.getD challengeBootstrapCredential) expected)
  let connected ← match first with
    | .ok session => pure (.ok session)
    | .error failure =>
      -- a refused account sets `identity_mismatch`
      if failure.refused then do
        ignore (delete o.clear)
        change fun v => { v with pending := none }
        attempt (o.second.run challengeBootstrapCredential expected)
      else if cached.isSome && !forceInteractive && isRejection failure.error then do
        ignore (delete o.clear)
        attempt (o.second.run challengeBootstrapCredential expected)
      else pure (.error failure)
  let session ← ofExcept connected
  expected.check .remastered session
  match (← read).pending with
  | some credential => ignore (store o.keep credential)
  | none => pure ()
  call o.rest

/-! ## Warcraft III -/

structure WarcraftConnect where
  loaded : Except Error Unit
  connect : Except Error Unit
  logon : Logon
  endpoint : Except Error Unit
  mint : Except Error Credential
  saved : Saving
  identity : Except Error Unit
  loadCookie : Except Error Unit
  establish : Except Error Unit
  deleteCookie : Except Error Unit
  /-- A cookie that the edge gave, and what becomes of storing it. -/
  takenCookie : Option (Except Error Unit)
  chat : Except Error Unit
  lastCookie : Option (Except Error Unit)

structure Warcraft3 where
  peek : Except Error Unit
  first : List WarcraftConnect
  clear : Except Error Unit
  clearCookie : Except Error Unit
  second : List WarcraftConnect
  rest : Except Error Unit

def deleteOfflineCookie (outcome : Except Error Unit) : Flow Unit := do
  call outcome
  change fun v => { v with cookie := false }

def storeCookie : Option (Except Error Unit) → Flow Unit
  | none => pure ()
  | some outcome => do
    call outcome
    change fun v => { v with cookie := true }

/-- `WarcraftSession::connect`, with what it does when it calls itself. -/
def WarcraftConnect.run (o : WarcraftConnect) (forceInteractive : Bool) (expected : Expected)
    (again : Flow Session) : Flow Session := do
  let cached ← if forceInteractive then pure none else load o.loaded
  call o.connect
  let session ← o.logon.authenticate cached
  expected.check .warcraft3 session
  call o.endpoint
  let successor ← call o.mint
  note (some successor) session.accountId
  store o.saved successor
  call o.identity
  call o.loadCookie
  let cachedCookie := (← read).cookie
  match o.establish with
  | .error error =>
    if cachedCookie then do
      deleteOfflineCookie o.deleteCookie
      again
    else fail ⟨error, false⟩
  | .ok () => do
    storeCookie o.takenCookie
    call o.chat
    storeCookie o.lastCookie
    return session

/-- One connection after the other; behind the last of them none comes up. -/
def connectWarcraft (expected : Expected) : List WarcraftConnect → Bool → Flow Session
  | [], _ => fail ⟨.transport "connection closed", false⟩
  | o :: later, forceInteractive =>
    o.run forceInteractive expected (connectWarcraft expected later false)

def warcraftEntitlementRejected : Error → Bool
  | .authentication message => containsStr message "Classic AuthSession rejected"
  | _ => false

def Warcraft3.connectOnce (o : Warcraft3) (forceInteractive : Bool) (expected : Expected) :
    Flow Unit := do
  let hadCachedCredential ← if forceInteractive then pure false else
    do pure (← load o.peek).isSome
  let first ← attempt (connectWarcraft expected o.first forceInteractive)
  let connected ← match first with
    | .ok session => pure (.ok session)
    | .error failure =>
      -- a refused account sets `identity_mismatch`
      if failure.refused ∨ (hadCachedCredential ∧ warcraftEntitlementRejected failure.error) then do
        ignore (delete o.clear)
        ignore (deleteOfflineCookie o.clearCookie)
        attempt (connectWarcraft expected o.second true)
      else pure (.error failure)
  let session ← ofExcept connected
  expected.check .warcraft3 session
  call o.rest

/-! ## All products -/

inductive Connection where
  | starCraft2 (o : StarCraft2)
  | remastered (o : Remastered)
  | warcraft3 (o : Warcraft3)

/-- `connect_once` up to the live session. -/
def Connection.connectOnce : Connection → Bool → Expected → Flow Unit
  | starCraft2 o => o.connectOnce
  | remastered o => o.connectOnce
  | warcraft3 o => o.connectOnce

end Superiority.SignIn
