import Mathlib.Data.List.Infix
import Superiority.Error
import Superiority.Library.Stateful
import Superiority.Text

/-!
# The page that is opened for a sign-in

An external challenge names a page, and the challenge handler opens it in a browser. Each of the
three account layers decodes the payload and looks at the address in its own way. The parser of
addresses and the base64 decoder are parameters.

* **`opensTrusted_iff`** – the handler gets only addresses of well-formed payloads, over https at
  battle.net or below it, except for an Aurora payload that names another scheme.
-/

namespace Superiority.SignIn.WebAuth

open Stateful

/-- What the code reads of a `url::Url`. -/
structure Url where
  scheme : String
  hostStr : Option String
  deriving DecidableEq

/-- `Url::parse` with the text of its error, the base64 decoder and the debug text of a string. -/
structure WebLibrary where
  parse : String → Except String Url
  decodeBase64 : String → Option (List UInt8)
  debug : String → String

/-- A `SecretBytes`, or the error that the browser ended with. -/
abbrev Answer := Url → Except Error (List UInt8)

/-- The handler is called; the addresses it was called with are kept in their order. -/
def callHandler (answer : Answer) (url : Url) : Stateful (List Url) Error (List UInt8) := do
  change (· ++ [url])
  ofExcept (answer url)

/-- The handler gets the address that was decoded. -/
def openPage (answer : Answer) (decoded : Except Error Url) :
    Stateful (List Url) Error (List UInt8) := do
  let url ← ofExcept decoded
  callHandler answer url

/-- `ok_or` and `map_err`. -/
def orElse {α : Type} (value : Option α) (error : Error) : Except Error α :=
  match value with
  | some value => .ok value
  | none => .error error

def endsWith (text suffix : String) : Bool := suffix.toList.isSuffixOf text.toList

/-! ## Aurora -/

def webAuthUrl : String := "web_auth_url"

/-- The challenge carries the sign-in URL as base64 text. -/
def decodeWebAuthUrl (lib : WebLibrary) (payload : String) : Except Error Url := do
  let decoded ← orElse (lib.decodeBase64 payload)
    (.authentication "Aurora web auth URL is not valid base64")
  let text ← orElse (fromUtf8 decoded)
    (.authentication "Aurora web auth URL is not valid UTF-8")
  let url ← (lib.parse text).mapError fun _ =>
    .authentication ("invalid Aurora web auth URL " ++ lib.debug text)
  if url.hostStr.any fun host => host = "battle.net" || endsWith host ".battle.net" then
    return url
  else
    throw (.authentication ("Aurora web auth URL is not a Battle.net host: " ++ lib.debug text))

def resolveChallenge (lib : WebLibrary) (answer : Answer) (payloadType payload : Option String) :
    Stateful (List Url) Error (List UInt8) :=
  match payloadType, payload with
  | some payloadType, some payload =>
    if payloadType ≠ webAuthUrl then
      fail (.authentication ("unsupported Aurora challenge type " ++ lib.debug payloadType))
    else openPage answer (decodeWebAuthUrl lib payload)
  | _, _ => fail (.authentication "Aurora external challenge is malformed")

/-! ## BGS and JSON-BGS -/

/-- `ChallengeExternalRequest` and `ExternalChallengeNotification`. -/
structure ExternalChallenge where
  payloadType : Option String
  payload : Option (List UInt8)

namespace Bgs

/-- The debug text of an optional string. -/
def debugType (lib : WebLibrary) : Option String → String
  | none => "None"
  | some payloadType => "Some(" ++ lib.debug payloadType ++ ")"

def challengeUrl (lib : WebLibrary) (challenge : ExternalChallenge) : Except Error Url :=
  if challenge.payloadType ≠ some webAuthUrl then
    .error (.authentication ("unsupported external challenge " ++
      debugType lib challenge.payloadType))
  else do
    let payload ← orElse challenge.payload (.bgsWire "external challenge has no payload")
    let text ← orElse (fromUtf8 payload) (.bgsWire "web authentication URL is not UTF-8")
    let url ← (lib.parse text).mapError .url
    let allowedHost := url.hostStr.any fun host => endsWith host ".account.battle.net"
    if url.scheme ≠ "https" ∨ allowedHost = false then
      throw (.authentication "Battle.net returned an unexpected authentication URL")
    else return url

end Bgs

namespace Warcraft

def challengeUrl (lib : WebLibrary) (notification : ExternalChallenge) : Except Error Url :=
  if notification.payloadType ≠ some webAuthUrl then
    .error (.authentication "unsupported WC3 challenge type")
  else do
    let payload ← orElse notification.payload (.authentication "WC3 challenge has no payload")
    let text ← orElse (fromUtf8 payload) (.authentication "WC3 challenge URL is not UTF-8")
    let url ← (lib.parse text).mapError fun _ => .authentication "WC3 challenge URL is invalid"
    let trustedHost := url.hostStr.any fun host =>
      host = "battle.net" || endsWith host ".battle.net"
    if url.scheme ≠ "https" ∨ trustedHost = false then
      throw (.authentication "WC3 challenge URL is not trusted")
    else return url

end Warcraft

/-- An external challenge of one of the three account layers. -/
inductive Challenge where
  | aurora (payloadType payload : Option String)
  | bgs (challenge : ExternalChallenge)
  | warcraft (notification : ExternalChallenge)

def Challenge.resolve (lib : WebLibrary) (answer : Answer) :
    Challenge → Stateful (List Url) Error (List UInt8)
  | .aurora payloadType payload => resolveChallenge lib answer payloadType payload
  | .bgs challenge => openPage answer (Bgs.challengeUrl lib challenge)
  | .warcraft notification => openPage answer (Warcraft.challengeUrl lib notification)

/-! ## Hosts by their labels -/

/-- The labels of a host. -/
def labels (host : String) : List (List Char) := host.toList.splitOn '.'

/-- Battle.net or a subdomain of it: its last labels are those of Battle.net. -/
def IsBattleNet (host : String) : Prop := ["battle".toList, "net".toList] <:+ labels host

theorem labels_append (front back : List Char) :
    (front ++ '.' :: back).splitOn '.' = front.splitOn '.' ++ back.splitOn '.' :=
  List.splitOn_append_cons_self front back

theorem intercalate_append {front back : List (List Char)} (hfront : front ≠ [])
    (hback : back ≠ []) : List.intercalate ['.'] (front ++ back) =
      List.intercalate ['.'] front ++ '.' :: List.intercalate ['.'] back := by
  induction front with
  | nil => exact absurd rfl hfront
  | cons label front ih =>
    cases front with
    | nil =>
      rw [List.singleton_append, List.intercalate_cons_of_ne_nil hback]
      simp
    | cons next front =>
      rw [List.cons_append, List.intercalate_cons_of_ne_nil (by simp), ih (by simp),
        List.intercalate_cons_of_ne_nil (List.cons_ne_nil next front)]
      simp

/-- The test of Aurora and of Warcraft III says what it is meant to. -/
theorem isBattleNet_iff (host : String) :
    IsBattleNet host ↔ host = "battle.net" ∨ endsWith host ".battle.net" = true := by
  have hown : "battle.net".toList.splitOn '.' = ["battle".toList, "net".toList] := by decide
  have hdot : ".battle.net".toList = '.' :: "battle.net".toList := by decide
  rw [endsWith, List.isSuffixOf_iff_suffix, hdot]
  constructor
  · rintro ⟨front, hfront⟩
    have hhost : host.toList =
        List.intercalate ['.'] (front ++ ["battle".toList, "net".toList]) := by
      rw [hfront, labels, List.intercalate_splitOn]
    have hname : List.intercalate ['.'] ["battle".toList, "net".toList] = "battle.net".toList := by
      decide
    by_cases hnone : front = []
    · rw [hnone, List.nil_append, hname] at hhost
      exact .inl (String.toList_inj.1 hhost)
    · rw [intercalate_append hnone (by simp), hname] at hhost
      exact .inr ⟨_, hhost.symm⟩
  · rintro (rfl | ⟨front, hfront⟩)
    · rw [IsBattleNet, labels, hown]
    · rw [IsBattleNet, labels, ← hfront, labels_append, hown]
      exact List.suffix_append _ _

/-- Below the account service is below Battle.net. -/
theorem isBattleNet_of_account {host : String} (h : endsWith host ".account.battle.net" = true) :
    IsBattleNet host := by
  rw [isBattleNet_iff]
  have hsuffix : ".battle.net".toList <:+ ".account.battle.net".toList := by decide
  rw [endsWith, List.isSuffixOf_iff_suffix] at h
  exact .inr (List.isSuffixOf_iff_suffix.2 (hsuffix.trans h))

/-! ## What is opened -/

/-- The page may be followed with the user's credentials. -/
def Url.Trusted (url : Url) : Prop :=
  url.scheme = "https" ∧ ∃ host, url.hostStr = some host ∧ IsBattleNet host

namespace Challenge

/-- The type of the payload, and its text. -/
def payloadType : Challenge → Option String
  | .aurora payloadType _ => payloadType
  | .bgs challenge => challenge.payloadType
  | .warcraft notification => notification.payloadType

def text (lib : WebLibrary) : Challenge → Option String
  | .aurora _ payload => (payload.bind lib.decodeBase64).bind fromUtf8
  | .bgs challenge => challenge.payload.bind fromUtf8
  | .warcraft notification => notification.payload.bind fromUtf8

/-- The payload is of the right type, is UTF-8 and parses as this address. -/
def Names (lib : WebLibrary) (challenge : Challenge) (url : Url) : Prop :=
  challenge.payloadType = some webAuthUrl ∧
    ∃ text, challenge.text lib = some text ∧ lib.parse text = .ok url

/-- The handler is called only with what the payload names, and only with a page to be trusted. -/
def OpensTrusted (lib : WebLibrary) (answer : Answer) (challenge : Challenge) : Prop :=
  ∀ url ∈ (challenge.resolve lib answer []).2, challenge.Names lib url ∧ url.Trusted

/-- An Aurora payload that names a page at Battle.net that is not read over https. -/
def NamesPlain (lib : WebLibrary) (challenge : Challenge) : Prop :=
  ∃ payloadType payload url, challenge = .aurora payloadType payload ∧
    challenge.Names lib url ∧ url.scheme ≠ "https" ∧
    ∃ host, url.hostStr = some host ∧ IsBattleNet host

end Challenge

theorem orElse_eq_ok {α : Type} {value : Option α} {error : Error} {a : α} :
    orElse value error = .ok a ↔ value = some a := by
  cases value <;> simp [orElse]

theorem bind_eq_ok {α β : Type} {x : Except Error α} {f : α → Except Error β} {b : β} :
    (x >>= f) = .ok b ↔ ∃ a, x = .ok a ∧ f a = .ok b := by
  cases x with
  | error error => simp [bind, Except.bind]
  | ok a => simp [bind, Except.bind]

theorem mapError_eq_ok {α ε : Type} {x : Except ε α} {f : ε → Error} {a : α} :
    x.mapError f = .ok a ↔ x = .ok a := by
  cases x <;> simp [Except.mapError]

theorem any_iff {host : Option String} {test : String → Bool} :
    host.any test = true ↔ ∃ name, host = some name ∧ test name = true := by
  cases host <;> simp

theorem hosts_iff {host : Option String} :
    (host.any fun host => host = "battle.net" || endsWith host ".battle.net") = true ↔
      ∃ name, host = some name ∧ IsBattleNet name := by
  simp [any_iff, isBattleNet_iff]

/-- What Aurora accepts: the host is looked at, the scheme is not. -/
theorem decodeWebAuthUrl_eq_ok {lib : WebLibrary} {payload : String} {url : Url} :
    decodeWebAuthUrl lib payload = .ok url ↔
      (∃ text, (lib.decodeBase64 payload).bind fromUtf8 = some text ∧ lib.parse text = .ok url) ∧
        ∃ host, url.hostStr = some host ∧ IsBattleNet host := by
  simp only [decodeWebAuthUrl, bind_eq_ok, orElse_eq_ok, mapError_eq_ok, Option.bind_eq_some_iff]
  constructor
  · rintro ⟨decoded, hdecoded, text, htext, parsed, hparsed, h⟩
    split at h
    · obtain rfl : parsed = url := Except.ok.inj h
      exact ⟨⟨text, ⟨decoded, hdecoded, htext⟩, hparsed⟩, hosts_iff.1 ‹_›⟩
    · cases h
  · rintro ⟨⟨text, ⟨decoded, hdecoded, htext⟩, hparsed⟩, hhost⟩
    refine ⟨decoded, hdecoded, text, htext, url, hparsed, ?_⟩
    rw [if_pos (hosts_iff.2 hhost)]
    rfl

/-- What passes the checks of scheme and host is the address that was read. -/
theorem checked_eq_ok {scheme : String} {allowed : Bool} {parsed url : Url} {error : Error}
    (h : (if scheme ≠ "https" ∨ allowed = false then throw error else pure parsed :
      Except Error Url) = .ok url) : scheme = "https" ∧ allowed = true ∧ parsed = url := by
  split at h
  · cases h
  · rename_i hchecks
    rw [not_or, not_not, Bool.not_eq_false] at hchecks
    exact ⟨hchecks.1, hchecks.2, Except.ok.inj h⟩

theorem bgs_challengeUrl {lib : WebLibrary} {challenge : ExternalChallenge} {url : Url}
    (h : Bgs.challengeUrl lib challenge = .ok url) :
    (Challenge.bgs challenge).Names lib url ∧ url.Trusted := by
  unfold Bgs.challengeUrl at h
  split at h
  · cases h
  · rename_i htype
    simp only [bind_eq_ok, orElse_eq_ok, mapError_eq_ok] at h
    obtain ⟨payload, hpayload, text, htext, parsed, hparsed, h⟩ := h
    obtain ⟨hscheme, hallowed, rfl⟩ := checked_eq_ok h
    obtain ⟨host, hhost, haccount⟩ := any_iff.1 hallowed
    exact ⟨⟨not_not.1 htype, text, by simp [Challenge.text, hpayload, htext], hparsed⟩, hscheme,
      host, hhost, isBattleNet_of_account haccount⟩

theorem warcraft_challengeUrl {lib : WebLibrary} {notification : ExternalChallenge} {url : Url}
    (h : Warcraft.challengeUrl lib notification = .ok url) :
    (Challenge.warcraft notification).Names lib url ∧ url.Trusted := by
  unfold Warcraft.challengeUrl at h
  split at h
  · cases h
  · rename_i htype
    simp only [bind_eq_ok, orElse_eq_ok, mapError_eq_ok] at h
    obtain ⟨payload, hpayload, text, htext, parsed, hparsed, h⟩ := h
    obtain ⟨hscheme, hallowed, rfl⟩ := checked_eq_ok h
    exact ⟨⟨not_not.1 htype, text, by simp [Challenge.text, hpayload, htext], hparsed⟩, hscheme,
      hosts_iff.1 hallowed⟩

/-! ## The handler's calls -/

theorem callHandler_calls (answer : Answer) (url : Url) (calls : List Url) :
    (callHandler answer url calls).2 = calls ++ [url] := by
  unfold callHandler
  rw [bind_of_ok (change_apply _ calls)]
  rfl

/-- The handler is called once if the payload is decoded, and else not at all. -/
theorem mem_openPage {decoded : Except Error Url} {answer : Answer} {url : Url} :
    url ∈ (openPage answer decoded []).2 ↔ decoded = .ok url := by
  unfold openPage
  cases decoded with
  | error error =>
    rw [bind_of_error (ofExcept_apply (.error error) [])]
    simp
  | ok parsed =>
    rw [bind_of_ok (ofExcept_apply (.ok parsed) []), callHandler_calls]
    simp [eq_comm]

theorem mem_aurora_calls {lib : WebLibrary} {answer : Answer} {payloadType payload : Option String}
    {url : Url} :
    url ∈ ((Challenge.aurora payloadType payload).resolve lib answer []).2 ↔
      (Challenge.aurora payloadType payload).Names lib url ∧
        ∃ host, url.hostStr = some host ∧ IsBattleNet host := by
  cases payloadType with
  | none => simp [Challenge.resolve, resolveChallenge, Challenge.Names, Challenge.payloadType]
  | some payloadType =>
    cases payload with
    | none => simp [Challenge.resolve, resolveChallenge, Challenge.Names, Challenge.text]
    | some payload =>
      by_cases htype : payloadType = webAuthUrl
      · rw [Challenge.resolve, resolveChallenge, if_neg (not_not.2 htype), mem_openPage,
          decodeWebAuthUrl_eq_ok]
        simp [Challenge.Names, Challenge.payloadType, Challenge.text, htype]
      · rw [Challenge.resolve, resolveChallenge, if_pos htype]
        simp [Challenge.Names, Challenge.payloadType, htype]

/-- **Sign-in pages.** In each of the account layers the handler is called only with the address of
a well-formed payload, over https, at Battle.net or below it, unless an Aurora payload names a page
at Battle.net with another scheme. -/
theorem opensTrusted_iff (lib : WebLibrary) (answer : Answer) (challenge : Challenge) :
    challenge.OpensTrusted lib answer ↔ ¬ challenge.NamesPlain lib := by
  cases challenge with
  | aurora payloadType payload =>
    constructor
    · rintro h ⟨_, _, url, heq, hnames, hscheme, hhost⟩
      exact hscheme (h url (mem_aurora_calls.2 ⟨hnames, hhost⟩)).2.1
    · intro h url hurl
      obtain ⟨hnames, hhost⟩ := mem_aurora_calls.1 hurl
      refine ⟨hnames, ?_, hhost⟩
      by_contra hscheme
      exact h ⟨payloadType, payload, url, rfl, hnames, hscheme, hhost⟩
  | bgs challenge =>
    refine iff_of_true ?_ (by rintro ⟨_, _, _, heq, _⟩; cases heq)
    intro url hurl
    exact bgs_challengeUrl (mem_openPage.1 hurl)
  | warcraft notification =>
    refine iff_of_true ?_ (by rintro ⟨_, _, _, heq, _⟩; cases heq)
    intro url hurl
    exact warcraft_challengeUrl (mem_openPage.1 hurl)

/-! ## A page that is not read over https -/

/-- The address "http://battle.net/login" in base64, and what it parses as. -/
def plainLibrary : WebLibrary where
  parse text :=
    if text = "http://battle.net/login" then .ok ⟨"http", some "battle.net"⟩
    else .error "relative URL without a base"
  decodeBase64 payload :=
    if payload = "aHR0cDovL2JhdHRsZS5uZXQvbG9naW4=" then
      some "http://battle.net/login".toUTF8.data.toList
    else none
  debug text := text

theorem fromUtf8_toUTF8 (text : String) : fromUtf8 text.toUTF8.data.toList = some text := by
  have hvalid : text.toUTF8.IsValidUTF8 := text.isValidUTF8
  simp only [fromUtf8, Array.toArray_toList, String.fromUTF8?]
  rw [dif_pos (by simpa using hvalid)]
  rfl

def plainChallenge : Challenge :=
  .aurora (some "web_auth_url") (some "aHR0cDovL2JhdHRsZS5uZXQvbG9naW4=")

theorem not_opensTrusted : ¬ plainChallenge.OpensTrusted plainLibrary fun _ => .ok [1] := by
  intro h
  have hnames : plainChallenge.Names plainLibrary ⟨"http", some "battle.net"⟩ := by
    refine ⟨rfl, "http://battle.net/login", ?_, rfl⟩
    simpa [plainChallenge, Challenge.text, plainLibrary] using
      fromUtf8_toUTF8 "http://battle.net/login"
  have hcalled : ⟨"http", some "battle.net"⟩ ∈
      (plainChallenge.resolve plainLibrary (fun _ => .ok [1]) []).2 :=
    mem_aurora_calls.2 ⟨hnames, "battle.net", rfl, (isBattleNet_iff _).2 (.inl rfl)⟩
  exact absurd (h _ hcalled).2.1 (by decide)

end Superiority.SignIn.WebAuth
