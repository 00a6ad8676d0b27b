import Mathlib.Data.UInt
import Superiority.Bsn.Value
import Superiority.Library.Fallible
import Superiority.Native.Crypto

/-!
# The session proof

`native/crypto.rs` and `native/auth.rs`: client and server show each other that they know the
session seed. Each derives the transport key from the seed and the two nonces, and proves it with
an HMAC of the nonces: the client in its phase-one output, the server in the phase-two module of
its answer.

* **`session_proof_agrees`** – the server takes the client's output and both end up with one
  transport key; the client takes the server's proof and nothing else; and the server takes no
  other output than one whose proof is the HMAC of the nonce it carries.
-/

namespace Superiority

variable (P : Primitives)

/-! ## Both ends -/

/-- `derive_session_auth_key`. -/
def deriveSessionAuthKey (sessionSeed clientNonce serverNonce : List UInt8) :
    Except Error (List UInt8) := do
  requireLength sessionSeed 64 "GameUtilities session seed"
  requireLength clientNonce 16 "native client challenge"
  requireLength serverNonce 16 "native server challenge"
  let first := hmacSha256 P sessionSeed [[0], clientNonce, serverNonce]
  let second := hmacSha256 P sessionSeed [[1], serverNonce, clientNonce]
  return first ++ second

/-! ## The client -/

structure SessionProof where
  output : List UInt8
  clientNonce : List UInt8
  serverNonce : List UInt8
  transportKey : List UInt8
  expectedServerProof : List UInt8
  deriving DecidableEq, Repr

/-- `build_session_proof_with_nonce`. -/
def buildSessionProofWithNonce (sessionSeed serverNonce clientNonce : List UInt8) :
    Except Error SessionProof := do
  requireLength sessionSeed 64 "GameUtilities session seed"
  requireLength serverNonce 16 "native server challenge"
  let transportKey ← deriveSessionAuthKey P sessionSeed clientNonce serverNonce
  let clientProof := hmacSha256 P transportKey [[0], clientNonce, serverNonce]
  let expectedServerProof := hmacSha256 P transportKey [[1], serverNonce, clientNonce]
  return {
    output := 1 :: clientNonce ++ clientProof
    clientNonce, serverNonce, transportKey, expectedServerProof }

/-! ## The server -/

structure ServerSessionProof where
  serverProof : List UInt8
  transportKey : List UInt8
  deriving DecidableEq, Repr

/-- `verify_client_session_proof`. -/
def verifyClientSessionProof (sessionSeed serverNonce clientOutput : List UInt8) :
    Except Error ServerSessionProof := do
  requireLength sessionSeed 64 "GameUtilities session seed"
  if clientOutput.length ≠ 49 ∨ clientOutput[0]? ≠ some 1 then
    throw (.native "native client proof output is not a 49-byte phase-one response")
  let clientNonce := (clientOutput.drop 1).take 16
  let clientProof := clientOutput.drop 17
  let transportKey ← deriveSessionAuthKey P sessionSeed clientNonce serverNonce
  let expectedClientProof := hmacSha256 P transportKey [[0], clientNonce, serverNonce]
  if expectedClientProof ≠ clientProof then
    throw (.native "native client session proof failed")
  return {
    serverProof := hmacSha256 P transportKey [[1], serverNonce, clientNonce]
    transportKey }

/-! ## The server's answer -/

def moduleUsage : List UInt8 := [0x61, 0x75, 0x74, 0x68, 0, 0, 0, 0]

def sessionModuleHash : List UInt8 :=
  [0x89, 0x50, 0x05, 0x34, 0x0a, 0x63, 0x0a, 0x64, 0x65, 0xa6, 0x5f, 0xec, 0x96, 0x32, 0x3c, 0x31,
    0x0b, 0xca, 0x8a, 0x9f, 0x66, 0xec, 0xee, 0xb1, 0x88, 0x7a, 0x9d, 0x6c, 0x0e, 0x67, 0x61, 0x2e]

/-- `SESSION_PROOF_MODULE_ID`. -/
def sessionProofModuleId : List UInt8 := moduleUsage ++ sessionModuleHash

namespace Bsn

def require (value : BsnStruct) (name : String) : Except Error BsnValue :=
  match value.get name with
  | some value => .ok value
  | none => .error (.native s!"native struct is missing {name}")

/-- A value without the options around it. -/
def transparent : BsnValue → BsnValue
  | .optional (some value) => transparent value
  | value => value

def expectStruct (value : BsnValue) (label : String) : Except Error BsnStruct :=
  match (transparent value).asStruct with
  | some value => .ok value
  | none => .error (.native s!"{label} is not a struct")

def expectArray (value : BsnValue) (label : String) : Except Error (List BsnValue) :=
  match transparent value with
  | .array value => .ok value
  | _ => .error (.native s!"{label} is not an array")

def expectBytes (value : BsnValue) (label : String) : Except Error (List UInt8) :=
  match transparent value with
  | .bytes value => .ok value
  | _ => .error (.native s!"{label} is not bytes")

def expectInteger (value : BsnValue) (label : String) : Except Error Int :=
  match transparent value with
  | .integer value => .ok value
  | _ => .error (.native s!"{label} is not an integer")

def expectChoice (value : BsnValue) (label : String) : Except Error (Int × BsnValue) :=
  match transparent value with
  | .choice index value => .ok (index, value)
  | _ => .error (.native s!"{label} is not a choice")

def requireInteger (value : BsnStruct) (name : String) : Except Error Int := do
  expectInteger (← require value name) name

end Bsn

open Bsn

/-- The detail of a refusal, where the answer has one. -/
def resumeFailure (outerIndex : Int) (outerValue : BsnValue) : Option BsnStruct := do
  guard (outerIndex = 1)
  let failure ← (expectStruct outerValue "resume failure").toOption
  let result ← failure.get "m_result"
  let (index, detail) ← (expectChoice result "resume failure detail").toOption
  guard (index = 1)
  (expectStruct detail "resume failure detail").toOption

/-- The id and the data of the module in the answer to a resume request. -/
def resumeModule (resume : BsnStruct) : Except Error (List UInt8 × List UInt8) := do
  let (outerIndex, outerValue) ← expectChoice (← require resume "m_result") "resume result"
  if outerIndex ≠ 0 then
    if let some detail := resumeFailure outerIndex outerValue then
      let errorCode ← requireInteger detail "m_error"
      let wait ← requireInteger detail "m_wait"
      throw (.nativeResumeRejected errorCode wait)
    throw (.native s!"native Battle.net resume was rejected (choice={outerIndex})")
  let success ← expectStruct outerValue "resume success"
  let common ← expectStruct (← require success "ResponseSuccessCommon")
    "resume success common state"
  let modules ← expectArray (← require common "m_finalRequest") "resume final auth modules"
  let [final] := modules
    | throw (.native "resume response has an unexpected final auth-module set")
  let final ← expectStruct final "resume final auth module"
  let identifier ← expectBytes (← require final "m_id") "resume module id"
  let data ← expectBytes (← require final "m_data") "resume module data"
  return (identifier, data)

/-- `validate_resume_server_proof`. -/
def validateResumeServerProof (resume : BsnStruct) (proof : SessionProof) :
    Except Error Unit := do
  let (identifier, data) ← resumeModule resume
  if identifier ≠ sessionProofModuleId then
    .error (.native "resume response used an unknown final auth module")
  else if data.length ≠ 33 ∨ data[0]? ≠ some 2 then
    .error (.native "resume response has an invalid session-proof phase")
  else if data.drop 1 ≠ proof.expectedServerProof then
    .error (.native "native server session proof failed")
  else
    .ok ()

/-! ## Keys and proofs -/

/-- The nonce that a client's output carries. -/
def carriedNonce (clientOutput : List UInt8) : List UInt8 := (clientOutput.drop 1).take 16

/-- The transport key of a seed and two nonces. -/
def sessionKey (sessionSeed clientNonce serverNonce : List UInt8) : List UInt8 :=
  hmacSha256 P sessionSeed [[0], clientNonce, serverNonce] ++
    hmacSha256 P sessionSeed [[1], serverNonce, clientNonce]

/-- The HMAC that proves a client's knowledge of the seed. -/
def clientProof (sessionSeed clientNonce serverNonce : List UInt8) : List UInt8 :=
  hmacSha256 P (sessionKey P sessionSeed clientNonce serverNonce) [[0], clientNonce, serverNonce]

/-- The HMAC that proves a server's. -/
def serverProof (sessionSeed clientNonce serverNonce : List UInt8) : List UInt8 :=
  hmacSha256 P (sessionKey P sessionSeed clientNonce serverNonce) [[1], serverNonce, clientNonce]

variable {P} {seed clientNonce serverNonce output : List UInt8}

@[simp] theorem length_sessionKey : (sessionKey P seed clientNonce serverNonce).length = 64 := by
  simp [sessionKey]

@[simp] theorem length_clientProof : (clientProof P seed clientNonce serverNonce).length = 32 := by
  simp [clientProof]

@[simp] theorem length_serverProof : (serverProof P seed clientNonce serverNonce).length = 32 := by
  simp [serverProof]

theorem requireLength_eq {value : List UInt8} {expected : Nat} (h : value.length = expected)
    (label : String) : requireLength value expected label = .ok () := if_pos h

theorem deriveSessionAuthKey_eq (hseed : seed.length = 64) (hclient : clientNonce.length = 16)
    (hserver : serverNonce.length = 16) :
    deriveSessionAuthKey P seed clientNonce serverNonce =
      .ok (sessionKey P seed clientNonce serverNonce) := by
  rw [deriveSessionAuthKey, requireLength_eq hseed, requireLength_eq hclient,
    requireLength_eq hserver]
  rfl

theorem length_carriedNonce (h : output.length = 49) : (carriedNonce output).length = 16 := by
  simp [carriedNonce, h]

theorem buildSessionProofWithNonce_eq (hseed : seed.length = 64)
    (hclient : clientNonce.length = 16) (hserver : serverNonce.length = 16) :
    buildSessionProofWithNonce P seed serverNonce clientNonce = .ok {
      output := 1 :: clientNonce ++ clientProof P seed clientNonce serverNonce
      clientNonce, serverNonce
      transportKey := sessionKey P seed clientNonce serverNonce
      expectedServerProof := serverProof P seed clientNonce serverNonce } := by
  rw [buildSessionProofWithNonce, requireLength_eq hseed, requireLength_eq hserver,
    deriveSessionAuthKey_eq hseed hclient hserver]
  rfl

/-- What the server makes of a well-formed output: its answer, when the proof is the HMAC of the
nonce that the output carries. -/
theorem verifyClientSessionProof_eq (hseed : seed.length = 64) (hserver : serverNonce.length = 16)
    (hlength : output.length = 49) (hphase : output[0]? = some 1) :
    verifyClientSessionProof P seed serverNonce output =
      if output.drop 17 = clientProof P seed (carriedNonce output) serverNonce then
        .ok {
          serverProof := serverProof P seed (carriedNonce output) serverNonce
          transportKey := sessionKey P seed (carriedNonce output) serverNonce }
      else .error (.native "native client session proof failed") := by
  have hkey := deriveSessionAuthKey_eq (P := P) hseed (length_carriedNonce hlength) hserver
  have hformed : ¬ (output.length ≠ 49 ∨ output[0]? ≠ some 1) := by
    rw [not_or, not_not, not_not]
    exact ⟨hlength, hphase⟩
  rw [carriedNonce] at hkey
  rw [verifyClientSessionProof, requireLength_eq hseed]
  simp only [if_neg hformed, hkey]
  change (if clientProof P seed (carriedNonce output) serverNonce ≠ output.drop 17 then _
    else _) = _
  by_cases hproof : output.drop 17 = clientProof P seed (carriedNonce output) serverNonce
  · rw [if_pos hproof, if_neg (not_not.2 hproof.symm)]
    rfl
  · rw [if_neg hproof, if_pos (Ne.symm hproof)]
    rfl

/-- An output of another length or phase is refused. -/
theorem verifyClientSessionProof_malformed (hseed : seed.length = 64)
    (h : output.length ≠ 49 ∨ output[0]? ≠ some 1) :
    verifyClientSessionProof P seed serverNonce output = .error (.native
      "native client proof output is not a 49-byte phase-one response") := by
  rw [verifyClientSessionProof, requireLength_eq hseed]
  simp only [if_pos h]
  rfl

/-- The client takes the phase-two module with the expected proof, and no other. -/
theorem validateResumeServerProof_iff {resume : BsnStruct} {identifier data : List UInt8}
    (h : resumeModule resume = .ok (identifier, data)) {proof : SessionProof}
    (hproof : proof.expectedServerProof.length = 32) :
    validateResumeServerProof resume proof = .ok () ↔
      identifier = sessionProofModuleId ∧ data = 2 :: proof.expectedServerProof := by
  rw [validateResumeServerProof, h]
  change (if _ then _ else if _ then _ else if _ then _ else _) = Except.ok () ↔ _
  by_cases hid : identifier = sessionProofModuleId
  swap
  · rw [if_pos hid]
    exact ⟨nofun, fun h => absurd h.1 hid⟩
  rw [if_neg (not_not.2 hid)]
  by_cases hformed : data.length ≠ 33 ∨ data[0]? ≠ some 2
  · rw [if_pos hformed]
    refine ⟨nofun, fun h => ?_⟩
    rw [h.2] at hformed
    simp [hproof] at hformed
  rw [if_neg hformed]
  rw [not_or, not_not, not_not] at hformed
  obtain ⟨phase, rest, rfl⟩ := List.exists_cons_of_length_eq_add_one hformed.1
  have hphase : phase = 2 := by simpa using hformed.2
  rw [hphase, List.drop_one, List.tail_cons, List.cons.injEq]
  by_cases hdata : rest = proof.expectedServerProof
  · rw [if_neg (not_not.2 hdata)]
    exact ⟨fun _ => ⟨hid, rfl, hdata⟩, fun _ => rfl⟩
  · rw [if_pos hdata]
    exact ⟨nofun, fun h => absurd h.2.2 hdata⟩

/-- An answer that takes the client back, with the data of its module. -/
def successfulResume (data : List UInt8) : BsnStruct :=
  let final := BsnValue.struct 0
    [.mk (-2) (some "m_id") (.bytes sessionProofModuleId), .mk (-1) (some "m_data") (.bytes data)]
  let common := BsnValue.struct 0 [.mk (-3) (some "m_finalRequest") (.array [final])]
  let success := BsnValue.struct 0 [.mk (-1) (some "ResponseSuccessCommon") common]
  ⟨0, [.mk (-1) (some "m_result") (.choice 0 success)]⟩

theorem resumeModule_successfulResume (data : List UInt8) :
    resumeModule (successfulResume data) = .ok (sessionProofModuleId, data) := rfl

/-- **Agreement on the session proof.** Whatever HMAC is: the server takes what the client
built and derives the client's transport key, and the client takes a phase-two module exactly with
the server's proof. The server takes an output only when it has 49 bytes and phase one, and ends in
the HMAC of the nonce it carries. -/
theorem session_proof_agrees (P : Primitives) {seed serverNonce : List UInt8}
    (hseed : seed.length = 64) (hserver : serverNonce.length = 16) :
    (∀ clientNonce : List UInt8, clientNonce.length = 16 → ∃ proof answer,
      buildSessionProofWithNonce P seed serverNonce clientNonce = .ok proof ∧
      proof.output.length = 49 ∧
      verifyClientSessionProof P seed serverNonce proof.output = .ok answer ∧
      answer.transportKey = proof.transportKey ∧
      validateResumeServerProof (successfulResume (2 :: answer.serverProof)) proof = .ok () ∧
      ∀ resume identifier data, resumeModule resume = .ok (identifier, data) →
        (validateResumeServerProof resume proof = .ok () ↔
          identifier = sessionProofModuleId ∧ data = 2 :: answer.serverProof)) ∧
    (∀ output answer, verifyClientSessionProof P seed serverNonce output = .ok answer →
      output.length = 49 ∧ output[0]? = some 1 ∧
        output.drop 17 = clientProof P seed (carriedNonce output) serverNonce) ∧
    (∀ output : List UInt8, output.length ≠ 49 ∨ output[0]? ≠ some 1 →
      ∃ error, verifyClientSessionProof P seed serverNonce output = .error error) := by
  refine ⟨fun clientNonce hclient => ?_, fun output answer h => ?_, fun output h => ?_⟩
  · have hbuild := buildSessionProofWithNonce_eq (P := P) hseed hclient hserver
    have hnonce : carriedNonce (1 :: clientNonce ++ clientProof P seed clientNonce serverNonce) =
        clientNonce := by
      rw [carriedNonce, List.cons_append, List.drop_one, List.tail_cons, ← hclient]
      exact List.take_left
    have hlength : (1 :: clientNonce ++ clientProof P seed clientNonce serverNonce).length = 49 := by
      simp [hclient]
    have hdrop : (1 :: clientNonce ++ clientProof P seed clientNonce serverNonce).drop 17 =
        clientProof P seed clientNonce serverNonce :=
      List.drop_left' (by simp [hclient])
    have hverify := verifyClientSessionProof_eq (P := P) hseed hserver hlength rfl
    rw [hnonce, if_pos hdrop] at hverify
    refine ⟨_, _, hbuild, hlength, hverify, rfl, ?_, fun resume identifier data hmodule => ?_⟩
    · exact (validateResumeServerProof_iff (resumeModule_successfulResume _)
        length_serverProof).2 ⟨rfl, rfl⟩
    · exact validateResumeServerProof_iff hmodule length_serverProof
  · by_cases hformed : output.length ≠ 49 ∨ output[0]? ≠ some 1
    · rw [verifyClientSessionProof_malformed hseed hformed] at h
      cases h
    rw [not_or, not_not, not_not] at hformed
    refine ⟨hformed.1, hformed.2, ?_⟩
    rw [verifyClientSessionProof_eq hseed hserver hformed.1 hformed.2] at h
    split_ifs at h with hproof
    exact hproof
  · exact ⟨_, verifyClientSessionProof_malformed hseed h⟩

/-- One session with a seed and nonces of repeated bytes. -/
theorem session_proof_agrees_repeated :
    let P : Primitives := {
      hmac := fun key message => Vector.replicate 32 (key.sum + 3 * message.sum)
      rc4Keystream := fun key i => key.headD 0 + UInt8.ofNat i }
    ∃ proof answer,
      buildSessionProofWithNonce P (List.replicate 64 1) (List.replicate 16 5)
        (List.replicate 16 7) = .ok proof ∧
      verifyClientSessionProof P (List.replicate 64 1) (List.replicate 16 5) proof.output =
        .ok answer ∧
      validateResumeServerProof (successfulResume (2 :: answer.serverProof)) proof = .ok () := by
  intro P
  obtain ⟨proof, answer, hbuild, -, hverify, -, hvalidate, -⟩ :=
    (session_proof_agrees P (List.length_replicate (n := 64) (a := 1))
      (List.length_replicate (n := 16) (a := 5))).1 (List.replicate 16 7) List.length_replicate
  exact ⟨proof, answer, hbuild, hverify, hvalidate⟩

end Superiority
