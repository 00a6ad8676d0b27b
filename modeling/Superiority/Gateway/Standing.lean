import Superiority.Gateway.Peer
import Superiority.Library.Last

/-!
# Who is logged on

What the packets of a legacy client say of it. It is **entitled** when its last logon named the
account of the gateway and was completed: the old styles are complete with the packet, the new one
with a proof behind it. It has **entered** when it asked to enter chat while it was entitled.

**`stands_handle`** – `account_accepted` and `logged_on` say just that of the packets so far,
whether the handling of one fails or not. A later logon that fails takes the entitlement away.
-/

namespace Superiority.Gateway

open Stateful

/-! ## What the packets say -/

def IsLogon (p : Packet) : Prop :=
  p.id = sidAuthAccountLogon ∨ p.id = sidLogonResponse2 ∨ p.id = sidLogonResponse

instance (p : Packet) : Decidable (IsLogon p) := inferInstanceAs (Decidable (_ ∨ _ ∨ _))

/-- The account of a logon. -/
def accountOf (p : Packet) : Option String :=
  LegacyPeer.cStringAt p.payload (if p.id = sidAuthAccountLogon then 32 else 28)

/-- The account is the expected one, in whatever case. -/
def isExpected (expected : String) (account : Option String) : Bool :=
  account.any fun account => eqIgnoreAsciiCase account expected

/-- The logon names the account. -/
def Names (expected : String) (p : Packet) : Prop := isExpected expected (accountOf p) = true

section packets

variable (expected : String) (packets : List Packet)

/-- The last logon names the account. -/
def Named : Prop := LastOf IsLogon (fun logon _ => Names expected logon) packets

/-- The last logon names the account and was completed. -/
def Entitled : Prop :=
  LastOf IsLogon (fun logon behind => Names expected logon ∧
    (logon.id = sidAuthAccountLogon → ∃ p ∈ behind, p.id = sidAuthAccountLogonProof)) packets

/-- An entitled client has asked to enter chat. -/
def Entered : Prop :=
  ∃ before p behind, packets = before ++ p :: behind ∧ p.id = sidEnterChat ∧
    Entitled expected before

end packets

variable {expected : String} {packets : List Packet} {p : Packet}

theorem named_logon (h : IsLogon p) : Named expected (packets ++ [p]) ↔ Names expected p :=
  lastOf_snoc_of_kind h

theorem named_other (h : ¬ IsLogon p) :
    Named expected (packets ++ [p]) ↔ Named expected packets := lastOf_snoc_of_not_kind h

theorem entitled_logon (h : IsLogon p) :
    Entitled expected (packets ++ [p]) ↔ Names expected p ∧ p.id ≠ sidAuthAccountLogon := by
  rw [Entitled, lastOf_snoc_of_kind h]
  simp

theorem entitled_proof (h : ¬ IsLogon p) (hproof : p.id = sidAuthAccountLogonProof) :
    Entitled expected (packets ++ [p]) ↔ Named expected packets := by
  rw [Entitled, lastOf_snoc_of_not_kind h]
  refine lastOf_congr (fun logon behind => ?_) packets
  constructor
  · intro hlogon
    exact hlogon.1
  · intro hnames
    exact ⟨hnames, fun _ => ⟨p, by simp, hproof⟩⟩

theorem entitled_other (h : ¬ IsLogon p) (hproof : p.id ≠ sidAuthAccountLogonProof) :
    Entitled expected (packets ++ [p]) ↔ Entitled expected packets := by
  rw [Entitled, lastOf_snoc_of_not_kind h]
  refine lastOf_congr (fun logon behind => ?_) packets
  simp [or_and_right, exists_or, hproof]

theorem entered_snoc : Entered expected (packets ++ [p]) ↔
    Entered expected packets ∨ (p.id = sidEnterChat ∧ Entitled expected packets) := by
  constructor
  · rintro ⟨before, q, behind, h, hq, hentitled⟩
    rcases List.eq_nil_or_concat behind with rfl | ⟨behind, r, rfl⟩
    · obtain ⟨rfl, hlast⟩ := List.append_inj' h rfl
      rw [(List.cons.inj hlast).1]
      exact .inr ⟨hq, hentitled⟩
    · rw [List.concat_eq_append, ← List.cons_append, ← List.append_assoc] at h
      obtain ⟨rfl, -⟩ := List.append_inj' h rfl
      exact .inl ⟨before, q, behind, rfl, hq, hentitled⟩
  · rintro (⟨before, q, behind, rfl, hq, hentitled⟩ | ⟨hp, hentitled⟩)
    · exact ⟨before, q, behind ++ [p], by simp, hq, hentitled⟩
    · exact ⟨packets, p, [], rfl, hp, hentitled⟩

/-! ## The logon of a peer -/

namespace LegacyPeer

/-- The fields that say who may act. -/
def right (peer : LegacyPeer) : String × Bool × Bool :=
  (peer.expectedAccount, peer.accountAccepted, peer.loggedOn)

theorem keeps_onWriter {α : Type} (x : Stateful (List UInt8) IoError α) :
    Within (Keeps right) (onWriter x) := fun _ => rfl

theorem keeps_send (id : UInt8) (payload : List UInt8) : Within (Keeps right) (send id payload) :=
  keeps_onWriter _

theorem keeps_requireLength (p : Packet) (expected : Nat) :
    Within (Keeps right) (requireLength p expected) :=
  within_ite (within_pure _) (within_fail _)

theorem keeps_requireConsumed (r : PayloadReader) (name : String) :
    Within (Keeps right) (requireConsumed r name) :=
  within_ite (within_pure _) (within_fail _)

theorem keeps_answering {x : Peering Unit} (h : Within (Keeps right) x) :
    Within (Keeps right) (answering x) :=
  within_bind h fun _ => within_pure _

theorem keeps_whenLoggedOn {x : Peering (List Action)} (h : Within (Keeps right) x) :
    Within (Keeps right) (whenLoggedOn x) :=
  within_bind within_read fun _ => within_ite h (within_pure _)

theorem keeps_lengthOnly (p : Packet) (expected : Nat) (action : Action) :
    Within (Keeps right) (lengthOnly p expected action) :=
  within_bind (keeps_requireLength p expected) fun _ => within_pure _

theorem keeps_sendPing (m : Moment) : Within (Keeps right) (sendPing m) :=
  within_bind (keeps_send _ _) fun _ => within_change fun _ => rfl

theorem keeps_beginKeepalives (m : Moment) : Within (Keeps right) (beginKeepalives m) := by
  refine within_bind within_read fun peer => within_ite (within_pure _) ?_
  exact within_bind (within_change fun _ => rfl) fun _ => keeps_sendPing m

theorem keeps_handleAuthInfo (m : Moment) : Within (Keeps right) (handleAuthInfo m) :=
  within_bind (keeps_beginKeepalives m) fun _ => keeps_send _ _

theorem keeps_handleStartVersioning (m : Moment) :
    Within (Keeps right) (handleStartVersioning m) := by
  refine within_bind (keeps_send _ _) fun _ => within_bind (keeps_send _ _) fun _ => ?_
  exact within_bind (keeps_send _ _) fun _ => keeps_beginKeepalives m

theorem keeps_handlePingReply (m : Moment) (p : Packet) :
    Within (Keeps right) (handlePingReply m p) := by
  refine within_bind (keeps_requireLength p 4) fun _ => ?_
  exact within_bind (within_take fun _ => rfl) fun _ => within_pure _

theorem keeps_skipStrings (count : Nat) (r : PayloadReader) :
    Within (Keeps right) (skipStrings count r) := by
  induction count generalizing r with
  | zero => exact within_pure _
  | succ count ih => exact within_bind (within_orFail _ _) fun found => ih found.2

theorem keeps_handleReadUserData (p : Packet) : Within (Keeps right) (handleReadUserData p) := by
  refine within_bind (within_orFail _ _) fun accounts => ?_
  refine within_bind (within_orFail _ _) fun keys => ?_
  refine within_bind (within_orFail _ _) fun request => ?_
  refine within_ite (within_fail _) (within_ite (within_fail _) (within_ite (within_fail _) ?_))
  refine within_bind (keeps_skipStrings _ _) fun rest => ?_
  exact within_bind (keeps_requireConsumed _ _) fun _ => keeps_send _ _

theorem keeps_validateEnterChat (p : Packet) : Within (Keeps right) (validateEnterChat p) := by
  refine within_bind (within_orFail _ _) fun username => ?_
  refine within_bind (within_orFail _ _) fun statstring => ?_
  exact within_ite (within_fail _) (keeps_requireConsumed _ _)

theorem keeps_handleEnterChat (p : Packet) : Within (Keeps right) (handleEnterChat p) :=
  within_bind (keeps_validateEnterChat p) fun _ => within_bind within_read fun _ => within_pure _

theorem keeps_handleJoinChannel (p : Packet) : Within (Keeps right) (handleJoinChannel p) := by
  refine within_bind (within_orFail _ _) fun flags => ?_
  refine within_bind (within_orFail _ _) fun channel => ?_
  exact within_bind (keeps_requireConsumed _ _) fun _ => within_pure _

theorem keeps_validateChatCommand (p : Packet) :
    Within (Keeps right) (validateChatCommand p) := by
  refine within_ite (within_fail _) ?_
  cases p.payload.getLast? with
  | none => exact within_fail _
  | some terminator =>
    exact within_ite (within_fail _) (within_ite (within_pure _) (within_pure _))

theorem keeps_handleChatCommand (p : Packet) : Within (Keeps right) (handleChatCommand p) :=
  within_bind (keeps_validateChatCommand p) fun _ => within_pure _

/-- A packet that is neither a logon nor a proof leaves the logon as it is. -/
theorem keeps_handle (m : Moment) (hlogon : ¬ IsLogon p)
    (hproof : p.id ≠ sidAuthAccountLogonProof) : Within (Keeps right) (handle m p) := by
  obtain ⟨hnew, hold, hlegacy⟩ : p.id ≠ sidAuthAccountLogon ∧ p.id ≠ sidLogonResponse2 ∧
      p.id ≠ sidLogonResponse := by
    simpa [IsLogon, not_or] using hlogon
  unfold handle
  rw [if_neg hnew, if_neg hproof, if_neg hold, if_neg hlegacy]
  refine within_ite (keeps_answering (keeps_requireLength p 0)) ?_
  refine within_ite (keeps_answering (keeps_handleAuthInfo m)) ?_
  refine within_ite (keeps_answering (keeps_send _ _)) ?_
  refine within_ite (keeps_answering (keeps_send _ _)) ?_
  refine within_ite (keeps_answering (keeps_send _ _)) ?_
  refine within_ite (keeps_answering (keeps_send _ _)) ?_
  refine within_ite (keeps_answering (keeps_handleStartVersioning m)) ?_
  refine within_ite (keeps_answering (keeps_send _ _)) ?_
  refine within_ite (keeps_answering (keeps_send _ _)) ?_
  refine within_ite (keeps_answering (keeps_send _ _)) ?_
  refine within_ite (keeps_answering (keeps_send _ _)) ?_
  refine within_ite (keeps_answering (keeps_send _ _)) ?_
  refine within_ite (keeps_whenLoggedOn (keeps_handleEnterChat p)) ?_
  refine within_ite (keeps_lengthOnly p 4 _) ?_
  refine within_ite (keeps_whenLoggedOn (keeps_handleJoinChannel p)) ?_
  refine within_ite (keeps_whenLoggedOn (keeps_lengthOnly p 0 _)) ?_
  refine within_ite (keeps_handleChatCommand p) ?_
  refine within_ite (keeps_whenLoggedOn (keeps_lengthOnly p 0 _)) ?_
  refine within_ite (keeps_handlePingReply m p) ?_
  refine within_ite (within_bind (keeps_requireLength p 4) fun _ => within_pure _) ?_
  refine within_ite (within_ite (within_fail _) (within_pure _)) ?_
  exact within_ite (keeps_whenLoggedOn (keeps_answering (keeps_handleReadUserData p)))
    (within_pure _)

/-! ## Logging on -/

/-- What a logon begins with: the account is looked at and nobody is logged on. -/
theorem beginLogon_done (style : LogonStyle) (account : Option String) (peer : LegacyPeer) :
    ∃ begun, beginLogon style account peer = (.ok (), begun) ∧
      begun.expectedAccount = peer.expectedAccount ∧
      begun.accountAccepted = isExpected peer.expectedAccount account ∧ begun.loggedOn = false :=
  ⟨_, rfl, rfl, rfl, rfl⟩

/-- A completion succeeds for an accepted account. -/
theorem right_sendLogonSuccess {peer : LegacyPeer} (h : peer.accountAccepted = true) :
    (sendLogonSuccess peer).2.right = (peer.expectedAccount, true, true) := by
  have hright : right { peer with loggedOn := true } = (peer.expectedAccount, true, true) := by
    simp [right, h]
  unfold sendLogonSuccess
  rw [bind_of_ok (read_apply peer), if_neg (by simp [h]), bind_of_ok (change_apply _ peer)]
  cases peer.logonStyle.getD .old <;> exact (keeps_send _ _ _).trans hright

theorem keeps_sendOldLogonFailure (style : LogonStyle) :
    Within (Keeps right) (sendOldLogonFailure style) := by
  cases style with
  | legacy => exact keeps_send _ _
  | old => exact keeps_send _ _
  | new => exact within_pure _

/-- The new style: the account is accepted, and nobody is logged on. -/
theorem right_handleNewLogon (payload : List UInt8) (peer : LegacyPeer) :
    (handleNewLogon payload peer).2.right =
      (peer.expectedAccount, isExpected peer.expectedAccount (cStringAt payload 32), false) := by
  obtain ⟨begun, hbegin, hexpected, haccepted, hlogged⟩ :=
    beginLogon_done .new (cStringAt payload 32) peer
  unfold handleNewLogon
  rw [bind_of_ok hbegin, bind_of_ok (read_apply begun), keeps_send, right, hexpected, haccepted,
    hlogged]

/-- The old styles: an account that is accepted is logged on at once. -/
theorem right_handleOldLogon (payload : List UInt8) (style : LogonStyle) (peer : LegacyPeer) :
    (handleOldLogon payload style peer).2.right =
      (peer.expectedAccount, isExpected peer.expectedAccount (cStringAt payload 28),
        isExpected peer.expectedAccount (cStringAt payload 28)) := by
  obtain ⟨begun, hbegin, hexpected, haccepted, hlogged⟩ :=
    beginLogon_done style (cStringAt payload 28) peer
  unfold handleOldLogon
  rw [bind_of_ok hbegin, bind_of_ok (read_apply begun), ← haccepted, ← hexpected]
  cases hcase : begun.accountAccepted with
  | true => exact right_sendLogonSuccess hcase
  | false =>
    rw [if_neg Bool.false_ne_true, keeps_sendOldLogonFailure, right, hcase, hlogged]

theorem right_handleProof (peer : LegacyPeer) :
    (handleProof peer).2.right =
      (peer.expectedAccount, peer.accountAccepted, peer.accountAccepted || peer.loggedOn) := by
  unfold handleProof
  rw [bind_of_ok (change_apply _ peer), bind_of_ok (read_apply _)]
  by_cases hcase : peer.accountAccepted = true
  · rw [if_pos hcase]
    refine (@right_sendLogonSuccess { peer with logonStyle := some .new } hcase).trans ?_
    simp [hcase]
  · rw [if_neg hcase]
    refine (keeps_send _ _ _).trans ?_
    simp [right, hcase]

theorem right_answering (x : Peering Unit) (peer : LegacyPeer) :
    (answering x peer).2.right = (x peer).2.right :=
  view_bind (fun _ => within_pure _) peer

theorem right_handle_logon (m : Moment) (h : IsLogon p) (peer : LegacyPeer) :
    (handle m p peer).2.right = (peer.expectedAccount,
      isExpected peer.expectedAccount (accountOf p),
      isExpected peer.expectedAccount (accountOf p) && decide (p.id ≠ sidAuthAccountLogon)) := by
  have hne : sidLogonResponse2 ≠ sidAuthAccountLogon ∧ sidLogonResponse ≠ sidAuthAccountLogon := by
    decide
  unfold handle accountOf
  rcases h with h | h | h
  · simp only [h, ne_eq, not_true, decide_false, Bool.and_false]
    exact (right_answering _ peer).trans (right_handleNewLogon p.payload peer)
  · simp only [h, hne.1, ne_eq, not_false_iff, decide_true, Bool.and_true, if_false]
    exact (right_answering _ peer).trans (right_handleOldLogon p.payload .old peer)
  · simp only [h, hne.2, ne_eq, not_false_iff, decide_true, Bool.and_true, if_false]
    exact (right_answering _ peer).trans (right_handleOldLogon p.payload .legacy peer)

theorem right_handle_proof (m : Moment) (h : p.id = sidAuthAccountLogonProof) (peer : LegacyPeer) :
    (handle m p peer).2.right =
      (peer.expectedAccount, peer.accountAccepted, peer.accountAccepted || peer.loggedOn) := by
  unfold handle
  simp only [h]
  exact (right_answering _ peer).trans (right_handleProof peer)

end LegacyPeer

/-! ## What a peer knows -/

/-- The fields of a peer say of the packets so far whether the client is entitled. -/
structure Stands (expected : String) (packets : List Packet) (peer : LegacyPeer) : Prop where
  account : peer.expectedAccount = expected
  accepted : peer.accountAccepted = true ↔ Named expected packets
  loggedOn : peer.loggedOn = true ↔ Entitled expected packets

theorem stands_new (now : Nat) (expected : String) :
    Stands expected [] (LegacyPeer.new now expected) where
  account := rfl
  accepted := by simp [LegacyPeer.new, Named, not_lastOf_nil]
  loggedOn := by simp [LegacyPeer.new, Entitled, not_lastOf_nil]

theorem named_of_entitled (h : Entitled expected packets) : Named expected packets := by
  obtain ⟨before, logon, behind, hpackets, hlogon, hlike, hbehind⟩ := h
  exact ⟨before, logon, behind, hpackets, hlogon, hlike.1, hbehind⟩

/-- The same fields, the same standing. -/
theorem Stands.of_right {peer peer' : LegacyPeer} (h : Stands expected packets peer)
    (hright : peer'.right = peer.right) : Stands expected packets peer' := by
  obtain ⟨hexpected, haccepted, hlogged⟩ : peer'.expectedAccount = peer.expectedAccount ∧
      peer'.accountAccepted = peer.accountAccepted ∧ peer'.loggedOn = peer.loggedOn := by
    simpa [LegacyPeer.right] using hright
  refine ⟨hexpected.trans h.account, ?_, ?_⟩
  · rw [haccepted]
    exact h.accepted
  · rw [hlogged]
    exact h.loggedOn

/-- **What a packet does to the standing of a client**, whether its handling fails or not. -/
theorem stands_handle {peer : LegacyPeer} (h : Stands expected packets peer) (m : Moment)
    (p : Packet) : Stands expected (packets ++ [p]) (LegacyPeer.handle m p peer).2 := by
  by_cases hlogon : IsLogon p
  · have hright := LegacyPeer.right_handle_logon m hlogon peer
    rw [h.account] at hright
    obtain ⟨hexpected, haccepted, hlogged⟩ := by simpa [LegacyPeer.right] using hright
    refine ⟨hexpected, ?_, ?_⟩
    · rw [named_logon hlogon, haccepted]
      rfl
    · rw [entitled_logon hlogon, hlogged]
      simp [Names]
  · by_cases hproof : p.id = sidAuthAccountLogonProof
    · have hright := LegacyPeer.right_handle_proof m hproof peer
      rw [h.account] at hright
      obtain ⟨hexpected, haccepted, hlogged⟩ := by simpa [LegacyPeer.right] using hright
      refine ⟨hexpected, ?_, ?_⟩
      · rw [named_other hlogon, haccepted]
        exact h.accepted
      · rw [entitled_proof hlogon hproof, hlogged, Bool.or_eq_true, h.accepted, h.loggedOn]
        exact or_iff_left_of_imp named_of_entitled
    · have hsame := h.of_right (LegacyPeer.keeps_handle m hlogon hproof peer)
      refine ⟨hsame.account, ?_, ?_⟩
      · rw [named_other hlogon]
        exact hsame.accepted
      · rw [entitled_other hlogon hproof]
        exact hsame.loggedOn

end Superiority.Gateway
