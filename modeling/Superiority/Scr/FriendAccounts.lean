import Superiority.Library.Run
import Superiority.Scr.ChatState

/-!
# Friends, by account and by name

The friends of Remastered are filed under their lower-cased names. AuroraFriends speaks of accounts,
and an account that comes with another BattleTag has its old entry taken out before the new one is
put in; LegacyChat speaks of names alone.

* **`Inv`** – an entry with an account is filed where the account was last seen, and an account whose
  latest BattleTag nobody else took has its entry there.
* **`one_friend_per_account`** – a run leaves each account its one entry, and the others' alone,
  exactly when no renamed account finds the entry of another under its old name.
-/

namespace Superiority.Scr

open Std

/-! ## Entries -/

namespace ChatState

variable (s : ChatState)

theorem getElem?_keepFriend (key k : String) (entry : ChatFriend) :
    (s.keepFriend key entry).friends[k]? = if key = k then some entry else s.friends[k]? := by
  unfold keepFriend
  by_cases hkey : key = k
  · subst hkey
    by_cases hsame : s.friends[key]? = some entry
    · simp [hsame]
    · simp [hsame]
  · rw [if_neg hkey]
    split_ifs
    · exact getElem?_insert_of_ne hkey entry
    · rfl

@[simp] theorem auroraFriendKeys_keepFriend (key : String) (entry : ChatFriend) :
    (s.keepFriend key entry).auroraFriendKeys = s.auroraFriendKeys := by
  unfold keepFriend
  split_ifs <;> rfl

/-- An entry that is put where it was not moves the revision. -/
theorem friendsRevision_keepFriend {key : String} {entry : ChatFriend}
    (h : s.friends[key]? ≠ some entry) :
    (s.keepFriend key entry).friendsRevision ≠ s.friendsRevision := by
  rw [keepFriend, if_pos h]
  simp

theorem keepFriend_of_eq {key : String} {entry : ChatFriend} (h : s.friends[key]? = some entry) :
    s.keepFriend key entry = s := by
  rw [keepFriend, if_neg (not_not.2 h)]

/-- The entry an update leaves. -/
def updatedEntry (update : AuroraFriendUpdate) : ChatFriend where
  name := update.battleTag
  presence := if update.inProgram then .online else .offline
  game := none
  accountId := toU32 update.accountId

/-- An update puts one entry in, and takes the one out that stands where the account was. -/
theorem getElem?_updateFriend (update : AuroraFriendUpdate) (k : String) :
    (s.updateFriend update).friends[k]? =
      if toAsciiLowercase update.battleTag = k then some (updatedEntry update)
      else if s.auroraFriendKeys[update.accountId]? = some k then none else s.friends[k]? := by
  rw [updateFriend, getElem?_keepFriend]
  by_cases hkey : toAsciiLowercase update.battleTag = k
  · simp only [hkey, if_true]
    rfl
  simp only [hkey, if_false]
  cases hold : s.auroraFriendKeys[update.accountId]? with
  | none => simp
  | some old =>
    by_cases hsame : old = toAsciiLowercase update.battleTag
    · rw [Option.filter_some_neg (by simpa using hsame), hsame]
      simp [hkey]
    · rw [Option.filter_some_pos (by simpa using hsame)]
      by_cases holdk : old = k
      · subst holdk
        simp
      · simp [getElem?_erase_of_ne holdk, holdk]

@[simp] theorem auroraFriendKeys_updateFriend (update : AuroraFriendUpdate) :
    (s.updateFriend update).auroraFriendKeys =
      s.auroraFriendKeys.insert update.accountId (toAsciiLowercase update.battleTag) := by
  rw [updateFriend, auroraFriendKeys_keepFriend]

/-- A notice puts one entry in, with the account of the one that was there. -/
theorem getElem?_noticeFriend (entry : ChatFriend) (text k : String) :
    (s.noticeFriend entry text).friends[k]? =
      if toAsciiLowercase entry.name = k then
        some { entry with accountId := s.friends[k]?.bind (·.accountId) }
      else s.friends[k]? := by
  change (s.keepFriend _ _).friends[k]? = _
  rw [getElem?_keepFriend]
  by_cases hkey : toAsciiLowercase entry.name = k
  · simp only [hkey, if_true]
  · simp only [hkey, if_false]

@[simp] theorem auroraFriendKeys_noticeFriend (entry : ChatFriend) (text : String) :
    (s.noticeFriend entry text).auroraFriendKeys = s.auroraFriendKeys := by
  change (s.keepFriend _ _).auroraFriendKeys = _
  rw [auroraFriendKeys_keepFriend]

/-- A notice that changes the friends moves the revision. -/
theorem friendsRevision_noticeFriend {entry : ChatFriend} {text : String}
    (h : (s.noticeFriend entry text).friends ≠ s.friends) :
    (s.noticeFriend entry text).friendsRevision ≠ s.friendsRevision := by
  apply friendsRevision_keepFriend
  intro hsame
  apply h
  change (s.keepFriend _ _).friends = _
  rw [s.keepFriend_of_eq hsame]

/-- So does an update whose entry is not there yet. -/
theorem friendsRevision_updateFriend {update : AuroraFriendUpdate}
    (h : s.friends[toAsciiLowercase update.battleTag]? ≠ some (updatedEntry update)) :
    (s.updateFriend update).friendsRevision ≠ s.friendsRevision := by
  rw [updateFriend]
  apply friendsRevision_keepFriend
  dsimp only
  split
  · next old hold =>
    have hne : old ≠ toAsciiLowercase update.battleTag := by
      simpa using (Option.filter_eq_some_iff.1 hold).2
    rw [getElem?_erase_of_ne hne]
    exact h
  · exact h

end ChatState

theorem toU32_of_lt {value : UInt64} (h : value.toNat < 2 ^ 32) :
    toU32 value = some value.toUInt32 := by
  rw [toU32, if_pos h]

theorem toUInt64_of_toU32 {value : UInt64} {small : UInt32} (h : toU32 value = some small) :
    small.toUInt64 = value := by
  unfold toU32 at h
  split_ifs at h with hlt
  cases h
  apply UInt64.toNat_inj.1
  rw [UInt32.toNat_toUInt64, UInt64.toNat_toUInt32, Nat.mod_eq_of_lt hlt]

/-! ## Runs -/

/-- The chat state, and the news of accounts that came so far: the account and the lower-cased
BattleTag, oldest first. -/
structure FollowedFriends where
  chat : ChatState := {}
  updates : List (UInt64 × String) := []

/-- The account has its latest BattleTag to itself: nobody else came with it since. -/
def Stands (updates : List (UInt64 × String)) (account : UInt64) (key : String) : Prop :=
  ∃ earlier later, updates = earlier ++ (account, key) :: later ∧
    ∀ update ∈ later, update.1 ≠ account ∧ update.2 ≠ key

theorem not_stands_nil (account : UInt64) (key : String) : ¬ Stands [] account key := by
  intro ⟨earlier, later, h, _⟩
  simp at h

theorem stands_snoc {updates : List (UInt64 × String)} {b account : UInt64} {l key : String} :
    Stands (updates ++ [(b, l)]) account key ↔
      (b = account ∧ l = key) ∨ (Stands updates account key ∧ b ≠ account ∧ l ≠ key) := by
  constructor
  · intro ⟨earlier, later, h, hlater⟩
    rcases List.eq_nil_or_concat later with rfl | ⟨later, last, rfl⟩
    · obtain ⟨-, hlast⟩ := List.append_inj' h rfl
      cases hlast
      exact Or.inl ⟨rfl, rfl⟩
    · have hsplit : updates ++ [(b, l)] = (earlier ++ (account, key) :: later) ++ [last] := by
        simpa using h
      obtain ⟨hupdates, hlast⟩ := List.append_inj' hsplit rfl
      cases hlast
      have hnew := hlater (b, l) (by simp)
      exact Or.inr ⟨⟨earlier, later, hupdates, fun update hmem => hlater update (by simp [hmem])⟩,
        hnew⟩
  · rintro (⟨rfl, rfl⟩ | ⟨⟨earlier, later, rfl, hlater⟩, hb, hl⟩)
    · exact ⟨updates, [], rfl, by simp⟩
    · refine ⟨earlier, later ++ [(b, l)], by simp, ?_⟩
      intro update hmem
      rcases List.mem_append.1 hmem with hmem | hmem
      · exact hlater update hmem
      · obtain rfl := List.mem_singleton.1 hmem
        exact ⟨hb, hl⟩

/-- The news of an account in a callback. -/
def newsOf : Callback → List (UInt64 × String)
  | .update update => [(update.accountId, toAsciiLowercase update.battleTag)]
  | _ => []

namespace FollowedFriends

def step (s : FollowedFriends) (frame : Frame) : FollowedFriends where
  chat := (s.chat.apply frame).2
  updates := s.updates ++ newsOf (callbackOf frame)

/-- The accounts are numbered up to `u32::MAX`. -/
def Admits (_ : FollowedFriends) (frame : Frame) : Prop :=
  ∀ update ∈ newsOf (callbackOf frame), update.1.toNat < 2 ^ 32

instance (s : FollowedFriends) (frame : Frame) : Decidable (s.Admits frame) :=
  inferInstanceAs (Decidable (∀ update ∈ newsOf (callbackOf frame), update.1.toNat < 2 ^ 32))

/-- Each account that has its latest BattleTag to itself has one entry, and there. -/
def OnePerAccount (s : FollowedFriends) : Prop :=
  ∀ account key, Stands s.updates account key → ∀ k,
    (∃ entry, s.chat.friends[k]? = some entry ∧ entry.accountId = some account.toUInt32) ↔ k = key

/-- What a frame is to leave as it is, and what it is to say. -/
structure Keeps (s : FollowedFriends) (frame : Frame) : Prop where
  one : (s.step frame).OnePerAccount
  /-- News of an account leaves the entries of the others, but for one under its own BattleTag. -/
  others : ∀ update ∈ newsOf (callbackOf frame),
    ∀ (key : String) (entry : ChatFriend) (id : UInt32), key ≠ update.2 →
      s.chat.friends[key]? = some entry → entry.accountId = some id → id.toUInt64 ≠ update.1 →
        (s.step frame).chat.friends[key]? = some entry
  counts : (s.step frame).chat.friends ≠ s.chat.friends →
    (s.step frame).chat.friendsRevision ≠ s.chat.friendsRevision

/-- An account that comes with a new BattleTag finds under its old one no entry of another. -/
def RenamesOwn (s : FollowedFriends) (frame : Frame) : Prop :=
  ∀ update ∈ newsOf (callbackOf frame), ∀ old ∈ s.chat.auroraFriendKeys[update.1]?,
    old ≠ update.2 → ∀ entry ∈ s.chat.friends[old]?,
      entry.accountId = none ∨ entry.accountId = toU32 update.1

instance (s : FollowedFriends) (frame : Frame) : Decidable (s.RenamesOwn frame) :=
  inferInstanceAs (Decidable (∀ update ∈ newsOf (callbackOf frame),
    ∀ old ∈ s.chat.auroraFriendKeys[update.1]?, old ≠ update.2 →
      ∀ entry ∈ s.chat.friends[old]?,
        entry.accountId = none ∨ entry.accountId = toU32 update.1))

/-- How the two indexes stand to each other, and to what was said. -/
structure Inv (s : FollowedFriends) : Prop where
  filed : ∀ (key : String) (entry : ChatFriend) (id : UInt32), s.chat.friends[key]? = some entry →
    entry.accountId = some id → s.chat.auroraFriendKeys[id.toUInt64]? = some key
  known : ∀ account key, Stands s.updates account key →
    account.toNat < 2 ^ 32 ∧ s.chat.auroraFriendKeys[account]? = some key ∧
      ∃ entry, s.chat.friends[key]? = some entry ∧ entry.accountId = some account.toUInt32

theorem inv_initial : Inv {} where
  filed key entry id h := by simp at h
  known account key h := absurd h (not_stands_nil account key)

theorem toUInt64_toUInt32 {account : UInt64} (h : account.toNat < 2 ^ 32) :
    account.toUInt32.toUInt64 = account :=
  toUInt64_of_toU32 (toU32_of_lt h)

theorem Inv.onePerAccount {s : FollowedFriends} (h : Inv s) : s.OnePerAccount := by
  intro account key hstands k
  obtain ⟨hsmall, hknown, hentry⟩ := h.known account key hstands
  constructor
  · intro ⟨entry, hk, hid⟩
    have hfiled := h.filed k entry _ hk hid
    rw [toUInt64_toUInt32 hsmall, hknown] at hfiled
    exact (Option.some.inj hfiled).symm
  · rintro rfl
    exact hentry

/-- A frame without a word about friends. -/
theorem Inv.congr {s s' : FollowedFriends} (h : Inv s)
    (hfriends : s'.chat.friends = s.chat.friends)
    (hkeys : s'.chat.auroraFriendKeys = s.chat.auroraFriendKeys)
    (hupdates : s'.updates = s.updates) : Inv s' where
  filed := by
    rw [hfriends, hkeys]
    exact h.filed
  known := by
    rw [hfriends, hkeys, hupdates]
    exact h.known

/-- A notice leaves the accounts where they are. -/
theorem Inv.notice {s : FollowedFriends} (h : Inv s) (entry : ChatFriend) (text : String) :
    Inv { s with chat := s.chat.noticeFriend entry text } where
  filed key found id hfound hid := by
    rw [ChatState.getElem?_noticeFriend] at hfound
    rw [ChatState.auroraFriendKeys_noticeFriend]
    by_cases hkey : toAsciiLowercase entry.name = key
    · rw [if_pos hkey] at hfound
      cases hfound
      obtain ⟨old, hold, hid⟩ := Option.bind_eq_some_iff.1 hid
      exact h.filed key old id hold hid
    · rw [if_neg hkey] at hfound
      exact h.filed key found id hfound hid
  known account key hstands := by
    obtain ⟨hsmall, hknown, old, hold, hid⟩ := h.known account key hstands
    rw [ChatState.auroraFriendKeys_noticeFriend, ChatState.getElem?_noticeFriend]
    refine ⟨hsmall, hknown, ?_⟩
    by_cases hkey : toAsciiLowercase entry.name = key
    · rw [if_pos hkey, hold]
      exact ⟨_, rfl, hid⟩
    · rw [if_neg hkey]
      exact ⟨old, hold, hid⟩

/-- The state after news of an account. -/
def told (s : FollowedFriends) (update : AuroraFriendUpdate) : FollowedFriends where
  chat := s.chat.updateFriend update
  updates := s.updates ++ [(update.accountId, toAsciiLowercase update.battleTag)]

/-- An entry with an account that is left where it was is not the renamed account's own. -/
theorem Inv.filed_told {s : FollowedFriends} (h : Inv s) {update : AuroraFriendUpdate}
    {key : String} {entry : ChatFriend} {id : UInt32}
    (hentry : (s.told update).chat.friends[key]? = some entry) (hid : entry.accountId = some id) :
    (s.told update).chat.auroraFriendKeys[id.toUInt64]? = some key := by
  change (s.chat.updateFriend update).friends[key]? = some entry at hentry
  change (s.chat.updateFriend update).auroraFriendKeys[id.toUInt64]? = some key
  rw [ChatState.getElem?_updateFriend] at hentry
  rw [ChatState.auroraFriendKeys_updateFriend]
  by_cases hkey : toAsciiLowercase update.battleTag = key
  · rw [if_pos hkey] at hentry
    cases hentry
    rw [toUInt64_of_toU32 hid, ExtTreeMap.getElem?_insert_self, hkey]
  rw [if_neg hkey] at hentry
  by_cases hold : s.chat.auroraFriendKeys[update.accountId]? = some key
  · rw [if_pos hold] at hentry
    cases hentry
  rw [if_neg hold] at hentry
  have hfiled := h.filed key entry id hentry hid
  have hne : update.accountId ≠ id.toUInt64 := by
    intro hsame
    rw [hsame] at hold
    exact hold hfiled
  rwa [getElem?_insert_of_ne hne]

/-- News of an account leaves the entries of the others, when what it takes out is its own. -/
theorem getElem?_told {s : FollowedFriends} {update : AuroraFriendUpdate}
    (hown : ∀ old ∈ s.chat.auroraFriendKeys[update.accountId]?,
      old ≠ toAsciiLowercase update.battleTag → ∀ entry ∈ s.chat.friends[old]?,
        entry.accountId = none ∨ entry.accountId = toU32 update.accountId)
    {key : String} {entry : ChatFriend} {id : UInt32}
    (hkey : key ≠ toAsciiLowercase update.battleTag) (hentry : s.chat.friends[key]? = some entry)
    (hid : entry.accountId = some id) (hne : id.toUInt64 ≠ update.accountId) :
    (s.told update).chat.friends[key]? = some entry := by
  change (s.chat.updateFriend update).friends[key]? = some entry
  rw [ChatState.getElem?_updateFriend, if_neg (Ne.symm hkey)]
  by_cases hold : s.chat.auroraFriendKeys[update.accountId]? = some key
  · rcases hown key hold hkey entry hentry with hnone | hsame
    · rw [hid] at hnone
      cases hnone
    · rw [hid] at hsame
      exact absurd (toUInt64_of_toU32 hsame.symm) hne
  · rw [if_neg hold, hentry]

/-- News of an account keeps the invariant, when what it takes out is its own. -/
theorem Inv.told {s : FollowedFriends} (h : Inv s) {update : AuroraFriendUpdate}
    (hsmall : update.accountId.toNat < 2 ^ 32)
    (hown : ∀ old ∈ s.chat.auroraFriendKeys[update.accountId]?,
      old ≠ toAsciiLowercase update.battleTag → ∀ entry ∈ s.chat.friends[old]?,
        entry.accountId = none ∨ entry.accountId = toU32 update.accountId) :
    Inv (s.told update) where
  filed key entry id hentry hid := h.filed_told hentry hid
  known account key hstands := by
    rcases stands_snoc.1 hstands with ⟨rfl, rfl⟩ | ⟨hstands, haccount, hkey⟩
    · refine ⟨hsmall, ?_, ChatState.updatedEntry update, ?_, toU32_of_lt hsmall⟩
      · change (s.chat.updateFriend update).auroraFriendKeys[update.accountId]? = _
        rw [ChatState.auroraFriendKeys_updateFriend, ExtTreeMap.getElem?_insert_self]
      · change (s.chat.updateFriend update).friends[_]? = _
        rw [ChatState.getElem?_updateFriend, if_pos rfl]
    · obtain ⟨hlt, hknown, entry, hentry, hid⟩ := h.known account key hstands
      refine ⟨hlt, ?_, entry, ?_, hid⟩
      · change (s.chat.updateFriend update).auroraFriendKeys[account]? = _
        rw [ChatState.auroraFriendKeys_updateFriend, getElem?_insert_of_ne haccount]
        exact hknown
      · apply getElem?_told hown (Ne.symm hkey) hentry hid
        rw [toUInt64_toUInt32 hlt]
        exact Ne.symm haccount

/-- News that changes the friends moves the revision. -/
theorem Inv.counts_told {s : FollowedFriends} (h : Inv s) {update : AuroraFriendUpdate}
    (hsmall : update.accountId.toNat < 2 ^ 32)
    (hchanged : (s.chat.updateFriend update).friends ≠ s.chat.friends) :
    (s.chat.updateFriend update).friendsRevision ≠ s.chat.friendsRevision := by
  apply ChatState.friendsRevision_updateFriend
  intro hsame
  apply hchanged
  -- the entry is the account's own, so there is no other place to take one out of
  have hid : (ChatState.updatedEntry update).accountId = some update.accountId.toUInt32 :=
    toU32_of_lt hsmall
  have hfiled := h.filed _ _ _ hsame hid
  rw [toUInt64_toUInt32 hsmall] at hfiled
  apply ExtTreeMap.ext_getElem?
  intro k
  rw [ChatState.getElem?_updateFriend]
  by_cases hkey : toAsciiLowercase update.battleTag = k
  · rw [if_pos hkey, ← hkey, hsame]
  · rw [if_neg hkey, if_neg]
    rw [hfiled]
    intro hk
    exact hkey (Option.some.inj hk)

theorem step_update {s : FollowedFriends} {frame : Frame} {update : AuroraFriendUpdate}
    (h : callbackOf frame = .update update) : s.step frame = s.told update := by
  rw [step, ChatState.apply_state, h]
  rfl

theorem Inv.step {s : FollowedFriends} (h : Inv s) {frame : Frame} (hadmits : s.Admits frame)
    (hown : s.RenamesOwn frame) : Inv (s.step frame) := by
  cases hcallback : callbackOf frame with
  | update update =>
    rw [step_update hcallback]
    have hmem : (update.accountId, toAsciiLowercase update.battleTag) ∈
        newsOf (callbackOf frame) := by simp [hcallback, newsOf]
    exact h.told (hadmits _ hmem) (hown _ hmem)
  | notice entry text =>
    have hstep : s.step frame = { s with chat := s.chat.noticeFriend entry text } := by
      simp [FollowedFriends.step, hcallback, newsOf, ChatState.perform]
    rw [hstep]
    exact h.notice entry text
  | _ =>
    apply h.congr <;>
      simp [FollowedFriends.step, hcallback, newsOf, ChatState.perform, ChatState.pushWhisper,
        ChatState.pushEvent, ChatState.updateChannels, ChatState.adoptChannel]

/-- Whatever the frame, the revision tells a change. -/
theorem Inv.counts {s : FollowedFriends} (h : Inv s) {frame : Frame} (hadmits : s.Admits frame)
    (hchanged : (s.step frame).chat.friends ≠ s.chat.friends) :
    (s.step frame).chat.friendsRevision ≠ s.chat.friendsRevision := by
  simp only [FollowedFriends.step, ChatState.apply_state] at hchanged ⊢
  cases hcallback : callbackOf frame with
  | update update =>
    rw [hcallback] at hchanged
    have hmem : (update.accountId, toAsciiLowercase update.battleTag) ∈
        newsOf (callbackOf frame) := by simp [hcallback, newsOf]
    exact h.counts_told (hadmits _ hmem) hchanged
  | notice entry text =>
    rw [hcallback] at hchanged
    exact s.chat.friendsRevision_noticeFriend hchanged
  | _ =>
    rw [hcallback] at hchanged
    exact absurd rfl hchanged

/-- A frame keeps what it is to keep exactly when it takes no entry of another. -/
theorem Inv.keeps_iff {s : FollowedFriends} (h : Inv s) {frame : Frame}
    (hadmits : s.Admits frame) : s.Keeps frame ↔ s.RenamesOwn frame := by
  constructor
  · intro hkeeps news hnews old hold hne entry hentry
    by_contra hother
    obtain ⟨hsome, hother⟩ := not_or.1 hother
    obtain ⟨id, hid⟩ := Option.ne_none_iff_exists'.1 hsome
    have hid' : id.toUInt64 ≠ news.1 := by
      intro hsame
      apply hother
      rw [hid, toU32_of_lt (hadmits news hnews), ← hsame]
      simp
    have hkept := hkeeps.others news hnews old entry id hne hentry hid hid'
    cases hcallback : callbackOf frame with
    | update update =>
      rw [hcallback] at hnews
      obtain rfl := List.mem_singleton.1 hnews
      rw [step_update hcallback] at hkept
      change (s.chat.updateFriend update).friends[old]? = some entry at hkept
      rw [ChatState.getElem?_updateFriend, if_neg (Ne.symm hne)] at hkept
      have hold : s.chat.auroraFriendKeys[update.accountId]? = some old := hold
      rw [if_pos hold] at hkept
      cases hkept
    | _ =>
      rw [hcallback] at hnews
      cases hnews
  · intro hown
    refine ⟨(h.step hadmits hown).onePerAccount, ?_, h.counts hadmits⟩
    intro news hnews key entry id hkey hentry hid hne
    cases hcallback : callbackOf frame with
    | update update =>
      have hown := hown news hnews
      rw [hcallback] at hnews
      obtain rfl := List.mem_singleton.1 hnews
      rw [step_update hcallback]
      exact getElem?_told hown hkey hentry hid hne
    | _ =>
      rw [hcallback] at hnews
      cases hnews

/-- **One entry for each account.** A run from the start keeps every account's one entry, and tells
each change, exactly when no account that is renamed finds the entry of another in its old place. -/
theorem one_friend_per_account (frames : List Frame) (hadmits : StepsMeet step Admits {} frames) :
    StepsMeet step Keeps {} frames ↔ StepsMeet step RenamesOwn {} frames :=
  stepsMeet_congr (fun _ _ h hadmits => h.keeps_iff hadmits)
    (fun _ _ h hadmits hown => h.step hadmits hown) inv_initial hadmits

/-- News of an account of the roster, under a tag of one letter. -/
def friendFrame (account letter : UInt8) : Frame where
  header := { serviceId := Service.auroraFriends, methodId := Method.friendUpdated }
  body := [0x0A, 5, 0x08, account, 0x12, 1, letter, 0x10, 0]

/-- An account is renamed, and another takes the old name. -/
theorem one_friend_per_account_renamed :
    StepsMeet step Keeps {} [friendFrame 1 'A'.toUInt8, friendFrame 1 'B'.toUInt8,
      friendFrame 2 'A'.toUInt8] :=
  (one_friend_per_account _ (by decide +kernel)).2 (by decide +kernel)

/-- Two accounts swap their names, and the first is left without an entry. -/
theorem not_one_friend_per_account :
    ¬ ∀ frames : List Frame, StepsMeet step Admits {} frames → StepsMeet step Keeps {} frames := by
  intro h
  let frames := [friendFrame 1 'A'.toUInt8, friendFrame 2 'B'.toUInt8, friendFrame 1 'B'.toUInt8,
    friendFrame 2 'A'.toUInt8]
  obtain ⟨-, -, -, hlast, -⟩ := h frames (by decide +kernel)
  have hstands : Stands (run step {} frames).updates 1 "b" :=
    ⟨[(1, "a"), (2, "b")], [(2, "a")], by decide +kernel, by decide⟩
  have hnone : (run step {} frames).chat.friends["b"]? = none := by decide +kernel
  obtain ⟨entry, hentry, -⟩ := (hlast.one 1 "b" hstands "b").2 rfl
  have hentry : (run step {} frames).chat.friends["b"]? = some entry := hentry
  rw [hnone] at hentry
  cases hentry

end FollowedFriends

end Superiority.Scr
